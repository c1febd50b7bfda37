import MicroXrceDds.Library.LittleEndian

/-!
# XRCE-DDS constants and identifiers

The wire constants of `protocol.rs`, the error type, and the packed object ids.
-/
namespace MicroXrceDds

open LittleEndian

abbrev Bytes := List UInt8

/-- The bytes of an ASCII literal of the source. -/
def ascii (s : String) : Bytes := s.toList.map fun c => UInt8.ofNat c.toNat

inductive Error where
  | io
  | disconnected
  | bufferTooSmall
  | agentRejected : UInt8 → Error
  | unexpectedReply
  | statusReqMismatch
  | deserialization
  | subscriptionOverflow
  | tooManySubscriptions
  deriving DecidableEq, Repr

def submsgCreateClient : UInt8 := 0
def submsgCreate : UInt8 := 1
def submsgStatusAgent : UInt8 := 4
def submsgStatus : UInt8 := 5
def submsgWriteData : UInt8 := 7
def submsgReadData : UInt8 := 8
def submsgData : UInt8 := 9

def flagLe : UInt8 := 0x01
def flagReuse : UInt8 := 0x02
def flagReplace : UInt8 := 0x04
/-- Idempotent CREATE: reuse if it exists, replace if mismatched. -/
def flagsCreate : UInt8 := flagLe ||| flagReuse ||| flagReplace
def formatData : UInt8 := 0x00

/-- Session ids below this carry the 4-byte client key in the message header. -/
def sessionIdWithoutClientKey : UInt8 := 0x80

def streamNone : UInt8 := 0x00
def streamBestEffort : UInt8 := 0x01

def entityParticipant : UInt8 := 0x01
def entityTopic : UInt8 := 0x02
def entityPublisher : UInt8 := 0x03
def entitySubscriber : UInt8 := 0x04
def entityDatawriter : UInt8 := 0x05
def entityDatareader : UInt8 := 0x06

def reprAsXml : UInt8 := 0x02

def statusOk : UInt8 := 0x00
def statusOkMatched : UInt8 := 0x01

def xrceCookie : Bytes := [0x58, 0x52, 0x43, 0x45]
def xrceVersion : Bytes := [0x01, 0x00]
def vendorIdEprosima : Bytes := [0x01, 0x0F]

/-- The kinds of entity a session numbers, each with its own index counter. -/
inductive EntityKind where
  | participant | topic | publisher | subscriber | datawriter | datareader
  deriving DecidableEq, Repr

def EntityKind.code : EntityKind → UInt8
  | .participant => entityParticipant
  | .topic => entityTopic
  | .publisher => entityPublisher
  | .subscriber => entitySubscriber
  | .datawriter => entityDatawriter
  | .datareader => entityDatareader

/-- `(idx << 4) | kind`; the shift drops the top four bits of the index. -/
def objectId (idx : UInt16) (kind : UInt8) : UInt16 :=
  (idx <<< 4) ||| (kind.toUInt16 &&& 0x0F)

def objectIdBeBytes (packed : UInt16) : Bytes := [(packed >>> 8).toUInt8, packed.toUInt8]

def requestIdBeBytes (req : UInt16) : Bytes := [(req >>> 8).toUInt8, req.toUInt8]

/-- `u16::from_be_bytes([a, b])`. -/
def u16FromBe (a b : UInt8) : UInt16 := UInt16.ofNat (a.toNat * 256 + b.toNat)

/-- `u16::from_le_bytes([a, b])`. -/
def u16FromLe (a b : UInt8) : UInt16 := UInt16.ofNat (leNat [a, b])

/-- `u16::to_le_bytes`. -/
def u16LeBytes (v : UInt16) : Bytes := leBytes 2 v.toNat

@[simp] theorem length_objectIdBeBytes (p : UInt16) : (objectIdBeBytes p).length = 2 := rfl
@[simp] theorem length_requestIdBeBytes (p : UInt16) : (requestIdBeBytes p).length = 2 := rfl
@[simp] theorem length_u16LeBytes (v : UInt16) : (u16LeBytes v).length = 2 := length_leBytes 2 _

theorem u16LeBytes_eq (v : UInt16) :
    u16LeBytes v = [UInt8.ofNat v.toNat, UInt8.ofNat (v.toNat / 256)] := by
  simp only [u16LeBytes, leBytes]

/-- Big-endian ids read back as written. -/
theorem u16FromBe_bytes (p : UInt16) : u16FromBe (p >>> 8).toUInt8 p.toUInt8 = p := by
  apply UInt16.toNat_inj.mp
  have hp := p.toNat_lt
  simp only [u16FromBe, UInt16.toNat_ofNat', UInt16.toNat_toUInt8, UInt16.toNat_shiftRight,
    Nat.shiftRight_eq_div_pow]
  have h8 : UInt16.toNat 8 % 16 = 8 := rfl
  rw [h8]
  omega

theorem u16FromLe_bytes (v : UInt16) :
    u16FromLe (UInt8.ofNat v.toNat) (UInt8.ofNat (v.toNat / 256)) = v := by
  apply UInt16.toNat_inj.mp
  have hv := v.toNat_lt
  simp only [u16FromLe, leNat_cons, leNat_nil, UInt16.toNat_ofNat', UInt8.toNat_ofNat']
  omega

/-- The packed id as a number: twelve index bits above four kind bits. -/
theorem toNat_objectId (idx : UInt16) (kind : UInt8) :
    (objectId idx kind).toNat = idx.toNat % 4096 * 16 + kind.toNat % 16 := by
  have hi : (idx <<< 4).toNat = idx.toNat % 4096 * 2 ^ 4 := by
    rw [UInt16.toNat_shiftLeft, Nat.shiftLeft_eq]
    have h4 : UInt16.toNat 4 % 16 = 4 := rfl
    rw [h4]
    omega
  have hk : (kind.toUInt16 &&& 0x0F).toNat = kind.toNat % 16 := by
    rw [UInt16.toNat_and, UInt8.toNat_toUInt16]
    exact Nat.and_two_pow_sub_one_eq_mod kind.toNat 4
  have hlt : kind.toNat % 16 < 2 ^ 4 := Nat.mod_lt _ (by decide)
  rw [objectId, UInt16.toNat_or, hi, hk, Nat.mul_comm, ← Nat.two_pow_add_eq_or_of_lt hlt]
  omega

/-- Two packed ids of one kind agree exactly when the indices agree in their low
twelve bits. -/
theorem objectId_inj {i j : UInt16} {kind : UInt8} :
    objectId i kind = objectId j kind ↔ i.toNat % 4096 = j.toNat % 4096 := by
  rw [← UInt16.toNat_inj, toNat_objectId, toNat_objectId]
  omega

/-- The kind of an entity can be read from its packed id. -/
theorem objectId_kind {i j : UInt16} {k l : EntityKind}
    (h : objectId i k.code = objectId j l.code) : k = l := by
  rw [← UInt16.toNat_inj, toNat_objectId, toNat_objectId] at h
  have hm : k.code.toNat % 16 = l.code.toNat % 16 := by omega
  cases k <;> cases l <;> first | rfl | exact absurd hm (by decide)

end MicroXrceDds
