import MicroXrceDds.Library.Prog
import MicroXrceDds.Library.Buffer
import MicroXrceDds.Protocol
import MicroXrceDds.Target

/-!
# The XRCE message encoders

`MsgWriter` of `session.rs` and the functions that lay out a message with it. The
writer records an overflow in a flag and lets its position run past the end; a
block write that starts past the end panics.
-/
namespace MicroXrceDds

open Prog LittleEndian

/-- The four bytes of a client key. -/
structure ClientKey where
  k0 : UInt8
  k1 : UInt8
  k2 : UInt8
  k3 : UInt8
  deriving DecidableEq, Repr

def ClientKey.bytes (key : ClientKey) : Bytes := [key.k0, key.k1, key.k2, key.k3]

def msgHeaderLen (sessionId : UInt8) : Nat :=
  if sessionId < sessionIdWithoutClientKey then 8 else 4

structure MsgWriter (n : Nat) where
  buf : Buffer UInt8 n
  pos : Nat
  flag : Bool
  deriving DecidableEq, Repr

abbrev WriteMsg (n : Nat) (α : Type) := Prog Error (MsgWriter n) α

namespace MsgWriter

variable {n : Nat}

def new (buf : Buffer UInt8 n) : MsgWriter n := ⟨buf, 0, false⟩

def overflow (b : MsgWriter n) : Bool := b.flag || n < b.pos

def pushOne (v : UInt8) (b : MsgWriter n) : MsgWriter n :=
  if b.pos < n then { b with buf := b.buf.overwrite b.pos [v], pos := b.pos + 1 }
  else { b with flag := true, pos := b.pos + 1 }

def pushZeros : Nat → MsgWriter n → MsgWriter n
  | 0, b => b
  | k + 1, b => pushZeros k (b.pushOne 0)

def u8 (v : UInt8) : WriteMsg n Unit := modify (pushOne v)

def bytes (data : Bytes) : WriteMsg n Unit where
  run b :=
    let space := n - b.pos
    let flag := b.flag || space < data.length
    let k := min data.length space
    -- As in `CdrWriter.raw`, the slice panics once the position is past the end.
    if b.pos + k ≤ n then
      (.ok (), ⟨b.buf.overwrite b.pos (data.take k), b.pos + data.length, flag⟩)
    else (.panic, { b with flag := flag })

def u16Raw (v : UInt16) : WriteMsg n Unit := bytes (u16LeBytes v)

def getPos : WriteMsg n Nat := do
  let b ← get
  pure b.pos

def alignBuf (k : Nat) : WriteMsg n Unit := modify fun b =>
  let rem := b.pos % k
  if rem ≠ 0 then pushZeros (k - rem) b else b

variable [Target]

def cdrAlign (origin k : Nat) : WriteMsg n Unit := do
  let b ← get
  let offset ← usizeSub b.pos origin
  let rem := offset % k
  if rem ≠ 0 then modify (pushZeros (k - rem)) else pure ()

def cdrU16 (v : UInt16) (origin : Nat) : WriteMsg n Unit := do
  cdrAlign origin 2
  bytes (u16LeBytes v)

def cdrI16 (v : Int16) (origin : Nat) : WriteMsg n Unit := do
  cdrAlign origin 2
  bytes (u16LeBytes v.toUInt16)

def cdrU32 (v : Nat) (origin : Nat) : WriteMsg n Unit := do
  cdrAlign origin 4
  bytes (leBytes 4 v)

def cdrString (s : Bytes) (origin : Nat) : WriteMsg n Unit := do
  let lenWithNull ← addIn 32 (s.length % 2 ^ 32) 1
  cdrU32 lenWithNull origin
  bytes s
  u8 0
  let b ← get
  if b.overflow then throw .bufferTooSmall else pure ()

def patchU16At (offset : Nat) (value : UInt16) : WriteMsg n Unit := modify fun b =>
  if offset + 2 ≤ n then { b with buf := b.buf.overwrite offset (u16LeBytes value) }
  else { b with flag := true }

end MsgWriter

open MsgWriter

variable {n : Nat}

def writeSessionHeader (sessionId streamId : UInt8) (seq : UInt16) (clientKey : ClientKey) :
    WriteMsg n Unit := do
  u8 sessionId
  u8 streamId
  u16Raw seq
  if sessionId < sessionIdWithoutClientKey then bytes clientKey.bytes else pure ()

variable [Target]

def buildCreateClient (sessionId : UInt8) (clientKey : ClientKey) (mtu : UInt16) :
    WriteMsg n Nat := do
  let maskedSid := sessionId &&& sessionIdWithoutClientKey
  u8 maskedSid
  u8 streamNone
  u16Raw 0
  (if maskedSid < sessionIdWithoutClientKey then bytes clientKey.bytes else pure ())
  alignBuf 4
  let hdrOff ← getPos
  u8 submsgCreateClient
  u8 flagLe
  u16Raw 0
  let payloadOrigin ← getPos
  bytes xrceCookie
  bytes xrceVersion
  bytes vendorIdEprosima
  bytes clientKey.bytes
  u8 sessionId
  u8 0
  cdrU16 mtu payloadOrigin
  let stop ← getPos
  let payloadLen ← usizeSub stop payloadOrigin
  patchU16At (hdrOff + 2) (UInt16.ofNat payloadLen)
  getPos

/-- The common end of the request encoders: patch the length, test for overflow. -/
def finishRequest (hdrOff origin : Nat) : WriteMsg n Nat := do
  let stop ← getPos
  let payloadLen ← usizeSub stop origin
  patchU16At (hdrOff + 2) (UInt16.ofNat payloadLen)
  let b ← get
  if b.overflow then throw .bufferTooSmall else getPos

def encodeCreateParticipant (sessionId : UInt8) (seq : UInt16) (clientKey : ClientKey)
    (reqId objId : UInt16) (xml : Bytes) (domainId : Int16) : WriteMsg n Nat := do
  writeSessionHeader sessionId streamBestEffort seq clientKey
  alignBuf 4
  let hdrOff ← getPos
  u8 submsgCreate
  u8 flagsCreate
  u16Raw 0
  let origin ← getPos
  bytes (requestIdBeBytes reqId)
  bytes (objectIdBeBytes objId)
  u8 entityParticipant
  u8 reprAsXml
  cdrString xml origin
  cdrI16 domainId origin
  finishRequest hdrOff origin

def encodeCreateWithParent (sessionId : UInt8) (seq : UInt16) (clientKey : ClientKey)
    (reqId objId : UInt16) (objKind : UInt8) (xml : Bytes) (parentObjId : UInt16) :
    WriteMsg n Nat := do
  writeSessionHeader sessionId streamBestEffort seq clientKey
  alignBuf 4
  let hdrOff ← getPos
  u8 submsgCreate
  u8 flagsCreate
  u16Raw 0
  let origin ← getPos
  bytes (requestIdBeBytes reqId)
  bytes (objectIdBeBytes objId)
  u8 objKind
  u8 reprAsXml
  cdrString xml origin
  bytes (objectIdBeBytes parentObjId)
  finishRequest hdrOff origin

def encodeReadData (sessionId : UInt8) (seq : UInt16) (clientKey : ClientKey)
    (reqId drOid : UInt16) : WriteMsg n Nat := do
  writeSessionHeader sessionId streamBestEffort seq clientKey
  alignBuf 4
  let hdrOff ← getPos
  u8 submsgReadData
  u8 flagLe
  u16Raw 0
  let origin ← getPos
  bytes (requestIdBeBytes reqId)
  bytes (objectIdBeBytes drOid)
  u8 streamBestEffort
  u8 formatData
  u8 0
  u8 0
  finishRequest hdrOff origin

/-- `total` is the length of the buffer, which holds exactly the message. -/
def finalizeWriteDataHeaders (sessionId : UInt8) (seq : UInt16) (clientKey : ClientKey)
    (dwOid : UInt16) : WriteMsg n Unit := do
  let total := n
  writeSessionHeader sessionId streamBestEffort seq clientKey
  let hdrOff ← getPos
  u8 submsgWriteData
  u8 (flagLe ||| formatData)
  let afterHdr ← usizeSub total hdrOff
  let payloadLen ← usizeSub afterHdr 4
  u16Raw (UInt16.ofNat payloadLen)
  bytes (requestIdBeBytes 0)
  bytes (objectIdBeBytes dwOid)

end MicroXrceDds
