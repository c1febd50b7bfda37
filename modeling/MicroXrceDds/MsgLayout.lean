import MicroXrceDds.MsgWriter
import MicroXrceDds.CdrLayout

/-!
# The messages the encoders lay out

The bytes of each message as plain concatenations, and one theorem for each encoder: how it
ends in a buffer of any size, and that it writes exactly these bytes where they fit.
-/
namespace MicroXrceDds

open Prog LittleEndian

variable {n : Nat}

def sessionHeader (sessionId streamId : UInt8) (seq : UInt16) (key : ClientKey) : Bytes :=
  [sessionId, streamId] ++ u16LeBytes seq ++
    if sessionId < sessionIdWithoutClientKey then key.bytes else []

def submessage (id flags : UInt8) (payload : Bytes) : Bytes :=
  [id, flags] ++ u16LeBytes (UInt16.ofNat payload.length) ++ payload

def cdrText (s : Bytes) : Bytes := leBytes 4 (s.length + 1) ++ s ++ [0x00]

/-- The part that every CREATE payload starts with, up to the end of the XML. The two
zeros align the string length. -/
def createStart (reqId objId : UInt16) (kind : UInt8) (xml : Bytes) : Bytes :=
  requestIdBeBytes reqId ++ objectIdBeBytes objId ++ [kind, reprAsXml] ++ [0, 0] ++ cdrText xml

def participantPayload (reqId objId : UInt16) (xml : Bytes) (domainId : Int16) : Bytes :=
  padTo 2 (createStart reqId objId entityParticipant xml) ++ u16LeBytes domainId.toUInt16

def childPayload (reqId objId : UInt16) (kind : UInt8) (xml : Bytes) (parent : UInt16) : Bytes :=
  createStart reqId objId kind xml ++ objectIdBeBytes parent

def readDataPayload (reqId drOid : UInt16) : Bytes :=
  requestIdBeBytes reqId ++ objectIdBeBytes drOid ++ [streamBestEffort, formatData, 0, 0]

def writeDataPayload (dwOid : UInt16) (body : Bytes) : Bytes :=
  requestIdBeBytes 0 ++ objectIdBeBytes dwOid ++ body

def createClientPayload (sessionId : UInt8) (key : ClientKey) (mtu : UInt16) : Bytes :=
  xrceCookie ++ xrceVersion ++ vendorIdEprosima ++ key.bytes ++ [sessionId, 0] ++ u16LeBytes mtu

/-- A best-effort message of an established session. -/
def message (sessionId : UInt8) (seq : UInt16) (key : ClientKey) (id flags : UInt8)
    (payload : Bytes) : Bytes :=
  sessionHeader sessionId streamBestEffort seq key ++ submessage id flags payload

def createClientMessage (sessionId : UInt8) (key : ClientKey) (mtu : UInt16) : Bytes :=
  sessionHeader (sessionId &&& sessionIdWithoutClientKey) streamNone 0 key ++
    submessage submsgCreateClient flagLe (createClientPayload sessionId key mtu)

theorem length_sessionHeader (sessionId streamId : UInt8) (seq : UInt16) (key : ClientKey) :
    (sessionHeader sessionId streamId seq key).length = msgHeaderLen sessionId := by
  simp only [sessionHeader, msgHeaderLen, List.length_append, length_u16LeBytes]
  split <;> simp [ClientKey.bytes]

theorem msgHeaderLen_cases (sessionId : UInt8) :
    msgHeaderLen sessionId = 8 ∨ msgHeaderLen sessionId = 4 := by
  unfold msgHeaderLen
  split
  · exact .inl rfl
  · exact .inr rfl

theorem length_submessage (id flags : UInt8) (payload : Bytes) :
    (submessage id flags payload).length = 4 + payload.length := by
  simp only [submessage, List.length_append, length_u16LeBytes, List.length_cons, List.length_nil]

theorem length_message (sessionId : UInt8) (seq : UInt16) (key : ClientKey) (id flags : UInt8)
    (payload : Bytes) : (message sessionId seq key id flags payload).length =
      msgHeaderLen sessionId + 4 + payload.length := by
  rw [message, List.length_append, length_sessionHeader, length_submessage, Nat.add_assoc]

theorem length_cdrText (s : Bytes) : (cdrText s).length = s.length + 5 := by
  simp only [cdrText, List.length_append, length_leBytes, List.length_singleton]
  omega

theorem length_createStart (reqId objId : UInt16) (kind : UInt8) (xml : Bytes) :
    (createStart reqId objId kind xml).length = xml.length + 13 := by
  simp only [createStart, List.length_append, length_requestIdBeBytes, length_objectIdBeBytes,
    length_cdrText, List.length_cons, List.length_nil]
  omega

theorem length_childPayload (reqId objId : UInt16) (kind : UInt8) (xml : Bytes)
    (parent : UInt16) : (childPayload reqId objId kind xml parent).length = xml.length + 15 := by
  rw [childPayload, List.length_append, length_createStart, length_objectIdBeBytes]

theorem length_participantPayload (reqId objId : UInt16) (xml : Bytes) (domainId : Int16) :
    (participantPayload reqId objId xml domainId).length =
      xml.length + 15 + padding 2 (xml.length + 13) := by
  rw [participantPayload, List.length_append, length_padTo, length_createStart,
    length_u16LeBytes]
  omega

theorem length_participantPayload_le (reqId objId : UInt16) (xml : Bytes) (domainId : Int16) :
    (participantPayload reqId objId xml domainId).length ≤ xml.length + 16 := by
  have h := padding_lt (show 0 < 2 by decide) (xml.length + 13)
  rw [length_participantPayload]
  omega

theorem length_readDataPayload (reqId drOid : UInt16) :
    (readDataPayload reqId drOid).length = 8 := by
  simp only [readDataPayload, List.length_append, length_requestIdBeBytes,
    length_objectIdBeBytes, List.length_cons, List.length_nil]

namespace MsgWriter

/-- A block that starts inside the buffer, or right at its end, is clipped to it. -/
theorem bytes_run {data : Bytes} {b : MsgWriter n} (h : b.pos ≤ n) :
    (bytes data).run b = (.ok (), ⟨b.buf.overwrite b.pos (data.take (n - b.pos)),
      b.pos + data.length, b.flag || decide (n - b.pos < data.length)⟩) := by
  have hfit : b.pos + min data.length (n - b.pos) ≤ n := by omega
  have htake : data.take (min data.length (n - b.pos)) = data.take (n - b.pos) := by
    rw [List.take_eq_take_iff]
    omega
  simp only [bytes, if_pos hfit, htake]

theorem bytes_past {data : Bytes} {b : MsgWriter n} (h : n < b.pos) :
    ((bytes data).run b).1 = .panic := by
  have hpast : ¬ b.pos + min data.length (n - b.pos) ≤ n := by omega
  simp only [bytes, if_neg hpast]

theorem alignBuf_run (k : Nat) (b : MsgWriter n) :
    (alignBuf k).run b = (.ok (), pushZeros (padding k b.pos) b) := by
  simp only [alignBuf, run_modify, padding]
  by_cases hrem : b.pos % k = 0
  · simp [hrem, pushZeros]
  · simp [hrem]

section
variable [Target]

theorem cdrAlign_of_le {origin : Nat} {b : MsgWriter n} (h : origin ≤ b.pos) (k : Nat) :
    (cdrAlign origin k).run b = (.ok (), pushZeros (padding k (b.pos - origin)) b) := by
  have hsub : (usizeSub b.pos origin : WriteMsg n Nat) = pure (b.pos - origin) :=
    usizeSub_of_le h
  simp only [cdrAlign, run_get_bind, hsub, run_pure_bind, padding]
  by_cases hrem : (b.pos - origin) % k = 0
  · simp [hrem, pushZeros]
  · simp [hrem]

theorem cdrString_of_short {s : Bytes} (hs : s.length < 2 ^ 32 - 1) (origin : Nat) :
    (cdrString s origin : WriteMsg n Unit) = (do
      cdrU32 (s.length + 1) origin
      bytes s
      u8 0
      let b ← get
      if b.overflow then throw .bufferTooSmall else pure ()) := by
  have hlen : (addIn 32 (s.length % 2 ^ 32) 1 : WriteMsg n Nat) = pure (s.length + 1) := by
    rw [Nat.mod_eq_of_lt (by omega), addIn_of_lt (by omega)]
  simp only [cdrString, hlen, pure_bind]

end

/-- The writer has produced `out`: its position counts all of it, its buffer holds it as long
as it fits, and an overflow is on record only past the end. -/
structure Wrote (orig : Buffer UInt8 n) (out : Bytes) (b : MsgWriter n) : Prop where
  pos : b.pos = out.length
  flag : b.flag = true → n < out.length
  filled : out.length ≤ n → Buffer.Filled orig out b.buf

/-- The writer has put `out` into a buffer that has had room for all of it. -/
structure Holds (orig : Buffer UInt8 n) (out : Bytes) (b : MsgWriter n) : Prop where
  pos : b.pos = out.length
  filled : Buffer.Filled orig out b.buf
  fits : out.length ≤ n
  flag : b.flag = false

section
variable {orig : Buffer UInt8 n} {out : Bytes} {b : MsgWriter n}

theorem wrote_new (buf : Buffer UInt8 n) : Wrote buf [] (new buf) where
  pos := rfl
  flag h := by cases h
  filled _ := Buffer.filled_nil buf

theorem Wrote.holds (hb : Wrote orig out b) (hfit : out.length ≤ n) : Holds orig out b where
  pos := hb.pos
  filled := hb.filled hfit
  fits := hfit
  flag := by
    cases hf : b.flag with
    | false => rfl
    | true => exact absurd (hb.flag hf) (Nat.not_lt.mpr hfit)

theorem Wrote.overflow (hb : Wrote orig out b) : b.overflow = decide (n < out.length) := by
  have hflag := hb.flag
  rw [MsgWriter.overflow, hb.pos]
  cases hf : b.flag
  · rfl
  · simp [hflag hf]

theorem Wrote.pushOne (hb : Wrote orig out b) (v : UInt8) :
    Wrote orig (out ++ [v]) (b.pushOne v) := by
  have hpos := hb.pos
  have hlen : (out ++ [v]).length = out.length + 1 := List.length_append
  unfold MsgWriter.pushOne
  split
  · next hlt =>
    rw [hpos] at hlt ⊢
    constructor
    · exact hlen.symm
    · intro h
      have hover := hb.flag h
      omega
    · intro _
      have hfill := (hb.filled (Nat.le_of_lt hlt)).overwrite (Nat.le_of_lt hlt) [v]
      rwa [List.take_of_length_le (by rw [List.length_singleton]; omega)] at hfill
  · next hge =>
    rw [hpos] at hge ⊢
    constructor
    · exact hlen.symm
    · intro _
      omega
    · intro hfit
      omega

theorem Wrote.pushZeros (hb : Wrote orig out b) (k : Nat) :
    Wrote orig (out ++ List.replicate k 0) (MsgWriter.pushZeros k b) := by
  induction k generalizing out b with
  | zero =>
    rw [List.replicate_zero, List.append_nil]
    exact hb
  | succ k ih =>
    have h := ih (hb.pushOne 0)
    rwa [List.append_assoc, List.singleton_append, ← List.replicate_succ] at h

end

section
variable {orig : Buffer UInt8 n} {α : Type}

theorem u8_goes (v : UInt8) (out : Bytes) :
    Goes (Wrote orig) out (u8 v : WriteMsg n Unit) True (.ok ()) (out ++ [v]) :=
  Goes.modify fun _ hb => hb.pushOne v

/-- A block that starts past the end panics. -/
theorem bytes_goes (data out : Bytes) :
    Goes (Wrote orig) out (bytes data : WriteMsg n Unit) (out.length ≤ n) (.ok ())
      (out ++ data) := by
  constructor
  · intro b hb hout
    rw [bytes_run (by rwa [hb.pos])]
  · intro b hb hout _
    have hflag := hb.flag
    rw [bytes_run (by rwa [hb.pos]), hb.pos]
    constructor
    · simp
    · simp only [Bool.or_eq_true, decide_eq_true_eq, List.length_append]
      rintro (hover | hover)
      · exact Nat.lt_of_lt_of_le (hflag hover) (Nat.le_add_right _ _)
      · omega
    · intro _
      exact (hb.filled hout).overwrite hout data
  · intro b hb hout
    apply bytes_past
    rw [hb.pos]
    exact Nat.lt_of_not_le hout

theorem getPos_goes (out : Bytes) :
    Goes (Wrote orig) out (getPos : WriteMsg n Nat) True (.ok out.length) out := by
  apply (Goes.pure out.length).of_run
  intro b hb
  rw [← hb.pos]
  rfl

theorem pushZeros_goes (k : Nat) (out : Bytes) :
    Goes (Wrote orig) out (modify (pushZeros k) : WriteMsg n Unit) True (.ok ())
      (out ++ List.replicate k 0) :=
  Goes.modify fun _ hb => hb.pushZeros k

/-- Nothing happens on a position that is aligned already. -/
theorem alignBuf_goes {k : Nat} {out : Bytes} (h : out.length % k = 0) :
    Goes (Wrote orig) out (alignBuf k : WriteMsg n Unit) True (.ok ()) out := by
  apply (Goes.pure ()).of_run
  intro b hb
  rw [alignBuf_run, hb.pos, padding_eq_zero h]
  rfl

/-- The record tells whether the output still fits. -/
theorem checked_goes {out : Bytes} {p : WriteMsg n α} {a : α}
    (hp : Goes (Wrote orig) out p True (.ok a) out) :
    Goes (Wrote orig) out (do
      let b ← get
      if b.overflow then throw .bufferTooSmall else p) True
      (if n < out.length then .err .bufferTooSmall else .ok a) out := by
  by_cases hover : n < out.length
  · rw [if_pos hover]
    apply (Goes.throw Error.bufferTooSmall).of_run
    intro b hb
    rw [run_get_bind, hb.overflow, decide_eq_true hover]
    rfl
  · rw [if_neg hover]
    apply hp.of_run
    intro b hb
    rw [run_get_bind, hb.overflow, decide_eq_false hover]
    rfl

/-- The answer for a finished message. -/
def verdict (n : Nat) (msg : Bytes) : Outcome Error Nat :=
  if n < msg.length then .err .bufferTooSmall else .ok msg.length

theorem patchU16At_goes (xs zs : Bytes) (old v : UInt16) :
    Goes (Wrote orig) (xs ++ u16LeBytes old ++ zs) (patchU16At xs.length v : WriteMsg n Unit) True
      (.ok ()) (xs ++ u16LeBytes v ++ zs) := by
  have hlen : (xs ++ u16LeBytes v ++ zs).length = (xs ++ u16LeBytes old ++ zs).length := by simp
  have hlong : xs.length + 2 ≤ (xs ++ u16LeBytes old ++ zs).length := by
    simp
  apply Goes.modify
  intro b hb
  split
  · constructor
    · rw [hlen]
      exact hb.pos
    · rw [hlen]
      exact hb.flag
    · intro hfit
      rw [hlen] at hfit
      exact (hb.filled hfit).patch hfit rfl
  · constructor
    · rw [hlen]
      exact hb.pos
    · intro _
      omega
    · intro hfit
      omega

section
variable [Target]

theorem cdrAlign_goes {origin : Nat} {out : Bytes} (h : origin ≤ out.length) (k : Nat) :
    Goes (Wrote orig) out (cdrAlign origin k : WriteMsg n Unit) True (.ok ())
      (out ++ List.replicate (padding k (out.length - origin)) 0) := by
  apply (pushZeros_goes _ out).of_run
  intro b hb
  rw [cdrAlign_of_le (by rwa [hb.pos]), hb.pos, run_modify]

theorem cdrBytes_goes {origin : Nat} {out : Bytes} (h : origin ≤ out.length) (k : Nat)
    (data : Bytes) :
    Goes (Wrote orig) out (do cdrAlign origin k; bytes data : WriteMsg n Unit)
      (out.length + padding k (out.length - origin) ≤ n) (.ok ())
      (out ++ List.replicate (padding k (out.length - origin)) 0 ++ data) := by
  apply ((cdrAlign_goes h k).seq (bytes_goes data _)).congr
  simp

/-- The two blocks of a string come before the record is looked at. -/
theorem cdrString_goes {origin : Nat} {out : Bytes} (h : origin ≤ out.length) {s : Bytes}
    (hs : s.length < 2 ^ 32 - 1) :
    Goes (Wrote orig) out (cdrString s origin : WriteMsg n Unit)
      (out.length + padding 4 (out.length - origin) + 4 ≤ n)
      (if n < (out ++ List.replicate (padding 4 (out.length - origin)) 0 ++ cdrText s).length then
        .err .bufferTooSmall else .ok ())
      (out ++ List.replicate (padding 4 (out.length - origin)) 0 ++ cdrText s) := by
  have hrun : (cdrString s origin : WriteMsg n Unit) = (do
      (do cdrAlign origin 4; bytes (leBytes 4 (s.length + 1)))
      bytes s
      u8 0
      let b ← get
      if b.overflow then throw .bufferTooSmall else pure ()) := by
    rw [cdrString_of_short hs, cdrU32]
  have htext : out ++ List.replicate (padding 4 (out.length - origin)) 0 ++ cdrText s =
      out ++ List.replicate (padding 4 (out.length - origin)) 0 ++ leBytes 4 (s.length + 1) ++ s ++
        [0] := by
    simp only [cdrText, List.append_assoc]
  rw [hrun, htext]
  apply ((cdrBytes_goes h 4 (leBytes 4 (s.length + 1))).seq ((bytes_goes s _).seq
    ((u8_goes 0 _).seq (checked_goes (Goes.pure ()))))).congr
  simp only [List.length_append, List.length_replicate, length_leBytes, and_true]
  omega

end

end

end MsgWriter

open MsgWriter

/-- The headers of a message whose length is still open. -/
def openMessage (sessionId streamId : UInt8) (seq : UInt16) (key : ClientKey) (id flags : UInt8) :
    Bytes :=
  sessionHeader sessionId streamId seq key ++ [id, flags] ++ u16LeBytes 0

@[simp] theorem length_openMessage (sessionId streamId : UInt8) (seq : UInt16) (key : ClientKey)
    (id flags : UInt8) :
    (openMessage sessionId streamId seq key id flags).length = msgHeaderLen sessionId + 4 := by
  simp [openMessage, length_sessionHeader]

section
variable {orig : Buffer UInt8 n} {sessionId streamId : UInt8} {seq : UInt16} {key : ClientKey}
  {id flags : UInt8} {α : Type} {P : Prop} {o : Outcome Error α} {stop : Bytes}

theorem sessionHeader_goes (sessionId streamId : UInt8) (seq : UInt16) (key : ClientKey)
    (out : Bytes) :
    Goes (Wrote orig) out (writeSessionHeader sessionId streamId seq key : WriteMsg n Unit)
      (out.length + 2 ≤ n ∧ (sessionId < sessionIdWithoutClientKey → out.length + 4 ≤ n))
      (.ok ()) (out ++ sessionHeader sessionId streamId seq key) := by
  have hkey (out : Bytes) : Goes (Wrote orig) out (if sessionId < sessionIdWithoutClientKey then
      bytes key.bytes else pure () : WriteMsg n Unit)
      (sessionId < sessionIdWithoutClientKey → out.length ≤ n) (.ok ())
      (out ++ if sessionId < sessionIdWithoutClientKey then key.bytes else []) := by
    by_cases hid : sessionId < sessionIdWithoutClientKey
    · simp only [if_pos hid]
      apply (bytes_goes key.bytes out).congr
      simp [hid]
    · simp only [if_neg hid, List.append_nil]
      apply (Goes.pure ()).congr
      simp [hid]
  have h : Goes (Wrote orig) out _ _ _ _ := (u8_goes sessionId out).seq ((u8_goes streamId _).seq
    ((bytes_goes (u16LeBytes seq) _).seq (hkey _)))
  have hend : out ++ [sessionId] ++ [streamId] ++ u16LeBytes seq ++
      (if sessionId < sessionIdWithoutClientKey then key.bytes else []) =
      out ++ sessionHeader sessionId streamId seq key := by
    simp [sessionHeader]
  rw [hend] at h
  apply h.congr
  simp

/-- The headers, and whatever follows them. -/
theorem messageStart_goes {f : Nat → Nat → WriteMsg n α}
    (hf : Goes (Wrote orig) (openMessage sessionId streamId seq key id flags)
      (f (msgHeaderLen sessionId) (msgHeaderLen sessionId + 4)) P o stop) :
    Goes (Wrote orig) [] (do
      writeSessionHeader sessionId streamId seq key
      alignBuf 4
      let hdrOff ← getPos
      u8 id
      u8 flags
      u16Raw 0
      let origin ← getPos
      f hdrOff origin : WriteMsg n α) (msgHeaderLen sessionId + 2 ≤ n ∧ P) o stop := by
  have hhead := length_sessionHeader sessionId streamId seq key
  have haligned : (sessionHeader sessionId streamId seq key).length % 4 = 0 := by
    rw [hhead]
    rcases msgHeaderLen_cases sessionId with h | h <;> rw [h]
  have hopen : sessionHeader sessionId streamId seq key ++ [id] ++ [flags] ++ u16LeBytes 0 =
      openMessage sessionId streamId seq key id flags := by
    simp [openMessage]
  apply Goes.congr
  · apply (sessionHeader_goes sessionId streamId seq key []).seq
    rw [List.nil_append]
    apply (alignBuf_goes haligned).seq
    apply (getPos_goes _).bind
    apply (u8_goes id _).seq
    apply (u8_goes flags _).seq
    apply (bytes_goes (u16LeBytes 0) _).seq
    apply (getPos_goes _).bind
    rw [hopen, hhead, length_openMessage]
    exact hf
  · -- The block behind the headers comes later than those in them.
    have h48 := msgHeaderLen_cases sessionId
    simp only [true_and, ← and_assoc, List.length_append, List.length_nil, List.length_singleton,
      hhead]
    apply and_congr_left'
    constructor
    · exact And.right
    · intro hlast
      exact ⟨⟨by omega, fun _ => by omega⟩, hlast⟩

/-- The back-patching of the length field, and what follows it. -/
theorem patchLength_goes [Target] {payload : Bytes} {p : WriteMsg n α}
    (hp : Goes (Wrote orig) (sessionHeader sessionId streamId seq key ++
      submessage id flags payload) p P o stop) :
    Goes (Wrote orig) (openMessage sessionId streamId seq key id flags ++ payload) (do
      let stop ← getPos
      let payloadLen ← usizeSub stop (msgHeaderLen sessionId + 4)
      patchU16At (msgHeaderLen sessionId + 2) (UInt16.ofNat payloadLen)
      p : WriteMsg n α) P o stop := by
  have hsub : (usizeSub (openMessage sessionId streamId seq key id flags ++ payload).length
      (msgHeaderLen sessionId + 4) : WriteMsg n Nat) = pure payload.length := by
    rw [List.length_append, length_openMessage, usizeSub_of_le (Nat.le_add_right _ _),
      Nat.add_sub_cancel_left]
  have hpatch : Goes (Wrote orig) (openMessage sessionId streamId seq key id flags ++ payload)
      (patchU16At (msgHeaderLen sessionId + 2) (UInt16.ofNat payload.length) : WriteMsg n Unit)
      True (.ok ())
      (sessionHeader sessionId streamId seq key ++ submessage id flags payload) := by
    have h : Goes (Wrote orig) _ _ _ _ _ := patchU16At_goes (n := n)
      (sessionHeader sessionId streamId seq key ++ [id, flags]) payload 0
      (UInt16.ofNat payload.length)
    have hoff : (sessionHeader sessionId streamId seq key ++ [id, flags]).length =
        msgHeaderLen sessionId + 2 := by
      simp [length_sessionHeader]
    have hout : sessionHeader sessionId streamId seq key ++ [id, flags] ++
        u16LeBytes (UInt16.ofNat payload.length) ++ payload =
        sessionHeader sessionId streamId seq key ++ submessage id flags payload := by
      simp only [submessage, List.append_assoc]
    rwa [hoff, hout] at h
  apply Goes.congr
  · apply (getPos_goes _).bind
    rw [hsub, pure_bind]
    exact hpatch.seq hp
  · simp

/-- The end of a request never panics. -/
theorem finishRequest_goes [Target] (payload : Bytes) :
    Goes (Wrote orig) (openMessage sessionId streamBestEffort seq key id flags ++ payload)
      (finishRequest (msgHeaderLen sessionId) (msgHeaderLen sessionId + 4) : WriteMsg n Nat) True
      (verdict n (message sessionId seq key id flags payload))
      (message sessionId seq key id flags payload) :=
  patchLength_goes (checked_goes (getPos_goes _))

/-- The request id and the object id. -/
theorem requestIds_goes (reqId objId : UInt16) {out : Bytes} {p : WriteMsg n α}
    (hp : Goes (Wrote orig) (out ++ requestIdBeBytes reqId ++ objectIdBeBytes objId) p P o stop) :
    Goes (Wrote orig) out (do
      bytes (requestIdBeBytes reqId)
      bytes (objectIdBeBytes objId)
      p : WriteMsg n α) (out.length + 2 ≤ n ∧ P) o stop := by
  apply ((bytes_goes (requestIdBeBytes reqId) out).seq
    ((bytes_goes (objectIdBeBytes objId) _).seq hp)).congr
  simp only [List.length_append, length_requestIdBeBytes, ← and_assoc]
  exact and_congr_left' (by omega)

end

section
variable [Target] {orig : Buffer UInt8 n}

/-- The XML of a CREATE request, behind a fixed number of bytes. -/
theorem createText_goes (sessionId : UInt8) (seq : UInt16) (key : ClientKey)
    (reqId objId : UInt16) (kind : UInt8) {xml : Bytes} (hxml : xml.length < 2 ^ 32 - 1) :
    Goes (Wrote orig) (openMessage sessionId streamBestEffort seq key submsgCreate flagsCreate ++
        requestIdBeBytes reqId ++ objectIdBeBytes objId ++ [kind] ++ [reprAsXml])
      (cdrString xml (msgHeaderLen sessionId + 4) : WriteMsg n Unit)
      (msgHeaderLen sessionId + 16 ≤ n)
      (if n < msgHeaderLen sessionId + 17 + xml.length then .err .bufferTooSmall else .ok ())
      (openMessage sessionId streamBestEffort seq key submsgCreate flagsCreate ++
        createStart reqId objId kind xml) := by
  generalize hfront : openMessage sessionId streamBestEffort seq key submsgCreate flagsCreate ++
    requestIdBeBytes reqId ++ objectIdBeBytes objId ++ [kind] ++ [reprAsXml] = front
  have hlen : front.length = msgHeaderLen sessionId + 10 := by
    simp [← hfront]
  have hpad : padding 4 (front.length - (msgHeaderLen sessionId + 4)) = 2 := by
    rw [hlen, Nat.add_sub_add_left]
    rfl
  have hstart : front ++ List.replicate 2 0 ++ cdrText xml =
      openMessage sessionId streamBestEffort seq key submsgCreate flagsCreate ++
        createStart reqId objId kind xml := by
    simp [← hfront, createStart, List.replicate]
  have hend : msgHeaderLen sessionId + 4 + (xml.length + 13) =
      msgHeaderLen sessionId + 17 + xml.length := by
    omega
  have h : Goes (Wrote orig) front _ _ _ _ := cdrString_goes
    (show msgHeaderLen sessionId + 4 ≤ front.length by omega) hxml
  rwa [hpad, hstart, hlen, List.length_append, length_openMessage, length_createStart, hend] at h

/-- A CREATE request up to the end of its XML, and whatever follows if there was room. -/
theorem create_goes (sessionId : UInt8) (seq : UInt16) (key : ClientKey) (reqId objId : UInt16)
    (kind : UInt8) {xml payload : Bytes} (hxml : xml.length < 2 ^ 32 - 1) {P : Prop}
    {rest : Nat → Nat → WriteMsg n Nat} (hlong : xml.length + 13 ≤ payload.length)
    (hrest : msgHeaderLen sessionId + 17 + xml.length ≤ n →
      Goes (Wrote orig) (openMessage sessionId streamBestEffort seq key submsgCreate flagsCreate ++
          createStart reqId objId kind xml)
        (rest (msgHeaderLen sessionId) (msgHeaderLen sessionId + 4)) P
        (verdict n (message sessionId seq key submsgCreate flagsCreate payload))
        (message sessionId seq key submsgCreate flagsCreate payload)) :
    Goes (Wrote orig) [] (do
      writeSessionHeader sessionId streamBestEffort seq key
      alignBuf 4
      let hdrOff ← getPos
      u8 submsgCreate
      u8 flagsCreate
      u16Raw 0
      let origin ← getPos
      bytes (requestIdBeBytes reqId)
      bytes (objectIdBeBytes objId)
      u8 kind
      u8 reprAsXml
      cdrString xml origin
      rest hdrOff origin : WriteMsg n Nat)
      (msgHeaderLen sessionId + 16 ≤ n ∧ (msgHeaderLen sessionId + 17 + xml.length ≤ n → P))
      (verdict n (message sessionId seq key submsgCreate flagsCreate payload))
      (message sessionId seq key submsgCreate flagsCreate payload) := by
  have hstring : Goes (Wrote orig) _ _ _ _ _ :=
    createText_goes (n := n) sessionId seq key reqId objId kind hxml
  have htotal := length_message sessionId seq key submsgCreate flagsCreate payload
  have htail : Goes (Wrote orig) (openMessage sessionId streamBestEffort seq key submsgCreate
      flagsCreate ++ requestIdBeBytes reqId ++ objectIdBeBytes objId ++ [kind] ++ [reprAsXml]) (do
      cdrString xml (msgHeaderLen sessionId + 4)
      rest (msgHeaderLen sessionId) (msgHeaderLen sessionId + 4) : WriteMsg n Nat)
      (msgHeaderLen sessionId + 16 ≤ n ∧ (msgHeaderLen sessionId + 17 + xml.length ≤ n → P))
      (verdict n (message sessionId seq key submsgCreate flagsCreate payload))
      (message sessionId seq key submsgCreate flagsCreate payload) := by
    by_cases hover : n < msgHeaderLen sessionId + 17 + xml.length
    · have hverdict : verdict n (message sessionId seq key submsgCreate flagsCreate payload) =
          .err .bufferTooSmall := if_pos (by omega)
      rw [if_pos hover] at hstring
      rw [hverdict]
      apply (hstring.bind_err _).congr
      constructor
      · intro hblocks
        exact ⟨hblocks, fun hroom => absurd hover (Nat.not_lt.mpr hroom)⟩
      · exact And.left
    · rw [if_neg hover] at hstring
      apply (hstring.seq (hrest (Nat.le_of_not_lt hover))).congr
      simp [Nat.le_of_not_lt hover]
  apply Goes.congr
  · apply messageStart_goes
    apply requestIds_goes
    apply (u8_goes kind _).seq
    apply (u8_goes reprAsXml _).seq
    exact htail
  · simp only [true_and, ← and_assoc, length_openMessage]
    exact and_congr_left' (by omega)

theorem encodeCreateWithParent_goes (sessionId : UInt8) (seq : UInt16) (key : ClientKey)
    (reqId objId : UInt16) (kind : UInt8) {xml : Bytes} (parent : UInt16)
    (hxml : xml.length < 2 ^ 32 - 1) :
    Goes (Wrote orig) [] (encodeCreateWithParent sessionId seq key reqId objId kind xml parent :
      WriteMsg n Nat) (msgHeaderLen sessionId + 16 ≤ n)
      (verdict n (message sessionId seq key submsgCreate flagsCreate
          (childPayload reqId objId kind xml parent)))
      (message sessionId seq key submsgCreate flagsCreate
        (childPayload reqId objId kind xml parent)) := by
  apply Goes.congr
  · apply create_goes sessionId seq key reqId objId kind hxml
    · rw [length_childPayload]
      omega
    · intro hroom
      apply (bytes_goes (objectIdBeBytes parent) _).seq
      rw [List.append_assoc]
      exact finishRequest_goes (childPayload reqId objId kind xml parent)
  · simp only [List.length_append, length_openMessage, length_createStart, and_true]
    omega

theorem encodeCreateParticipant_goes (sessionId : UInt8) (seq : UInt16) (key : ClientKey)
    (reqId objId : UInt16) {xml : Bytes} (domainId : Int16) (hxml : xml.length < 2 ^ 32 - 1) :
    Goes (Wrote orig) [] (encodeCreateParticipant sessionId seq key reqId objId xml domainId :
      WriteMsg n Nat)
      (msgHeaderLen sessionId + 16 ≤ n ∧
        ¬ (xml.length % 2 = 0 ∧ n = msgHeaderLen sessionId + 17 + xml.length))
      (verdict n (message sessionId seq key submsgCreate flagsCreate
        (participantPayload reqId objId xml domainId)))
      (message sessionId seq key submsgCreate flagsCreate
        (participantPayload reqId objId xml domainId)) := by
  have hoff : (openMessage sessionId streamBestEffort seq key submsgCreate flagsCreate ++
      createStart reqId objId entityParticipant xml).length - (msgHeaderLen sessionId + 4) =
      xml.length + 13 := by
    rw [List.length_append, length_openMessage, length_createStart, Nat.add_sub_cancel_left]
  have hpayload : openMessage sessionId streamBestEffort seq key submsgCreate flagsCreate ++
      createStart reqId objId entityParticipant xml ++
      List.replicate (padding 2 (xml.length + 13)) 0 ++ u16LeBytes domainId.toUInt16 =
      openMessage sessionId streamBestEffort seq key submsgCreate flagsCreate ++
        participantPayload reqId objId xml domainId := by
    simp [participantPayload, padTo, length_createStart]
  have hdomain : Goes (Wrote orig) (openMessage sessionId streamBestEffort seq key submsgCreate
      flagsCreate ++ createStart reqId objId entityParticipant xml)
      (cdrI16 domainId (msgHeaderLen sessionId + 4) : WriteMsg n Unit) _ _ _ :=
    cdrBytes_goes (by simp) 2 (u16LeBytes domainId.toUInt16)
  rw [hoff, hpayload, List.length_append, length_openMessage, length_createStart] at hdomain
  apply Goes.congr
  · apply create_goes sessionId seq key reqId objId entityParticipant hxml
    · rw [length_participantPayload]
      omega
    · intro hroom
      exact hdomain.seq (finishRequest_goes _)
  · -- Only a byte of padding can put the domain id past the end.
    simp only [padding, and_true]
    split <;> omega

theorem encodeReadData_goes (sessionId : UInt8) (seq : UInt16) (key : ClientKey)
    (reqId drOid : UInt16) :
    Goes (Wrote orig) [] (encodeReadData sessionId seq key reqId drOid : WriteMsg n Nat)
      (msgHeaderLen sessionId + 6 ≤ n)
      (verdict n (message sessionId seq key submsgReadData flagLe
          (readDataPayload reqId drOid)))
      (message sessionId seq key submsgReadData flagLe (readDataPayload reqId drOid)) := by
  have hend : openMessage sessionId streamBestEffort seq key submsgReadData flagLe ++
      requestIdBeBytes reqId ++ objectIdBeBytes drOid ++ [streamBestEffort] ++ [formatData] ++
        [0] ++ [0] = openMessage sessionId streamBestEffort seq key submsgReadData flagLe ++
          readDataPayload reqId drOid := by
    simp [readDataPayload]
  apply Goes.congr
  · apply messageStart_goes
    apply requestIds_goes
    apply (u8_goes streamBestEffort _).seq
    apply (u8_goes formatData _).seq
    apply (u8_goes 0 _).seq
    apply (u8_goes 0 _).seq
    rw [hend]
    exact finishRequest_goes _
  · simp only [and_true, length_openMessage]
    omega

theorem buildCreateClient_goes (sessionId : UInt8) (key : ClientKey) (mtu : UInt16) :
    Goes (Wrote orig) [] (buildCreateClient sessionId key mtu : WriteMsg n Nat)
      (msgHeaderLen (sessionId &&& sessionIdWithoutClientKey) + 18 ≤ n)
      (.ok (createClientMessage sessionId key mtu).length)
      (createClientMessage sessionId key mtu) := by
  have hstart : (buildCreateClient sessionId key mtu : WriteMsg n Nat) = (do
      writeSessionHeader (sessionId &&& sessionIdWithoutClientKey) streamNone 0 key
      alignBuf 4
      let hdrOff ← getPos
      u8 submsgCreateClient
      u8 flagLe
      u16Raw 0
      let payloadOrigin ← getPos
      bytes xrceCookie
      bytes xrceVersion
      bytes vendorIdEprosima
      bytes key.bytes
      u8 sessionId
      u8 0
      cdrU16 mtu payloadOrigin
      let stop ← getPos
      let payloadLen ← usizeSub stop payloadOrigin
      patchU16At (hdrOff + 2) (UInt16.ofNat payloadLen)
      getPos) := by
    simp only [buildCreateClient, writeSessionHeader, bind_assoc]
  generalize hfront : openMessage (sessionId &&& sessionIdWithoutClientKey) streamNone 0 key
    submsgCreateClient flagLe ++ xrceCookie ++ xrceVersion ++ vendorIdEprosima ++ key.bytes ++
      [sessionId] ++ [0] = front
  have hlen : front.length = msgHeaderLen (sessionId &&& sessionIdWithoutClientKey) + 18 := by
    simp [← hfront, xrceCookie, xrceVersion, vendorIdEprosima, ClientKey.bytes]
  have hpad : padding 2 (front.length -
      (msgHeaderLen (sessionId &&& sessionIdWithoutClientKey) + 4)) = 0 := by
    rw [hlen, Nat.add_sub_add_left]
    rfl
  have hend : front ++ List.replicate 0 0 ++ u16LeBytes mtu =
      openMessage (sessionId &&& sessionIdWithoutClientKey) streamNone 0 key submsgCreateClient
        flagLe ++ createClientPayload sessionId key mtu := by
    simp [← hfront, createClientPayload]
  have hmtu : Goes (Wrote orig) front (cdrU16 mtu
      (msgHeaderLen (sessionId &&& sessionIdWithoutClientKey) + 4) : WriteMsg n Unit) _ _ _ :=
    cdrBytes_goes (by omega) 2 (u16LeBytes mtu)
  rw [hpad, hend, hlen] at hmtu
  rw [hstart]
  apply Goes.congr
  · apply messageStart_goes
    apply (bytes_goes xrceCookie _).seq
    apply (bytes_goes xrceVersion _).seq
    apply (bytes_goes vendorIdEprosima _).seq
    apply (bytes_goes key.bytes _).seq
    apply (u8_goes sessionId _).seq
    apply (u8_goes 0 _).seq
    rw [hfront]
    apply hmtu.seq
    exact patchLength_goes (getPos_goes _)
  · simp only [List.length_append, length_openMessage, true_and, and_true, xrceCookie,
      xrceVersion, vendorIdEprosima, List.length_cons, List.length_nil]
    omega

end

section
variable {buf : Buffer UInt8 n} {safe : Prop} {msg : Bytes}

theorem run_of_goes {α : Type} {encode : WriteMsg n α} {a : α}
    (h : Goes (Wrote buf) [] encode safe (.ok a) msg) (hsafe : safe) (hroom : msg.length ≤ n) :
    ∃ b', encode.run (MsgWriter.new buf) = (.ok a, b') ∧ Holds buf msg b' := by
  have hwrote := h.arrives _ (wrote_new buf) hsafe rfl
  exact ⟨_, Prod.ext (h.ends _ (wrote_new buf) hsafe) rfl, hwrote.holds hroom⟩

theorem accepted_of_goes {encode : WriteMsg n Nat}
    (h : Goes (Wrote buf) [] encode safe (verdict n msg) msg) (hsafe : safe)
    (hroom : msg.length ≤ n) :
    ∃ b', encode.run (MsgWriter.new buf) = (.ok msg.length, b') ∧ Holds buf msg b' := by
  have hverdict : verdict n msg = .ok msg.length := if_neg (Nat.not_lt.mpr hroom)
  rw [hverdict] at h
  exact run_of_goes h hsafe hroom

variable [Target]

theorem encodeCreateWithParent_run (sessionId : UInt8) (seq : UInt16) (key : ClientKey)
    (reqId objId : UInt16) (kind : UInt8) {xml : Bytes} (parent : UInt16)
    (buf : Buffer UInt8 n) (hxml : xml.length < 2 ^ 32 - 1)
    (hroom : msgHeaderLen sessionId + xml.length + 19 ≤ n) :
    ∃ b', (encodeCreateWithParent sessionId seq key reqId objId kind xml parent).run
        (MsgWriter.new buf) = (.ok (message sessionId seq key submsgCreate flagsCreate
          (childPayload reqId objId kind xml parent)).length, b') ∧
      Holds buf (message sessionId seq key submsgCreate flagsCreate
        (childPayload reqId objId kind xml parent)) b' := by
  apply accepted_of_goes
    (encodeCreateWithParent_goes sessionId seq key reqId objId kind parent hxml)
  · omega
  · rw [length_message, length_childPayload]
    omega

theorem encodeCreateParticipant_run (sessionId : UInt8) (seq : UInt16) (key : ClientKey)
    (reqId objId : UInt16) {xml : Bytes} (domainId : Int16) (buf : Buffer UInt8 n)
    (hxml : xml.length < 2 ^ 32 - 1)
    (hroom : msgHeaderLen sessionId + 4 + (participantPayload reqId objId xml domainId).length ≤
      n) :
    ∃ b', (encodeCreateParticipant sessionId seq key reqId objId xml domainId).run
        (MsgWriter.new buf) = (.ok (message sessionId seq key submsgCreate flagsCreate
          (participantPayload reqId objId xml domainId)).length, b') ∧
      Holds buf (message sessionId seq key submsgCreate flagsCreate
        (participantPayload reqId objId xml domainId)) b' := by
  have hlen := length_participantPayload reqId objId xml domainId
  apply accepted_of_goes
    (encodeCreateParticipant_goes sessionId seq key reqId objId domainId hxml)
  · omega
  · rwa [length_message]

theorem encodeReadData_run (sessionId : UInt8) (seq : UInt16) (key : ClientKey)
    (reqId drOid : UInt16) (buf : Buffer UInt8 n) (hroom : msgHeaderLen sessionId + 12 ≤ n) :
    ∃ b', (encodeReadData sessionId seq key reqId drOid).run (MsgWriter.new buf) =
        (.ok (message sessionId seq key submsgReadData flagLe
          (readDataPayload reqId drOid)).length, b') ∧
      Holds buf (message sessionId seq key submsgReadData flagLe
        (readDataPayload reqId drOid)) b' := by
  apply accepted_of_goes (encodeReadData_goes sessionId seq key reqId drOid)
  · omega
  · rwa [length_message, length_readDataPayload]

/-- CREATE_CLIENT always fits its 64-byte buffer. -/
theorem buildCreateClient_run (sessionId : UInt8) (key : ClientKey) (mtu : UInt16)
    (buf : Buffer UInt8 n) (hroom : 28 ≤ n) :
    ∃ b', (buildCreateClient sessionId key mtu).run (MsgWriter.new buf) =
        (.ok (createClientMessage sessionId key mtu).length, b') ∧
      Holds buf (createClientMessage sessionId key mtu) b' := by
  have h48 := msgHeaderLen_cases (sessionId &&& sessionIdWithoutClientKey)
  apply run_of_goes (buildCreateClient_goes sessionId key mtu)
  · omega
  · simp [createClientMessage, length_sessionHeader, length_submessage, createClientPayload,
      xrceCookie, xrceVersion, vendorIdEprosima, ClientKey.bytes]
    omega

end

theorem finalizeWriteDataHeaders_goes [Target] {orig : Buffer UInt8 n} (sessionId : UInt8)
    (seq : UInt16) (key : ClientKey) (dwOid : UInt16) {body : Bytes}
    (hn : n = msgHeaderLen sessionId + 8 + body.length) :
    Goes (Wrote orig) [] (finalizeWriteDataHeaders sessionId seq key dwOid : WriteMsg n Unit) True
      (.ok ()) (sessionHeader sessionId streamBestEffort seq key ++ [submsgWriteData] ++
        [flagLe ||| formatData] ++ u16LeBytes (UInt16.ofNat (4 + body.length)) ++
        requestIdBeBytes 0 ++ objectIdBeBytes dwOid) := by
  have h48 := msgHeaderLen_cases sessionId
  have hhead := length_sessionHeader sessionId streamBestEffort seq key
  have hafter : (usizeSub n (msgHeaderLen sessionId) : WriteMsg n Nat) =
      pure (8 + body.length) := by
    rw [usizeSub_of_le (by omega)]
    congr 1
    omega
  have hpayload : (usizeSub (8 + body.length) 4 : WriteMsg n Nat) = pure (4 + body.length) := by
    rw [usizeSub_of_le (by omega)]
    congr 1
    omega
  apply Goes.congr
  · apply (sessionHeader_goes sessionId streamBestEffort seq key []).seq
    rw [List.nil_append]
    apply (getPos_goes _).bind
    apply (u8_goes submsgWriteData _).seq
    apply (u8_goes (flagLe ||| formatData) _).seq
    rw [hhead, hafter, pure_bind, hpayload, pure_bind]
    apply (bytes_goes (u16LeBytes (UInt16.ofNat (4 + body.length))) _).seq
    apply (bytes_goes (requestIdBeBytes 0) _).seq
    exact bytes_goes (objectIdBeBytes dwOid) _
  · simp only [List.length_append, List.length_nil, List.length_singleton, hhead,
      length_u16LeBytes, length_requestIdBeBytes, true_and, iff_true]
    exact ⟨⟨by omega, fun _ => by omega⟩, by omega, by omega, by omega⟩

/-- The header fill-in of WRITE_DATA, over a buffer that holds `body` behind room for
the headers: it completes the message and leaves the body alone. -/
theorem finalizeWriteDataHeaders_run [Target] (sessionId : UInt8) (seq : UInt16) (key : ClientKey)
    (dwOid : UInt16) (body : Bytes) (buf : Buffer UInt8 n)
    (hn : n = msgHeaderLen sessionId + 8 + body.length)
    (hbody : buf.cells.drop (msgHeaderLen sessionId + 8) = body) :
    ∃ b', (finalizeWriteDataHeaders sessionId seq key dwOid).run (MsgWriter.new buf) =
        (.ok (), b') ∧
      b'.buf.cells = message sessionId seq key submsgWriteData (flagLe ||| formatData)
        (writeDataPayload dwOid body) := by
  have hlen : (sessionHeader sessionId streamBestEffort seq key ++ [submsgWriteData] ++
      [flagLe ||| formatData] ++ u16LeBytes (UInt16.ofNat (4 + body.length)) ++
      requestIdBeBytes 0 ++ objectIdBeBytes dwOid).length = msgHeaderLen sessionId + 8 := by
    simp [length_sessionHeader]
  have hpayload : (writeDataPayload dwOid body).length = 4 + body.length := by
    simp [writeDataPayload]
    omega
  obtain ⟨b', hrun, hb'⟩ := run_of_goes
    (finalizeWriteDataHeaders_goes sessionId seq key dwOid hn : Goes (Wrote buf) _ _ _ _ _)
    trivial (by omega)
  refine ⟨b', hrun, ?_⟩
  have hfilled : b'.buf.cells = _ := hb'.filled
  rw [hfilled, List.take_of_length_le hb'.fits, hlen, hbody, message, submessage, hpayload]
  simp [writeDataPayload]

end MicroXrceDds
