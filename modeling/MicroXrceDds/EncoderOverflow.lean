import MicroXrceDds.MsgLayout

/-!
# Where the request encoders notice an overflow

A byte behind the end of the buffer is dropped and recorded, but a block that starts there
panics. So an encoder refuses a buffer that is too small only where every block it copies
before it looks at the record starts inside the buffer or right at its end.
-/
namespace MicroXrceDds

open Prog LittleEndian

variable {n : Nat}

/-- The length of a request with this payload. -/
def requestLength (sessionId : UInt8) (payload : Bytes) : Nat :=
  msgHeaderLen sessionId + 4 + payload.length

/-- The encoder returns the full length exactly when the request fits and `BufferTooSmall`
exactly when it does not, never panics, and writes the whole length of a payload that 16
bits can count. -/
structure DetectsOverflow (encode : WriteMsg n Nat) (buf : Buffer UInt8 n) (sessionId : UInt8)
    (payload : Bytes) : Prop where
  ok_iff : ∀ k, (encode.run (MsgWriter.new buf)).1 = .ok k ↔
    k = requestLength sessionId payload ∧ requestLength sessionId payload ≤ n
  err_iff : ∀ e, (encode.run (MsgWriter.new buf)).1 = .err e ↔
    e = .bufferTooSmall ∧ n < requestLength sessionId payload
  no_panic : (encode.run (MsgWriter.new buf)).1 ≠ .panic
  counted : ∀ k, (encode.run (MsgWriter.new buf)).1 = .ok k → payload.length ≤ 65535 →
    leNat (((encode.run (MsgWriter.new buf)).2.buf.cells.drop (msgHeaderLen sessionId + 2)).take
      2) = payload.length

open MsgWriter

/-- Where the length field of a message is. -/
theorem length_field_of_message {sessionId : UInt8} {seq : UInt16} {key : ClientKey}
    {id flags : UInt8} {payload : Bytes} (rest : Bytes) :
    ((message sessionId seq key id flags payload ++ rest).drop (msgHeaderLen sessionId + 2)).take
      2 = u16LeBytes (UInt16.ofNat payload.length) := by
  have hsplit : message sessionId seq key id flags payload ++ rest =
      (sessionHeader sessionId streamBestEffort seq key ++ [id, flags]) ++
        (u16LeBytes (UInt16.ofNat payload.length) ++ (payload ++ rest)) := by
    simp only [message, submessage, List.append_assoc]
  have hfront : (sessionHeader sessionId streamBestEffort seq key ++ [id, flags]).length =
      msgHeaderLen sessionId + 2 := by
    rw [List.length_append, length_sessionHeader]
    rfl
  rw [hsplit, List.drop_left' hfront, List.take_left' (length_u16LeBytes _)]

/-- An encoder that tells by the two lengths alone detects overflow wherever it is safe. -/
theorem detects_overflow_iff {encode : WriteMsg n Nat} {buf : Buffer UInt8 n} {sessionId : UInt8}
    {seq : UInt16} {key : ClientKey} {id flags : UInt8} {payload : Bytes} {safe : Prop}
    (hgoes : Goes (Wrote buf) [] encode safe
      (verdict n (message sessionId seq key id flags payload))
      (message sessionId seq key id flags payload)) :
    DetectsOverflow encode buf sessionId payload ↔ safe := by
  have hlen : (message sessionId seq key id flags payload).length =
      requestLength sessionId payload := length_message sessionId seq key id flags payload
  constructor
  · intro h
    by_contra hunsafe
    exact h.no_panic (hgoes.panics _ (wrote_new buf) hunsafe)
  · intro hsafe
    have hends := hgoes.ends _ (wrote_new buf) hsafe
    rw [verdict, hlen] at hends
    by_cases hover : n < requestLength sessionId payload
    · rw [if_pos hover] at hends
      constructor
      · intro k
        simp [hends, hover]
      · intro e
        simp [hends, hover, eq_comm]
      · simp [hends]
      · intro k hk
        rw [hends] at hk
        cases hk
    · have hroom := Nat.le_of_not_lt hover
      rw [if_neg hover] at hends
      constructor
      · intro k
        simp [hends, hroom, eq_comm]
      · intro e
        simp [hends, hover]
      · simp [hends]
      · intro k hk hcount
        obtain ⟨b', hrun, hb'⟩ := accepted_of_goes hgoes hsafe (hlen ▸ hroom)
        have hfilled : b'.buf.cells = _ := hb'.filled
        rw [List.take_of_length_le hb'.fits] at hfilled
        rw [hrun, hfilled, length_field_of_message, u16LeBytes, leNat_leBytes_of_lt]
        · exact UInt16.toNat_ofNat_of_lt' (Nat.lt_succ_of_le hcount)
        · exact UInt16.toNat_lt _

section
variable [Target]

/-- A request encoder detects overflow exactly in the buffers that its last block before the
test for overflow can start in. For a participant the padding before the domain id is one
more byte that must not be the first to miss. -/
theorem requests_detect_overflow_iff (buf : Buffer UInt8 n) (sessionId : UInt8) (seq : UInt16)
    (key : ClientKey) (reqId objId drOid parent : UInt16) (kind : UInt8) {xml : Bytes}
    (domainId : Int16) (hxml : xml.length < 2 ^ 32 - 1) :
    (DetectsOverflow (encodeCreateParticipant sessionId seq key reqId objId xml domainId) buf
        sessionId (participantPayload reqId objId xml domainId) ↔
      msgHeaderLen sessionId + 16 ≤ n ∧
        ¬ (xml.length % 2 = 0 ∧ n = msgHeaderLen sessionId + 17 + xml.length)) ∧
    (DetectsOverflow (encodeCreateWithParent sessionId seq key reqId objId kind xml parent) buf
        sessionId (childPayload reqId objId kind xml parent) ↔ msgHeaderLen sessionId + 16 ≤ n) ∧
    (DetectsOverflow (encodeReadData sessionId seq key reqId drOid) buf sessionId
        (readDataPayload reqId drOid) ↔ msgHeaderLen sessionId + 6 ≤ n) := by
  constructor
  · exact detects_overflow_iff (encodeCreateParticipant_goes sessionId seq key reqId objId domainId
      hxml)
  constructor
  · exact detects_overflow_iff (encodeCreateWithParent_goes sessionId seq key reqId objId kind
      parent hxml)
  · exact detects_overflow_iff (encodeReadData_goes sessionId seq key reqId drOid)

end

/-- A buffer one byte short for a participant, where all three do. -/
theorem requests_detect_overflow_25 :
    letI := rp2040 true
    DetectsOverflow (encodeCreateParticipant 0x81 0 ⟨1, 2, 3, 4⟩ 1 0x11 [0x61, 0x62] 0)
        (Buffer.replicate 25 (0 : UInt8)) 0x81 (participantPayload 1 0x11 [0x61, 0x62] 0) ∧
      DetectsOverflow (encodeCreateWithParent 0x81 0 ⟨1, 2, 3, 4⟩ 1 0x12 2 [0x61, 0x62] 0x11)
        (Buffer.replicate 25 (0 : UInt8)) 0x81 (childPayload 1 0x12 2 [0x61, 0x62] 0x11) ∧
      DetectsOverflow (encodeReadData 0x81 0 ⟨1, 2, 3, 4⟩ 1 0x16)
        (Buffer.replicate 25 (0 : UInt8)) 0x81 (readDataPayload 1 0x16) := by
  let target := rp2040 true
  have hxml : ([0x61, 0x62] : Bytes).length < 2 ^ 32 - 1 := by decide
  have hparticipant := requests_detect_overflow_iff (Buffer.replicate 25 (0 : UInt8)) 0x81 0
    ⟨1, 2, 3, 4⟩ 1 0x11 0x16 0x11 2 0 hxml
  have hchild := requests_detect_overflow_iff (Buffer.replicate 25 (0 : UInt8)) 0x81 0
    ⟨1, 2, 3, 4⟩ 1 0x12 0x16 0x11 2 0 hxml
  exact ⟨hparticipant.1.mpr (by decide), hchild.2.1.mpr (by decide),
    hparticipant.2.2.mpr (by decide)⟩

/-- The buffer ends behind the XML of two bytes: the padding is dropped, and the domain id
panics. -/
theorem padding_past_end_panics :
    letI := rp2040 true
    ¬ DetectsOverflow (encodeCreateParticipant 0x81 0 ⟨1, 2, 3, 4⟩ 1 0x11 [0x61, 0x62] 0)
      (Buffer.replicate 23 (0 : UInt8)) 0x81 (participantPayload 1 0x11 [0x61, 0x62] 0) := by
  have hpanic :
      letI := rp2040 true
      ((encodeCreateParticipant 0x81 0 ⟨1, 2, 3, 4⟩ 1 0x11 [0x61, 0x62] 0).run
        (MsgWriter.new (Buffer.replicate 23 (0 : UInt8)))).1 = .panic := by decide
  let target := rp2040 true
  intro h
  exact h.no_panic hpanic

end MicroXrceDds
