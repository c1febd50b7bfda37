import MicroXrceDds.MessageRoundTrip
import MicroXrceDds.Routing
import MicroXrceDds.SerializedSize

/-!
# What is received can be published

A value that a slot accepts, whatever frame it came in, serializes to no more than was read.
It can therefore be published by any session, whole, and is decoded as the same value again.
-/
namespace MicroXrceDds

open Prog Session CdrReader

theorem readSpan_eq_some {k p : Nat} {buf s : Bytes} (h : (readSpan k buf p).value = some s) :
    p + k ≤ buf.length ∧ (readSpan k buf p).pos = p + k := by
  unfold readSpan at h ⊢
  split at h
  · next hfit =>
    rw [if_pos hfit]
    exact ⟨hfit, rfl⟩
  · cases h

/-- A string that is not empty was read with its length field and its terminator. -/
theorem readString_length {buf s : Bytes} (h : (readString buf 0).value = some s) :
    s = [] ∨ s.length + 5 ≤ buf.length := by
  obtain ⟨len, hlen, hrest⟩ := Reading.andThen_eq_some h
  obtain ⟨num, hnum, -⟩ := Option.map_eq_some_iff.mp hlen
  obtain ⟨word, hword, -⟩ := Option.map_eq_some_iff.mp hnum
  have hpos : ((readWord 4 buf 0).map UInt32.ofNat).pos = 4 := (readSpan_eq_some hword).2
  rw [hpos] at hrest
  split at hrest
  · cases hrest
    exact .inl rfl
  · right
    obtain ⟨bytes, hbytes, hnul⟩ := Reading.andThen_eq_some hrest
    obtain ⟨nul, hread, rfl⟩ := Option.map_eq_some_iff.mp hnul
    have hcontent := length_readSpan hbytes
    have hend := (readSpan_eq_some hread).1
    rw [(readSpan_eq_some hbytes).2] at hend
    omega

/-- A sample is what follows the headers and the two ids. -/
theorem dataOf_length {sessionId : UInt8} {frame sample : Bytes} {id : UInt16}
    (h : dataOf sessionId frame = some (id, sample)) :
    writeDataPrefix sessionId + sample.length ≤ frame.length := by
  unfold dataOf submessageOf at h
  rcases hdrop : frame.drop (msgHeaderLen sessionId) with _ | ⟨a, _ | ⟨b, _ | ⟨c, _ | ⟨d, rest⟩⟩⟩⟩
  all_goals simp only [hdrop] at h
  all_goals try cases h
  have hlen := congrArg List.length hdrop
  split at h
  · unfold sampleOf at h
    split at h
    · next hi lo body hpayload =>
      cases h
      have hpayload' := congrArg List.length hpayload
      simp only [List.length_take, List.length_drop, List.length_cons, writeDataPrefix] at *
      omega
    · cases h
  · cases h

theorem length_new (payload : Bytes) : (CdrReader.new payload).buf.length = payload.length - 4 := by
  unfold CdrReader.new
  split
  · exact List.length_drop
  · simp only [List.length_nil]
    omega

section
variable [t : Target]

/-- The content of a string that was decoded is what the reader found. -/
theorem readString_decoded {N : Nat} {m : StringOwned N} {r : CdrReader} (hsane : Sane r.buf r.pos)
    (hsize : r.buf.length + 16 ≤ 2 ^ t.usizeBits)
    (h : ((Message.deserialize : ReadCdr (StringOwned N)).run r).1 = .ok m) :
    (readString r.buf r.pos).value = some (utf8 m.data) := by
  obtain ⟨bytes, r', hrun, hrest⟩ := bind_eq_ok (Prod.ext h rfl)
  have hclean : ¬ Poisoned t.usizeBits r.buf r.pos := by
    intro hpoison
    have hpanic := stringBytes_panics hsane hsize hpoison
    rw [hrun] at hpanic
    cases hpanic
  have hdoes : Does stringBytes r (readString r.buf r.pos) := does_stringBytes hsane hsize hclean
  have hread : (readString r.buf r.pos).value = some bytes := by
    rw [hdoes] at hrun
    exact Reading.outcome_eq_ok.mp (congrArg Prod.fst hrun)
  have hutf : fromUtf8 bytes = some m.data := by
    cases hutf : fromUtf8 bytes with
    | none =>
      rw [hutf] at hrest
      cases hrest
    | some s =>
      rw [hutf] at hrest
      simp only at hrest
      split at hrest
      · cases hrest
        rfl
      · cases hrest
  rw [hread, utf8_of_fromUtf8 hutf]

/-- No value that was decoded serializes to more than was read, if it is long at all. -/
theorem length_decoded {k : Ros2Msg} {sample : Bytes} {v : k.Sample}
    (hsize : sample.length + 16 ≤ 2 ^ t.usizeBits)
    (h : Subscription.decode k.Sample sample = .ok v) :
    (bodyBytes v).length ≤ max 312 (sample.length - 4) := by
  cases k with
  | float32 => exact Nat.le_trans (Nat.le_of_eq (length_float32 v)) (by omega)
  | int32 => exact Nat.le_trans (Nat.le_of_eq (length_int32 v)) (by omega)
  | string => cases h
  | stringOwned N =>
    have hbuf := length_new sample
    have hread := readString_decoded (sane_of_le (Nat.zero_le _)) (by omega) h
    have hbody : bodyBytes v = Cdr.encode 0 (Ros2Msg.reference (.stringOwned N) .zero v) :=
      serialize_reference (.stringOwned N) v
    have hlen : (bodyBytes v).length = (utf8 (StringOwned.data v)).length + 5 := by
      rw [hbody]
      exact Cdr.length_text _
    rcases readString_length hread with hnil | hlong
    · rw [hnil, List.length_nil] at hlen
      omega
    · omega
  | range => exact Nat.le_trans (Nat.le_of_eq (length_range v)) (by omega)
  | imu => exact Nat.le_trans (Nat.le_of_eq (length_imu v)) (by omega)
  | twist => exact Nat.le_trans (Nat.le_of_eq (length_twist v)) (by omega)

/-- The value has what it takes to come back. -/
theorem encodable_of_decoded {k : Ros2Msg} {sample : Bytes} {v : k.Sample}
    (hsize : sample.length + 16 ≤ 2 ^ t.usizeBits)
    (h : Subscription.decode k.Sample sample = .ok v) : k.Encodable v := by
  cases k with
  | string => cases h
  | stringOwned N =>
    have hbuf := length_new sample
    exact stringOwned_short (sane_of_le (Nat.zero_le _)) (by omega) h
  | _ => trivial

/-- Whatever a slot of any session accepts, any session publishes whole, and it is decoded as
the same value again, behind any encapsulation header. -/
theorem accepted_value_republishes {T σ : Type} [Statics σ] [ReadWrite T] {k : Ros2Msg}
    {sessionId : UInt8} {frame sample : Bytes} {id : UInt16} {v : k.Sample}
    (hframe : frame.length ≤ rxBufSize) (hdata : dataOf sessionId frame = some (id, sample))
    (hdecode : Subscription.decode k.Sample sample = .ok v) (w : World T σ)
    (pub : Publisher k.Sample) :
    (∃ buf, (publish pub v).run w = (Framing.writeFramed (writeDataMessage w pub (bodyBytes v))).run
      (w.sending (writeDataMessage w pub (bodyBytes v)) buf)) ∧
    ∀ encap : Bytes, encap.length = 4 →
      Subscription.decode k.Sample (encap ++ bodyBytes v) = .ok v := by
  have h32 := two_pow_32_le (t := t)
  have hsample := dataOf_length hdata
  have hheaders := writeDataPrefix_le w.session.sessionId
  have hheader : 12 ≤ writeDataPrefix sessionId := by
    rcases msgHeaderLen_cases sessionId with h | h <;> simp only [writeDataPrefix, h] <;> omega
  simp only [rxBufSize] at hframe
  have hlen := length_decoded (by omega) hdecode
  constructor
  · have hfit : writeDataPrefix w.session.sessionId + (bodyBytes v).length ≤ txBufSize := by
      simp only [txBufSize]
      omega
    rcases publish_run w pub v with ⟨buf, hsent⟩ | ⟨hlong, -⟩
    · rw [List.take_of_length_le (by omega)] at hsent
      exact ⟨buf, hsent⟩
    · exact absurd hfit (Nat.not_le.mpr hlong)
  · intro encap hencap
    have hencodable := encodable_of_decoded (by omega) hdecode
    have hbody : bodyBytes v = Cdr.encode 0 (k.reference .zero v) := serialize_reference k v
    have hreturned := message_returned k hencodable .zero (by rw [← hbody]; omega)
    rw [Subscription.decode, new_append hencap, hbody]
    cases k with
    | string => cases hdecode
    | _ => exact hreturned

end

def keyedSession : World Wire Empty := start ⟨[], [], []⟩ 0x01 ⟨1, 2, 3, 4⟩ []

def helloWriter : Publisher (StringOwned 8) := ⟨0x15⟩

def hello : StringOwned 8 := ⟨"hello", by decide⟩

/-- A string that is read by a session without a client key goes out over one with it. -/
theorem hello_republishes : letI := rp2040 true
    (∃ buf, (publish helloWriter hello).run keyedSession =
      (Framing.writeFramed (writeDataMessage keyedSession helloWriter (bodyBytes hello))).run
        (keyedSession.sending (writeDataMessage keyedSession helloWriter (bodyBytes hello)) buf)) ∧
    ∀ encap : Bytes, encap.length = 4 →
      Subscription.decode (StringOwned 8) (encap ++ bodyBytes hello) = .ok hello := by
  have hdata : dataOf 0x81 (dataFrame 0x0016 ([0, 1, 0, 0] ++ cdrText (ascii "hello"))) =
      some (0x0016, [0, 1, 0, 0] ++ cdrText (ascii "hello")) := by decide
  have hdecode : letI := rp2040 true
      Subscription.decode (StringOwned 8) ([0, 1, 0, 0] ++ cdrText (ascii "hello")) =
        .ok hello := by decide +kernel
  have hframe : (dataFrame 0x0016 ([0, 1, 0, 0] ++ cdrText (ascii "hello"))).length ≤ rxBufSize := by
    decide
  generalize rp2040 true = target at hdecode ⊢
  generalize dataFrame 0x0016 ([0, 1, 0, 0] ++ cdrText (ascii "hello")) = frame at hdata hframe
  generalize hello = v at hdecode ⊢
  exact accepted_value_republishes (k := .stringOwned 8) hframe hdata hdecode keyedSession
    helloWriter

end MicroXrceDds
