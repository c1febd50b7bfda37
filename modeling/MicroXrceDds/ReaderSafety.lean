import MicroXrceDds.CdrReading
import MicroXrceDds.Messages
import MicroXrceDds.Subscription

/-!
# Decoding untrusted samples

When reading a sample panics: exactly when a string is read whose length field takes the
position past the address space, which a 32-bit target allows. On every other input each
read returns a value or `Deserialization`.
-/
namespace MicroXrceDds

open Prog CdrReader

/-- `rx_buf` bounds every sample. -/
def sampleMax : Nat := 768

/-- The two ways in which a read may end. -/
def Safe {α : Type} (o : Outcome Error α) : Prop := (∃ v, o = .ok v) ∨ o = .err .deserialization

theorem Reading.safe {α : Type} (x : Reading α) : Safe x.outcome := by
  unfold Reading.outcome
  split
  · exact .inl ⟨_, rfl⟩
  · exact .inr rfl

/-- Each read of the sequence is safe, where the caller goes on after an error. -/
def ReadsSafely [Target] : List ReadCall → CdrReader → Prop
  | [], _ => True
  | c :: calls, r => Safe (c.run.run r).1 ∧ ReadsSafely calls (c.run.run r).2

/-- No string of the sequence is poisoned where it is read. -/
def Clean (bits : Nat) (buf : Bytes) : List ReadCall → Nat → Prop
  | [], _ => True
  | c :: calls, p =>
    (c = .stringBytes → ¬ Poisoned bits buf p) ∧ Clean bits buf calls (reading buf p c).pos

section
variable [t : Target]

theorem not_safe_of_poisoned {r : CdrReader} (h : Sane r.buf r.pos)
    (hsize : r.buf.length + 16 ≤ 2 ^ t.usizeBits) (hpoison : Poisoned t.usizeBits r.buf r.pos) :
    ¬ Safe ((ReadCall.stringBytes.run).run r).1 := by
  have hpanic := stringBytes_panics h hsize hpoison
  have hrun : ((ReadCall.stringBytes.run).run r).1 = .panic := by
    rw [ReadCall.run, bind_abort (Prod.ext hpanic rfl) rfl]
    rfl
  rw [hrun]
  rintro (⟨v, hv⟩ | hv) <;> cases hv

theorem readsSafely_iff (calls : List ReadCall) {r : CdrReader} (h : Sane r.buf r.pos)
    (hsize : r.buf.length + 16 ≤ 2 ^ t.usizeBits) :
    ReadsSafely calls r ↔ Clean t.usizeBits r.buf calls r.pos := by
  induction calls generalizing r with
  | nil => exact Iff.rfl
  | cons c calls ih =>
    by_cases hclean : c = .stringBytes → ¬ Poisoned t.usizeBits r.buf r.pos
    · have hdoes : c.run.run r = ((reading r.buf r.pos c).outcome,
          r.setPos (reading r.buf r.pos c).pos) := does_call c h hsize hclean
      have hrest := ih (r := r.setPos (reading r.buf r.pos c).pos) (h.reading c) hsize
      simp only [ReadsSafely, Clean, hdoes]
      exact ⟨fun hs => ⟨hclean, hrest.mp hs.2⟩, fun hs => ⟨Reading.safe _, hrest.mpr hs.2⟩⟩
    · have hpoison : c = .stringBytes ∧ Poisoned t.usizeBits r.buf r.pos := by
        simpa only [Classical.not_imp, not_not] using hclean
      obtain ⟨rfl, hpoison⟩ := hpoison
      exact ⟨fun hs => absurd hs.1 (not_safe_of_poisoned h hsize hpoison),
        fun hs => absurd hpoison (hs.1 rfl)⟩

/-- From every position the program is safe and stays within the buffer. -/
def Harmless {α : Type} (buf : Bytes) (p : ReadCdr α) : Prop :=
  ∀ q, Sane buf q → Safe (p.run ⟨buf, q⟩).1 ∧ ∃ q', (p.run ⟨buf, q⟩).2 = ⟨buf, q'⟩ ∧ Sane buf q'

end

theorem harmless_of_does {α : Type} {buf : Bytes} {p : ReadCdr α} {x : Nat → Reading α}
    (h : ∀ q, Sane buf q → Does p ⟨buf, q⟩ (x q) ∧ Sane buf (x q).pos) : Harmless buf p := by
  intro q hq
  obtain ⟨hdoes, hsane⟩ := h q hq
  rw [hdoes]
  exact ⟨Reading.safe _, _, rfl, hsane⟩

namespace Harmless

variable {α β : Type} {buf : Bytes} {p : ReadCdr α} {f : α → ReadCdr β}

theorem pure (a : α) : Harmless buf (Pure.pure a : ReadCdr α) :=
  fun q hq => ⟨.inl ⟨a, rfl⟩, q, rfl, hq⟩

theorem throw : Harmless buf (Prog.throw .deserialization : ReadCdr α) :=
  fun q hq => ⟨.inr rfl, q, rfl, hq⟩

/-- What follows a safe start only has to be harmless. -/
theorem after {q : Nat} (hp : Safe (p.run ⟨buf, q⟩).1 ∧
    ∃ q', (p.run ⟨buf, q⟩).2 = ⟨buf, q'⟩ ∧ Sane buf q') (hf : ∀ a, Harmless buf (f a)) :
    Safe ((p >>= f).run ⟨buf, q⟩).1 ∧
      ∃ q', ((p >>= f).run ⟨buf, q⟩).2 = ⟨buf, q'⟩ ∧ Sane buf q' := by
  obtain ⟨⟨a, ha⟩ | herr, q', hq', hsane⟩ := hp
  · rw [bind_ok (Prod.ext ha hq')]
    exact hf a q' hsane
  · rw [bind_abort (Prod.ext herr hq') rfl]
    exact ⟨.inr rfl, q', rfl, hsane⟩

theorem bind (hp : Harmless buf p) (hf : ∀ a, Harmless buf (f a)) : Harmless buf (p >>= f) :=
  fun q hq => after (hp q hq) hf

section
variable [t : Target] (hsize : buf.length + 16 ≤ 2 ^ t.usizeBits)
include hsize

theorem u8Val : Harmless buf CdrReader.u8Val :=
  harmless_of_does fun _ hq => ⟨does_u8Val (show buf.length < _ by omega), hq.reading .u8Val⟩

theorem i32Val : Harmless buf CdrReader.i32Val :=
  harmless_of_does fun _ hq => ⟨does_i32Val (hq.room (.inl rfl) hsize), hq.reading .i32Val⟩

theorem f32Val : Harmless buf CdrReader.f32Val :=
  harmless_of_does fun _ hq => ⟨does_u32Val (hq.room (.inl rfl) hsize), hq.reading .u32Val⟩

theorem f64Val : Harmless buf CdrReader.f64Val :=
  harmless_of_does fun _ hq => ⟨does_f64Val (hq.room (.inr rfl) hsize), hq.reading .f64Val⟩

theorem f64Array (n : Nat) : Harmless buf (CdrReader.f64Array n) :=
  harmless_of_does fun _ hq => ⟨does_f64Array n hq hsize, hq.reading (.f64Array n)⟩

end

end Harmless

/-- The types of `ros2::msg`. -/
inductive Ros2Msg where
  | float32 | int32 | string
  | stringOwned : Nat → Ros2Msg
  | range | imu | twist
  deriving DecidableEq, Repr

namespace Ros2Msg

def Sample : Ros2Msg → Type
  | .float32 => Float32
  | .int32 => StdInt32
  | .string => StdString
  | .stringOwned N => StringOwned N
  | .range => Range
  | .imu => Imu
  | .twist => Twist

instance [Target] : (k : Ros2Msg) → Message k.Sample
  | .float32 => inferInstanceAs (Message Float32)
  | .int32 => inferInstanceAs (Message StdInt32)
  | .string => inferInstanceAs (Message StdString)
  | .stringOwned N => inferInstanceAs (Message (StringOwned N))
  | .range => inferInstanceAs (Message Range)
  | .imu => inferInstanceAs (Message Imu)
  | .twist => inferInstanceAs (Message Twist)

/-- Where the body has the length field of the string that the deserializer reads. -/
def stringAt : Ros2Msg → Option Nat
  | .stringOwned _ => some 0
  | .range => some 8
  | .imu => some 8
  | _ => none

end Ros2Msg

/-- The one offset of a message with a string. -/
theorem cases_at {α : Type} {o : Outcome Error α} {P : Nat → Prop} {q : Nat}
    (h : (¬ P q → Safe o) ∧ (P q → o = .panic)) :
    ((∀ p, some q = some p → ¬ P p) → Safe o) ∧ (∀ p, some q = some p → P p → o = .panic) := by
  refine ⟨fun hclean => h.1 (hclean q rfl), fun p hp hpoison => ?_⟩
  cases hp
  exact h.2 hpoison

section
variable [t : Target] {buf : Bytes} {β : Type}

/-- A string and then something harmless. -/
theorem string_then {f : Bytes → ReadCdr β} (hsize : buf.length + 16 ≤ 2 ^ t.usizeBits)
    (hf : ∀ s, Harmless buf (f s)) {q : Nat} (hq : Sane buf q) :
    (¬ Poisoned t.usizeBits buf q → Safe ((stringBytes >>= f).run ⟨buf, q⟩).1) ∧
      (Poisoned t.usizeBits buf q → ((stringBytes >>= f).run ⟨buf, q⟩).1 = .panic) := by
  constructor
  · intro hclean
    have hdoes : Does stringBytes ⟨buf, q⟩ (readString buf q) := does_stringBytes hq hsize hclean
    refine (Harmless.after ?_ hf).1
    rw [hdoes]
    exact ⟨Reading.safe _, _, rfl, hq.string⟩
  · intro hpoison
    have hpanic := stringBytes_panics (r := ⟨buf, q⟩) hq hsize hpoison
    rw [bind_abort (Prod.ext hpanic rfl) rfl]
    rfl

/-- A header and then something harmless: the frame id is the string at offset 8. -/
theorem header_then {f : Unit → ReadCdr β} (hsize : buf.length + 16 ≤ 2 ^ t.usizeBits)
    (hf : ∀ a, Harmless buf (f a)) :
    (¬ Poisoned t.usizeBits buf 8 → Safe ((readHeader >>= f).run ⟨buf, 0⟩).1) ∧
      (Poisoned t.usizeBits buf 8 → ((readHeader >>= f).run ⟨buf, 0⟩).1 = .panic) := by
  have hzero : Sane buf 0 := sane_of_le (Nat.zero_le _)
  have hi32 : Does i32Val ⟨buf, 0⟩ _ := does_i32Val (hzero.room (.inl rfl) hsize)
  have hheader : readHeader >>= f = (do
      let _ ← i32Val
      let _ ← u32Val
      let _ ← stringBytes
      f ()) := by
    simp only [readHeader, bind_assoc, pure_bind]
  by_cases h8 : 8 ≤ buf.length
  · have hfour : Sane buf 4 := sane_of_le (by omega)
    have hu32 : Does u32Val ⟨buf, 4⟩ _ := does_u32Val (hfour.room (.inl rfl) hsize)
    rw [readWord_of_le (show alignedPos 4 0 + 4 ≤ buf.length from (by omega : 4 ≤ buf.length))] at hi32
    rw [readWord_of_le (show alignedPos 4 4 + 4 ≤ buf.length from h8)] at hu32
    have hrun : (readHeader >>= f).run ⟨buf, 0⟩ =
        (stringBytes >>= fun _ => f ()).run ⟨buf, 8⟩ := by
      rw [hheader]
      exact (bind_ok hi32 _).trans (bind_ok hu32 _)
    rw [hrun]
    exact string_then hsize (fun _ => hf ()) (sane_of_le h8)
  · have hshort : ¬ Poisoned t.usizeBits buf 8 := fun hpoison => h8 (Nat.le_of_add_right_le hpoison.1)
    refine ⟨fun _ => ?_, fun hpoison => absurd hpoison hshort⟩
    rw [hheader]
    by_cases h4 : 4 ≤ buf.length
    · have hfour : Sane buf 4 := sane_of_le h4
      have hu32 : Does u32Val ⟨buf, 4⟩ _ := does_u32Val (hfour.room (.inl rfl) hsize)
      rw [readWord_of_le (show alignedPos 4 0 + 4 ≤ buf.length from h4)] at hi32
      rw [readWord_of_lt (show buf.length < alignedPos 4 4 + 4 from Nat.lt_of_not_le h8)] at hu32
      rw [(bind_ok hi32 _).trans (bind_abort hu32 rfl _)]
      exact .inr rfl
    · rw [readWord_of_lt (show buf.length < alignedPos 4 0 + 4 from Nat.lt_of_not_le h4)] at hi32
      rw [bind_abort hi32 rfl]
      exact .inr rfl

/-- A message is decoded safely, or its one string is poisoned and decoding panics. -/
theorem decode_cases (k : Ros2Msg) (payload : Bytes)
    (hsize : payload.length + 16 ≤ 2 ^ t.usizeBits) :
    ((∀ p, k.stringAt = some p → ¬ Poisoned t.usizeBits (CdrReader.new payload).buf p) →
      Safe (Subscription.decode k.Sample payload)) ∧
    (∀ p, k.stringAt = some p → Poisoned t.usizeBits (CdrReader.new payload).buf p →
      Subscription.decode k.Sample payload = .panic) := by
  have hnew : (CdrReader.new payload).buf.length + 16 ≤ 2 ^ t.usizeBits := by
    have hlen : (CdrReader.new payload).buf.length ≤ payload.length := by
      simp only [CdrReader.new]
      split
      · rw [List.length_drop]
        omega
      · exact Nat.zero_le _
    omega
  have hzero : Sane (CdrReader.new payload).buf 0 := sane_of_le (Nat.zero_le _)
  have hf32 := Harmless.f32Val hnew
  have hf64 := Harmless.f64Val hnew
  have harray (n : Nat) := Harmless.f64Array hnew n
  have hvector : Harmless (CdrReader.new payload).buf Vector3.deserializeInline :=
    hf64.bind fun x => hf64.bind fun y => hf64.bind fun z => Harmless.pure _
  cases k with
  | float32 => exact ⟨fun _ => ((hf32.bind fun v => Harmless.pure _) 0 hzero).1, nofun⟩
  | int32 =>
    exact ⟨fun _ => (((Harmless.i32Val hnew).bind fun v => Harmless.pure _) 0 hzero).1, nofun⟩
  | string => exact ⟨fun _ => .inr rfl, nofun⟩
  | stringOwned N =>
    refine cases_at (string_then hnew (fun bytes => ?_) hzero)
    cases fromUtf8 bytes with
    | none => exact Harmless.throw
    | some s =>
      simp only
      split
      · exact Harmless.pure _
      · exact Harmless.throw
  | range =>
    exact cases_at (header_then hnew fun _ => (Harmless.u8Val hnew).bind fun radiationType =>
      hf32.bind fun fieldOfView => hf32.bind fun minRange => hf32.bind fun maxRange =>
      hf32.bind fun range => hf32.bind fun variance => Harmless.pure _)
  | imu =>
    exact cases_at (header_then hnew fun _ => (harray 4).bind fun orientation =>
      (harray 9).bind fun orientationCovariance => (harray 3).bind fun angularVelocity =>
      (harray 9).bind fun angularVelocityCovariance => (harray 3).bind fun linearAcceleration =>
      (harray 9).bind fun linearAccelerationCovariance => Harmless.pure _)
  | twist =>
    exact ⟨fun _ => ((hvector.bind fun linear => hvector.bind fun angular => Harmless.pure _) 0
      hzero).1, nofun⟩

end

theorem trySend_returned {M : Type} {N : Nat} (v : M) (sub : Subscription M N) :
    ((Subscription.trySend v).run sub).1.Returned := by
  rw [Subscription.trySend, run_get_bind]
  cases sub.inbox.push v with
  | none => trivial
  | some inbox => trivial

/-- Delivery returns where decoding is safe, and panics where decoding does. -/
theorem tryDeliver_returned_iff {M : Type} [Message M] {N : Nat} (sub : Subscription M N)
    {payload : Bytes} {P : Prop} (hsafe : P → Safe (Subscription.decode M payload))
    (hpanic : ¬ P → Subscription.decode M payload = .panic) :
    ((Subscription.tryDeliver payload).run sub).1.Returned ↔ P := by
  constructor
  · intro hret
    by_contra hP
    rw [Subscription.tryDeliver, hpanic hP] at hret
    exact hret
  · intro hP
    rw [Subscription.tryDeliver]
    rcases hsafe hP with ⟨v, hv⟩ | herr
    · rw [hv]
      exact trySend_returned v sub
    · rw [herr]
      trivial

/-- Every read of every sequence is safe, and every sample of every message type is
delivered or refused, exactly where no string is poisoned. On a target with overflow
checks this also says that no position overflows. -/
theorem decoding_safe_iff [t : Target] :
    (∀ (buf : Bytes) (calls : List ReadCall), buf.length ≤ sampleMax →
      (ReadsSafely calls (CdrReader.fromBody buf) ↔ Clean t.usizeBits buf calls 0)) ∧
    ∀ (k : Ros2Msg) (N : Nat) (sub : Subscription k.Sample N) (payload : Bytes),
      payload.length ≤ sampleMax →
      (((Subscription.tryDeliver payload).run sub).1.Returned ↔
        ∀ p, k.stringAt = some p → ¬ Poisoned t.usizeBits (CdrReader.new payload).buf p) := by
  have hroom {len : Nat} (h : len ≤ sampleMax) : len + 16 ≤ 2 ^ t.usizeBits := by
    have hbits := two_pow_32_le (t := t)
    have hmax : sampleMax = 768 := rfl
    omega
  constructor
  · intro buf calls hlen
    exact readsSafely_iff calls (sane_of_le (Nat.zero_le _)) (hroom hlen)
  · intro k N sub payload hlen
    have h := decode_cases k payload (hroom hlen)
    refine tryDeliver_returned_iff sub h.1 fun hpoison => ?_
    simp only [not_forall, not_not] at hpoison
    obtain ⟨p, hp, hpoison⟩ := hpoison
    exact h.2 p hp hpoison

/-- A sample of `Range` whose frame id claims to be 2³² − 1 bytes long. -/
def poisonedRange : Bytes := [0, 1, 0, 0] ++ List.replicate 8 0 ++ [0xFF, 0xFF, 0xFF, 0xFF]

theorem range_sample_panics : ¬ ∀ overflowChecks,
    letI := rp2040 overflowChecks
    ((Subscription.tryDeliver poisonedRange).run
      (Subscription.new : Subscription Range 4)).1.Returned := by
  have hpanic :
      letI := rp2040 false
      ((Subscription.tryDeliver poisonedRange).run
        (Subscription.new : Subscription Range 4)).1 = .panic := by decide
  intro h
  have hret := h false
  rw [hpanic] at hret
  exact hret

end MicroXrceDds
