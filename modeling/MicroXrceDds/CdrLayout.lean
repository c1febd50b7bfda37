import MicroXrceDds.Library.Position
import MicroXrceDds.CdrWriter

/-!
# The bounded writer against the unbounded one

A writer call goes through exactly if every block it copies starts inside the buffer or
right at its end, and no string is too long for the sum in its length field. Then it has
written what it emits on a buffer that never ends, as far as that fits. Otherwise it
panics.
-/
namespace MicroXrceDds

open Prog LittleEndian

variable {n : Nat}

theorem length_padTo (k : Nat) (out : Bytes) :
    (padTo k out).length = out.length + padding k out.length := by
  rw [padTo, List.length_append, List.length_replicate]

theorem padding_lt {k : Nat} (hk : 0 < k) (pos : Nat) : padding k pos < k := by
  have h := Nat.mod_lt pos hk
  unfold padding
  split <;> omega

theorem padding_dvd {k : Nat} (hk : 0 < k) (pos : Nat) : (pos + padding k pos) % k = 0 := by
  have h := Nat.mod_lt pos hk
  have hdiv := Nat.div_add_mod pos k
  unfold padding
  split
  · next h0 => exact h0
  · have he : pos + (k - pos % k) = k * (pos / k + 1) := by
      rw [Nat.mul_add, Nat.mul_one]
      omega
    rw [he, Nat.mul_mod_right]

theorem padding_eq_zero {k pos : Nat} (h : pos % k = 0) : padding k pos = 0 := if_pos h

/-- No call takes output back. -/
theorem length_le_emit (out : Bytes) (c : CdrCall) : out.length ≤ (c.emit out).length := by
  cases c <;> simp only [CdrCall.emit, List.length_append, length_padTo] <;> omega

theorem length_le_emitAll (calls : List CdrCall) (out : Bytes) :
    out.length ≤ (emitAll out calls).length := by
  induction calls generalizing out with
  | nil => exact Nat.le_refl _
  | cons c calls ih => exact Nat.le_trans (length_le_emit out c) (ih (c.emit out))

theorem emitAll_cons (out : Bytes) (c : CdrCall) (calls : List CdrCall) :
    emitAll out (c :: calls) = emitAll (c.emit out) calls := rfl

/-- Where a call that starts at `pos` ends. -/
def CdrCall.endsAt (pos : Nat) : CdrCall → Nat
  | .header => pos + 4
  | .u8Val _ => pos + 1
  | .boolVal _ => pos + 1
  | .i32Val _ => pos + padding 4 pos + 4
  | .u32Val _ => pos + padding 4 pos + 4
  | .f32Val _ => pos + padding 4 pos + 4
  | .f64Val _ => pos + padding 8 pos + 8
  | .string s => pos + padding 4 pos + 4 + s.length + 1
  | .f64Array vs => pos + padding 8 pos + 8 * vs.length
  | .f64Slice vs => pos + padding 8 pos + 8 * vs.length

theorem length_doubles (vs : List UInt64) :
    (vs.flatMap fun v => leBytes 8 v.toNat).length = 8 * vs.length := by
  induction vs with
  | nil => rfl
  | cons v vs ih =>
    rw [List.flatMap_cons, List.length_append, length_leBytes, ih, List.length_cons]
    omega

theorem length_emit (out : Bytes) (c : CdrCall) : (c.emit out).length = c.endsAt out.length := by
  cases c <;> simp only [CdrCall.emit, CdrCall.endsAt, List.length_append, length_padTo,
    length_leBytes, length_doubles, List.length_cons, List.length_nil]

theorem length_emitAll (calls : List CdrCall) (out : Bytes) :
    (emitAll out calls).length = calls.foldl CdrCall.endsAt out.length := by
  induction calls generalizing out with
  | nil => rfl
  | cons c calls ih => rw [emitAll_cons, ih, length_emit, List.foldl_cons]

theorem length_bodyOf (calls : List CdrCall) :
    (bodyOf calls).length = calls.foldl CdrCall.endsAt 0 := length_emitAll calls []

/-- The starts of the blocks that a call copies when it begins at `pos`. Padding is written
byte by byte and is not one of them. -/
def CdrCall.blocks (pos : Nat) : CdrCall → List Nat
  | .header => [pos]
  | .u8Val _ => [pos]
  | .boolVal _ => [pos]
  | .i32Val _ => [pos + padding 4 pos]
  | .u32Val _ => [pos + padding 4 pos]
  | .f32Val _ => [pos + padding 4 pos]
  | .f64Val _ => [pos + padding 8 pos]
  | .string s =>
    [pos + padding 4 pos, pos + padding 4 pos + 4, pos + padding 4 pos + 4 + s.length]
  | .f64Array vs => List.range' (pos + padding 8 pos) vs.length 8
  | .f64Slice vs => List.range' (pos + padding 8 pos) vs.length 8

/-- The same for a sequence of calls. -/
def blockStarts (pos : Nat) : List CdrCall → List Nat
  | [] => []
  | c :: calls => c.blocks pos ++ blockStarts (c.endsAt pos) calls

/-- A block starts inside the call. -/
theorem CdrCall.blocks_le {c : CdrCall} {pos i : Nat} (hi : i ∈ c.blocks pos) :
    i ≤ c.endsAt pos := by
  cases c with
  | f64Array vs =>
    obtain ⟨k, hk, rfl⟩ := List.mem_range'.mp hi
    simp only [CdrCall.endsAt]
    omega
  | f64Slice vs =>
    obtain ⟨k, hk, rfl⟩ := List.mem_range'.mp hi
    simp only [CdrCall.endsAt]
    omega
  | _ =>
    simp only [CdrCall.blocks, List.mem_cons, List.not_mem_nil, or_false] at hi
    simp only [CdrCall.endsAt]
    omega

/-- Adding the terminator to the length of a string panics. -/
def LengthOverflows [t : Target] (s : Bytes) : Prop :=
  t.overflowChecks = true ∧ 2 ^ 32 ≤ s.length % 2 ^ 32 + 1

section
variable [t : Target] {ε S : Type} {s : Bytes}

theorem addIn_overflows (h : LengthOverflows s) :
    (addIn 32 (s.length % 2 ^ 32) 1 : Prog ε S Nat) = Prog.panic := by
  rw [addIn, if_neg (Nat.not_lt.mpr h.2), if_pos h.1]

theorem addIn_not_overflows (h : ¬ LengthOverflows s) :
    ∃ v, (addIn 32 (s.length % 2 ^ 32) 1 : Prog ε S Nat) = pure v ∧
      v % 2 ^ 32 = (s.length % 2 ^ 32 + 1) % 2 ^ 32 := by
  by_cases hlt : s.length % 2 ^ 32 + 1 < 2 ^ 32
  · exact ⟨_, addIn_of_lt hlt, rfl⟩
  · have hchecks : ¬ t.overflowChecks = true := fun hc => h ⟨hc, Nat.le_of_not_lt hlt⟩
    refine ⟨(s.length % 2 ^ 32 + 1) % 2 ^ 32, ?_, Nat.mod_mod _ _⟩
    unfold addIn
    rw [if_neg hlt, if_neg hchecks]

/-- Only a string of four gigabytes does that. -/
theorem LengthOverflows.le (h : LengthOverflows s) : 2 ^ 32 - 1 ≤ s.length := by
  have hsum := h.2
  omega

end

/-- The writer has produced `out`: its position counts all of it, its buffer holds
the part that fits. -/
structure CdrWriter.Wrote (orig : Buffer UInt8 n) (out : Bytes) (w : CdrWriter n) : Prop where
  pos : w.pos = out.length
  filled : Buffer.Filled orig out w.buf

namespace CdrWriter

theorem wrote_new (buf : Buffer UInt8 n) : Wrote buf [] (new buf) :=
  ⟨rfl, Buffer.filled_nil buf⟩

/-- A block that starts inside the buffer, or right at its end, is clipped to it. -/
theorem raw_run {bs : Bytes} {w : CdrWriter n} (h : w.pos ≤ n) :
    (raw bs).run w =
      (.ok (), ⟨w.buf.overwrite w.pos (bs.take (n - w.pos)), w.pos + bs.length⟩) := by
  have hfit : w.pos + min bs.length (n - w.pos) ≤ n := by omega
  have htake : bs.take (min bs.length (n - w.pos)) = bs.take (n - w.pos) := by
    rw [List.take_eq_take_iff]
    omega
  simp only [raw, if_pos hfit, htake]

theorem raw_past {bs : Bytes} {w : CdrWriter n} (h : n < w.pos) :
    (raw bs).run w = (.panic, w) := by
  have hpast : ¬ w.pos + min bs.length (n - w.pos) ≤ n := by omega
  simp only [raw, if_neg hpast]

theorem align_run (k : Nat) (w : CdrWriter n) :
    (align k).run w = (.ok (), padBy (padding k w.pos) w) := by
  simp only [align, run_modify, padding]
  by_cases hrem : w.pos % k = 0
  · simp [hrem, padBy]
  · simp [hrem]

section
variable {orig : Buffer UInt8 n}

theorem Wrote.padOne {out : Bytes} {w : CdrWriter n} (hw : Wrote orig out w) :
    Wrote orig (out ++ [0]) w.padOne := by
  refine ⟨by simp only [CdrWriter.padOne, hw.pos, List.length_append, List.length_singleton], ?_⟩
  simp only [CdrWriter.padOne, hw.pos]
  split
  · next hlt =>
    have h := hw.filled.overwrite (Nat.le_of_lt hlt) [0]
    rwa [List.take_of_length_le (by rw [List.length_singleton]; omega)] at h
  · next hge => exact hw.filled.past (by omega) [0]

theorem Wrote.padBy {out : Bytes} {w : CdrWriter n} (hw : Wrote orig out w) (k : Nat) :
    Wrote orig (out ++ List.replicate k 0) (CdrWriter.padBy k w) := by
  induction k generalizing out w with
  | zero =>
    rw [List.replicate_zero, List.append_nil]
    exact hw
  | succ k ih =>
    have h := ih hw.padOne
    rwa [List.append_assoc, List.singleton_append, ← List.replicate_succ] at h

theorem align_goes (k : Nat) (out : Bytes) :
    Goes (Wrote orig) out (align k : WriteCdr n) True (.ok ()) (padTo k out) := by
  have hmove : Goes (Wrote orig) out (modify (padBy (padding k out.length)) : WriteCdr n) True
      (.ok ()) (padTo k out) := Goes.modify fun _ hw => hw.padBy _
  apply hmove.of_run
  intro w hw
  rw [align_run, hw.pos, run_modify]

/-- A block that starts past the end is the one thing that panics. -/
theorem raw_goes (bs out : Bytes) :
    Goes (Wrote orig) out (raw bs : WriteCdr n) (out.length ≤ n) (.ok ()) (out ++ bs) := by
  constructor
  · intro w hw hout
    rw [raw_run (by rwa [hw.pos])]
  · intro w hw hout _
    rw [raw_run (by rwa [hw.pos]), hw.pos]
    constructor
    · simp
    · exact hw.filled.overwrite hout bs
  · intro w hw hout
    rw [raw_past (by rw [hw.pos]; exact Nat.lt_of_not_le hout)]

theorem aligned_goes (k : Nat) (bs out : Bytes) :
    Goes (Wrote orig) out (do align k; raw bs : WriteCdr n)
      (∀ i ∈ [out.length + padding k out.length], i ≤ n) (.ok ()) (padTo k out ++ bs) := by
  apply ((align_goes k out).seq (raw_goes bs _)).congr
  simp [length_padTo]

theorem rawEach_goes (vs : List UInt64) (out : Bytes) :
    Goes (Wrote orig) out (rawEach vs : WriteCdr n)
      (∀ i ∈ List.range' out.length vs.length 8, i ≤ n) (.ok ())
      (out ++ vs.flatMap fun v => leBytes 8 v.toNat) := by
  induction vs generalizing out with
  | nil =>
    rw [List.flatMap_nil, List.append_nil]
    apply (Goes.pure ()).congr
    simp
  | cons v vs ih =>
    have h := (raw_goes (leBytes 8 v.toNat) out).seq (ih _)
    rw [List.append_assoc] at h
    rw [List.flatMap_cons]
    apply h.congr
    simp [List.range'_succ]

theorem alignedEach_goes (vs : List UInt64) (out : Bytes) :
    Goes (Wrote orig) out (do align 8; rawEach vs : WriteCdr n)
      (∀ i ∈ List.range' (out.length + padding 8 out.length) vs.length 8, i ≤ n) (.ok ())
      (padTo 8 out ++ vs.flatMap fun v => leBytes 8 v.toNat) := by
  apply ((align_goes 8 out).seq (rawEach_goes vs _)).congr
  simp [length_padTo]

variable [Target]

theorem string_goes {s : Bytes} (hs : ¬ LengthOverflows s) (out : Bytes) :
    Goes (Wrote orig) out (string s : WriteCdr n)
      (∀ i ∈ CdrCall.blocks out.length (.string s), i ≤ n) (.ok ())
      (CdrCall.emit out (.string s)) := by
  obtain ⟨v, hv, hmod⟩ := addIn_not_overflows (ε := Error) (S := CdrWriter n) hs
  have hbytes : leBytes 4 v = leBytes 4 (s.length + 1) := by
    apply leBytes_congr
    change v % 2 ^ 32 = (s.length + 1) % 2 ^ 32
    omega
  have hrun : (string s : WriteCdr n) = (do
      align 4
      raw (leBytes 4 (s.length + 1))
      raw s
      raw [0x00]) := by
    simp only [string, hv, hbytes, pure_bind]
  rw [hrun]
  apply ((align_goes 4 out).seq ((raw_goes (leBytes 4 (s.length + 1)) _).seq
    ((raw_goes s _).seq (raw_goes [0x00] _)))).congr
  simp [CdrCall.blocks, length_padTo, Nat.add_assoc]

/-- The sum in the length field panics wherever the string is written. -/
theorem string_overflows_goes {s : Bytes} (hs : LengthOverflows s) (out stop : Bytes) :
    Goes (Wrote orig) out (string s : WriteCdr n) False (.ok ()) stop := by
  have h := (align_goes 4 out : Goes (Wrote orig) _ _ _ _ _).seq
    (Goes.panic (α := Unit) (o := .ok ()) (j := stop))
  have hrun : (string s : WriteCdr n) = (do
      align 4
      Prog.panic) := by
    simp only [string, addIn_overflows hs]
    rfl
  rw [hrun]
  apply h.congr
  simp

end

end CdrWriter

section
variable [Target]

/-- What a call does, wherever it begins. -/
theorem CdrCall.goes (c : CdrCall) (orig : Buffer UInt8 n) (out : Bytes) :
    Goes (CdrWriter.Wrote orig) out (c.run : WriteCdr n)
      ((∀ i ∈ c.blocks out.length, i ≤ n) ∧ ∀ s, c = .string s → ¬ LengthOverflows s) (.ok ())
      (c.emit out) := by
  cases c with
  | header =>
    apply (CdrWriter.raw_goes [0x00, 0x01, 0x00, 0x00] out).congr
    simp [CdrCall.blocks]
  | u8Val v =>
    apply (CdrWriter.raw_goes [v] out).congr
    simp [CdrCall.blocks]
  | boolVal v =>
    apply (CdrWriter.raw_goes [if v then 1 else 0] out).congr
    simp [CdrCall.blocks]
  | i32Val v =>
    apply (CdrWriter.aligned_goes 4 (leBytes 4 v.toUInt32.toNat) out).congr
    simp [CdrCall.blocks]
  | u32Val v =>
    apply (CdrWriter.aligned_goes 4 (leBytes 4 v.toNat) out).congr
    simp [CdrCall.blocks]
  | f32Val v =>
    apply (CdrWriter.aligned_goes 4 (leBytes 4 v.toNat) out).congr
    simp [CdrCall.blocks]
  | f64Val v =>
    apply (CdrWriter.aligned_goes 8 (leBytes 8 v.toNat) out).congr
    simp [CdrCall.blocks]
  | string s =>
    by_cases hs : LengthOverflows s
    · apply (CdrWriter.string_overflows_goes hs out _).congr
      simp [hs]
    · apply (CdrWriter.string_goes hs out).congr
      simp [hs]
  | f64Array vs =>
    apply (CdrWriter.alignedEach_goes vs out).congr
    simp [CdrCall.blocks]
  | f64Slice vs =>
    apply (CdrWriter.alignedEach_goes vs out).congr
    simp [CdrCall.blocks]

theorem runCalls_goes (calls : List CdrCall) (orig : Buffer UInt8 n) (out : Bytes) :
    Goes (CdrWriter.Wrote orig) out (runCalls calls : WriteCdr n)
      ((∀ i ∈ blockStarts out.length calls, i ≤ n) ∧
        ∀ s, .string s ∈ calls → ¬ LengthOverflows s)
      (.ok ()) (emitAll out calls) := by
  induction calls generalizing out with
  | nil =>
    apply (Goes.pure ()).congr
    simp [blockStarts]
  | cons c calls ih =>
    apply ((c.goes orig out).seq (ih _)).congr
    simp only [blockStarts, length_emit, List.forall_mem_append, List.mem_cons]
    constructor
    · rintro ⟨⟨hblocks, hstring⟩, hrest, hstrings⟩
      refine ⟨⟨hblocks, hrest⟩, ?_⟩
      rintro s (hs | hs)
      · exact hstring s hs.symm
      · exact hstrings s hs
    · rintro ⟨⟨hblocks, hrest⟩, hstrings⟩
      refine ⟨⟨hblocks, ?_⟩, hrest, ?_⟩
      · intro s hs
        exact hstrings s (.inl hs.symm)
      · intro s hs
        exact hstrings s (.inr hs)

end

/-- On top of any earlier output the call adds what `g` adds, or it panics and the
output is longer than the buffer. -/
def Emits (p : WriteCdr n) (g : Bytes → Bytes) : Prop :=
  ∀ orig out w, CdrWriter.Wrote orig out w →
    ((p.run w).1 = .ok () ∧ CdrWriter.Wrote orig (g out) (p.run w).2) ∨
    ((p.run w).1 = .panic ∧ n < (g out).length)

namespace Emits

variable {p q : WriteCdr n} {g h : Bytes → Bytes}

theorem pure : Emits (Pure.pure () : WriteCdr n) id := fun _ _ _ hw => .inl ⟨rfl, hw⟩

theorem bind (hp : Emits p g) (hq : Emits q h) (hle : ∀ out, out.length ≤ (h out).length) :
    Emits (p >>= fun _ => q) (h ∘ g) := by
  intro orig out w hw
  rcases hp orig out w hw with ⟨hok, hw'⟩ | ⟨hpanic, hlong⟩
  · rw [bind_ok (Prod.ext hok rfl)]
    exact hq orig (g out) _ hw'
  · rw [bind_abort (Prod.ext hpanic rfl) rfl]
    exact .inr ⟨rfl, Nat.lt_of_lt_of_le hlong (hle (g out))⟩

end Emits

section
variable [Target]

/-- A call panics only on output that does not fit, if a string that overflows its length
field does not fit either. -/
theorem CdrCall.emits {c : CdrCall}
    (hc : ∀ s, c = .string s → LengthOverflows s → n < s.length) :
    Emits (c.run : WriteCdr n) c.emit := by
  intro orig out w hw
  have hgoes := c.goes orig out
  by_cases hsafe :
      (∀ i ∈ c.blocks out.length, i ≤ n) ∧ ∀ s, c = .string s → ¬ LengthOverflows s
  · exact .inl ⟨hgoes.ends w hw hsafe, hgoes.arrives w hw hsafe rfl⟩
  · refine .inr ⟨hgoes.panics w hw hsafe, ?_⟩
    rw [length_emit]
    by_cases hblocks : ∀ i ∈ c.blocks out.length, i ≤ n
    · simp only [not_and, not_forall, not_not] at hsafe
      obtain ⟨s, rfl, hs⟩ := hsafe hblocks
      have hlong := hc s rfl hs
      simp only [CdrCall.endsAt]
      omega
    · simp only [not_forall, Nat.not_le] at hblocks
      obtain ⟨i, hi, hlt⟩ := hblocks
      exact Nat.lt_of_lt_of_le hlt (CdrCall.blocks_le hi)

theorem runCalls_emits_of {calls : List CdrCall}
    (hc : ∀ s, .string s ∈ calls → LengthOverflows s → n < s.length) :
    Emits (runCalls calls : WriteCdr n) (fun out => emitAll out calls) := by
  induction calls with
  | nil => exact Emits.pure
  | cons c calls ih =>
    have hhead : Emits (c.run : WriteCdr n) c.emit := by
      apply CdrCall.emits
      rintro s rfl
      exact hc s (List.mem_cons_self ..)
    exact hhead.bind (ih fun s hs => hc s (List.mem_cons_of_mem c hs)) (length_le_emitAll calls)

theorem runCalls_emits {calls : List CdrCall}
    (hc : ∀ s, .string s ∈ calls → s.length < 2 ^ 32 - 1 ∨ n < 2 ^ 32 - 1) :
    Emits (runCalls calls : WriteCdr n) (fun out => emitAll out calls) := by
  apply runCalls_emits_of
  intro s hs hover
  have hlong := hover.le
  have hshort := hc s hs
  omega

end

end MicroXrceDds
