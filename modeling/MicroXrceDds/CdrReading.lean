import MicroXrceDds.CdrLayout
import MicroXrceDds.CdrReader

/-!
# What the reads mean

Each read of `CdrReader` as a function of the buffer and the position, in arithmetic
without a width, and the condition under which the code on a given machine does just
that: a string length that overflows the position is the only thing in the way.
-/
namespace MicroXrceDds

open Prog LittleEndian

/-- A value of the format. Floats are bit patterns. -/
inductive CdrValue where
  | u8 : UInt8 → CdrValue
  | bool : Bool → CdrValue
  | i32 : Int32 → CdrValue
  | u32 : UInt32 → CdrValue
  | f32 : UInt32 → CdrValue
  | f64 : UInt64 → CdrValue
  | f64s : List UInt64 → CdrValue
  | string : Bytes → CdrValue
  deriving DecidableEq, Repr

/-- One call of a public reader method. -/
inductive ReadCall where
  | u8Val | boolVal | i32Val | u32Val | f32Val | f64Val
  | f64Array : Nat → ReadCall
  | stringBytes
  deriving DecidableEq, Repr

def ReadCall.run [Target] : ReadCall → ReadCdr CdrValue
  | .u8Val => CdrReader.u8Val >>= fun v => pure (.u8 v)
  | .boolVal => CdrReader.boolVal >>= fun v => pure (.bool v)
  | .i32Val => CdrReader.i32Val >>= fun v => pure (.i32 v)
  | .u32Val => CdrReader.u32Val >>= fun v => pure (.u32 v)
  | .f32Val => CdrReader.f32Val >>= fun v => pure (.f32 v)
  | .f64Val => CdrReader.f64Val >>= fun v => pure (.f64 v)
  | .f64Array n => CdrReader.f64Array n >>= fun vs => pure (.f64s vs.toList)
  | .stringBytes => CdrReader.stringBytes >>= fun s => pure (.string s)

namespace CdrReader

/-- The next position that is a multiple of `k`. -/
def alignedPos (k p : Nat) : Nat := p + padding k p

/-- Bytes `p` to `p + k`. -/
def span (buf : Bytes) (p k : Nat) : Bytes := (buf.drop p).take k

/-- A value, or the error `Deserialization`, and the position after the read. -/
structure Reading (α : Type) where
  value : Option α
  pos : Nat

namespace Reading

variable {α β : Type}

def map (f : α → β) (x : Reading α) : Reading β := ⟨x.value.map f, x.pos⟩

def andThen (x : Reading α) (f : α → Nat → Reading β) : Reading β :=
  match x.value with
  | some v => f v x.pos
  | none => ⟨none, x.pos⟩

def outcome (x : Reading α) : Outcome Error α :=
  match x.value with
  | some v => .ok v
  | none => .err .deserialization

theorem map_map {γ : Type} (f : α → β) (g : β → γ) (x : Reading α) :
    (x.map f).map g = x.map fun v => g (f v) := by
  simp only [map, Option.map_map, Function.comp_def]

theorem outcome_eq_ok {x : Reading α} {v : α} : x.outcome = .ok v ↔ x.value = some v := by
  unfold outcome
  cases x.value <;> simp

theorem andThen_eq_some {x : Reading α} {f : α → Nat → Reading β} {b : β}
    (h : (x.andThen f).value = some b) :
    ∃ a, x.value = some a ∧ (f a x.pos).value = some b := by
  unfold Reading.andThen at h
  cases hx : x.value with
  | none =>
    rw [hx] at h
    cases h
  | some a =>
    rw [hx] at h
    exact ⟨a, rfl, h⟩

end Reading

def readByte (buf : Bytes) (p : Nat) : Reading UInt8 :=
  match buf[p]? with
  | some b => ⟨some b, p + 1⟩
  | none => ⟨none, p⟩

def readSpan (k : Nat) (buf : Bytes) (p : Nat) : Reading Bytes :=
  if p + k ≤ buf.length then ⟨some (span buf p k), p + k⟩ else ⟨none, p⟩

/-- A number of `k` bytes on a `k`-byte boundary. -/
def readWord (k : Nat) (buf : Bytes) (p : Nat) : Reading Nat :=
  (readSpan k buf (alignedPos k p)).map leNat

theorem readWord_of_le {k : Nat} {buf : Bytes} {p : Nat} (h : alignedPos k p + k ≤ buf.length) :
    readWord k buf p = ⟨some (leNat (span buf (alignedPos k p) k)), alignedPos k p + k⟩ := by
  simp only [readWord, readSpan, if_pos h, Reading.map, Option.map_some]

theorem readWord_of_lt {k : Nat} {buf : Bytes} {p : Nat} (h : buf.length < alignedPos k p + k) :
    readWord k buf p = ⟨none, alignedPos k p⟩ := by
  simp only [readWord, readSpan, if_neg (Nat.not_le.mpr h), Reading.map, Option.map_none]

/-- A length field is a 32-bit number. -/
theorem toNat_word (buf : Bytes) (p : Nat) :
    (UInt32.ofNat (leNat (span buf p 4))).toNat = leNat (span buf p 4) := by
  have hlt := leNat_lt (span buf p 4)
  have hlen : (span buf p 4).length ≤ 4 := by
    rw [span, List.length_take]
    omega
  have hpow : 256 ^ (span buf p 4).length ≤ 256 ^ 4 := Nat.pow_le_pow_right (by decide) hlen
  rw [UInt32.toNat_ofNat']
  omega

def readDoubles (buf : Bytes) : (n : Nat) → Nat → Reading (List.Vector UInt64 n)
  | 0, p => ⟨some List.Vector.nil, p⟩
  | n + 1, p => ((readWord 8 buf p).map UInt64.ofNat).andThen fun v q =>
    (readDoubles buf n q).map fun vs => v ::ᵥ vs

/-- The length counts the terminator; zero is an empty string without one. -/
def readString (buf : Bytes) (p : Nat) : Reading Bytes :=
  ((readWord 4 buf p).map UInt32.ofNat).andThen fun len q =>
    if len.toNat = 0 then ⟨some [], q⟩
    else (readSpan (len.toNat - 1) buf q).andThen fun s q' => (readSpan 1 buf q').map fun _ => s

theorem length_readSpan {k p : Nat} {buf s : Bytes} (h : (readSpan k buf p).value = some s) :
    s.length ≤ k := by
  unfold readSpan at h
  split at h
  · cases h
    exact List.length_take_le _ _
  · cases h

/-- The reader never returns a string that the length field cannot describe. -/
theorem readString_short {buf s : Bytes} {p : Nat} (h : (readString buf p).value = some s) :
    s.length < 2 ^ 32 - 1 := by
  obtain ⟨len, -, hrest⟩ := Reading.andThen_eq_some h
  have hlen := len.toNat_lt
  split at hrest
  · cases hrest
    decide
  · next hzero =>
    obtain ⟨bytes, hbytes, hnul⟩ := Reading.andThen_eq_some hrest
    obtain ⟨-, -, rfl⟩ := Option.map_eq_some_iff.mp hnul
    have hspan := length_readSpan hbytes
    omega

def reading (buf : Bytes) (p : Nat) : ReadCall → Reading CdrValue
  | .u8Val => (readByte buf p).map .u8
  | .boolVal => (readByte buf p).map fun b => .bool (b != 0)
  | .i32Val => (readWord 4 buf p).map fun n => .i32 (UInt32.ofNat n).toInt32
  | .u32Val => (readWord 4 buf p).map fun n => .u32 (UInt32.ofNat n)
  | .f32Val => (readWord 4 buf p).map fun n => .f32 (UInt32.ofNat n)
  | .f64Val => (readWord 8 buf p).map fun n => .f64 (UInt64.ofNat n)
  | .f64Array n => (readDoubles buf n (alignedPos 8 p)).map fun vs => .f64s vs.toList
  | .stringBytes => (readString buf p).map .string

/-- Aligning may leave the buffer, but never by more than up to a multiple of eight. -/
def Sane (buf : Bytes) (p : Nat) : Prop := p ≤ (buf.length + 7) / 8 * 8

theorem sane_of_le {buf : Bytes} {p : Nat} (h : p ≤ buf.length) : Sane buf p := by
  unfold Sane
  omega

theorem Sane.aligned {buf : Bytes} {p k : Nat} (h : Sane buf p) (hk : k = 4 ∨ k = 8) :
    Sane buf (alignedPos k p) := by
  unfold Sane alignedPos padding at *
  rcases hk with rfl | rfl <;> split <;> omega

theorem Sane.span {buf : Bytes} {p : Nat} (h : Sane buf p) (k : Nat) :
    Sane buf (readSpan k buf p).pos := by
  unfold readSpan
  split
  · next hfit => exact sane_of_le hfit
  · exact h

theorem Sane.andThen {α β : Type} {buf : Bytes} {x : Reading α} {f : α → Nat → Reading β}
    (h : Sane buf x.pos) (hf : ∀ v, Sane buf (f v x.pos).pos) : Sane buf (x.andThen f).pos := by
  unfold Reading.andThen
  split
  · exact hf _
  · exact h

theorem Sane.doubles {buf : Bytes} (n : Nat) {p : Nat} (h : Sane buf p) :
    Sane buf (readDoubles buf n p).pos := by
  induction n generalizing p with
  | zero => exact h
  | succ n ih =>
    have hword : Sane buf (readWord 8 buf p).pos := (h.aligned (.inr rfl)).span 8
    exact Sane.andThen hword fun v => ih hword

theorem Sane.string {buf : Bytes} {p : Nat} (h : Sane buf p) : Sane buf (readString buf p).pos := by
  have hword : Sane buf (readWord 4 buf p).pos := (h.aligned (.inl rfl)).span 4
  refine Sane.andThen hword fun len => ?_
  split
  · exact hword
  · exact Sane.andThen (hword.span _) fun s => (hword.span _).span 1

theorem Sane.reading {buf : Bytes} {p : Nat} (h : Sane buf p) (c : ReadCall) :
    Sane buf (reading buf p c).pos := by
  have hbyte : Sane buf (readByte buf p).pos := by
    unfold readByte
    split
    · next hb => exact sane_of_le (List.getElem?_eq_some_iff.mp hb).1
    · exact h
  have hword4 := (h.aligned (.inl rfl)).span 4
  have hword8 := (h.aligned (.inr rfl)).span 8
  cases c with
  | u8Val => exact hbyte
  | boolVal => exact hbyte
  | i32Val => exact hword4
  | u32Val => exact hword4
  | f32Val => exact hword4
  | f64Val => exact hword8
  | f64Array n => exact (h.aligned (.inr rfl)).doubles n
  | stringBytes => exact h.string

/-- A string whose length field is in the buffer and takes the position past the address
space. -/
def Poisoned (bits : Nat) (buf : Bytes) (p : Nat) : Prop :=
  alignedPos 4 p + 4 ≤ buf.length ∧
    2 ^ bits < alignedPos 4 p + 4 + leNat (span buf (alignedPos 4 p) 4)

/-- The code does what the reading says. -/
def Does {α : Type} (p : ReadCdr α) (r : CdrReader) (x : Reading α) : Prop :=
  p.run r = (x.outcome, r.setPos x.pos)

@[simp] theorem buf_setPos (r : CdrReader) (p : Nat) : (r.setPos p).buf = r.buf := rfl
@[simp] theorem pos_setPos (r : CdrReader) (p : Nat) : (r.setPos p).pos = p := rfl
@[simp] theorem setPos_setPos (r : CdrReader) (p q : Nat) :
    (r.setPos p).setPos q = r.setPos q := rfl
@[simp] theorem setPos_pos (r : CdrReader) : r.setPos r.pos = r := rfl

namespace Does

variable {α β : Type} {p : ReadCdr α} {r : CdrReader} {x : Reading α}

theorem bind (h : Does p r x) {f : α → ReadCdr β} {g : α → Nat → Reading β}
    (hf : ∀ v, x.value = some v → Does (f v) (r.setPos x.pos) (g v x.pos)) :
    Does (p >>= f) r (x.andThen g) := by
  unfold Does Reading.outcome at h
  unfold Does Reading.andThen
  cases hv : x.value with
  | none =>
    rw [hv] at h
    exact bind_abort h rfl f
  | some v =>
    rw [hv] at h
    exact (bind_ok h f).trans (hf v hv)

theorem map (h : Does p r x) (f : α → β) :
    Does (p >>= fun v => pure (f v)) r (x.map f) := by
  unfold Does Reading.outcome at h
  unfold Does Reading.outcome Reading.map
  cases hv : x.value with
  | none =>
    rw [hv] at h
    exact bind_abort h rfl _
  | some v =>
    rw [hv] at h
    exact bind_ok h _

end Does

section
variable [t : Target] {r : CdrReader}

theorem align_run {k : Nat} (h : alignedPos k r.pos < 2 ^ t.usizeBits) :
    (align k).run r = (.ok (), r.setPos (alignedPos k r.pos)) := by
  unfold alignedPos padding at *
  simp only [align, run_get_bind]
  by_cases hrem : r.pos % k = 0
  · simp only [hrem, ne_eq, not_true_eq_false, ↓reduceIte, run_pure, Nat.add_zero, setPos_pos]
  · simp only [hrem, ↓reduceIte] at h
    simp only [hrem, ne_eq, not_false_eq_true, ↓reduceIte, usizeAdd_of_lt h, run_pure_bind,
      run_modify]

theorem does_take {k : Nat} (h : r.pos + k < 2 ^ t.usizeBits) :
    Does (take k) r (readSpan k r.buf r.pos) := by
  unfold Does readSpan
  simp only [take, run_get_bind, usizeAdd_of_lt h, run_pure_bind]
  by_cases hfit : r.pos + k ≤ r.buf.length
  · rw [if_neg (by omega), if_pos hfit, slice_of_le (by omega) hfit, run_pure_bind,
      run_modify_bind, run_pure, Nat.add_sub_cancel_left]
    rfl
  · rw [if_pos (by omega), if_neg hfit]
    rfl

theorem does_u8Val (h : r.buf.length < 2 ^ t.usizeBits) :
    Does u8Val r (readByte r.buf r.pos) := by
  unfold Does readByte
  simp only [u8Val, run_get_bind]
  cases hb : r.buf[r.pos]? with
  | none => rfl
  | some b =>
    have hlt : r.pos < r.buf.length := (List.getElem?_eq_some_iff.mp hb).1
    simp only [usizeAdd_of_lt (show r.pos + 1 < 2 ^ t.usizeBits by omega), run_pure_bind,
      run_modify_bind, run_pure]
    rfl

/-- An aligned read of `k` bytes. -/
theorem does_word {α : Type} (f : Nat → α) {k : Nat}
    (h : alignedPos k r.pos + k < 2 ^ t.usizeBits) :
    Does (do align k; let bytes ← take k; pure (f (leNat bytes))) r
      ((readWord k r.buf r.pos).map f) := by
  have halign : (align k).run r = (.ok (), r.setPos (alignedPos k r.pos)) := align_run (by omega)
  have htake := (does_take (r := r.setPos (alignedPos k r.pos)) h).map fun bytes => f (leNat bytes)
  rw [readWord, Reading.map_map]
  exact (bind_ok halign _).trans htake

theorem does_u32Val (h : alignedPos 4 r.pos + 4 < 2 ^ t.usizeBits) :
    Does u32Val r ((readWord 4 r.buf r.pos).map UInt32.ofNat) := does_word _ h

theorem does_i32Val (h : alignedPos 4 r.pos + 4 < 2 ^ t.usizeBits) :
    Does i32Val r ((readWord 4 r.buf r.pos).map fun n => (UInt32.ofNat n).toInt32) :=
  does_word (fun n => (UInt32.ofNat n).toInt32) h

theorem does_f64Val (h : alignedPos 8 r.pos + 8 < 2 ^ t.usizeBits) :
    Does f64Val r ((readWord 8 r.buf r.pos).map UInt64.ofNat) := does_word _ h

/-- Where the buffer leaves room at the top of the address space, only a poisoned string
is in the way. -/
theorem Sane.room {buf : Bytes} {p k : Nat} (h : Sane buf p) (hk : k = 4 ∨ k = 8)
    (hsize : buf.length + 16 ≤ 2 ^ t.usizeBits) : alignedPos k p + k < 2 ^ t.usizeBits := by
  have ha := h.aligned hk
  unfold Sane at ha
  omega

theorem does_f64Slots (n : Nat) (h : Sane r.buf r.pos)
    (hsize : r.buf.length + 16 ≤ 2 ^ t.usizeBits) :
    Does (f64Slots n) r (readDoubles r.buf n r.pos) := by
  induction n generalizing r with
  | zero => rfl
  | succ n ih =>
    have hword : Sane r.buf (readWord 8 r.buf r.pos).pos := (h.aligned (.inr rfl)).span 8
    exact (does_f64Val (h.room (.inr rfl) hsize)).bind fun v _ =>
      (ih (r := r.setPos (readWord 8 r.buf r.pos).pos) hword hsize).map _

theorem does_f64Array (n : Nat) (h : Sane r.buf r.pos)
    (hsize : r.buf.length + 16 ≤ 2 ^ t.usizeBits) :
    Does (f64Array n) r (readDoubles r.buf n (alignedPos 8 r.pos)) := by
  have hroom := h.room (.inr rfl) hsize
  have halign : (align 8).run r = (.ok (), r.setPos (alignedPos 8 r.pos)) := align_run (by omega)
  have hslots := does_f64Slots n (r := r.setPos (alignedPos 8 r.pos)) (h.aligned (.inr rfl)) hsize
  exact (bind_ok halign _).trans hslots

theorem does_stringBytes (h : Sane r.buf r.pos) (hsize : r.buf.length + 16 ≤ 2 ^ t.usizeBits)
    (hclean : ¬ Poisoned t.usizeBits r.buf r.pos) : Does stringBytes r (readString r.buf r.pos) := by
  refine (does_u32Val (h.room (.inl rfl) hsize)).bind fun len hlen => ?_
  by_cases hfit : alignedPos 4 r.pos + 4 ≤ r.buf.length
  · rw [readWord_of_le hfit] at hlen ⊢
    simp only [Reading.map, Option.map_some, Option.some.injEq] at hlen ⊢
    have hlenNat : len.toNat = leNat (span r.buf (alignedPos 4 r.pos) 4) := by
      rw [← hlen, toNat_word]
    have hroom : alignedPos 4 r.pos + 4 + len.toNat ≤ 2 ^ t.usizeBits := by
      rw [hlenNat]
      exact Nat.le_of_not_lt fun hlong => hclean ⟨hfit, hlong⟩
    by_cases hzero : len.toNat = 0
    · rw [if_pos hzero, if_pos hzero]
      rfl
    · rw [if_neg hzero, if_neg hzero]
      have hbody := does_take (r := r.setPos (alignedPos 4 r.pos + 4)) (k := len.toNat - 1)
        (by rw [pos_setPos]; omega)
      refine hbody.bind fun s hs => ?_
      have hnul := does_take (k := 1) (r := (r.setPos (alignedPos 4 r.pos + 4)).setPos
        (readSpan (len.toNat - 1) r.buf (alignedPos 4 r.pos + 4)).pos) (by
          simp only [pos_setPos, readSpan]
          split <;> simp only <;> omega)
      exact hnul.map _
  · rw [readWord_of_lt (by omega)] at hlen
    cases hlen

/-- The addition panics, or the end of the slice wraps to before its start. -/
theorem take_panics {k : Nat} (hk : k < 2 ^ t.usizeBits) (hpos : r.pos ≤ r.buf.length)
    (hsize : r.buf.length < 2 ^ t.usizeBits) (h : 2 ^ t.usizeBits ≤ r.pos + k) :
    ((take k).run r).1 = .panic := by
  rcases usizeAdd_of_ge (ε := Error) (S := CdrReader) h (by omega) hk with hadd | hadd
  · simp only [take, run_get_bind, hadd, run_panic_bind]
  · simp only [take, run_get_bind, hadd, run_pure_bind]
    rw [if_neg (by omega), slice, if_neg (by omega), run_panic_bind]

theorem stringBytes_panics (h : Sane r.buf r.pos) (hsize : r.buf.length + 16 ≤ 2 ^ t.usizeBits)
    (hpoison : Poisoned t.usizeBits r.buf r.pos) : (stringBytes.run r).1 = .panic := by
  obtain ⟨hfit, hlong⟩ := hpoison
  have hu32 : u32Val.run r = (.ok (UInt32.ofNat (leNat (span r.buf (alignedPos 4 r.pos) 4))),
      r.setPos (alignedPos 4 r.pos + 4)) := by
    have hdoes := does_u32Val (h.room (.inl rfl) hsize)
    rwa [readWord_of_le hfit] at hdoes
  have hbits := two_pow_32_le (t := t)
  rw [← toNat_word] at hlong
  generalize UInt32.ofNat (leNat (span r.buf (alignedPos 4 r.pos) 4)) = len at *
  have hlt := len.toNat_lt
  have htake := take_panics (r := r.setPos (alignedPos 4 r.pos + 4)) (k := len.toNat - 1)
    (by omega) hfit (by rw [buf_setPos]; omega) (by rw [pos_setPos]; omega)
  have hrest : stringBytes.run r = (do
      let bytes ← take (len.toNat - 1)
      let _ ← take 1
      pure bytes : ReadCdr Bytes).run (r.setPos (alignedPos 4 r.pos + 4)) := by
    rw [stringBytes, bind_ok hu32, if_neg (by omega)]
  rw [hrest, bind_abort (Prod.ext htake rfl) rfl]
  rfl

/-- A read that is no string, or a string that is not poisoned, does what it means. -/
theorem does_call (c : ReadCall) (h : Sane r.buf r.pos)
    (hsize : r.buf.length + 16 ≤ 2 ^ t.usizeBits)
    (hclean : c = .stringBytes → ¬ Poisoned t.usizeBits r.buf r.pos) :
    Does c.run r (reading r.buf r.pos c) := by
  have hbyte : Does u8Val r (readByte r.buf r.pos) := does_u8Val (by omega)
  have hroom4 := h.room (.inl rfl) hsize
  have hroom8 := h.room (.inr rfl) hsize
  cases c with
  | u8Val => exact hbyte.map _
  | boolVal =>
    have hbool : Does boolVal r ((readByte r.buf r.pos).map (· != 0)) := hbyte.map _
    have hcall := hbool.map CdrValue.bool
    rwa [Reading.map_map] at hcall
  | i32Val =>
    have hcall := (does_i32Val hroom4).map CdrValue.i32
    rwa [Reading.map_map] at hcall
  | u32Val =>
    have hcall := (does_u32Val hroom4).map CdrValue.u32
    rwa [Reading.map_map] at hcall
  | f32Val =>
    have hcall := (does_u32Val hroom4).map CdrValue.f32
    rwa [Reading.map_map] at hcall
  | f64Val =>
    have hcall := (does_f64Val hroom8).map CdrValue.f64
    rwa [Reading.map_map] at hcall
  | f64Array n => exact (does_f64Array n h hsize).map _
  | stringBytes => exact (does_stringBytes h hsize (hclean rfl)).map _

end

end CdrReader

end MicroXrceDds
