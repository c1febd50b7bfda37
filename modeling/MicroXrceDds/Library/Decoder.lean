import MicroXrceDds.Library.LittleEndian

/-!
# Decoders that know their offset

A decoder consumes bytes from the front of its input and counts them, so that a
field can be aligned relative to where the decoder started.
-/

structure Cursor where
  offset : Nat
  rest : List UInt8
  deriving DecidableEq, Repr

abbrev Decoder (α : Type) := StateT Cursor Option α

namespace Decoder

open LittleEndian

variable {α β : Type}

/-- Exactly `k` bytes. -/
def bytes (k : Nat) : Decoder (List UInt8) := fun c =>
  if k ≤ c.rest.length then some (c.rest.take k, ⟨c.offset + k, c.rest.drop k⟩) else none

def byte : Decoder UInt8 := fun c =>
  match c.rest with
  | [] => none
  | b :: rest => some (b, ⟨c.offset + 1, rest⟩)

def position : Decoder Nat := fun c => some (c.offset, c)

/-- Skip to the next offset that is a multiple of `k`. -/
def align (k : Nat) : Decoder Unit := do
  let o ← position
  let _ ← bytes ((k - o % k) % k)
  pure ()

/-- A little-endian number of `w` bytes. -/
def numberLe (w : Nat) : Decoder Nat := do
  let bs ← bytes w
  pure (leNat bs)

/-- Everything that is left. -/
def rest : Decoder (List UInt8) := fun c => some (c.rest, ⟨c.offset + c.rest.length, []⟩)

def guardThat (p : Bool) : Decoder Unit := if p then pure () else failure

/-- The result of a decoder that starts its own offsets at the front of `bs`. -/
def decode (d : Decoder α) (bs : List UInt8) : Option α := (d.run ⟨0, bs⟩).map Prod.fst

/-- At offset `o` the decoder takes exactly the bytes `bs` and gives `v`. -/
def Reads (d : Decoder α) (o : Nat) (bs : List UInt8) (v : α) : Prop :=
  ∀ tail, d.run ⟨o, bs ++ tail⟩ = some (v, ⟨o + bs.length, tail⟩)

namespace Reads

variable {d : Decoder α} {f : α → Decoder β} {o : Nat} {xs ys : List UInt8} {a : α} {b : β}

theorem pure (a : α) (o : Nat) : Reads (Pure.pure a) o [] a := fun _ => rfl

/-- What follows a decoder goes on behind the bytes it took. -/
theorem run_bind (h : Reads d o xs a) (f : α → Decoder β) (tail : List UInt8) :
    (d >>= f).run ⟨o, xs ++ tail⟩ = (f a).run ⟨o + xs.length, tail⟩ := by
  rw [StateT.run_bind, h tail]
  rfl

theorem bind (h : Reads d o xs a) (hf : Reads (f a) (o + xs.length) ys b) :
    Reads (d >>= f) o (xs ++ ys) b := by
  intro tail
  rw [List.append_assoc, h.run_bind, hf tail, List.length_append, Nat.add_assoc]

theorem map (h : Reads d o xs a) (g : α → β) :
    Reads (d >>= fun a => Pure.pure (g a)) o xs (g a) := by
  intro tail
  rw [h.run_bind]
  rfl

theorem bytes (bs : List UInt8) (o : Nat) : Reads (bytes bs.length) o bs bs := by
  intro tail
  have hle : bs.length ≤ (bs ++ tail).length := by simp
  change (if bs.length ≤ (bs ++ tail).length then _ else none) = _
  rw [if_pos hle, List.take_left, List.drop_left]

theorem byte (v : UInt8) (o : Nat) : Reads byte o [v] v := fun _ => rfl

theorem position (o : Nat) : Reads position o [] o := fun _ => rfl

theorem numberLe (w n o : Nat) (h : n < 256 ^ w) : Reads (numberLe w) o (leBytes w n) n := by
  have hb := (bytes (leBytes w n) o).map leNat
  rwa [length_leBytes, leNat_leBytes_of_lt h] at hb

/-- Whatever fills the gap is skipped. -/
theorem align {k o : Nat} {gap : List UInt8} (h : gap.length = (k - o % k) % k) :
    Reads (align k) o gap () := by
  intro tail
  have hb := (bytes gap o).run_bind (fun _ => Pure.pure () : List UInt8 → Decoder Unit) tail
  rw [h] at hb ⊢
  exact hb

theorem guardThat {p : Bool} (h : p = true) (o : Nat) : Reads (guardThat p) o [] () := by
  rw [h]
  exact pure () o

end Reads

end Decoder
