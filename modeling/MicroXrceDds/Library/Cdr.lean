import MicroXrceDds.Library.LittleEndian

/-!
# The Common Data Representation

The little-endian form of the format, as an encoder from items to bytes. Each scalar is
aligned to its own size, counted from the start of the body, and a string is its length
with the terminator, the content and the terminator.
-/
namespace Cdr

open LittleEndian

inductive Item where
  | scalar (size : Nat) (value : BitVec (8 * size)) : Item
  | text (bytes : List UInt8) : Item

namespace Item

def u8 (v : UInt8) : Item := .scalar 1 v.toBitVec
def i32 (v : Int32) : Item := .scalar 4 v.toBitVec
def u32 (v : UInt32) : Item := .scalar 4 v.toBitVec
def u64 (v : UInt64) : Item := .scalar 8 v.toBitVec

end Item

/-- The zeros between `pos` and the next multiple of `size`. -/
def gap (size pos : Nat) : List UInt8 := List.replicate ((size - pos % size) % size) 0

/-- What an item that follows `pos` bytes adds to them. -/
def Item.encode (pos : Nat) : Item → List UInt8
  | .scalar size value => gap size pos ++ leBytes size value.toNat
  | .text bytes => gap 4 pos ++ leBytes 4 (bytes.length + 1) ++ bytes ++ [0]

def encode (pos : Nat) : List Item → List UInt8
  | [] => []
  | i :: items => i.encode pos ++ encode (pos + (i.encode pos).length) items

@[simp] theorem encode_nil (pos : Nat) : encode pos [] = [] := rfl

theorem encode_cons (pos : Nat) (i : Item) (items : List Item) :
    encode pos (i :: items) = i.encode pos ++ encode (pos + (i.encode pos).length) items := rfl

@[simp] theorem encode_singleton (pos : Nat) (i : Item) : encode pos [i] = i.encode pos :=
  List.append_nil _

theorem encode_append (pos : Nat) (xs ys : List Item) :
    encode pos (xs ++ ys) = encode pos xs ++ encode (pos + (encode pos xs).length) ys := by
  induction xs generalizing pos with
  | nil => simp
  | cons i xs ih =>
    simp only [List.cons_append, encode_cons, ih, List.append_assoc, List.length_append,
      Nat.add_assoc]

/-- A body that is one string. -/
theorem length_text (bytes : List UInt8) : (encode 0 [.text bytes]).length = bytes.length + 5 := by
  have hgap : gap 4 0 = [] := rfl
  simp only [encode_singleton, Item.encode, hgap, List.nil_append, List.length_append,
    length_leBytes, List.length_singleton]
  omega

/-- A scalar fits in its bytes. -/
theorem toNat_lt {size : Nat} (value : BitVec (8 * size)) : value.toNat < 256 ^ size := by
  have h := value.isLt
  rwa [Nat.pow_mul] at h

/-- `part` breaks off before the end of the items. -/
def CutOff (pos : Nat) (items : List Item) (part : List UInt8) : Prop :=
  part <+: encode pos items ∧ part.length < (encode pos items).length

theorem not_cutOff_nil (pos : Nat) (part : List UInt8) : ¬ CutOff pos [] part :=
  fun h => absurd h.2 (Nat.not_lt_zero _)

/-- The cut is in the first items, or they are complete and it is in the others. -/
theorem CutOff.append {pos : Nat} {xs ys : List Item} {part : List UInt8}
    (h : CutOff pos (xs ++ ys) part) :
    CutOff pos xs part ∨ ∃ more, part = encode pos xs ++ more ∧
      CutOff (pos + (encode pos xs).length) ys more := by
  obtain ⟨hfront, hshort⟩ := h
  rw [encode_append] at hfront hshort
  by_cases hin : part.length < (encode pos xs).length
  · left
    exact ⟨List.prefix_of_prefix_length_le hfront (List.prefix_append _ _) (Nat.le_of_lt hin), hin⟩
  · right
    obtain ⟨more, rfl⟩ := List.prefix_of_prefix_length_le (List.prefix_append _ _) hfront
      (Nat.le_of_not_lt hin)
    have hmore := (List.prefix_append_right_inj _).mp hfront
    rw [List.length_append, List.length_append] at hshort
    exact ⟨more, rfl, hmore, by omega⟩

/-- Items of one list at a time. -/
theorem cutOff_singleton {pos : Nat} {i : Item} {part : List UInt8} :
    CutOff pos [i] part ↔ part <+: i.encode pos ∧ part.length < (i.encode pos).length := by
  rw [CutOff, encode_singleton]

end Cdr
