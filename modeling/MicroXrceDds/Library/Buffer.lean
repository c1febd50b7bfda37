import Mathlib.Logic.Function.Basic

/-!
# Buffers of a fixed length

A `Buffer α n` is an array of exactly `n` cells. Copying into it never changes its
length: what would land past the end is dropped. A sub-slice is a buffer of its
own, and writing it back is one more copy.
-/

structure Buffer (α : Type) (n : Nat) where
  cells : List α
  size : cells.length = n
  deriving DecidableEq, Repr

namespace Buffer

variable {α : Type} {n : Nat}

def replicate (n : Nat) (a : α) : Buffer α n := ⟨List.replicate n a, List.length_replicate⟩

/-- `buf[pos..].copy_from_slice(bs)`, clipped to the buffer. -/
def overwrite (b : Buffer α n) (pos : Nat) (bs : List α) : Buffer α n where
  cells := b.cells.take pos ++ bs.take (n - pos) ++ b.cells.drop (pos + bs.length)
  size := by
    have h := b.size
    simp only [List.length_append, List.length_take, List.length_drop]
    omega

/-- `&mut buf[k..]`. -/
def dropFront (b : Buffer α n) (k : Nat) : Buffer α (n - k) :=
  ⟨b.cells.drop k, by rw [List.length_drop, b.size]⟩

/-- `&mut buf[..k]`. -/
def takeFront (b : Buffer α n) (k : Nat) : Buffer α (min k n) :=
  ⟨b.cells.take k, by rw [List.length_take, b.size]⟩

@[simp] theorem cells_dropFront (b : Buffer α n) (k : Nat) :
    (b.dropFront k).cells = b.cells.drop k := rfl
@[simp] theorem cells_takeFront (b : Buffer α n) (k : Nat) :
    (b.takeFront k).cells = b.cells.take k := rfl

/-- A copy that fits replaces exactly its own cells. -/
theorem cells_overwrite {b : Buffer α n} {pos : Nat} {bs : List α} (h : pos + bs.length ≤ n) :
    (b.overwrite pos bs).cells =
      b.cells.take pos ++ bs ++ b.cells.drop (pos + bs.length) := by
  simp only [overwrite, List.take_of_length_le (show bs.length ≤ n - pos by omega)]

@[simp] theorem overwrite_nil (b : Buffer α n) (pos : Nat) : b.overwrite pos [] = b := by
  cases b with
  | mk cells size => simp [overwrite]

theorem ext_cells {b c : Buffer α n} (h : b.cells = c.cells) : b = c := by
  cases b
  cases c
  congr

/-- Two copies next to each other are one. -/
theorem overwrite_append {b : Buffer α n} {pos : Nat} {xs ys : List α}
    (h : pos + xs.length + ys.length ≤ n) :
    (b.overwrite pos xs).overwrite (pos + xs.length) ys = b.overwrite pos (xs ++ ys) := by
  have hsize := b.size
  have hfront : (b.cells.take pos ++ xs).length = pos + xs.length := by
    rw [List.length_append, List.length_take]
    omega
  have hfirst : (b.overwrite pos xs).cells =
      (b.cells.take pos ++ xs) ++ b.cells.drop (pos + xs.length) := cells_overwrite (by omega)
  have htake : (b.overwrite pos xs).cells.take (pos + xs.length) = b.cells.take pos ++ xs := by
    rw [hfirst, ← hfront, List.take_left]
  have hdrop : (b.overwrite pos xs).cells.drop (pos + xs.length + ys.length) =
      b.cells.drop (pos + (xs ++ ys).length) := by
    rw [hfirst, List.drop_append, List.drop_eq_nil_of_le (by omega), hfront, List.drop_drop,
      List.nil_append, List.length_append]
    congr 1
    omega
  apply ext_cells
  rw [cells_overwrite h, htake, hdrop, cells_overwrite (by rw [List.length_append]; omega),
    List.append_assoc (b.cells.take pos)]

/-- Sequential filling: `out` has been copied from the front, as far as it fits, and
the cells behind it still hold what `orig` had there. -/
def Filled (orig : Buffer α n) (out : List α) (b : Buffer α n) : Prop :=
  b.cells = out.take n ++ orig.cells.drop out.length

theorem filled_nil (b : Buffer α n) : Filled b [] b := by
  simp [Filled]

/-- Once the front is full, more output changes nothing. -/
theorem Filled.past {orig b : Buffer α n} {out : List α} (h : Filled orig out b)
    (hout : n ≤ out.length) (bs : List α) : Filled orig (out ++ bs) b := by
  have hz : orig.cells.drop out.length = [] :=
    List.drop_eq_nil_of_le (by rw [orig.size]; exact hout)
  have hz' : orig.cells.drop (out ++ bs).length = [] :=
    List.drop_eq_nil_of_le (by rw [orig.size, List.length_append]; omega)
  simp only [Filled] at h ⊢
  rw [h, hz, hz', List.take_append_of_le_length hout]

/-- Copying behind the filled front extends it, by as much as there is room for. -/
theorem Filled.overwrite {orig b : Buffer α n} {out : List α} (h : Filled orig out b)
    (hout : out.length ≤ n) (bs : List α) :
    Filled orig (out ++ bs) (b.overwrite out.length (bs.take (n - out.length))) := by
  simp only [Filled] at h ⊢
  rw [List.take_of_length_le hout] at h
  have hfit : out.length + (bs.take (n - out.length)).length ≤ n := by
    rw [List.length_take]
    omega
  rw [cells_overwrite hfit, h, List.take_left', List.drop_append, List.drop_drop,
    List.take_append, List.take_of_length_le hout]
  · have hz : List.drop (out.length + (bs.take (n - out.length)).length) out = [] :=
      List.drop_eq_nil_of_le (by omega)
    rw [hz, List.nil_append, List.length_append, List.length_take]
    congr 1
    by_cases hbs : bs.length ≤ n - out.length
    · congr 1
      omega
    · rw [List.drop_eq_nil_of_le (by rw [orig.size]; omega),
        List.drop_eq_nil_of_le (by rw [orig.size]; omega)]
  · rfl

/-- Rewriting cells that have already been filled. -/
theorem Filled.patch {orig b : Buffer α n} {xs ys zs new : List α}
    (h : Filled orig (xs ++ ys ++ zs) b) (hfit : (xs ++ ys ++ zs).length ≤ n)
    (hlen : new.length = ys.length) :
    Filled orig (xs ++ new ++ zs) (b.overwrite xs.length new) := by
  have hsame : (xs ++ new ++ zs).length = (xs ++ ys ++ zs).length := by
    simp only [List.length_append, hlen]
  simp only [Filled] at h ⊢
  rw [List.take_of_length_le hfit] at h
  rw [List.take_of_length_le (by rw [hsame]; exact hfit), hsame]
  simp only [List.length_append] at hfit h ⊢
  rw [cells_overwrite (by omega), h, hlen]
  simp only [List.append_assoc, List.take_left', List.drop_append]
  have h1 : List.drop (xs.length + ys.length) xs = [] := List.drop_eq_nil_of_le (by omega)
  have h2 : xs.length + ys.length - xs.length = ys.length := by omega
  simp only [h1, h2, List.nil_append, List.drop_length, Nat.sub_self, Nat.zero_sub, List.drop_zero]

theorem Filled.take {orig b : Buffer α n} {out : List α} (h : Filled orig out b) :
    b.cells.take out.length = out.take n := by
  rw [h, List.take_append]
  by_cases hout : out.length ≤ n
  · simp [List.take_of_length_le hout]
  · rw [List.take_of_length_le (by rw [List.length_take]; omega),
      List.drop_eq_nil_of_le (by rw [orig.size]; omega)]
    simp

/-- The filled front of the buffer, and the cells behind it, whether or not the output
fits. -/
theorem Filled.front {orig b : Buffer α n} {out : List α} (h : Filled orig out b) :
    b.cells.take (min n out.length) = out.take (min n out.length) := by
  have htake := congrArg (List.take n) h.take
  rw [List.take_take, List.take_take, Nat.min_self] at htake
  rw [htake, ← List.take_take, List.take_length]

theorem Filled.behind {orig b : Buffer α n} {out : List α} (h : Filled orig out b) :
    b.cells.drop (min n out.length) = orig.cells.drop (min n out.length) := by
  have hlen : (out.take n).length = min n out.length := List.length_take
  have hcells : b.cells = out.take n ++ orig.cells.drop out.length := h
  rw [hcells, ← hlen, List.drop_left, hlen]
  by_cases hout : out.length ≤ n
  · rw [Nat.min_eq_right hout]
  · have hsize := orig.size
    rw [List.drop_eq_nil_of_le (by omega), List.drop_eq_nil_of_le (by omega)]

theorem Filled.drop {orig b : Buffer α n} {out : List α} (h : Filled orig out b)
    (hout : out.length ≤ n) : b.cells.drop out.length = orig.cells.drop out.length := by
  have hbehind := h.behind
  rwa [Nat.min_eq_right hout] at hbehind

end Buffer
