import Mathlib.Logic.Function.Basic

/-!
# Lists with a capacity

One type for the two bounded containers of an embedded program: a vector that is
only pushed to, and a queue that is pushed at the back and popped at the front.
-/

structure Bounded (α : Type) (cap : Nat) where
  items : List α
  fits : items.length ≤ cap
  deriving DecidableEq, Repr

namespace Bounded

variable {α : Type} {cap : Nat}

def empty : Bounded α cap := ⟨[], Nat.zero_le cap⟩

def isFull (b : Bounded α cap) : Bool := b.items.length == cap

/-- Append at the back; `none` exactly when the container is full. -/
def push (b : Bounded α cap) (a : α) : Option (Bounded α cap) :=
  if h : b.items.length < cap then
    some ⟨b.items ++ [a], by rw [List.length_append]; exact h⟩
  else none

/-- Take the front element; `none` exactly when there is none. -/
def pop (b : Bounded α cap) : Option (α × Bounded α cap) :=
  match h : b.items with
  | [] => none
  | a :: rest => some (a, ⟨rest, by have := b.fits; rw [h, List.length_cons] at this; omega⟩)

@[ext] theorem ext {b c : Bounded α cap} (h : b.items = c.items) : b = c := by
  cases b
  cases c
  simp_all

@[simp] theorem items_empty : (empty : Bounded α cap).items = [] := rfl

theorem isFull_eq_false {b : Bounded α cap} : b.isFull = false ↔ b.items.length < cap := by
  have h := b.fits
  simp only [isFull, beq_eq_false_iff_ne, ne_eq]
  omega

theorem push_eq_none {b : Bounded α cap} {a : α} : b.push a = none ↔ b.items.length = cap := by
  have h := b.fits
  simp only [push, dite_eq_right_iff, reduceCtorEq, imp_false, Nat.not_lt]
  omega

theorem push_eq_some {b c : Bounded α cap} {a : α} :
    b.push a = some c ↔ b.items.length < cap ∧ c.items = b.items ++ [a] := by
  unfold push
  split
  · next h =>
    simp only [Option.some.injEq, h, true_and]
    exact ⟨fun hc => by rw [← hc], fun hc => ext hc.symm⟩
  · next h => simp [h]

theorem pop_eq_some {b c : Bounded α cap} {a : α} :
    b.pop = some (a, c) ↔ b.items = a :: c.items := by
  unfold pop
  split
  · next h => simp [h]
  · next x rest h =>
    simp only [Option.some.injEq, Prod.mk.injEq, h, List.cons.injEq, and_congr_right_iff]
    exact fun _ => ⟨fun hc => by rw [← hc], fun hc => ext hc⟩

end Bounded
