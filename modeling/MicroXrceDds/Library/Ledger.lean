import MicroXrceDds.Library.Bounded

/-!
# Ledgers of a bounded queue

What has been accepted into a queue and what has been taken from it, kept apart from the
queue. As long as the two balance, the queue holds the difference, in order.
-/

structure Ledger (α : Type) where
  accepted : List α
  taken : List α

namespace Ledger

variable {α : Type} {cap : Nat}

def empty : Ledger α := ⟨[], []⟩

/-- How many elements are in the queue. -/
def held (l : Ledger α) : Nat := l.accepted.length - l.taken.length

/-- An element is accepted unless `cap` of them are held. -/
def offer (cap : Nat) (v : α) (l : Ledger α) : Ledger α :=
  if l.held < cap then { l with accepted := l.accepted ++ [v] } else l

def take (v : α) (l : Ledger α) : Ledger α := { l with taken := l.taken ++ [v] }

/-- What has been taken, followed by what is queued, is what was accepted. -/
def Balances (l : Ledger α) (q : Bounded α cap) : Prop := l.taken ++ q.items = l.accepted

theorem balances_empty : (empty : Ledger α).Balances (Bounded.empty : Bounded α cap) := rfl

variable {l : Ledger α} {q q' : Bounded α cap} {v : α}

theorem Balances.held (h : l.Balances q) : l.held = q.items.length := by
  rw [Ledger.held, ← h, List.length_append, Nat.add_sub_cancel_left]

/-- A push that fails changes neither side. -/
theorem Balances.offer (h : l.Balances q) (v : α) :
    (l.offer cap v).Balances ((q.push v).getD q) := by
  unfold Ledger.offer
  rw [h.held]
  cases hpush : q.push v with
  | none =>
    rw [if_neg (by rw [Bounded.push_eq_none.mp hpush]; exact Nat.lt_irrefl cap)]
    exact h
  | some q' =>
    obtain ⟨hroom, hitems⟩ := Bounded.push_eq_some.mp hpush
    rw [if_pos hroom]
    change l.taken ++ q'.items = l.accepted ++ [v]
    rw [hitems, ← List.append_assoc, h]

theorem Balances.take (h : l.Balances q) (hpop : q.pop = some (v, q')) :
    (l.take v).Balances q' := by
  change l.taken ++ [v] ++ q'.items = l.accepted
  rw [← h, Bounded.pop_eq_some.mp hpop, List.append_assoc, List.singleton_append]

/-- Of several elements those that find room are accepted, in order, and all of them if
there is room for all. -/
theorem accepted_offers (vs : List α) (l : Ledger α) :
    ∃ ws, ws.Sublist vs ∧ (vs.foldl (fun l v => l.offer cap v) l).accepted = l.accepted ++ ws ∧
      (l.accepted.length + vs.length ≤ cap → ws = vs) := by
  induction vs generalizing l with
  | nil => exact ⟨[], List.Sublist.refl _, (List.append_nil _).symm, fun _ => rfl⟩
  | cons v vs ih =>
    obtain ⟨ws, hsub, haccepted, hall⟩ := ih (l.offer cap v)
    rw [List.foldl_cons, haccepted]
    unfold Ledger.offer at hall ⊢
    by_cases hroom : l.held < cap
    · rw [if_pos hroom] at hall ⊢
      refine ⟨v :: ws, hsub.cons_cons v, List.append_assoc _ _ _, fun hfit => ?_⟩
      rw [hall ?_]
      simp only [List.length_append, List.length_cons, List.length_nil] at hfit ⊢
      omega
    · rw [if_neg hroom] at hall ⊢
      refine ⟨ws, hsub.cons v, rfl, fun hfit => absurd ?_ hroom⟩
      simp only [Ledger.held, List.length_cons] at hfit ⊢
      omega

end Ledger
