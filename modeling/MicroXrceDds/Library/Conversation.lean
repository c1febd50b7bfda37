import Mathlib.Data.List.Perm.Basic
import Mathlib.Logic.Relation

/-!
# Conversations

A client sends messages to a server over one channel and gets messages back over
another. Some of what it sends asks for an answer, and the server gives each of these
exactly one, when it likes and in any order, among other messages of its own. What is
outstanding moves from one channel to the other and is neither lost nor duplicated.
-/
namespace Conversation

open Relation

/-- Both channels, the requests the server has still to answer, and its answers. -/
structure Talk (Q R ρ α : Type) where
  inbox : List Q
  owed : List ρ
  answered : List (ρ × α)
  flight : List R

variable {Q R ρ α : Type}

/-- The client sends a message. -/
def Talk.send (q : Q) (k : Talk Q R ρ α) : Talk Q R ρ α := { k with inbox := k.inbox ++ [q] }

/-- The client has read a message, and these are left. -/
def Talk.leaving (rs : List R) (k : Talk Q R ρ α) : Talk Q R ρ α := { k with flight := rs }

section
variable (asks : Q → Option ρ) (tells : R → Option (ρ × α))

/-- What the server may do. -/
inductive Step : Talk Q R ρ α → Talk Q R ρ α → Prop
  | receive (q : Q) (inbox : List Q) (owed : List ρ) (answered : List (ρ × α)) (flight : List R) :
    Step ⟨q :: inbox, owed, answered, flight⟩
      ⟨inbox, owed ++ (asks q).toList, answered, flight⟩
  | post (r : R) (h : tells r = none) (k : Talk Q R ρ α) :
    Step k { k with flight := k.flight ++ [r] }
  | answer (x : ρ) (a : α) (r : R) (h : tells r = some (x, a)) (inbox : List Q)
    (front back : List ρ) (answered : List (ρ × α)) (flight : List R) :
    Step ⟨inbox, front ++ x :: back, answered, flight⟩
      ⟨inbox, front ++ back, answered ++ [(x, a)], flight ++ [r]⟩

abbrev Steps : Talk Q R ρ α → Talk Q R ρ α → Prop := ReflTransGen (Step asks tells)

/-- The requests that the client has sent and not read the answer of. -/
def outstanding (k : Talk Q R ρ α) : List ρ :=
  k.inbox.filterMap asks ++ k.owed ++ (k.flight.filterMap tells).map Prod.fst

/-- The client has read the answers `past` and waits for those to `pending`. -/
structure Stands (past : List (ρ × α)) (pending : List ρ) (k : Talk Q R ρ α) : Prop where
  outstanding : (outstanding asks tells k).Perm pending
  answered : k.answered = past ++ k.flight.filterMap tells

end

variable {asks : Q → Option ρ} {tells : R → Option (ρ × α)} {k k' : Talk Q R ρ α}
  {past : List (ρ × α)} {pending : List ρ}

/-- No step of the server loses a request or makes one up. -/
theorem Step.outstanding (h : Step asks tells k k') :
    (outstanding asks tells k').Perm (outstanding asks tells k) := by
  cases h with
  | receive q inbox owed answered flight =>
    simp only [Conversation.outstanding]
    apply List.Perm.append_right
    cases hq : asks q with
    | none => simp only [List.filterMap_cons_none hq, Option.toList_none, List.append_nil,
        List.Perm.refl]
    | some x =>
      rw [List.filterMap_cons_some hq, Option.toList_some, ← List.append_assoc]
      exact List.perm_append_singleton x _
  | post r h k =>
    simp only [Conversation.outstanding, List.filterMap_append, List.filterMap_cons_none h,
      List.filterMap_nil, List.append_nil, List.Perm.refl]
  | answer x a r h inbox front back answered flight =>
    simp only [Conversation.outstanding, List.filterMap_append, List.filterMap_cons_some h,
      List.filterMap_nil, List.map_append, List.map_cons, List.map_nil]
    -- The id goes from the middle of what is owed to the end of what is on its way.
    rw [← List.append_assoc (inbox.filterMap asks), ← List.append_assoc (inbox.filterMap asks),
      ← List.append_assoc _ _ [x], List.append_assoc _ (x :: back)]
    refine (List.perm_append_singleton x _).trans ?_
    rw [List.append_assoc _ back, List.cons_append]
    exact List.perm_middle.symm

/-- Nor does it answer without saying so. -/
theorem Step.answered (h : Step asks tells k k')
    (hk : k.answered = past ++ k.flight.filterMap tells) :
    k'.answered = past ++ k'.flight.filterMap tells := by
  cases h with
  | receive => exact hk
  | post r h k =>
    simp only [List.filterMap_append, List.filterMap_cons_none h, List.filterMap_nil,
      List.append_nil]
    exact hk
  | answer x a r h =>
    simp only at hk
    simp only [List.filterMap_append, List.filterMap_cons_some h, List.filterMap_nil, hk,
      List.append_assoc]

theorem Stands.steps (h : Stands asks tells past pending k) (hsteps : Steps asks tells k k') :
    Stands asks tells past pending k' := by
  induction hsteps with
  | refl => exact h
  | tail _ hstep ih => exact ⟨hstep.outstanding.trans ih.outstanding, hstep.answered ih.answered⟩

theorem Stands.send (h : Stands asks tells past [] k) (q : Q) :
    Stands asks tells past (asks q).toList (k.send q) := by
  refine ⟨?_, h.answered⟩
  have hnil := h.outstanding.eq_nil
  simp only [Conversation.outstanding, List.append_eq_nil_iff] at hnil
  obtain ⟨⟨hinbox, howed⟩, hflight⟩ := hnil
  simp only [Conversation.outstanding, Talk.send, List.filterMap_append, hinbox, howed, hflight,
    List.nil_append, List.append_nil]
  cases hq : asks q with
  | none => simp only [List.filterMap_cons_none hq, List.filterMap_nil, Option.toList_none,
      List.Perm.refl]
  | some x => simp only [List.filterMap_cons_some hq, List.filterMap_nil, Option.toList_some,
      List.Perm.refl]

/-- Reading a message that answers nothing. -/
theorem Stands.read_other (h : Stands asks tells past pending k) {r : R} {rs : List R}
    (hflight : k.flight = r :: rs) (hr : tells r = none) :
    Stands asks tells past pending (k.leaving rs) := by
  obtain ⟨hout, hans⟩ := h
  simp only [Conversation.outstanding, hflight, List.filterMap_cons_none hr] at hout hans
  exact ⟨hout, hans⟩

/-- Reading an answer: it is the answer to a request that was pending. -/
theorem Stands.read_answer (h : Stands asks tells past pending k) {r : R} {rs : List R} {x : ρ}
    {a : α} (hflight : k.flight = r :: rs) (hr : tells r = some (x, a)) :
    ∃ rest, pending.Perm (x :: rest) ∧
      Stands asks tells (past ++ [(x, a)]) rest (k.leaving rs) := by
  obtain ⟨hout, hans⟩ := h
  simp only [Conversation.outstanding, hflight, List.filterMap_cons_some hr, List.map_cons]
    at hout hans
  refine ⟨_, hout.symm.trans List.perm_middle, List.Perm.refl _, ?_⟩
  rw [Talk.leaving, hans, List.append_assoc]
  rfl

/-- With none pending, no answer is on its way. -/
theorem Stands.at_rest (h : Stands asks tells past [] k) : k.inbox.filterMap asks = [] ∧
    k.owed = [] ∧ k.flight.filterMap tells = [] ∧ k.answered = past := by
  have hnil := h.outstanding.eq_nil
  simp only [Conversation.outstanding, List.append_eq_nil_iff, List.map_eq_nil_iff] at hnil
  obtain ⟨⟨hinbox, howed⟩, hflight⟩ := hnil
  refine ⟨hinbox, howed, hflight, ?_⟩
  rw [h.answered, hflight, List.append_nil]

end Conversation
