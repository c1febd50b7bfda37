/-!
# Traces in which every event is allowed by what came before it

A policy says which event may follow which history. A trace obeys it if each of its events
was allowed at the moment it happened.
-/
namespace Trace

universe u

variable {α : Type u} {allowed : List α → α → Prop} {es es' : List α}

def Lawful (allowed : List α → α → Prop) (es : List α) : Prop :=
  ∀ before e after, es = before ++ e :: after → allowed before e

theorem lawful_nil : Lawful allowed [] := by
  intro before e after h
  cases before <;> cases h

/-- The first events come first, and then the others with the first behind them. -/
theorem Lawful.append (h : Lawful allowed es)
    (h' : ∀ before e after, es' = before ++ e :: after → allowed (es ++ before) e) :
    Lawful allowed (es ++ es') := by
  intro before e after heq
  rcases List.append_eq_append_iff.mp heq with ⟨mid, rfl, hmid⟩ | ⟨mid, rfl, hmid⟩
  · exact h' mid e after hmid
  · cases mid with
    | nil => simpa using h' [] e after hmid.symm
    | cons x mid =>
      obtain ⟨rfl, -⟩ := List.cons.inj hmid
      exact h before e mid rfl

theorem Lawful.snoc {e : α} (h : Lawful allowed es) (he : allowed es e) :
    Lawful allowed (es ++ [e]) := by
  apply h.append
  intro before e' after heq
  cases before with
  | nil =>
    obtain ⟨rfl, -⟩ := List.cons.inj heq
    rw [List.append_nil]
    exact he
  | cons x before =>
    have htail := (List.cons.inj heq).2
    cases before <;> cases htail

theorem lawful_snoc {e : α} :
    Lawful allowed (es ++ [e]) ↔ Lawful allowed es ∧ allowed es e := by
  constructor
  · intro h
    refine ⟨?_, h es e [] rfl⟩
    rintro before e' after rfl
    apply h before e' (after ++ [e])
    rw [List.append_assoc, List.cons_append]
  · rintro ⟨h, he⟩
    exact h.snoc he

/-- Events that are allowed at any time. -/
theorem Lawful.append_free (h : Lawful allowed es) (hfree : ∀ e ∈ es', ∀ before, allowed before e) :
    Lawful allowed (es ++ es') := by
  apply h.append
  rintro before e after rfl
  exact hfree e (List.mem_append_right _ (.head _)) _

/-- What has once been true of a history. -/
def Lasting (P : List α → Prop) : Prop := ∀ es es', P es → P (es ++ es')

theorem Lasting.and {P Q : List α → Prop} (hP : Lasting P) (hQ : Lasting Q) :
    Lasting fun es => P es ∧ Q es := by
  intro es es' h
  exact ⟨hP es es' h.1, hQ es es' h.2⟩

theorem lasting_true : Lasting fun _ : List α => True := fun _ _ h => h

end Trace
