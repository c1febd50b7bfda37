import MicroXrceDds.Library.Prog
import Mathlib.Data.List.Forall2

/-!
# Programs that simulate programs

Two programs over different states, with the same outcomes. If they start in related states
they end in the same way and in related states again, so what is true of the runs of the
simpler one can be read off the runs of the other.
-/
namespace Prog

variable {ε S C α β : Type}

/-- Two results with the same outcome and related states. -/
def Alike (R : S → C → Prop) (x : Outcome ε α × S) (y : Outcome ε α × C) : Prop :=
  x.1 = y.1 ∧ R x.2 y.2

/-- From related states both programs end in the same way, in related states. -/
def Simulates (R : S → C → Prop) (p : Prog ε S α) (q : Prog ε C α) : Prop :=
  ∀ s c, R s c → Alike R (p.run s) (q.run c)

theorem Alike.bind {R : S → C → Prop} {p : Prog ε S α} {q : Prog ε C α} {f : α → Prog ε S β}
    {g : α → Prog ε C β} {s : S} {c : C} (h : Alike R (p.run s) (q.run c))
    (hfg : ∀ a s' c', R s' c' → Alike R ((f a).run s') ((g a).run c')) :
    Alike R ((p >>= f).run s) ((q >>= g).run c) := by
  rcases bind_cases p f s with ⟨a, s', hp, hpf⟩ | ⟨o, s', hp, ho, hpf⟩
  · rw [hp] at h
    have hq : q.run c = (.ok a, (q.run c).2) := Prod.ext h.1.symm rfl
    rw [hpf, bind_ok hq]
    exact hfg a s' _ h.2
  · rw [hp] at h
    have hq : q.run c = (o, (q.run c).2) := Prod.ext h.1.symm rfl
    rw [hpf, bind_abort hq ho]
    exact ⟨rfl, h.2⟩

namespace Simulates

variable {R : S → C → Prop} {p : Prog ε S α} {q : Prog ε C α}

theorem pure (a : α) : Simulates R (Pure.pure a : Prog ε S α) (Pure.pure a) :=
  fun _ _ h => ⟨rfl, h⟩

theorem throw (e : ε) : Simulates R (Prog.throw e : Prog ε S α) (Prog.throw e) :=
  fun _ _ h => ⟨rfl, h⟩

theorem pending : Simulates R (Prog.pending : Prog ε S α) Prog.pending := fun _ _ h => ⟨rfl, h⟩

theorem modify {f : S → S} {g : C → C} (h : ∀ s c, R s c → R (f s) (g c)) :
    Simulates R (Prog.modify f : Prog ε S Unit) (Prog.modify g) := fun s c hsc => ⟨rfl, h s c hsc⟩

theorem bind {f : α → Prog ε S β} {g : α → Prog ε C β} (h : Simulates R p q)
    (hfg : ∀ a, Simulates R (f a) (g a)) : Simulates R (p >>= f) (q >>= g) :=
  fun s c hsc => (h s c hsc).bind hfg

/-- A program that reads its state may read what the related state says of it. -/
theorem of_get {f : S → Prog ε S α} {g : C → Prog ε C α}
    (h : ∀ s c, R s c → Simulates R (f s) (g c)) : Simulates R (get >>= f) (get >>= g) := by
  intro s c hsc
  rw [run_get_bind, run_get_bind]
  exact h s c hsc s c hsc

theorem ite {b : Prop} [Decidable b] {p₁ p₂ : Prog ε S α} {q₁ q₂ : Prog ε C α}
    (h₁ : b → Simulates R p₁ q₁) (h₂ : ¬ b → Simulates R p₂ q₂) :
    Simulates R (if b then p₁ else p₂) (if b then q₁ else q₂) := by
  split
  · next hb => exact h₁ hb
  · next hb => exact h₂ hb

theorem attempt (h : Simulates R p q) : Simulates R (Prog.attempt p) (Prog.attempt q) := by
  intro s c hsc
  obtain ⟨houtcome, hstate⟩ := h s c hsc
  unfold Prog.attempt
  rcases hp : p.run s with ⟨o, s'⟩
  rcases hq : q.run c with ⟨o', c'⟩
  rw [hp, hq] at houtcome hstate
  cases houtcome
  simp only [hp, hq]
  cases o <;> exact ⟨rfl, hstate⟩

end Simulates

/-- The outcomes of programs that are run in a row, each where the one before has stopped,
and the state behind the last. -/
def runAll : List (Prog ε S α) → S → List (Outcome ε α) × S
  | [], s => ([], s)
  | p :: ps, s => ((p.run s).1 :: (runAll ps (p.run s).2).1, (runAll ps (p.run s).2).2)

theorem runAll_append (ps qs : List (Prog ε S α)) (s : S) :
    runAll (ps ++ qs) s = ((runAll ps s).1 ++ (runAll qs (runAll ps s).2).1,
      (runAll qs (runAll ps s).2).2) := by
  induction ps generalizing s with
  | nil => rfl
  | cons p ps ih => simp only [List.cons_append, runAll, ih]

/-- Whole runs correspond as their steps do. -/
theorem Simulates.runAll {R : S → C → Prop} {ps : List (Prog ε S α)} {qs : List (Prog ε C α)}
    (h : List.Forall₂ (Simulates R) ps qs) {s : S} {c : C} (hsc : R s c) :
    (Prog.runAll ps s).1 = (Prog.runAll qs c).1 ∧ R (Prog.runAll ps s).2 (Prog.runAll qs c).2 := by
  induction h generalizing s c with
  | nil => exact ⟨rfl, hsc⟩
  | cons hpq _ ih =>
    have hfirst := hpq s c hsc
    have hrest := ih hfirst.2
    exact ⟨congrArg₂ List.cons hfirst.1 hrest.1, hrest.2⟩

end Prog
