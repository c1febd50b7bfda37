import MicroXrceDds.Library.Prog

/-!
# Programs that move a position

The states of a program stand at positions, and where a straight-line program goes is
settled by the position it starts from: it arrives at another one, or it panics because
some step on the way would have started where it must not.
-/
namespace Prog

variable {ι ε S α β : Type}

/-- From a state at `i` the program ends in `o`, and with a value at `j`, if `safe` holds. It
panics if not. -/
structure Goes (At : ι → S → Prop) (i : ι) (p : Prog ε S α) (safe : Prop) (o : Outcome ε α)
    (j : ι) : Prop where
  ends : ∀ s, At i s → safe → (p.run s).1 = o
  arrives : ∀ s, At i s → safe → o.isOk = true → At j (p.run s).2
  panics : ∀ s, At i s → ¬ safe → (p.run s).1 = .panic

namespace Goes

variable {At : ι → S → Prop} {i j k : ι} {p : Prog ε S α} {f : α → Prog ε S β} {P Q : Prop}

theorem pure (a : α) : Goes At i (Pure.pure a : Prog ε S α) True (.ok a) i where
  ends _ _ _ := rfl
  arrives _ hs _ _ := hs
  panics _ _ hsafe := absurd trivial hsafe

theorem throw (e : ε) : Goes At i (Prog.throw e : Prog ε S α) True (.err e) j where
  ends _ _ _ := rfl
  arrives _ _ _ ho := by cases ho
  panics _ _ hsafe := absurd trivial hsafe

theorem panic {o : Outcome ε α} : Goes At i (Prog.panic : Prog ε S α) False o j where
  ends _ _ hsafe := hsafe.elim
  arrives _ _ hsafe := hsafe.elim
  panics _ _ _ := rfl

theorem modify {g : S → S} (hg : ∀ s, At i s → At j (g s)) :
    Goes At i (Prog.modify g : Prog ε S Unit) True (.ok ()) j where
  ends _ _ _ := rfl
  arrives s hs _ _ := hg s hs
  panics _ _ hsafe := absurd trivial hsafe

/-- Another program that does the same from states at `i`. -/
theorem of_run {q : Prog ε S α} {o : Outcome ε α} (h : Goes At i p P o j)
    (hrun : ∀ s, At i s → q.run s = p.run s) : Goes At i q P o j where
  ends s hs hP := by
    rw [hrun s hs]
    exact h.ends s hs hP
  arrives s hs hP ho := by
    rw [hrun s hs]
    exact h.arrives s hs hP ho
  panics s hs hP := by
    rw [hrun s hs]
    exact h.panics s hs hP

/-- Two statements of the same condition. -/
theorem congr {o : Outcome ε α} (h : Goes At i p P o j) (hPQ : P ↔ Q) : Goes At i p Q o j where
  ends s hs hQ := h.ends s hs (hPQ.mpr hQ)
  arrives s hs hQ := h.arrives s hs (hPQ.mpr hQ)
  panics s hs hQ := h.panics s hs fun hP => hQ (hPQ.mp hP)

/-- A step that arrives, and what follows it. -/
theorem bind {a : α} {o : Outcome ε β} (hp : Goes At i p P (.ok a) j) (hf : Goes At j (f a) Q o k) :
    Goes At i (p >>= f) (P ∧ Q) o k where
  ends s hs hsafe := by
    rw [bind_ok (Prod.ext (hp.ends s hs hsafe.1) rfl)]
    exact hf.ends _ (hp.arrives s hs hsafe.1 rfl) hsafe.2
  arrives s hs hsafe ho := by
    rw [bind_ok (Prod.ext (hp.ends s hs hsafe.1) rfl)]
    exact hf.arrives _ (hp.arrives s hs hsafe.1 rfl) hsafe.2 ho
  panics s hs hsafe := by
    by_cases hP : P
    · rw [bind_ok (Prod.ext (hp.ends s hs hP) rfl)]
      exact hf.panics _ (hp.arrives s hs hP rfl) fun hQ => hsafe ⟨hP, hQ⟩
    · rw [bind_abort (Prod.ext (hp.panics s hs hP) rfl) rfl]
      rfl

theorem seq {q : Prog ε S β} {a : α} {o : Outcome ε β} (hp : Goes At i p P (.ok a) j)
    (hq : Goes At j q Q o k) : Goes At i (p >>= fun _ => q) (P ∧ Q) o k :=
  hp.bind hq

/-- A step that fails is the last one. -/
theorem bind_err {e : ε} (hp : Goes At i p P (.err e) j) (f : α → Prog ε S β) :
    Goes At i (p >>= f) P (.err e) k where
  ends s hs hP := by
    rw [bind_abort (Prod.ext (hp.ends s hs hP) rfl) rfl]
    rfl
  arrives _ _ _ ho := by cases ho
  panics s hs hP := by
    rw [bind_abort (Prod.ext (hp.panics s hs hP) rfl) rfl]
    rfl

end Goes

end Prog
