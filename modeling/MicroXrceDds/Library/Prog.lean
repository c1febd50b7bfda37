import Mathlib.Logic.Function.Basic

/-!
# Programs over an explicit state

A fallible imperative function is a map from a state to an outcome and the state
it leaves behind. An error keeps every effect made before it, a panic stops the
program, and a pending outcome is an asynchronous call that has not completed:
it is blocked, or its future was dropped where it was waiting.
-/
namespace Prog

inductive Outcome (ε α : Type) where
  | ok : α → Outcome ε α
  | err : ε → Outcome ε α
  | panic : Outcome ε α
  | pending : Outcome ε α
  deriving DecidableEq, Repr

variable {ε S A α β : Type}

namespace Outcome

def isOk : Outcome ε α → Bool
  | .ok _ => true
  | _ => false

/-- The same unsuccessful outcome at another result type. -/
def abort : Outcome ε α → Outcome ε β
  | .err e => .err e
  | .panic => .panic
  | _ => .pending

/-- The call gave control back to its caller, with a value or an error. -/
def Returned : Outcome ε α → Prop
  | .ok _ => True
  | .err _ => True
  | _ => False

@[simp] theorem isOk_ok (a : α) : (ok a : Outcome ε α).isOk = true := rfl
@[simp] theorem isOk_err (e : ε) : (err e : Outcome ε α).isOk = false := rfl
@[simp] theorem isOk_panic : (panic : Outcome ε α).isOk = false := rfl
@[simp] theorem isOk_pending : (pending : Outcome ε α).isOk = false := rfl
@[simp] theorem abort_err (e : ε) : (err e : Outcome ε α).abort = (err e : Outcome ε β) := rfl
@[simp] theorem abort_panic : (panic : Outcome ε α).abort = (panic : Outcome ε β) := rfl
@[simp] theorem abort_pending : (pending : Outcome ε α).abort = (pending : Outcome ε β) := rfl
@[simp] theorem returned_ok (a : α) : (ok a : Outcome ε α).Returned := trivial
@[simp] theorem returned_err (e : ε) : (err e : Outcome ε α).Returned := trivial
@[simp] theorem not_returned_panic : ¬ (panic : Outcome ε α).Returned := id
@[simp] theorem not_returned_pending : ¬ (pending : Outcome ε α).Returned := id

end Outcome

end Prog

/-- A program with errors in `ε` over states in `S`. -/
structure Prog (ε S α : Type) where
  run : S → Prog.Outcome ε α × S

namespace Prog

variable {ε S A α β : Type}

/-- Sequencing is Rust's `?`: anything but a value ends the whole program. -/
def andThen (p : Prog ε S α) (f : α → Prog ε S β) : Prog ε S β where
  run s := match p.run s with
    | (.ok a, s') => (f a).run s'
    | (o, s') => (o.abort, s')

instance : Monad (Prog ε S) where
  pure a := ⟨fun s => (.ok a, s)⟩
  bind := andThen

def throw (e : ε) : Prog ε S α := ⟨fun s => (.err e, s)⟩

def panic : Prog ε S α := ⟨fun s => (.panic, s)⟩

def pending : Prog ε S α := ⟨fun s => (.pending, s)⟩

def get : Prog ε S S := ⟨fun s => (.ok s, s)⟩

def modify (f : S → S) : Prog ε S Unit := ⟨fun s => (.ok (), f s)⟩

/-- Run a program on one component of the state. -/
def zoom (view : S → A) (put : A → S → S) (p : Prog ε A α) : Prog ε S α where
  run s := ((p.run (view s)).1, put (p.run (view s)).2 s)

/-- A program that has already been run elsewhere. -/
def ofOutcome (o : Outcome ε α) : Prog ε S α := ⟨fun s => (o, s)⟩

/-- `if let Err(e) = p { log(e) }`. -/
def ignoreErr (p : Prog ε S Unit) : Prog ε S Unit where
  run s := match p.run s with
    | (.err _, s') => (.ok (), s')
    | r => r

/-- The result of a call as a value, for a caller that looks at it. -/
def attempt (p : Prog ε S α) : Prog ε S (Except ε α) where
  run s := match p.run s with
    | (.ok a, s') => (.ok (.ok a), s')
    | (.err e, s') => (.ok (.error e), s')
    | (.panic, s') => (.panic, s')
    | (.pending, s') => (.pending, s')

/-- `l[i]`, which panics past the end. -/
def index (l : List A) (i : Nat) : Prog ε S A :=
  match l[i]? with
  | some a => pure a
  | none => panic

/-- `&l[a..b]`, which panics unless `a ≤ b` and `b` is at most the length. -/
def slice (l : List A) (a b : Nat) : Prog ε S (List A) :=
  if a ≤ b ∧ b ≤ l.length then pure ((l.drop a).take (b - a)) else panic

@[ext] theorem ext {p q : Prog ε S α} (h : ∀ s, p.run s = q.run s) : p = q := by
  cases p
  cases q
  congr 1
  funext s
  exact h s

@[simp] theorem run_pure (a : α) (s : S) : (pure a : Prog ε S α).run s = (.ok a, s) := rfl
@[simp] theorem run_throw (e : ε) (s : S) : (throw e : Prog ε S α).run s = (.err e, s) := rfl
@[simp] theorem run_panic (s : S) : (panic : Prog ε S α).run s = (.panic, s) := rfl
@[simp] theorem run_pending (s : S) : (pending : Prog ε S α).run s = (.pending, s) := rfl
@[simp] theorem run_ofOutcome (o : Outcome ε α) (s : S) :
    (ofOutcome o : Prog ε S α).run s = (o, s) := rfl
@[simp] theorem run_get (s : S) : (get : Prog ε S S).run s = (.ok s, s) := rfl
@[simp] theorem run_modify (f : S → S) (s : S) :
    (modify f : Prog ε S Unit).run s = (.ok (), f s) := rfl
@[simp] theorem run_zoom (view : S → A) (put : A → S → S) (p : Prog ε A α) (s : S) :
    (zoom view put p).run s = ((p.run (view s)).1, put (p.run (view s)).2 s) := rfl

theorem run_bind (p : Prog ε S α) (f : α → Prog ε S β) (s : S) :
    (p >>= f).run s = match p.run s with
      | (.ok a, s') => (f a).run s'
      | (o, s') => (o.abort, s') := rfl

theorem bind_ok {p : Prog ε S α} {s s' : S} {a : α} (h : p.run s = (.ok a, s'))
    (f : α → Prog ε S β) : (p >>= f).run s = (f a).run s' := by
  rw [run_bind, h]

theorem bind_abort {p : Prog ε S α} {s s' : S} {o : Outcome ε α} (h : p.run s = (o, s'))
    (ho : o.isOk = false) (f : α → Prog ε S β) : (p >>= f).run s = (o.abort, s') := by
  rw [run_bind, h]
  cases o <;> simp_all

@[simp] theorem run_pure_bind (a : α) (f : α → Prog ε S β) (s : S) :
    ((pure a : Prog ε S α) >>= f).run s = (f a).run s := rfl
@[simp] theorem run_get_bind (f : S → Prog ε S β) (s : S) :
    ((get : Prog ε S S) >>= f).run s = (f s).run s := rfl
@[simp] theorem run_modify_bind (g : S → S) (f : Unit → Prog ε S β) (s : S) :
    ((modify g : Prog ε S Unit) >>= f).run s = (f ()).run (g s) := rfl
@[simp] theorem run_throw_bind (e : ε) (f : α → Prog ε S β) (s : S) :
    ((throw e : Prog ε S α) >>= f).run s = (.err e, s) := rfl
@[simp] theorem run_panic_bind (f : α → Prog ε S β) (s : S) :
    ((panic : Prog ε S α) >>= f).run s = (.panic, s) := rfl

/-- Either the first program gives a value and the second goes on from there,
or the first one decides the outcome. -/
theorem bind_cases (p : Prog ε S α) (f : α → Prog ε S β) (s : S) :
    (∃ a s', p.run s = (.ok a, s') ∧ (p >>= f).run s = (f a).run s') ∨
    (∃ o s', p.run s = (o, s') ∧ o.isOk = false ∧ (p >>= f).run s = (o.abort, s')) := by
  cases h : p.run s with
  | mk o s' =>
    cases o with
    | ok a => exact .inl ⟨a, s', rfl, bind_ok h f⟩
    | err e => exact .inr ⟨.err e, s', rfl, rfl, bind_abort h rfl f⟩
    | panic => exact .inr ⟨.panic, s', rfl, rfl, bind_abort h rfl f⟩
    | pending => exact .inr ⟨.pending, s', rfl, rfl, bind_abort h rfl f⟩

/-- A sequence gives a value only if both parts do. -/
theorem bind_eq_ok {p : Prog ε S α} {f : α → Prog ε S β} {s s' : S} {b : β}
    (h : (p >>= f).run s = (.ok b, s')) :
    ∃ a s₁, p.run s = (.ok a, s₁) ∧ (f a).run s₁ = (.ok b, s') := by
  rcases bind_cases p f s with ⟨a, s₁, hp, hb⟩ | ⟨o, s₁, hp, ho, hb⟩
  · exact ⟨a, s₁, hp, hb ▸ h⟩
  · rw [hb] at h
    cases o <;> simp_all

/-- Mapping the value leaves the state alone. -/
theorem state_map (p : Prog ε S α) (f : α → β) (s : S) :
    ((p >>= fun a => pure (f a)).run s).2 = (p.run s).2 := by
  rcases bind_cases p (fun a => (pure (f a) : Prog ε S β)) s with
    ⟨a, s', h, hb⟩ | ⟨o, s', h, -, hb⟩ <;> rw [hb, h]
  rfl

theorem index_of_lt {l : List A} {i : Nat} (h : i < l.length) :
    (index l i : Prog ε S A) = pure l[i] := by
  simp only [index, List.getElem?_eq_getElem h]

theorem slice_of_le {l : List A} {a b : Nat} (hab : a ≤ b) (hb : b ≤ l.length) :
    (slice l a b : Prog ε S (List A)) = pure ((l.drop a).take (b - a)) := by
  simp only [slice, hab, hb, and_self, ↓reduceIte]

instance : LawfulMonad (Prog ε S) := by
  refine LawfulMonad.mk' (Prog ε S) ?_ ?_ ?_
  · intro α p
    ext s : 1
    change (p >>= fun a => pure a).run s = p.run s
    rcases bind_cases p (fun a => pure a) s with ⟨a, s', h, hb⟩ | ⟨o, s', h, ho, hb⟩
    · rw [hb, h, run_pure]
    · rw [hb, h]
      cases o <;> simp_all
  · intro α β a f
    rfl
  · intro α β γ p f g
    ext s : 1
    rcases bind_cases p f s with ⟨a, s', h, hb⟩ | ⟨o, s', h, ho, hb⟩
    · rw [bind_ok h, run_bind, hb, ← run_bind]
    · rw [bind_abort h ho, bind_abort hb (by cases o <;> simp_all)]
      cases o <;> simp_all

/-- Every run, however it ends, is a step of the relation. -/
def Within (R : S → S → Prop) (p : Prog ε S α) : Prop := ∀ s, R s (p.run s).2

theorem Within.of_run {R : S → S → Prop} {p : Prog ε S α} (h : Within R p) {s s' : S}
    {o : Outcome ε α} (hrun : p.run s = (o, s')) : R s s' := by
  have hs := h s
  rw [hrun] at hs
  exact hs

theorem Within.mono {R R' : S → S → Prop} {p : Prog ε S α} (h : Within R p)
    (hR : ∀ s s', R s s' → R' s s') : Within R' p := fun s => hR s _ (h s)

theorem Within.pure {R : S → S → Prop} (refl : ∀ s, R s s) (a : α) :
    Within R (Pure.pure a : Prog ε S α) := fun s => refl s

theorem Within.bind {R : S → S → Prop} (trans : ∀ a b c, R a b → R b c → R a c)
    {p : Prog ε S α} {f : α → Prog ε S β} (hp : Within R p) (hf : ∀ a, Within R (f a)) :
    Within R (p >>= f) := by
  intro s
  have h := hp s
  rcases bind_cases p f s with ⟨a, s', hs, hb⟩ | ⟨o, s', hs, _, hb⟩
  · rw [hs] at h
    rw [hb]
    exact trans _ _ _ h (hf a s')
  · rw [hs] at h
    rw [hb]
    exact h

/-- Every error the program may end with is in `E`. -/
def Raises (E : ε → Prop) (p : Prog ε S α) : Prop := ∀ s e, (p.run s).1 = .err e → E e

namespace Raises

variable {E : ε → Prop}

theorem pure (a : α) : Raises E (Pure.pure a : Prog ε S α) := by
  intro s e h
  cases h

theorem throw {e : ε} (h : E e) : Raises E (Prog.throw e : Prog ε S α) := by
  rintro s e' ⟨⟩
  exact h

theorem panic : Raises E (Prog.panic : Prog ε S α) := by
  intro s e h
  cases h

theorem pending : Raises E (Prog.pending : Prog ε S α) := by
  intro s e h
  cases h

theorem get : Raises E (Prog.get : Prog ε S S) := by
  intro s e h
  cases h

theorem modify (f : S → S) : Raises E (Prog.modify f : Prog ε S Unit) := by
  intro s e h
  cases h

theorem bind {p : Prog ε S α} {f : α → Prog ε S β} (hp : Raises E p) (hf : ∀ a, Raises E (f a)) :
    Raises E (p >>= f) := by
  intro s e h
  rcases bind_cases p f s with ⟨a, s', -, hb⟩ | ⟨o, s', hs, ho, hb⟩
  · rw [hb] at h
    exact hf a s' e h
  · rw [hb] at h
    apply hp s e
    rw [hs]
    cases o <;> simp_all

theorem mono {E' : ε → Prop} {p : Prog ε S α} (hp : Raises E p) (h : ∀ e, E e → E' e) :
    Raises E' p := fun s e he => h e (hp s e he)

theorem slice (l : List A) (a b : Nat) : Raises E (Prog.slice l a b : Prog ε S (List A)) := by
  unfold Prog.slice
  split
  · exact pure _
  · exact panic

end Raises

/-- When the program panics, it leaves a state in `E`. -/
def PanicsIn (E : S → Prop) (p : Prog ε S α) : Prop := ∀ s, (p.run s).1 = .panic → E (p.run s).2

namespace PanicsIn

variable {E : S → Prop}

theorem pure (a : α) : PanicsIn E (Pure.pure a : Prog ε S α) := by
  intro s h
  cases h

theorem throw (e : ε) : PanicsIn E (Prog.throw e : Prog ε S α) := by
  intro s h
  cases h

theorem pending : PanicsIn E (Prog.pending : Prog ε S α) := by
  intro s h
  cases h

theorem get : PanicsIn E (Prog.get : Prog ε S S) := by
  intro s h
  cases h

theorem modify (f : S → S) : PanicsIn E (Prog.modify f : Prog ε S Unit) := by
  intro s h
  cases h

/-- The second part only has to be good for what the first part returns. -/
theorem bind_of {p : Prog ε S α} {f : α → Prog ε S β} (hp : PanicsIn E p)
    (hf : ∀ s a s', p.run s = (.ok a, s') → ((f a).run s').1 = .panic → E ((f a).run s').2) :
    PanicsIn E (p >>= f) := by
  intro s h
  rcases bind_cases p f s with ⟨a, s', hs, hb⟩ | ⟨o, s', hs, ho, hb⟩
  · rw [hb] at h ⊢
    exact hf s a s' hs h
  · have hpanic := hp s
    rw [hs] at hpanic
    rw [hb] at h ⊢
    cases o with
    | panic => exact hpanic rfl
    | ok a => cases ho
    | _ => cases h

theorem bind {p : Prog ε S α} {f : α → Prog ε S β} (hp : PanicsIn E p)
    (hf : ∀ a, PanicsIn E (f a)) : PanicsIn E (p >>= f) :=
  hp.bind_of fun _ a s' _ h => hf a s' h

theorem mono {E' : S → Prop} {p : Prog ε S α} (hp : PanicsIn E p) (h : ∀ s, E s → E' s) :
    PanicsIn E' p := fun s hs => h _ (hp s hs)

end PanicsIn

/-- From every state in `P` the program ends in an outcome and state in `Q`. -/
def Spec (P : S → Prop) (p : Prog ε S α) (Q : Outcome ε α → S → Prop) : Prop :=
  ∀ s, P s → Q (p.run s).1 (p.run s).2

/-- What the first part of a sequence has to establish: `R` with its value, and
the final postcondition when it stops the sequence. -/
def Midway (R : α → S → Prop) (Q : Outcome ε β → S → Prop) : Outcome ε α → S → Prop
  | .ok a, s => R a s
  | o, s => Q o.abort s

theorem Spec.bind {P : S → Prop} {R : α → S → Prop} {Q : Outcome ε β → S → Prop}
    {p : Prog ε S α} {f : α → Prog ε S β}
    (hp : Spec P p (Midway R Q)) (hf : ∀ a, Spec (R a) (f a) Q) : Spec P (p >>= f) Q := by
  intro s hs
  have h := hp s hs
  rcases bind_cases p f s with ⟨a, s', he, hb⟩ | ⟨o, s', he, ho, hb⟩
  · rw [he] at h
    rw [hb]
    exact hf a s' h
  · rw [he] at h
    rw [hb]
    cases o <;> simp_all [Midway]

end Prog
