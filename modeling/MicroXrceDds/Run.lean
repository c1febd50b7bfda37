import MicroXrceDds.Calls

/-!
# Runs of a program

A program calls the API of one connected session, one call after the other. Whatever the
transport does, a call may end with a value or an error, or be dropped while it waits;
a panic ends the program.
-/
namespace MicroXrceDds

open Prog Session

variable {T σ : Type} [Statics σ]

/-- A call of the API, or of `try_recv` by another task in between. -/
inductive Op (σ : Type) [Statics σ] : Type 1 where
  | createNode (name : Bytes)
  | createPublisher (M : Type) [Message M] (node : Node) (topic : Bytes)
  | createSubscription (node : Node) (topic : Bytes) (slot : σ)
  | publish (M : Type) [Message M] (pub : Publisher M) (msg : M)
  | spinOnce
  | tryRecv (slot : σ)

/-- What a call gives back; a publisher is known by its DataWriter. -/
inductive Reply (σ : Type) where
  | node : Node → Reply σ
  | publisher : UInt16 → Reply σ
  | subscription : σ → Reply σ
  | done
  deriving DecidableEq

section
variable [Target] [ReadWrite T]

def Op.call (fuel : Nat) : Op σ → Call T σ (Reply σ)
  | createNode name => do
    let node ← Session.createNode fuel name
    pure (.node node)
  | createPublisher M node topic => do
    let pub ← Session.createPublisher M fuel node topic
    pure (.publisher pub.dwId)
  | createSubscription node topic slot => do
    let slot ← Session.createSubscription fuel node topic slot
    pure (.subscription slot)
  | publish _ pub msg => do
    Session.publish pub msg
    pure .done
  | spinOnce => do
    Session.spinOnce
    pure .done
  | tryRecv slot => do
    Session.tryRecv slot
    pure .done

/-- A call as it was made: in which world, and watched for how many turns of its loops. -/
structure Made (T σ : Type) [Statics σ] : Type 1 where
  op : Op σ
  fuel : Nat
  before : World T σ

namespace Made

def outcome (c : Made T σ) : Outcome Error (Reply σ) := ((c.op.call c.fuel).run c.before).1

def after (c : Made T σ) : World T σ := ((c.op.call c.fuel).run c.before).2

/-- What the call added to the history. -/
def events (c : Made T σ) : List (Event σ) := c.after.history.drop c.before.history.length

end Made

/-- The runs from a world. -/
inductive Runs (w₀ : World T σ) : List (Made T σ) → World T σ → Prop
  | nil : Runs w₀ [] w₀
  | snoc {calls : List (Made T σ)} (c : Made T σ) (h : Runs w₀ calls c.before)
      (live : ∀ c' ∈ calls, c'.outcome ≠ .panic) : Runs w₀ (calls ++ [c]) c.after

theorem Runs.single (c : Made T σ) : Runs c.before [c] c.after := .snoc c .nil nofun

/-- Two calls in a row. -/
theorem Runs.pair {c₁ c₂ : Made T σ} (h : c₂.before = c₁.after) (live : c₁.outcome ≠ .panic) :
    Runs c₁.before [c₁, c₂] c₂.after := by
  have hfirst : Runs c₁.before [c₁] c₂.before := by
    rw [h]
    exact .single c₁
  apply Runs.snoc c₂ hfirst
  intro c hc
  rw [List.mem_singleton.mp hc]
  exact live

/-- The calls of a program that makes these in a row. -/
def inRow (w : World T σ) : List (Op σ × Nat) → List (Made T σ)
  | [] => []
  | op :: ops => ⟨op.1, op.2, w⟩ :: inRow (Made.mk op.1 op.2 w).after ops

/-- The world they leave behind. -/
def behindRow (w : World T σ) : List (Op σ × Nat) → World T σ
  | [] => w
  | op :: ops => behindRow (Made.mk op.1 op.2 w).after ops

theorem mem_of_mem_inRow {w : World T σ} {ops : List (Op σ × Nat)} {c : Made T σ}
    (h : c ∈ inRow w ops) : (c.op, c.fuel) ∈ ops := by
  induction ops generalizing w with
  | nil => cases h
  | cons op ops ih =>
    rcases List.mem_cons.mp h with rfl | hlater
    · exact List.mem_cons_self
    · exact List.mem_cons_of_mem _ (ih hlater)

/-- As long as none but the last of them panics, they go on with a run. -/
theorem Runs.onward {w₀ w : World T σ} {calls : List (Made T σ)} (h : Runs w₀ calls w)
    {ops : List (Op σ × Nat)} (live : ∀ c ∈ (calls ++ inRow w ops).dropLast, c.outcome ≠ .panic) :
    Runs w₀ (calls ++ inRow w ops) (behindRow w ops) := by
  induction ops generalizing calls w with
  | nil =>
    rw [inRow, List.append_nil]
    exact h
  | cons op ops ih =>
    rw [inRow] at live ⊢
    have hmade : Runs w₀ (calls ++ [Made.mk op.1 op.2 w]) (Made.mk op.1 op.2 w).after := by
      refine .snoc (Made.mk op.1 op.2 w) h fun c hc => live c ?_
      rw [List.dropLast_append_cons]
      exact List.mem_append_left _ hc
    rw [List.append_cons] at live ⊢
    exact ih hmade live

theorem runs_inRow {w : World T σ} {ops : List (Op σ × Nat)}
    (live : ∀ c ∈ (inRow w ops).dropLast, c.outcome ≠ .panic) :
    Runs w (inRow w ops) (behindRow w ops) := Runs.onward .nil live

/-- The call registered the slot it was given, under this DataReader. -/
def Made.Registers (c : Made T σ) (s : σ) (drOid : UInt16) : Prop :=
  ∃ w₁ table, Prepared c.before drOid w₁ ∧ w₁.session.subscriptions.push s = some table ∧
    c.outcome = .ok (.subscription s) ∧ c.after = w₁.entered s drOid table

theorem Made.Registers.outcome {c : Made T σ} {s : σ} {drOid : UInt16} (h : c.Registers s drOid) :
    c.outcome = .ok (.subscription s) := by
  obtain ⟨_, _, -, -, hok, -⟩ := h
  exact hok

/-- Only a `create_subscription` call that succeeds registers anything. -/
theorem made_cases (c : Made T σ) :
    (Follows Event.Quiet c.before c.after ∧ ∀ s, c.outcome ≠ .ok (.subscription s)) ∨
    (∃ node topic s drOid, c.op = .createSubscription node topic s ∧ c.Registers s drOid) := by
  obtain ⟨op, fuel, w⟩ := c
  -- A call that is mapped to another kind of reply keeps its trail.
  have hquiet {α : Type} {p : Call T σ α} {f : α → Reply σ} (hp : Within (Follows Event.Quiet) p)
      (hf : ∀ a s, f a ≠ .subscription s) :
      Follows Event.Quiet w ((p >>= fun a => pure (f a)).run w).2 ∧
        ∀ s, ((p >>= fun a => pure (f a)).run w).1 ≠ .ok (.subscription s) := by
    rw [state_map]
    refine ⟨hp w, ?_⟩
    intro s hs
    obtain ⟨a, w₁, -, ha⟩ := bind_eq_ok (Prod.ext hs rfl)
    exact hf a s (Outcome.ok.inj (congrArg Prod.fst ha))
  cases op with
  | createNode name => exact .inl (hquiet (createNode_quiet fuel name) fun _ _ => nofun)
  | createPublisher M node topic =>
    exact .inl (hquiet (createPublisher_quiet M fuel node topic) fun _ _ => nofun)
  | publish M pub msg => exact .inl (hquiet (publish_quiet pub msg) fun _ _ => nofun)
  | spinOnce => exact .inl (hquiet spinOnce_quiet fun _ _ => nofun)
  | tryRecv slot =>
    exact .inl (hquiet ((tryRecv_follows slot).mono fun _ _ h => h.mono fun _ he => he.quiet)
      fun _ _ => nofun)
  | createSubscription node topic s =>
    rcases createSubscription_cases fuel node topic s w with
      ⟨o, w', hrun, ho, hfollows⟩ | ⟨drOid, w₁, table, hprep, hpush, hrun⟩
    · left
      have hcall : ((Op.createSubscription node topic s).call fuel).run w = (o.abort, w') :=
        bind_abort hrun ho _
      constructor
      · rw [Made.after, hcall]
        exact hfollows
      · intro s' hs'
        rw [Made.outcome, hcall] at hs'
        cases o <;> simp_all
    · right
      have hcall : ((Op.createSubscription node topic s).call fuel).run w =
          (.ok (.subscription s), w₁.entered s drOid table) := bind_ok hrun _
      refine ⟨node, topic, s, drOid, rfl, w₁, table, hprep, hpush, ?_, ?_⟩
      · rw [Made.outcome, hcall]
      · rw [Made.after, hcall]

/-- A registration seen from outside: quiet events, and then the two of the entry. -/
theorem Made.Registers.trail {c : Made T σ} {s : σ} {drOid : UInt16} (h : c.Registers s drOid) :
    ∃ es, (∀ e ∈ es, e.Quiet) ∧ readDataIds c.before.session.sessionId es = [drOid] ∧
      Trail c.before (es ++ [.assigned s drOid, .registered s]) c.after := by
  obtain ⟨w₁, table, hprep, hpush, -, hafter⟩ := h
  obtain ⟨es, hquiet, hread, htrail⟩ := hprep.trail
  rw [hafter]
  exact ⟨es, hquiet, hread, htrail.trans (entered_trail drOid hpush)⟩

/-- Every call follows the router. -/
theorem Made.trail (c : Made T σ) : ∃ es, Trail c.before es c.after := by
  rcases made_cases c with ⟨⟨es, -, htrail⟩, -⟩ | ⟨_, _, s, drOid, -, hreg⟩
  · exact ⟨es, htrail⟩
  · obtain ⟨es, -, -, htrail⟩ := hreg.trail
    exact ⟨_, htrail⟩

theorem Made.events_eq {c : Made T σ} {es : List (Event σ)} (h : Trail c.before es c.after) :
    c.events = es := by
  rw [Made.events, h.history, List.drop_left]

/-- And so does every run. -/
theorem Runs.trail {w₀ w : World T σ} {calls : List (Made T σ)} (h : Runs w₀ calls w) :
    ∃ es, Trail w₀ es w := by
  induction h with
  | nil => exact ⟨[], .refl w₀⟩
  | snoc c _ _ ih =>
    obtain ⟨es, hes⟩ := ih
    obtain ⟨es', hes'⟩ := c.trail
    exact ⟨es ++ es', hes.trans hes'⟩

/-- A run can be cut at each of its calls. -/
theorem Runs.cut {w₀ w : World T σ} {calls : List (Made T σ)} (h : Runs w₀ calls w)
    {c : Made T σ} (hc : c ∈ calls) : ∃ front back, calls = front ++ c :: back ∧
      Runs w₀ front c.before ∧ Runs c.after back w := by
  induction h with
  | nil => cases hc
  | @snoc calls c' h live ih =>
    rcases List.mem_append.mp hc with hin | hlast
    · obtain ⟨front, back, rfl, hfront, hback⟩ := ih hin
      refine ⟨front, back ++ [c'], by rw [List.append_assoc, List.cons_append], hfront, ?_⟩
      apply Runs.snoc c' hback
      intro c₁ hc₁
      exact live c₁ (List.mem_append_right _ (List.mem_cons_of_mem _ hc₁))
    · rw [List.mem_singleton.mp hlast]
      exact ⟨calls, [], rfl, h, .nil⟩

end

end MicroXrceDds
