import MicroXrceDds.Errors
import MicroXrceDds.Registration

/-!
# A subscription is created or nothing has changed locally

Only the last step of `create_subscription` touches the dispatch table and the id of the
slot, and the room for it has been checked before anything else.
-/
namespace MicroXrceDds

open Prog Session

variable {T σ : Type} [Statics σ]

/-- Local state after the call: as before except for what was routed to the table and taken
from it meanwhile. -/
structure Untouched (w w' : World T σ) : Prop where
  table : w'.session.subscriptions = w.session.subscriptions
  ids : ∀ s, (w'.slots s).drId = (w.slots s).drId
  routed : Follows Event.Quiet w w'
  outside : ∀ s, s ∉ w.session.subscriptions.items →
    (w'.slots s).inbox.items <:+ (w.slots s).inbox.items

theorem untouched_of_quiet {w w' : World T σ} (h : Follows Event.Quiet w w') : Untouched w w' := by
  obtain ⟨es, hes, htrail⟩ := h
  obtain ⟨htable, hids⟩ := htrail.router.quiet hes
  exact ⟨htable, hids, ⟨es, hes, htrail⟩, fun s hs => htrail.router.outside hes hs⟩

/-- Every error but the one of a full table. -/
def Error.Other (e : Error) : Prop := e ≠ .tooManySubscriptions

section
variable [Target] [ReadWrite T]

theorem raises_prepareSubscription (fuel : Nat) (node : Node) (topic : Bytes) (s : σ) :
    Raises Error.Other (prepareSubscription fuel node topic s : Call T σ UInt16) := by
  refine (prepareSubscription_errors fuel node topic s).mono ?_
  rintro e (((rfl | rfl) | rfl) | rfl | rfl | ⟨status, -, rfl⟩) <;> exact nofun

/-- The call reports a full table exactly when it is full at the start, so the push at the
end does not fail. -/
theorem createSubscription_full_iff (fuel : Nat) (node : Node) (topic : Bytes) (s : σ)
    (w : World T σ) : ((createSubscription fuel node topic s).run w).1 = .err .tooManySubscriptions ↔
      w.session.subscriptions.isFull = true := by
  rw [createSubscription_eq, run_get_bind]
  by_cases hfull : w.session.subscriptions.isFull = true
  · rw [if_pos hfull]
    exact ⟨fun _ => hfull, fun _ => rfl⟩
  · rw [if_neg hfull]
    refine ⟨fun h => ?_, fun h => absurd h hfull⟩
    rcases bind_cases (prepareSubscription fuel node topic s) (enter s) w with
      ⟨drOid, w₁, hprep, hbind⟩ | ⟨o, w₁, hprep, ho, hbind⟩
    · obtain ⟨-, table, hpush⟩ := push_prepared (by simpa using hfull) hprep
      rw [hbind, enter_run hpush] at h
      cases h
    · rw [hbind] at h
      have hother : Error.tooManySubscriptions.Other := by
        apply raises_prepareSubscription fuel node topic s w
        rw [hprep]
        cases o <;> simp_all
      exact absurd rfl hother

/-- A call that does not succeed leaves the local state alone; one that is refused at its
start changes nothing at all; the push at the end does not fail; and a call that succeeds has
entered its slot under the id of the new DataReader. -/
theorem createSubscription_atomic (fuel : Nat) (node : Node) (topic : Bytes) (s : σ)
    (w : World T σ) {o : Outcome Error σ} {w' : World T σ}
    (h : (createSubscription fuel node topic s).run w = (o, w')) :
    (o.isOk = false → Untouched w w') ∧
    (o = .err .tooManySubscriptions ↔ w.session.subscriptions.isFull = true) ∧
    (w.session.subscriptions.isFull = true ∨ ¬ TopicFits topic → w' = w ∧
      ∃ e, (e = .tooManySubscriptions ∨ e = .bufferTooSmall) ∧ o = .err e) ∧
    ∀ s', o = .ok s' → s' = s ∧
      w'.session.subscriptions.items = w.session.subscriptions.items ++ [s] ∧
      (w'.slots s).drId = objectId (w.session.nextIdx .datareader) entityDatareader ∧
      ∀ t, t ≠ s → (w'.slots t).drId = (w.slots t).drId := by
  refine ⟨?_, ?_, ?_, ?_⟩
  · intro ho
    rcases createSubscription_cases fuel node topic s w with
      ⟨o', w₁, hrun, -, hquiet⟩ | ⟨drOid, w₁, table, -, -, hrun⟩
    · cases h.symm.trans hrun
      exact untouched_of_quiet hquiet
    · cases h.symm.trans hrun
      cases ho
  · rw [← createSubscription_full_iff fuel node topic s w, h]
  · intro hlocal
    obtain ⟨e, he, hrun⟩ := createSubscription_refused fuel node s hlocal
    cases h.symm.trans hrun
    exact ⟨rfl, e, he, rfl⟩
  · rintro s' rfl
    rcases createSubscription_cases fuel node topic s w with
      ⟨o', w₁, hrun, ho, -⟩ | ⟨drOid, w₁, table, hprep, hpush, hrun⟩
    · cases h.symm.trans hrun
      cases ho
    · cases h.symm.trans hrun
      obtain ⟨es, hquiet, -, htrail⟩ := hprep.trail
      obtain ⟨htable, hids⟩ := htrail.router.quiet hquiet
      have hitems := (Bounded.push_eq_some.mp hpush).2
      refine ⟨rfl, ?_, ?_, ?_⟩
      · change table.items = _
        rw [hitems]
        exact congrArg (fun t => t.items ++ [s]) htable
      · rw [← hprep.drOid_eq.1]
        exact congrArg Subscription.drId (Router.setSlot_self w₁.router s _)
      · intro t ht
        exact (congrArg Subscription.drId (Router.setSlot_of_ne w₁.router ht _)).trans (hids t)

end

/-- A session whose agent grants the topic and rejects the DataReader. -/
def rejecting [Target] : World Wire Unit := answering [statusFrame 1 0, statusFrame 2 0x83]

def createRejected [Target] : Call Wire Unit Unit := createSubscription 4 ⟨1, 1, 1⟩ (ascii "/a") ()

theorem rejected_reader_untouched :
    letI := rp2040 true
    (createRejected.run rejecting).1 = .err (.agentRejected 0x83) ∧
      Untouched rejecting (createRejected.run rejecting).2 := by
  have hrejected : letI := rp2040 true
      (createRejected.run rejecting).1 = .err (.agentRejected 0x83) := by decide +kernel
  generalize rp2040 true = target at hrejected ⊢
  generalize rejecting = w at hrejected ⊢
  cases h : createRejected.run w with
  | mk o w' =>
    rw [h] at hrejected
    have ho : o = .err (.agentRejected 0x83) := hrejected
    refine ⟨ho, (createSubscription_atomic 4 ⟨1, 1, 1⟩ (ascii "/a") () w h).1 ?_⟩
    rw [ho]
    rfl

end MicroXrceDds
