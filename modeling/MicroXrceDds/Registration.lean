import MicroXrceDds.FrameStream
import MicroXrceDds.Messages
import MicroXrceDds.Run

/-!
# Which slots can be reached

The routing key of a subscription is kept in the slot and not in the table, so the table
is only as good as the ids in its slots. As long as nobody passes a slot that is already
registered, the ids are those of the successful calls, and all different.
-/
namespace MicroXrceDds

open Prog Session

variable {T σ : Type} [Statics σ]

/-- The slots of the table with their routing keys. -/
def World.entries (w : World T σ) : List (σ × UInt16) :=
  w.session.subscriptions.items.map fun s => (s, (w.slots s).drId)

def World.tableIds (w : World T σ) : List UInt16 := w.entries.map Prod.snd

/-- The DataReaders of the table were numbered by this session. -/
structure Numbered (w : World T σ) : Prop where
  counted : (w.session.nextIdx .datareader).toNat = 1 + allocations .datareader w.history
  older : ∀ d ∈ w.tableIds, ∃ i : UInt16,
    i.toNat < (w.session.nextIdx .datareader).toNat ∧ d = objectId i entityDatareader

theorem Trail.entries {w w' : World T σ} {es : List (Event σ)} (h : Trail w es w')
    (hes : ∀ e ∈ es, e.Quiet) : w'.entries = w.entries := by
  obtain ⟨htable, hids⟩ := h.router.quiet hes
  have htable' : w'.session.subscriptions = w.session.subscriptions := htable
  rw [World.entries, htable', World.entries]
  exact List.map_congr_left fun s _ => congrArg (Prod.mk s) (hids s)

theorem Trail.counted {w w' : World T σ} {es : List (Event σ)} (h : Trail w es w')
    (hw : (w.session.nextIdx .datareader).toNat = 1 + allocations .datareader w.history)
    (hfew : allocations .datareader w'.history < 4096) :
    (w'.session.nextIdx .datareader).toNat = 1 + allocations .datareader w'.history := by
  rw [h.history, allocations_append] at hfew ⊢
  have hnext := h.router.nextIdx .datareader (by
    change (w.session.nextIdx .datareader).toNat + _ < _
    omega)
  change (w'.router.nextIdx .datareader).toNat = _
  rw [hnext]
  change (w.session.nextIdx .datareader).toNat + _ = _
  omega

/-- Nothing that happens in between disturbs the numbering. -/
theorem Numbered.quiet {w w' : World T σ} {es : List (Event σ)} (hw : Numbered w)
    (h : Trail w es w') (hes : ∀ e ∈ es, e.Quiet)
    (hfew : allocations .datareader w'.history < 4096) : Numbered w' := by
  have hcounted := h.counted hw.counted hfew
  have hids : w'.tableIds = w.tableIds := congrArg (List.map Prod.snd) (h.entries hes)
  have hle : (w.session.nextIdx .datareader).toNat ≤ (w'.session.nextIdx .datareader).toNat := by
    rw [hcounted, hw.counted, h.history, allocations_append]
    omega
  refine ⟨hcounted, ?_⟩
  rw [hids]
  intro d hd
  obtain ⟨i, hi, rfl⟩ := hw.older d hd
  exact ⟨i, Nat.lt_of_lt_of_le hi hle, rfl⟩

/-- A slot that was not in the table yet is entered at its end. -/
theorem entries_entered {w : World T σ} {s : σ} {drOid : UInt16}
    {table : Bounded σ maxSubscriptions} (hpush : w.session.subscriptions.push s = some table)
    (hnew : s ∉ w.session.subscriptions.items) :
    (w.entered s drOid table).entries = w.entries ++ [(s, drOid)] := by
  have hitems := (Bounded.push_eq_some.mp hpush).2
  have hself : ((w.entered s drOid table).slots s).drId = drOid := by
    change (Router.slots (w.router.setSlot s ((w.slots s).setDrId drOid)) s).drId = drOid
    rw [Router.setSlot_self]
    rfl
  have hother : ∀ s' ∈ w.session.subscriptions.items,
      (s', ((w.entered s drOid table).slots s').drId) = (s', (w.slots s').drId) := by
    intro s' hs'
    have hne : s' ≠ s := fun h => hnew (h ▸ hs')
    change (s', (Router.slots (w.router.setSlot s ((w.slots s).setDrId drOid)) s').drId) = _
    rw [Router.setSlot_of_ne _ hne]
    rfl
  change table.items.map _ = _
  rw [hitems, List.map_append, List.map_congr_left hother, List.map_singleton, hself]
  rfl

theorem tableIds_nodup {w : World T σ} : w.tableIds.Nodup ↔ w.router.Distinct := by
  rw [World.tableIds, World.entries, List.map_map]
  rfl

section
variable [Target] [ReadWrite T]

theorem Made.Registers.entries {c : Made T σ} {s : σ} {drOid : UInt16} (h : c.Registers s drOid)
    (hnew : s ∉ c.before.session.subscriptions.items) :
    c.after.entries = c.before.entries ++ [(s, drOid)] := by
  obtain ⟨w₁, table, hprep, hpush, -, hafter⟩ := h
  obtain ⟨es, hquiet, -, htrail⟩ := hprep.trail
  have htable : w₁.session.subscriptions = c.before.session.subscriptions :=
    (htrail.router.quiet hquiet).1
  rw [hafter, ← htrail.entries hquiet]
  exact entries_entered hpush (by rw [htable]; exact hnew)

theorem Made.Registers.drOid_eq {c : Made T σ} {s : σ} {drOid : UInt16} (h : c.Registers s drOid) :
    drOid = objectId (c.before.session.nextIdx .datareader) entityDatareader ∧
      c.after.session.nextIdx .datareader = c.before.session.nextIdx .datareader + 1 := by
  obtain ⟨w₁, table, hprep, -, -, hafter⟩ := h
  rw [hafter]
  exact hprep.drOid_eq

/-- As long as the counter has not gone round, a registration gets a new id. -/
theorem Made.Registers.numbered {c : Made T σ} {s : σ} {drOid : UInt16} (h : c.Registers s drOid)
    (hbefore : Numbered c.before) (hnew : s ∉ c.before.session.subscriptions.items)
    (hfew : allocations .datareader c.after.history < 4096) :
    Numbered c.after ∧ drOid ∉ c.before.tableIds := by
  obtain ⟨es, -, -, htrail⟩ := h.trail
  obtain ⟨hid, hnext⟩ := h.drOid_eq
  have hcounted := htrail.counted hbefore.counted hfew
  have hone : (1 : UInt16).toNat = 1 := rfl
  have hnextNat : (c.after.session.nextIdx .datareader).toNat =
      (c.before.session.nextIdx .datareader).toNat + 1 := by
    have hlt := (c.before.session.nextIdx .datareader).toNat_lt
    rw [hnext, UInt16.toNat_add, hone]
    have hle := hbefore.counted
    rw [htrail.history, allocations_append] at hfew
    omega
  have hids : c.after.tableIds = c.before.tableIds ++ [drOid] := by
    rw [World.tableIds, h.entries hnew, List.map_append]
    rfl
  refine ⟨⟨hcounted, ?_⟩, ?_⟩
  · rw [hids, hnextNat, List.forall_mem_append, List.forall_mem_singleton]
    refine ⟨?_, c.before.session.nextIdx .datareader, Nat.lt_succ_self _, hid⟩
    intro d hd
    obtain ⟨i, hi, heq⟩ := hbefore.older d hd
    exact ⟨i, Nat.lt_succ_of_lt hi, heq⟩
  · intro hmem
    obtain ⟨i, hi, heq⟩ := hbefore.older drOid hmem
    have hmod := objectId_inj.mp (hid.symm.trans heq)
    omega

/-- The slot a successful subscription call returned, with the DataReader whose data it
asked for. -/
def Made.subscribed (c : Made T σ) : List (σ × UInt16) :=
  match c.outcome with
  | .ok (.subscription s) =>
    (readDataIds c.before.session.sessionId c.events).map fun drOid => (s, drOid)
  | _ => []

def subscriptionsOf (calls : List (Made T σ)) : List (σ × UInt16) := calls.flatMap Made.subscribed

theorem Made.subscribed_of_not_ok (c : Made T σ)
    (h : ∀ s, c.outcome ≠ .ok (.subscription s)) : c.subscribed = [] := by
  unfold Made.subscribed
  split
  · next s hs => exact absurd hs (h s)
  · rfl

theorem Made.Registers.subscribed {c : Made T σ} {s : σ} {drOid : UInt16}
    (h : c.Registers s drOid) : c.subscribed = [(s, drOid)] := by
  obtain ⟨es, -, hread, htrail⟩ := h.trail
  obtain ⟨_, _, -, -, hok, -⟩ := h
  have hnone : readDataIds c.before.session.sessionId
      [Event.assigned s drOid, Event.registered s] = [] := rfl
  have happ : readDataIds c.before.session.sessionId
      (es ++ [Event.assigned s drOid, Event.registered s]) = _ := List.filterMap_append
  simp only [Made.subscribed, hok, Made.events_eq htrail]
  rw [happ]
  change (readDataIds _ es ++ readDataIds _ [Event.assigned s drOid, Event.registered s]).map _ = _
  rw [hread, hnone, List.append_nil]
  rfl

/-- What this call registers, if anything, is new to the table: the slot and the id. -/
def Made.EntersFresh (c : Made T σ) : Prop :=
  ∀ s drOid, c.Registers s drOid →
    s ∉ c.before.session.subscriptions.items ∧ drOid ∉ c.before.tableIds

/-- Then the table is the list of the subscriptions that succeeded. -/
theorem Runs.entries {transport : T} {sessionId : UInt8} {key : ClientKey} {tasks : List (List σ)}
    {calls : List (Made T σ)} {w : World T σ}
    (h : Runs (start transport sessionId key tasks) calls w)
    (hfresh : ∀ c ∈ calls, c.EntersFresh) :
    w.router.Distinct ∧ w.entries = subscriptionsOf calls := by
  induction h with
  | nil => exact ⟨List.nodup_nil, rfl⟩
  | @snoc calls c h _ ih =>
    rw [List.forall_mem_append, List.forall_mem_singleton] at hfresh
    obtain ⟨hdistinct, hentries⟩ := ih hfresh.1
    have hlast : subscriptionsOf (calls ++ [c]) = subscriptionsOf calls ++ c.subscribed := by
      simp only [subscriptionsOf, List.flatMap_append, List.flatMap_singleton]
    rw [hlast, ← hentries, ← tableIds_nodup]
    rw [← tableIds_nodup] at hdistinct
    rcases made_cases c with ⟨⟨es, hquiet, htrail⟩, hnone⟩ | ⟨_, _, s, drOid, -, hreg⟩
    · rw [World.tableIds, htrail.entries hquiet, c.subscribed_of_not_ok hnone, List.append_nil]
      exact ⟨hdistinct, rfl⟩
    · obtain ⟨hslot, hid⟩ := hfresh.2 s drOid hreg
      rw [World.tableIds, hreg.entries hslot, hreg.subscribed, List.map_append]
      refine ⟨?_, rfl⟩
      exact List.Nodup.append hdistinct (List.nodup_singleton _)
        (List.disjoint_singleton.mpr hid)

/-- The slot that this call registers, if any, was not registered before. -/
def Made.RegistersNewSlot (c : Made T σ) : Prop :=
  ∀ s, c.outcome = .ok (.subscription s) → s ∉ c.before.session.subscriptions.items

/-- A session that has given out fewer than 4096 DataReader indices has fresh ids. -/
theorem Runs.entersFresh {transport : T} {sessionId : UInt8} {key : ClientKey}
    {tasks : List (List σ)} {calls : List (Made T σ)} {w : World T σ}
    (h : Runs (start transport sessionId key tasks) calls w)
    (hnew : ∀ c ∈ calls, c.RegistersNewSlot) (hfew : allocations .datareader w.history < 4096) :
    Numbered w ∧ ∀ c ∈ calls, c.EntersFresh := by
  induction h with
  | nil => exact ⟨⟨rfl, List.forall_mem_nil _⟩, List.forall_mem_nil _⟩
  | @snoc calls c h _ ih =>
    rw [List.forall_mem_append, List.forall_mem_singleton] at hnew ⊢
    have hfewBefore : allocations .datareader c.before.history < 4096 := by
      obtain ⟨es, hes⟩ := c.trail
      rw [hes.history, allocations_append] at hfew
      omega
    obtain ⟨hbefore, hfresh⟩ := ih hnew.1 hfewBefore
    have hlast : c.EntersFresh := by
      intro s drOid hreg
      have hslot := hnew.2 s hreg.outcome
      exact ⟨hslot, (hreg.numbered hbefore hslot hfew).2⟩
    refine ⟨?_, hfresh, hlast⟩
    rcases made_cases c with ⟨⟨es, hquiet, htrail⟩, -⟩ | ⟨_, _, s, drOid, -, hreg⟩
    · exact hbefore.quiet htrail hquiet hfew
    · exact (hreg.numbered hbefore (hnew.2 s hreg.outcome) hfew).1

theorem Made.Registers.passed {c : Made T σ} {node : Node} {topic : Bytes} {s : σ} {drOid : UInt16}
    (h : c.Registers s drOid) (hop : c.op = .createSubscription node topic s) :
    c.before.session.subscriptions.isFull = false ∧ TopicFits topic := by
  obtain ⟨op, fuel, w⟩ := c
  cases hop
  obtain ⟨_, _, hcall, -⟩ := bind_eq_ok (Prod.ext h.outcome rfl)
  exact createSubscription_passed hcall

/-- The slot that a subscription call is given is not registered yet, unless the call is
refused by its local checks. -/
def Made.PassesNewSlot (c : Made T σ) : Prop :=
  ∀ node topic s, c.op = .createSubscription node topic s →
    c.before.session.subscriptions.isFull = false → TopicFits topic →
      s ∉ c.before.session.subscriptions.items

theorem Made.PassesNewSlot.registers {c : Made T σ} (h : c.PassesNewSlot) :
    c.RegistersNewSlot := by
  intro s hok
  rcases made_cases c with ⟨-, hnone⟩ | ⟨node, topic, s', drOid, hop, hreg⟩
  · exact absurd hok (hnone s)
  · cases hok.symm.trans hreg.outcome
    obtain ⟨hroom, hfits⟩ := hreg.passed hop
    exact h node topic s hop hroom hfits

/-- What a caller may rely on after these calls: every subscription that succeeded gets the
samples of its own DataReader. -/
def Routable (calls : List (Made T σ)) (w : World T σ) : Prop :=
  w.tableIds.Nodup ∧ w.tableIds = (subscriptionsOf calls).map Prod.snd ∧
    ∀ c ∈ calls, ∀ s drOid, (s, drOid) ∈ c.subscribed →
      ∀ payload body, sampleOf payload = some (drOid, body) →
        ((dispatchDataPayload payload w.session.subscriptions.items).run w).2 =
          w.setSlot s ((w.slots s).deliver body)

/-- Routing stays exact as long as no call that passes its local checks is given a slot that is
already registered. -/
theorem subscriptions_stay_routable {transport : T} {sessionId : UInt8} {key : ClientKey}
    {tasks : List (List σ)} {calls : List (Made T σ)} {w : World T σ}
    (h : Runs (start transport sessionId key tasks) calls w)
    (hnew : ∀ c ∈ calls, c.PassesNewSlot) (hfew : allocations .datareader w.history < 4096) :
    Routable calls w := by
  have hfresh := (h.entersFresh (fun c hc => (hnew c hc).registers) hfew).2
  obtain ⟨hdistinct, hentries⟩ := h.entries hfresh
  refine ⟨tableIds_nodup.mpr hdistinct, congrArg (List.map Prod.snd) hentries, ?_⟩
  intro c hc s drOid hsub payload body hsample
  have hmem : (s, drOid) ∈ w.entries := by
    rw [hentries]
    exact List.mem_flatMap.mpr ⟨c, hc, hsub⟩
  have htarget : w.router.target drOid = some s := by
    obtain ⟨s', hs', heq⟩ := List.mem_map.mp hmem
    cases heq
    exact (Router.target_eq_some hdistinct).mpr ⟨hs', rfl⟩
  rw [dispatchDataPayload_state, hsample]
  simp only [Router.deliver, htarget]
  rfl

/-- A program with one subscription, of `Float32` samples and with four places. -/
instance : Statics Unit where
  decEq := inferInstance
  Msg _ := Float32
  depth _ := 4
  message _ := inferInstance

/-- A STATUS with this status byte, for sessions without a client key. -/
def statusFrame (req : UInt16) (status : UInt8) : Bytes :=
  [0x81, 0, 0, 0, submsgStatus, flagLe, 6, 0] ++ requestIdBeBytes req ++ [0, 0, status, 0]

/-- A connected session for which the answers to the first requests are on their way. -/
def answering (frames : List Bytes) : World Wire Unit :=
  start ⟨stream frames, [], []⟩ 0x81 ⟨0, 0, 0, 0⟩ []

def subscribing (topic : Bytes) (w : World Wire Unit) : Made Wire Unit :=
  ⟨.createSubscription ⟨1, 1, 1⟩ topic (), 4, w⟩

/-- The grants of the first six requests. -/
def sixAnswers : List Bytes := (List.range' 1 6).map fun r => statusFrame (.ofNat r) 0

def firstTopic : Made Wire Unit := subscribing (ascii "/a") (answering sixAnswers)

def secondTopic : Made Wire Unit := subscribing (ascii "/b") firstTopic.after

theorem secondTopic_before : secondTopic.before = firstTopic.after := by
  rw [secondTopic, subscribing]

/-- The subscriptions of another program, of two types and with different depths. -/
inductive Gauge where
  | level
  | turn
  deriving DecidableEq

instance : Statics Gauge where
  decEq := inferInstance
  Msg
    | .level => Float32
    | .turn => Twist
  depth
    | .level => 4
    | .turn => 1
  message
    | .level => inferInstance
    | .turn => inferInstance

/-- Both of them are made, and the answers and samples for them are on their way. -/
def gauges : List (Op Gauge × Nat) :=
  [(.createSubscription ⟨1, 1, 1⟩ (ascii "/level") .level, 4),
    (.createSubscription ⟨1, 1, 1⟩ (ascii "/turn") .turn, 4)]

def gauging (frames : List Bytes) : World Wire Gauge :=
  start ⟨stream frames, [], []⟩ 0x81 ⟨0, 0, 0, 0⟩ []

end

/-- Two slots for two topics, on readers of their own. -/
theorem two_subscriptions_routable :
    letI := rp2040 true
    (behindRow (gauging sixAnswers) gauges).entries = [(.level, 0x16), (.turn, 0x26)] ∧
      Routable (inRow (gauging sixAnswers) gauges) (behindRow (gauging sixAnswers) gauges) := by
  have hlive : letI := rp2040 true
      ∀ c ∈ (inRow (gauging sixAnswers) gauges).dropLast, c.outcome ≠ .panic := by decide +kernel
  have hentries : letI := rp2040 true
      (behindRow (gauging sixAnswers) gauges).entries = [(.level, 0x16), (.turn, 0x26)] := by
    decide +kernel
  have hfew : letI := rp2040 true
      allocations .datareader (behindRow (gauging sixAnswers) gauges).history < 4096 := by
    decide +kernel
  have htables : letI := rp2040 true
      (inRow (gauging sixAnswers) gauges).map (fun c => c.before.session.subscriptions.items) =
        [[], [.level]] := by decide +kernel
  generalize rp2040 true = target at hlive hentries hfew htables ⊢
  refine ⟨hentries, subscriptions_stay_routable (runs_inRow hlive) ?_ hfew⟩
  intro c hc node topic s hop _ _
  simp only [gauges, inRow, List.map_cons, List.map_nil, List.cons.injEq, and_true] at htables
  simp only [gauges, inRow, List.mem_cons, List.not_mem_nil, or_false] at hc
  rcases hc with rfl | rfl
  · cases hop
    rw [htables.1]
    exact List.not_mem_nil
  · cases hop
    rw [htables.2]
    decide

/-- The same slot for two topics: both calls succeed, and both entries of the table have
the id of the second one. -/
theorem aliased_slot_unroutable :
    letI := rp2040 true
    Runs firstTopic.before [firstTopic, secondTopic] secondTopic.after ∧
      allocations .datareader secondTopic.after.history < 4096 ∧
      ¬ Routable [firstTopic, secondTopic] secondTopic.after := by
  have hok : letI := rp2040 true; firstTopic.outcome.isOk = true := by decide +kernel
  have hfew : letI := rp2040 true; allocations .datareader secondTopic.after.history < 4096 := by
    decide +kernel
  have hids : letI := rp2040 true; secondTopic.after.tableIds = [0x26, 0x26] := by decide +kernel
  let target := rp2040 true
  refine ⟨Runs.pair secondTopic_before ?_, hfew, ?_⟩
  · intro hpanic
    rw [hpanic] at hok
    cases hok
  · rintro ⟨hnodup, -⟩
    rw [hids] at hnodup
    exact absurd hnodup (by decide)

end MicroXrceDds
