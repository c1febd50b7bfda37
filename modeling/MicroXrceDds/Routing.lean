import MicroXrceDds.Library.Ledger
import MicroXrceDds.Registration

/-!
# Samples are routed exactly

The account of a slot is kept from the history alone: which id it was given, since when it
is registered, which of the frames read since then carried a sample for it while it had
room, and what was taken. Its inbox is always what the account says.
-/
namespace MicroXrceDds

open Prog Session

variable {T σ : Type} [Statics σ]

structure Account (M : Type) where
  drId : UInt16
  registered : Bool
  ledger : Ledger M

namespace Account

def new {M : Type} : Account M := ⟨0, false, .empty⟩

/-- A frame counts for a registered slot if its DATA has the slot's id and decodes. -/
def noteFrame (sessionId : UInt8) (s : σ) (frame : Bytes) (a : Account (Statics.Msg s)) :
    Account (Statics.Msg s) :=
  match dataOf sessionId frame with
  | none => a
  | some (id, body) =>
    if a.registered ∧ id = a.drId then
      match Subscription.decode (Statics.Msg s) body with
      | .ok v => { a with ledger := a.ledger.offer (Statics.depth s) v }
      | _ => a
    else a

def note (sessionId : UInt8) (s : σ) (a : Account (Statics.Msg s)) :
    Event σ → Account (Statics.Msg s)
  | .assigned s' id => if s' = s then { a with drId := id } else a
  | .registered s' => if s' = s then { a with registered := true } else a
  | .received frame => a.noteFrame sessionId s frame
  | .taken s' v => if h : s' = s then { a with ledger := a.ledger.take (h ▸ v) } else a
  | _ => a

end Account

/-- The account of a slot after a history. -/
def accountOf (sessionId : UInt8) (s : σ) (es : List (Event σ)) : Account (Statics.Msg s) :=
  es.foldl (Account.note sessionId s) .new

/-- Every slot is as its account says. -/
def Settled (r : Router σ) (accounts : (s : σ) → Account (Statics.Msg s)) : Prop :=
  ∀ s, (accounts s).drId = (r.slots s).drId ∧
    ((accounts s).registered = true ↔ s ∈ r.table.items) ∧
    (accounts s).ledger.Balances (r.slots s).inbox

/-- A sample for a slot, on both sides. -/
theorem balances_deliver {M : Type} [Message M] {N : Nat} {l : Ledger M} {sub : Subscription M N}
    (h : l.Balances sub.inbox) (body : Bytes) :
    (match Subscription.decode M body with
      | .ok v => l.offer N v
      | _ => l).Balances (sub.deliver body).inbox := by
  unfold Subscription.deliver
  cases Subscription.decode M body with
  | ok v =>
    have hoffer := h.offer v
    simp only
    cases hpush : sub.inbox.push v with
    | none => rw [hpush] at hoffer; exact hoffer
    | some inbox => rw [hpush] at hoffer; exact hoffer
  | _ => exact h

theorem Settled.received {r : Router σ} {accounts : (s : σ) → Account (Statics.Msg s)}
    (h : Settled r accounts) (hdistinct : r.Distinct) (frame : Bytes) :
    Settled (r.route frame) fun s => (accounts s).noteFrame r.sessionId s frame := by
  intro s
  obtain ⟨hid, hreg, hbal⟩ := h s
  unfold Router.route Account.noteFrame
  cases dataOf r.sessionId frame with
  | none => exact ⟨hid, hreg, hbal⟩
  | some data =>
    obtain ⟨id, body⟩ := data
    have hmine : ((accounts s).registered = true ∧ id = (accounts s).drId) ↔
        r.target id = some s := by
      rw [Router.target_eq_some hdistinct, hreg, hid, eq_comm]
    simp only [hmine, Router.deliver_slots, Router.deliver_table]
    by_cases htarget : r.target id = some s
    · have hledger := balances_deliver hbal body
      simp only [if_pos htarget, Subscription.deliver_drId]
      cases hdec : Subscription.decode (Statics.Msg s) body with
      | ok v =>
        rw [hdec] at hledger
        exact ⟨hid, hreg, hledger⟩
      | _ =>
        rw [hdec] at hledger
        exact ⟨hid, hreg, hledger⟩
    · simp only [if_neg htarget]
      exact ⟨hid, hreg, hbal⟩

/-- One event moves the accounts as it moves the slots. Two slots with one id would matter
to a frame only. -/
theorem Settled.step {r r' : Router σ} {e : Event σ} {accounts : (s : σ) → Account (Statics.Msg s)}
    (h : Settled r accounts) (hdistinct : e.Quiet → r.Distinct) (hstep : r.Step e r') :
    Settled r' fun s => (accounts s).note r.sessionId s e := by
  cases hstep with
  | allocated kind => exact h
  | sent frame => exact h
  | received frame => exact h.received (hdistinct trivial) frame
  | assigned s' id =>
    intro s
    obtain ⟨hid, hreg, hbal⟩ := h s
    by_cases hs : s' = s
    · subst hs
      simp only [Account.note, if_pos, Router.setSlot_self, Router.setSlot_table]
      exact ⟨rfl, hreg, hbal⟩
    · simp only [Account.note, if_neg hs, Router.setSlot_of_ne r (Ne.symm hs),
        Router.setSlot_table]
      exact ⟨hid, hreg, hbal⟩
  | registered s' table hpush =>
    intro s
    obtain ⟨hid, hreg, hbal⟩ := h s
    have hitems := (Bounded.push_eq_some.mp hpush).2
    by_cases hs : s' = s
    · subst hs
      simp only [Account.note, if_pos, hitems]
      exact ⟨hid, by simp, hbal⟩
    · simp only [Account.note, if_neg hs, hitems]
      exact ⟨hid, by simpa [Ne.symm hs] using hreg, hbal⟩
  | taken s' v sub hrecv =>
    intro s
    obtain ⟨hid, hreg, hbal⟩ := h s
    by_cases hs : s' = s
    · subst hs
      simp only [Account.note, dif_pos, Router.setSlot_self, Router.setSlot_table]
      obtain ⟨hpop, hsame⟩ := Subscription.tryRecv_eq_some hrecv
      exact ⟨hid.trans hsame.symm, hreg, hbal.take hpop⟩
    · simp only [Account.note, dif_neg hs, Router.setSlot_of_ne r (Ne.symm hs),
        Router.setSlot_table]
      exact ⟨hid, hreg, hbal⟩

/-- Quiet events, one after the other. -/
theorem Settled.steps {r r' : Router σ} {es : List (Event σ)}
    {accounts : (s : σ) → Account (Statics.Msg s)} (h : Settled r accounts)
    (hdistinct : r.Distinct) (hsteps : r.Steps es r') (hquiet : ∀ e ∈ es, e.Quiet) :
    Settled r' fun s => es.foldl (Account.note r.sessionId s) (accounts s) := by
  induction hsteps generalizing accounts with
  | nil => exact h
  | @cons r r₁ r' e es first _ ih =>
    obtain ⟨he, hes⟩ := List.forall_mem_cons.mp hquiet
    have hid := first.sessionId
    have hnext := ih (h.step (fun _ => hdistinct) first) (first.distinct he hdistinct) hes
    rw [hid] at hnext
    exact hnext

/-- A registered slot takes a sample in: the frame is DATA for its id, the body decodes,
and there is room. -/
def Accepts (w : World T σ) (frame : Bytes) (s : σ) : Prop :=
  s ∈ w.session.subscriptions.items ∧ ∃ body v,
    dataOf w.session.sessionId frame = some ((w.slots s).drId, body) ∧
    Subscription.decode (Statics.Msg s) body = .ok v ∧
    (w.slots s).inbox.items.length < Statics.depth s

theorem route_unaccepted {w : World T σ} {frame : Bytes} (h : ∀ s, ¬ Accepts w frame s) :
    (w.router.route frame).slots = w.slots := by
  funext s
  unfold Router.route
  cases hdata : dataOf w.router.sessionId frame with
  | none => rfl
  | some data =>
    obtain ⟨id, body⟩ := data
    simp only [Router.deliver_slots]
    by_cases htarget : w.router.target id = some s
    · rw [if_pos htarget]
      have hmem : s ∈ w.session.subscriptions.items := List.mem_of_find?_eq_some htarget
      have hid : (w.router.slots s).drId = id := by simpa using List.find?_some htarget
      unfold Subscription.deliver
      cases hdec : Subscription.decode (Statics.Msg s) body with
      | ok v =>
        simp only
        cases hpush : (w.router.slots s).inbox.push v with
        | none => rfl
        | some inbox =>
          refine absurd ⟨hmem, body, v, ?_, hdec, (Bounded.push_eq_some.mp hpush).1⟩ (h s)
          change dataOf _ _ = some ((w.router.slots s).drId, body)
          rw [hid]
          exact hdata
      | _ => rfl
    · rw [if_neg htarget]
      rfl

section
variable [Target] [ReadWrite T] {transport : T} {sessionId : UInt8} {key : ClientKey}
  {tasks : List (List σ)} {calls : List (Made T σ)} {w : World T σ}

theorem Runs.registersNewSlot (h : Runs (start transport sessionId key tasks) calls w)
    (honce : ∀ s, registrations s w.history ≤ 1) : ∀ c ∈ calls, c.RegistersNewSlot := by
  induction h with
  | nil => exact List.forall_mem_nil _
  | @snoc calls c hbefore _ ih =>
    obtain ⟨es, hes⟩ := hbefore.trail
    obtain ⟨es', hes'⟩ := c.trail
    have hbeforeOnce : ∀ s, registrations s c.before.history ≤ 1 := by
      intro s
      have hs := honce s
      rw [hes'.history, registrations_append] at hs
      omega
    rw [List.forall_mem_append, List.forall_mem_singleton]
    refine ⟨ih hbeforeOnce, ?_⟩
    intro s hok hmem
    rcases made_cases c with ⟨-, hnone⟩ | ⟨_, _, s', drOid, -, hreg⟩
    · exact hnone s hok
    · cases hok.symm.trans hreg.outcome
      obtain ⟨ys, -, -, htrail⟩ := hreg.trail
      -- Being in the table is one registration, and the new one is another.
      have htable := hes.router.registrations s
      have hcount : 0 < c.before.router.table.items.count s := List.count_pos_iff.mpr hmem
      have hs := honce s
      have hlast : registrations s [Event.assigned s drOid, Event.registered s] = 1 := by
        simp [registrations, Event.registers]
      rw [htrail.history, registrations_append, registrations_append, hlast, hes.history,
        registrations_append] at hs
      rw [htable] at hcount
      change 0 < 0 + registrations s es at hcount
      omega

/-- After every run the slots are as their accounts say. -/
theorem Runs.settled (h : Runs (start transport sessionId key tasks) calls w)
    (hfresh : ∀ c ∈ calls, c.EntersFresh) :
    Settled w.router fun s => accountOf sessionId s w.history := by
  induction h with
  | nil =>
    intro s
    exact ⟨rfl, ⟨nofun, nofun⟩, Ledger.balances_empty⟩
  | @snoc calls c hbefore _ ih =>
    rw [List.forall_mem_append, List.forall_mem_singleton] at hfresh
    obtain ⟨xs, hxs⟩ := hbefore.trail
    have hid : c.before.router.sessionId = sessionId := hxs.router.sessionId
    have hdistinct := (hbefore.entries hfresh.1).1
    have haccount (es : List (Event σ)) (htrail : Trail c.before es c.after) (s : σ) :
        accountOf sessionId s c.after.history =
          es.foldl (Account.note sessionId s) (accountOf sessionId s c.before.history) := by
      rw [htrail.history, accountOf, List.foldl_append, accountOf]
    rcases made_cases c with ⟨⟨es, hquiet, htrail⟩, -⟩ | ⟨_, _, s', drOid, -, hreg⟩
    · have hafter := (ih hfresh.1).steps hdistinct htrail.router hquiet
      rw [hid] at hafter
      simp only [haccount es htrail]
      exact hafter
    · obtain ⟨es, hquiet, -, htrail⟩ := hreg.trail
      obtain ⟨r₁, hquietSteps, hlast⟩ := htrail.router.split
      have hmiddle := (ih hfresh.1).steps hdistinct hquietSteps hquiet
      have hid₁ : r₁.sessionId = sessionId := hquietSteps.sessionId.trans hid
      obtain ⟨r₂, hassigned, hregistered⟩ := hlast.pair
      have hid₂ : r₂.sessionId = sessionId := hassigned.sessionId.trans hid₁
      have hafter := (hmiddle.step False.elim hassigned).step False.elim hregistered
      rw [hid, hid₁, hid₂] at hafter
      simp only [haccount _ htrail, List.foldl_append]
      exact hafter

/-- After every run, each slot has handed out and still holds exactly what its account
accepted, and a frame that no slot accepts changes no slot, whoever reads it. -/
theorem samples_routed_exactly (h : Runs (start transport sessionId key tasks) calls w)
    (honce : ∀ s, registrations s w.history ≤ 1) (hfew : allocations .datareader w.history < 4096) :
    (∀ s, (accountOf sessionId s w.history).drId = (w.slots s).drId ∧
      ((accountOf sessionId s w.history).registered = true ↔
        s ∈ w.session.subscriptions.items) ∧
      (accountOf sessionId s w.history).ledger.taken ++ (w.slots s).inbox.items =
        (accountOf sessionId s w.history).ledger.accepted) ∧
    ∀ frame, (∀ s, ¬ Accepts w frame s) →
      ((dispatchFrame frame w.session.sessionId w.session.subscriptions.items).run w).2.slots =
        w.slots ∧
      ∀ req, ((waitFrame w req frame).run w).2.slots = w.slots := by
  have hfresh := (h.entersFresh (h.registersNewSlot honce) hfew).2
  refine ⟨h.settled hfresh, ?_⟩
  intro frame hnone
  have hsame : (w.router.route frame).slots = w.slots := route_unaccepted hnone
  constructor
  · rw [dispatchFrame_state, hsame]
    rfl
  · intro req
    rw [waitFrame_state, hsame]
    rfl

end

/-- A DATA with this object id, for sessions without a client key. -/
def dataFrame (id : UInt16) (body : Bytes) : Bytes :=
  [0x81, 0, 0, 0, submsgData, flagLe] ++ u16LeBytes (UInt16.ofNat (4 + body.length)) ++ [0, 0] ++
    objectIdBeBytes id ++ body

/-- The number 1.0, with its encapsulation header. -/
def oneSample : Bytes := [0, 1, 0, 0, 0, 0, 0x80, 0x3F]

/-- A twist at rest. -/
def turnSample : Bytes := [0, 1, 0, 0] ++ List.replicate 48 0

/-- Samples between the answers and behind them; nobody has asked for those with id 0x0099. -/
def strewn : List Bytes :=
  [statusFrame 1 0, statusFrame 2 0, statusFrame 3 0, dataFrame 0x0016 oneSample, statusFrame 4 0,
    dataFrame 0x0099 oneSample, statusFrame 5 0, statusFrame 6 0, dataFrame 0x0026 turnSample]

/-- After both subscriptions, a turn for the last of the samples. -/
def gaugesRead [Target] : List (Op Gauge × Nat) := gauges ++ [(.spinOnce, 1)]

def gauged [Target] : World Wire Gauge := behindRow (gauging strewn) gaugesRead

/-- One sample for each of two slots, and one that nobody accepts. -/
theorem samples_routed_to_two_slots :
    letI := rp2040 true
    (∀ s, (accountOf 0x81 s gauged.history).ledger.accepted.length = 1) ∧
      (∀ s, (accountOf 0x81 s gauged.history).ledger.taken ++ (gauged.slots s).inbox.items =
        (accountOf 0x81 s gauged.history).ledger.accepted) ∧
      ((dispatchFrame (dataFrame 0x0099 oneSample) 0x81 gauged.session.subscriptions.items).run
        gauged).2.slots = gauged.slots := by
  have hlive : letI := rp2040 true
      ∀ c ∈ (inRow (gauging strewn) gaugesRead).dropLast, c.outcome ≠ .panic := by decide +kernel
  have hslots : letI := rp2040 true
      ∀ s ∈ [Gauge.level, .turn],
        (accountOf 0x81 s gauged.history).ledger.accepted.length = 1 ∧
          registrations s gauged.history ≤ 1 ∧ (gauged.slots s).drId ≠ 0x0099 := by decide +kernel
  have hfew : letI := rp2040 true
      allocations .datareader gauged.history < 4096 ∧ gauged.session.sessionId = 0x81 := by
    decide +kernel
  have hsample : dataOf 0x81 (dataFrame 0x0099 oneSample) = some (0x0099, oneSample) := by decide
  generalize rp2040 true = target at hlive hslots hfew ⊢
  have hruns : Runs (gauging strewn) (inRow (gauging strewn) gaugesRead) gauged := by
    rw [gauged]
    exact runs_inRow hlive
  generalize inRow (gauging strewn) gaugesRead = calls at hruns
  generalize gauged = w at hslots hfew hruns ⊢
  have hmem (s : Gauge) : s ∈ [Gauge.level, .turn] := by cases s <;> decide
  obtain ⟨hkept, hdropped⟩ := samples_routed_exactly hruns (fun s => (hslots s (hmem s)).2.1) hfew.1
  have hnone : ∀ s, ¬ Accepts w (dataFrame 0x0099 oneSample) s := by
    rintro s ⟨-, body, v, hdata, -⟩
    rw [hfew.2, hsample] at hdata
    exact (hslots s (hmem s)).2.2 (Prod.mk.inj (Option.some.inj hdata)).1.symm
  refine ⟨fun s => (hslots s (hmem s)).1, fun s => (hkept s).2.2, ?_⟩
  have hsame := (hdropped _ hnone).1
  rw [hfew.2] at hsame
  exact hsame

end MicroXrceDds
