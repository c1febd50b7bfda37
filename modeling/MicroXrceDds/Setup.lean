import MicroXrceDds.Routing

/-!
# Samples that arrive while a subscription is set up

From the moment its READ_DATA goes out, the agent may send samples for a new DataReader.
The promised account of a subscription counts them from then on. The code enters the slot
in its table only after the STATUS, so the promise is kept if none of them comes earlier.
-/
namespace MicroXrceDds

open Prog Session

variable {T σ : Type} [Statics σ]

theorem noteFrame_unregistered {sessionId : UInt8} {s : σ} {frame : Bytes}
    {a : Account (Statics.Msg s)} (h : a.registered = false) :
    a.noteFrame sessionId s frame = a := by
  unfold Account.noteFrame
  cases dataOf sessionId frame with
  | none => rfl
  | some data => simp [h]

/-- A frame without a sample for the slot; a slot of depth 0 has no room for any. -/
theorem noteFrame_foreign {sessionId : UInt8} {s : σ} {frame : Bytes}
    {a : Account (Statics.Msg s)} (h : ∀ body v, dataOf sessionId frame = some (a.drId, body) →
      Subscription.decode (Statics.Msg s) body = .ok v → Statics.depth s = 0) :
    a.noteFrame sessionId s frame = a := by
  unfold Account.noteFrame
  cases hdata : dataOf sessionId frame with
  | none => rfl
  | some data =>
    obtain ⟨id, body⟩ := data
    by_cases hmine : a.registered ∧ id = a.drId
    · simp only [if_pos hmine]
      cases hdec : Subscription.decode (Statics.Msg s) body with
      | ok v =>
        rw [hmine.2] at hdata
        have hfull : ¬ a.ledger.held < Statics.depth s := by
          rw [h body v hdata hdec]
          exact Nat.not_lt_zero _
        simp only [Ledger.offer, if_neg hfull]
      | _ => rfl
    · simp only [if_neg hmine]

/-- In a clean window the promised account and that of a slot not yet registered move alike. -/
theorem window_foldl (sessionId : UInt8) (s : σ) (drOid : UInt16) {zs : List (Event σ)}
    (hin : ∀ e ∈ zs, e.Inbound)
    (hclean : ∀ frame, .received frame ∈ zs → ∀ body v,
      dataOf sessionId frame = some (drOid, body) →
        Subscription.decode (Statics.Msg s) body = .ok v → Statics.depth s = 0)
    {a : Account (Statics.Msg s)} (ha : a.registered = false) :
    ∃ l, zs.foldl (Account.note sessionId s) a = ⟨a.drId, false, l⟩ ∧
      zs.foldl (Account.note sessionId s) ⟨drOid, true, a.ledger⟩ = ⟨drOid, true, l⟩ := by
  induction zs generalizing a with
  | nil =>
    refine ⟨a.ledger, ?_, rfl⟩
    rw [← ha]
    rfl
  | cons e zs ih =>
    rw [List.forall_mem_cons] at hin
    have hrest : ∀ frame, .received frame ∈ zs → ∀ body v,
        dataOf sessionId frame = some (drOid, body) →
          Subscription.decode (Statics.Msg s) body = .ok v → Statics.depth s = 0 :=
      fun frame hmem => hclean frame (List.mem_cons_of_mem _ hmem)
    cases e with
    | received frame =>
      have hactual : Account.note sessionId s a (.received frame) = a := noteFrame_unregistered ha
      have hpromised : Account.note sessionId s ⟨drOid, true, a.ledger⟩ (.received frame) =
          ⟨drOid, true, a.ledger⟩ :=
        noteFrame_foreign fun body v hdata => hclean frame List.mem_cons_self body v hdata
      rw [List.foldl_cons, List.foldl_cons, hactual, hpromised]
      exact ih hin.2 hrest ha
    | taken s' v =>
      rw [List.foldl_cons, List.foldl_cons]
      by_cases hs : s' = s
      · subst hs
        simp only [Account.note, dif_pos]
        exact ih hin.2 hrest (a := { a with ledger := a.ledger.take v }) ha
      · simp only [Account.note, dif_neg hs]
        exact ih hin.2 hrest ha
    | _ => exact hin.1.elim

section
variable [Target] [ReadWrite T]

namespace Made

/-- The history up to the READ_DATA of this call. -/
def untilReadData (c : Made T σ) : List (Event σ) :=
  c.before.history ++ c.events.takeWhile fun e =>
    (e.asks c.before.session.sessionId submsgReadData).isNone

/-- What the call adds to the history from its READ_DATA on. -/
def sinceReadData (c : Made T σ) : List (Event σ) :=
  c.events.dropWhile fun e => (e.asks c.before.session.sessionId submsgReadData).isNone

/-- The account of a slot that counts from the READ_DATA of this call on, as if it had been
registered under the new id right then. -/
def promised (c : Made T σ) (s : σ) (drOid : UInt16) (later : List (Event σ)) :
    Account (Statics.Msg s) :=
  (c.sinceReadData ++ later).foldl (Account.note c.before.session.sessionId s)
    ⟨drOid, true, (accountOf c.before.session.sessionId s c.untilReadData).ledger⟩

/-- Up to this later world, the slot of a successful subscription call has got every sample
that was read since its READ_DATA and found room. -/
def NoSampleLost (c : Made T σ) (w : World T σ) : Prop :=
  ∀ s drOid, (s, drOid) ∈ c.subscribed →
    (c.promised s drOid (w.history.drop c.after.history.length)).ledger.taken ++
        (w.slots s).inbox.items =
      (c.promised s drOid (w.history.drop c.after.history.length)).ledger.accepted

/-- No frame read between READ_DATA and its STATUS is a sample for the new DataReader,
unless the slot has no place for samples at all. -/
def CleanWindow (c : Made T σ) : Prop :=
  ∀ s drOid, (s, drOid) ∈ c.subscribed → ∀ frame, .received frame ∈ c.sinceReadData →
    ∀ body v, dataOf c.before.session.sessionId frame = some (drOid, body) →
      Subscription.decode (Statics.Msg s) body = .ok v → Statics.depth s = 0

/-- Neither the slot the call is given nor the id it is going to use is in the table, unless
the call is refused by its local checks. -/
def PassesFreshSlot (c : Made T σ) : Prop :=
  ∀ node topic s, c.op = .createSubscription node topic s →
    c.before.session.subscriptions.isFull = false → TopicFits topic →
      s ∉ c.before.session.subscriptions.items ∧
        objectId (c.before.session.nextIdx .datareader) entityDatareader ∉ c.before.tableIds

theorem PassesFreshSlot.enters {c : Made T σ} (h : c.PassesFreshSlot) : c.EntersFresh := by
  intro s drOid hreg
  rcases made_cases c with ⟨-, hnone⟩ | ⟨node, topic, s', drOid', hop, hreg'⟩
  · exact absurd hreg.outcome (hnone s)
  · cases hreg.outcome.symm.trans hreg'.outcome
    obtain ⟨hroom, hfits⟩ := hreg'.passed hop
    rw [hreg.drOid_eq.1]
    exact h node topic s hop hroom hfits

/-- A registration seen from its READ_DATA. -/
theorem Registers.window {c : Made T σ} {s : σ} {drOid : UInt16} (h : c.Registers s drOid) :
    ∃ xs frame zs, (∀ e ∈ xs, e.Quiet) ∧ (∀ e ∈ zs, e.Inbound) ∧
      Trail c.before (xs ++ (.sent frame :: zs ++ [.assigned s drOid, .registered s])) c.after ∧
      c.untilReadData = c.before.history ++ xs ∧
      c.sinceReadData = .sent frame :: zs ++ [.assigned s drOid, .registered s] := by
  obtain ⟨w₁, table, hprep, hpush, -, hafter⟩ := h
  obtain ⟨xs, frame, zs, hxs, hframe, hzs, htrail⟩ := hprep.window
  have hall := htrail.trans (entered_trail drOid hpush)
  rw [← hafter, List.append_assoc] at hall
  have hnone : ∀ e ∈ xs, (e.asks c.before.session.sessionId submsgReadData).isNone = true := by
    intro e he
    rw [(hxs e he).2]
    rfl
  have hsome : ¬ ((Event.sent frame : Event σ).asks c.before.session.sessionId
      submsgReadData).isNone = true := by
    rw [hframe]
    exact Bool.false_ne_true
  refine ⟨xs, frame, zs, fun e he => (hxs e he).1, hzs, hall, ?_, ?_⟩
  · rw [untilReadData, events_eq hall, List.takeWhile_append_of_pos hnone, List.cons_append,
      List.takeWhile_cons, if_neg hsome, List.append_nil]
  · rw [sinceReadData, events_eq hall, List.dropWhile_append_of_pos hnone, List.cons_append,
      List.dropWhile_cons, if_neg hsome]

end Made

/-- After a clean window the two accounts are the same. -/
theorem Made.promised_eq {c : Made T σ} {s : σ} {drOid : UInt16} (h : c.Registers s drOid)
    (hclean : c.CleanWindow) (hbefore : Settled c.before.router
      fun s => accountOf c.before.session.sessionId s c.before.history)
    (hdistinct : c.before.router.Distinct)
    (hnew : s ∉ c.before.session.subscriptions.items) (later : List (Event σ)) :
    c.promised s drOid later =
      accountOf c.before.session.sessionId s (c.after.history ++ later) := by
  obtain ⟨xs, frame, zs, hxs, hzs, htrail, huntil, hsince⟩ := h.window
  obtain ⟨r₁, hquiet, -⟩ := htrail.router.split
  have hmiddle := hbefore.steps hdistinct hquiet hxs
  have hnew₁ : s ∉ r₁.table.items := by
    rw [(hquiet.quiet hxs).1]
    exact hnew
  have hunregistered : (accountOf c.before.session.sessionId s
      (c.before.history ++ xs)).registered = false := by
    rw [accountOf, List.foldl_append]
    exact Bool.eq_false_iff.mpr fun hreg => hnew₁ ((hmiddle s).2.1.mp hreg)
  have hwindow : ∀ f, .received f ∈ zs → ∀ body v,
      dataOf c.before.session.sessionId f = some (drOid, body) →
        Subscription.decode (Statics.Msg s) body = .ok v → Statics.depth s = 0 := by
    intro f hf
    refine hclean s drOid ?_ f ?_
    · rw [h.subscribed]
      exact List.mem_singleton_self _
    · rw [hsince]
      exact List.mem_append_left _ (List.mem_cons_of_mem _ hf)
  obtain ⟨l, hactual, hpromised⟩ := window_foldl c.before.session.sessionId s drOid hzs hwindow
    hunregistered
  have hsplit : c.after.history ++ later = (c.before.history ++ xs) ++
      (.sent frame :: (zs ++ ([.assigned s drOid, .registered s] ++ later))) := by
    rw [htrail.history]
    simp only [List.append_assoc, List.cons_append]
  -- Entering the slot brings the actual account to where the promised one already is.
  have hentry (id : UInt16) (b : Bool) : [Event.assigned s drOid, Event.registered s].foldl
      (Account.note c.before.session.sessionId s) ⟨id, b, l⟩ = ⟨drOid, true, l⟩ := by
    simp [Account.note]
  have hsent (a : Account (Statics.Msg s)) :
      Account.note c.before.session.sessionId s a (.sent frame) = a := rfl
  have hleft : (Event.sent frame :: (zs ++ ([.assigned s drOid, .registered s] ++ later))).foldl
      (Account.note c.before.session.sessionId s) ⟨drOid, true,
        (accountOf c.before.session.sessionId s (c.before.history ++ xs)).ledger⟩ =
      later.foldl (Account.note c.before.session.sessionId s) ⟨drOid, true, l⟩ := by
    rw [List.foldl_cons, hsent, List.foldl_append, hpromised, List.foldl_append, hentry]
  have hright : (Event.sent frame :: (zs ++ ([.assigned s drOid, .registered s] ++ later))).foldl
      (Account.note c.before.session.sessionId s)
        (accountOf c.before.session.sessionId s (c.before.history ++ xs)) =
      later.foldl (Account.note c.before.session.sessionId s) ⟨drOid, true, l⟩ := by
    rw [List.foldl_cons, hsent, List.foldl_append, hactual, List.foldl_append, hentry]
  have hflat : (Event.sent frame :: zs ++ [.assigned s drOid, .registered s]) ++ later =
      Event.sent frame :: (zs ++ ([.assigned s drOid, .registered s] ++ later)) := by
    simp only [List.append_assoc, List.cons_append]
  rw [Made.promised, huntil, hsince, hflat, hleft, hsplit, accountOf, List.foldl_append]
  exact hright.symm

/-- With fresh slots and ids and clean windows, no sample of a subscription is lost from its
READ_DATA on. -/
theorem samples_kept_during_setup {transport : T} {sessionId : UInt8} {key : ClientKey}
    {tasks : List (List σ)} {calls : List (Made T σ)} {w : World T σ}
    (h : Runs (start transport sessionId key tasks) calls w)
    (hfresh : ∀ c ∈ calls, c.PassesFreshSlot) (hclean : ∀ c ∈ calls, c.CleanWindow) :
    ∀ c ∈ calls, c.NoSampleLost w := by
  intro c hc s drOid hsub
  obtain ⟨front, back, rfl, hfront, hback⟩ := h.cut hc
  have hentersAll : ∀ c' ∈ front ++ c :: back, c'.EntersFresh :=
    fun c' hc' => (hfresh c' hc').enters
  have hentersFront : ∀ c' ∈ front, c'.EntersFresh :=
    fun c' hc' => hentersAll c' (List.mem_append_left _ hc')
  obtain ⟨xs, hxs⟩ := hfront.trail
  have hid : c.before.session.sessionId = sessionId := hxs.router.sessionId
  have hsettledBefore := hfront.settled hentersFront
  have hdistinctBefore := (hfront.entries hentersFront).1
  obtain ⟨later, hlater⟩ := hback.trail
  have hdrop : w.history.drop c.after.history.length = later := by
    rw [hlater.history, List.drop_left]
  rcases made_cases c with ⟨-, hnone⟩ | ⟨_, _, s', drOid', -, hreg⟩
  · rw [c.subscribed_of_not_ok hnone] at hsub
    cases hsub
  · rw [hreg.subscribed] at hsub
    cases List.mem_singleton.mp hsub
    rw [hdrop, Made.promised_eq hreg (hclean c hc) (by rw [hid]; exact hsettledBefore)
      hdistinctBefore (hentersAll c hc s drOid hreg).1, ← hlater.history, hid]
    exact (h.settled hentersAll s).2.2

/-- The DATA that an event brings in. -/
def Event.carries (sessionId : UInt8) : Event σ → Option (UInt16 × Bytes)
  | .received frame => dataOf sessionId frame
  | _ => none

/-- The first sample comes in before the answer to READ_DATA. -/
def fastTopic : Made Wire Unit :=
  subscribing (ascii "/a") (answering [statusFrame 1 0, statusFrame 2 0,
    dataFrame 0x0016 oneSample, statusFrame 3 0])

/-- The first sample comes in right behind the answer. -/
def slowTopic : Made Wire Unit :=
  subscribing (ascii "/a") (answering [statusFrame 1 0, statusFrame 2 0, statusFrame 3 0,
    dataFrame 0x0016 oneSample])

def slowSpin : Made Wire Unit := ⟨.spinOnce, 1, slowTopic.after⟩

theorem slowSpin_before : slowSpin.before = slowTopic.after := by
  rw [slowSpin]

end

/-- The first sample behind the answer is kept. -/
theorem sample_kept_behind_setup :
    letI := rp2040 true
    slowTopic.subscribed = [((), 0x0016)] ∧ slowTopic.NoSampleLost slowSpin.after := by
  have hsub : letI := rp2040 true; slowTopic.subscribed = [((), 0x0016)] := by decide +kernel
  have hnone : letI := rp2040 true; slowSpin.subscribed = [] := by decide +kernel
  have hok : letI := rp2040 true; slowTopic.outcome.isOk = true := by decide +kernel
  have hwindow : letI := rp2040 true
      slowTopic.sinceReadData.filterMap (Event.carries 0x81) = [] := by decide +kernel
  generalize rp2040 true = target at hsub hnone hok hwindow ⊢
  have hlive : slowTopic.outcome ≠ .panic := by
    intro hpanic
    rw [hpanic] at hok
    cases hok
  refine ⟨hsub, samples_kept_during_setup (Runs.pair slowSpin_before hlive) ?_ ?_ slowTopic
    List.mem_cons_self⟩
  · intro c hc node topic s hop _ _
    rcases List.mem_cons.mp hc with rfl | hc
    · exact ⟨List.not_mem_nil, List.not_mem_nil⟩
    · rw [List.mem_singleton.mp hc] at hop
      cases hop
  · intro c hc s drOid hmem frame hframe body v hdata
    rcases List.mem_cons.mp hc with rfl | hc
    · have hcarries := List.filterMap_eq_nil_iff.mp hwindow (.received frame) hframe
      rw [Event.carries] at hcarries
      exact absurd (hcarries.symm.trans hdata) nofun
    · rw [List.mem_singleton.mp hc, hnone] at hmem
      cases hmem

/-- The sample is read, belongs to the returned slot, finds its inbox empty, and is gone. -/
theorem sample_lost_during_setup :
    letI := rp2040 true
    Runs fastTopic.before [fastTopic] fastTopic.after ∧
      fastTopic.subscribed = [((), 0x0016)] ∧ ¬ fastTopic.NoSampleLost fastTopic.after := by
  have hsub : letI := rp2040 true; fastTopic.subscribed = [((), 0x0016)] := by decide +kernel
  have hpromised : letI := rp2040 true
      (fastTopic.promised () 0x0016 (fastTopic.after.history.drop
        fastTopic.after.history.length)).ledger.accepted.length = 1 := by decide +kernel
  have htaken : letI := rp2040 true
      (fastTopic.promised () 0x0016 (fastTopic.after.history.drop
        fastTopic.after.history.length)).ledger.taken.length = 0 := by decide +kernel
  have hinbox : letI := rp2040 true; (fastTopic.after.slots ()).inbox.items.length = 0 := by
    decide +kernel
  generalize rp2040 true = target at hsub hpromised htaken hinbox ⊢
  refine ⟨Runs.single fastTopic, hsub, ?_⟩
  intro h
  have heq := congrArg List.length (h () 0x0016 (by rw [hsub]; exact List.mem_singleton_self _))
  rw [List.length_append, htaken, hinbox, hpromised] at heq
  cases heq

end MicroXrceDds
