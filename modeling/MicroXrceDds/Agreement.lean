import MicroXrceDds.Conversing
import MicroXrceDds.Registration

/-!
# Requests and answers agree

Against an agent that answers every request once, a call that asks for a STATUS reads
frames until it has read the answer to its own request. So between two calls nothing is
unanswered and no STATUS is left in the stream.
-/
namespace MicroXrceDds

open Prog Session Conversation

variable {σ : Type} [Statics σ] {sessionId : UInt8}

/-- The request id of a sent frame that asks for a STATUS. -/
def Event.requests (sessionId : UInt8) : Event σ → Option UInt16
  | .sent frame => requestIn sessionId frame
  | _ => none

/-- The requests of a history, in order. -/
def asked (sessionId : UInt8) (es : List (Event σ)) : List UInt16 :=
  es.filterMap (Event.requests sessionId)

/-- Nothing is pending, and the agent has answered the requests of the history. -/
structure AtRest (w : World (Link sessionId) σ) : Prop where
  talk : Conversing w.link.answered [] [] [] w
  matched : w.link.answered.map Prod.fst = asked sessionId w.history

theorem asked_append (xs ys : List (Event σ)) :
    asked sessionId (xs ++ ys) = asked sessionId xs ++ asked sessionId ys := List.filterMap_append

theorem Event.Inbound.requests_nothing {e : Event σ} (h : e.Inbound) :
    e.requests sessionId = none := by
  cases e <;> first | exact h.elim | rfl

theorem Conversing.answered {past : List (UInt16 × UInt8)} {w : World (Link sessionId) σ}
    (h : Conversing past [] [] [] w) : w.link.answered = past := by
  obtain ⟨-, k, hcarries, hstands⟩ := h
  rw [hcarries.answered]
  exact hstands.at_rest.2.2.2

/-- Events that ask for nothing. -/
theorem Follows.asked {P : Event σ → Prop} {w w' : World (Link sessionId) σ} (h : Follows P w w')
    (hP : ∀ e, P e → e.requests sessionId = none) :
    asked sessionId w'.history = asked sessionId w.history := by
  obtain ⟨es, hes, htrail⟩ := h
  have hnone : MicroXrceDds.asked sessionId es = [] :=
    List.filterMap_eq_nil_iff.mpr fun e he => hP e (hes e he)
  rw [htrail.history, asked_append, hnone, List.append_nil]

theorem Asks.asked {id : UInt8} {oid : UInt16} {w w' : World (Link sessionId) σ}
    (h : Asks id oid w w') (hid : id = submsgCreate ∨ id = submsgReadData)
    (hsession : w.session.sessionId = sessionId) :
    asked sessionId w'.history = asked sessionId w.history ++ [w.session.reqId] := by
  obtain ⟨frame, w₁, hreq, hsend, hwait⟩ := h
  rw [hsession] at hreq
  have hone : MicroXrceDds.asked sessionId [(Event.sent frame : Event σ)] = [w.session.reqId] := by
    have hframe : (Event.sent frame : Event σ).requests sessionId = some w.session.reqId := by
      simp only [Event.requests, requestIn, hreq, if_pos hid]
    exact List.filterMap_cons_some hframe
  rw [hwait.asked fun e he => he.requests_nothing, hsend.history, asked_append, hone]

theorem Follows.subscriptions {P : Event σ → Prop} {T : Type} {w w' : World T σ}
    (h : Follows P w w') (hP : ∀ e, P e → e.Quiet) :
    w'.session.subscriptions = w.session.subscriptions := by
  obtain ⟨es, hes, htrail⟩ := h
  exact (htrail.router.quiet fun e he => hP e (hes e he)).1

/-- Since `w₀` every request has been granted. -/
structure Granted (w₀ w : World (Link sessionId) σ) : Prop where
  atRest : AtRest w
  subscriptions : w.session.subscriptions = w₀.session.subscriptions
  statuses : ∃ statuses, w.link.answered = w₀.link.answered ++ statuses ∧
    ∀ s ∈ statuses, Grants s.2

/-- What the statuses since `w₀` make of a call: it ends at the first bad one, with its
code. -/
def Ruled (w₀ : World (Link sessionId) σ) {α : Type} :
    Outcome Error α → World (Link sessionId) σ → Prop
  | .ok _, w => AtRest w ∧ ∃ statuses, w.link.answered = w₀.link.answered ++ statuses ∧
      ∀ s ∈ statuses, Grants s.2
  | .err e, w => AtRest w ∧ ∃ statuses req code,
      w.link.answered = w₀.link.answered ++ (statuses ++ [(req, code)]) ∧
      (∀ s ∈ statuses, Grants s.2) ∧ ¬ Grants code ∧ e = .agentRejected code
  | _, _ => True

variable {w₀ : World (Link sessionId) σ}

/-- A call that asks for nothing leaves the session at rest. -/
theorem AtRest.follows {P : Event σ → Prop} {w w' : World (Link sessionId) σ} (h : AtRest w)
    (htalk : Conversing w.link.answered [] [] [] w')
    (h' : Follows P w w') (hP : ∀ e, P e → e.requests sessionId = none) : AtRest w' := by
  have hans := htalk.answered
  refine ⟨by rw [hans]; exact htalk, ?_⟩
  rw [hans, h.matched, h'.asked hP]

theorem granted_pure {α : Type} (a : α) :
    Spec (Granted w₀) (pure a : Call (Link sessionId) σ α) (Ruled w₀) :=
  fun _ h => ⟨h.atRest, h.statuses⟩

theorem enter_ruled (s : σ) (drOid : UInt16) (h : w₀.session.subscriptions.isFull = false) :
    Spec (Granted w₀) (enter s drOid : Call (Link sessionId) σ σ) (Ruled w₀) := by
  intro w hw
  cases hpush : w.session.subscriptions.push s with
  | none =>
    have hfull := Bounded.push_eq_none.mp hpush
    have hroom := Bounded.isFull_eq_false.mp h
    rw [hw.subscriptions] at hfull
    exact absurd hfull (Nat.ne_of_lt hroom)
  | some table =>
    rw [enter_run hpush]
    refine ⟨⟨hw.atRest.talk, ?_⟩, hw.statuses⟩
    rw [(entered_trail drOid hpush).history, asked_append]
    exact hw.atRest.matched.trans (List.append_nil _).symm

theorem spinOnce_atRest {w : World (Link sessionId) σ} (h : AtRest w)
    (hret : ((spinOnce : Call (Link sessionId) σ Unit).run w).1.Returned) :
    ((spinOnce : Call (Link sessionId) σ Unit).run w).1 = .ok () ∧
      AtRest ((spinOnce : Call (Link sessionId) σ Unit).run w).2 := by
  have hfollows := spinOnce_follows w
  rw [spinOnce_eq] at hret hfollows ⊢
  rcases withFrame_link _ h.talk with
    ⟨w', hrun⟩ | ⟨o, w', hrun, h'⟩ | ⟨req, a, rest, w', hperm, -⟩
  · rw [hrun] at hret
    exact hret.elim
  · have hstate := dispatchFrame_state o.frame (w'.holding o.frame)
    rw [hrun] at hret hfollows ⊢
    refine ⟨?_, h.follows ?_ hfollows fun e he => he.requests_nothing⟩
    · have hne := dispatchFrame_ne_err o.frame (w'.holding o.frame)
      cases hout : ((dispatchFrame o.frame (w'.holding o.frame).session.sessionId
          (w'.holding o.frame).session.subscriptions.items).run (w'.holding o.frame)).1 with
      | ok u => rfl
      | err e => exact absurd hout (hne e)
      | panic => rw [hout] at hret; exact hret.elim
      | pending => rw [hout] at hret; exact hret.elim
    · rw [hstate]
      exact h'
  · cases hperm.symm.eq_nil

section
variable [Target]

theorem spec_request {α : Type} {fuel : Nat} {enc : Encoder} {id flags : UInt8} {oid : UInt16}
    {payload : UInt16 → Bytes} (henc : enc.Requests id flags oid payload)
    (hid : id = submsgCreate ∨ id = submsgReadData) :
    Spec (Granted w₀) (sendRequest fuel enc : Call (Link sessionId) σ Unit)
      (Midway (fun _ => Granted w₀) (Ruled w₀ (α := α))) := by
  intro w ⟨⟨htalk, hmatched⟩, hsubs, statuses, hanswered, hgranted⟩
  have hasks := sendRequest_asks fuel henc w
  have hasked := hasks.asked hid htalk.1
  have hsubs' := hasks.quiet.subscriptions fun _ he => he
  obtain ⟨buf, hlen, hrun⟩ := sendRequest_run w fuel henc.writes
  have hframe : requestIn sessionId (w.request id flags payload) = some w.session.reqId := by
    have hreq := henc.requestOf w
    rw [htalk.1] at hreq
    simp only [requestIn, hreq, if_pos hid]
  have hmax : txBufSize = 768 := rfl
  obtain ⟨w₁, hwrite, hsent⟩ := writeFramed_link
    (show (w.request id flags payload).length ≤ 65535 by omega)
    (show Conversing w.link.answered [] [] [] (w.requesting (w.request id flags payload) buf)
      from htalk)
  rw [hframe] at hsent
  have hjudged := waitStatusFor_judged fuel w.session.reqId w₁ hsent
  rw [bind_ok hwrite] at hrun
  rw [← hrun] at hjudged
  have hrest (status : UInt8) (h : Conversing (w.link.answered ++ [(w.session.reqId, status)])
      [] [] [] ((sendRequest fuel enc).run w).2) :
      AtRest ((sendRequest fuel enc).run w).2 ∧ ((sendRequest fuel enc).run w).2.link.answered =
        w₀.link.answered ++ (statuses ++ [(w.session.reqId, status)]) := by
    have hans := h.answered
    refine ⟨⟨by rw [hans]; exact h, ?_⟩, ?_⟩
    · rw [hans, hasked, List.map_append, hmatched]
      rfl
    · rw [hans, hanswered, List.append_assoc]
  cases hout : ((sendRequest fuel enc).run w).1 with
  | ok u =>
    rw [hout] at hjudged
    obtain ⟨status, hgood, h⟩ := hjudged
    obtain ⟨hat, hans⟩ := hrest status h
    refine ⟨hat, hsubs'.trans hsubs, _, hans, ?_⟩
    rw [List.forall_mem_append, List.forall_mem_singleton]
    exact ⟨hgranted, hgood⟩
  | err e =>
    rw [hout] at hjudged
    obtain ⟨status, hbad, he, h⟩ := hjudged
    obtain ⟨hat, hans⟩ := hrest status h
    exact ⟨hat, statuses, _, status, hans, hgranted, hbad, he⟩
  | panic => trivial
  | pending => trivial

theorem granted_alloc {α : Type} (kind : EntityKind) :
    Spec (Granted w₀) (alloc kind : Call (Link sessionId) σ UInt16)
      (Midway (fun _ => Granted w₀) (Ruled w₀ (α := α))) := by
  intro w h
  rcases alloc_cases kind w with hrun | ⟨hrun, -⟩
  · rw [hrun]
    refine ⟨⟨h.atRest.talk, ?_⟩, h.subscriptions, h.statuses⟩
    rw [(w.allocating_trail kind).history, asked_append]
    exact h.atRest.matched.trans (List.append_nil _).symm
  · rw [hrun]
    trivial

theorem granted_create {α : Type} (fuel : Nat) (oid : UInt16) (kind : UInt8) {xml : Bytes}
    (parent : UInt16) (hxml : xml.length ≤ 320) :
    Spec (Granted w₀) (createWithParentEntity fuel oid kind xml parent : Call (Link sessionId) σ Unit)
      (Midway (fun _ => Granted w₀) (Ruled w₀ (α := α))) := by
  rw [createWithParentEntity_eq]
  exact spec_request (requests_createWithParent oid kind parent hxml) (.inl rfl)

theorem granted_createParticipant {α : Type} (fuel : Nat) (idx : UInt16) {xml : Bytes}
    (hxml : xml.length ≤ 320) :
    Spec (Granted w₀) (createParticipantEntity fuel idx xml : Call (Link sessionId) σ Unit)
      (Midway (fun _ => Granted w₀) (Ruled w₀ (α := α))) := by
  rw [createParticipantEntity_eq]
  exact spec_request (requests_createParticipant _ hxml) (.inl rfl)

theorem createNode_ruled (fuel : Nat) (name : Bytes) :
    Spec (Granted w₀) (createNode fuel name : Call (Link sessionId) σ Node) (Ruled w₀) := by
  refine Spec.bind (granted_alloc _) fun participantIdx => ?_
  refine Spec.bind (granted_alloc _) fun publisherIdx => ?_
  refine Spec.bind (granted_alloc _) fun subscriberIdx => ?_
  refine Spec.bind (granted_createParticipant fuel participantIdx (length_participantXml_le name))
    fun _ => ?_
  refine Spec.bind (granted_create fuel _ _ _ (by decide)) fun _ => ?_
  refine Spec.bind (granted_create fuel _ _ _ (by decide)) fun _ => ?_
  exact granted_pure _

theorem createPublisher_ruled (M : Type) [Message M] (fuel : Nat) (node : Node) {topic : Bytes}
    (h : TopicFits topic) : Spec (Granted w₀)
      (createPublisher M fuel node topic : Call (Link sessionId) σ (Publisher M)) (Ruled w₀) := by
  rw [createPublisher, ros2TopicName_eq, if_pos h, pure_bind]
  refine Spec.bind (granted_alloc _) fun topicIdx => ?_
  refine Spec.bind (granted_create fuel _ _ _ (length_topicXml_le _ _)) fun _ => ?_
  refine Spec.bind (granted_alloc _) fun dwIdx => ?_
  refine Spec.bind (granted_create fuel _ _ _ (length_dataWriterXml_le _ _)) fun _ => ?_
  exact granted_pure _

theorem createSubscription_ruled (fuel : Nat) (node : Node) {topic : Bytes} (s : σ)
    (hroom : w₀.session.subscriptions.isFull = false) (h : TopicFits topic) :
    Spec (Granted w₀) (createSubscription fuel node topic s : Call (Link sessionId) σ σ)
      (Ruled w₀) := by
  have hrest : Spec (Granted w₀) (prepareSubscription fuel node topic s >>= enter s :
      Call (Link sessionId) σ σ) (Ruled w₀) := by
    simp only [prepareSubscription, ros2TopicName_eq, if_pos h, bind_assoc, pure_bind]
    refine Spec.bind (granted_alloc _) fun topicIdx => ?_
    refine Spec.bind (granted_create fuel _ _ _ (length_topicXml_le _ _)) fun _ => ?_
    refine Spec.bind (granted_alloc _) fun drIdx => ?_
    refine Spec.bind (granted_create fuel _ _ _ (length_dataReaderXml_le _ _)) fun _ => ?_
    rw [sendReadData_eq]
    refine Spec.bind (spec_request (requests_readData _) (.inr rfl)) fun _ => ?_
    exact enter_ruled s _ hroom
  intro w hw
  rw [createSubscription_eq, run_get_bind, hw.subscriptions, hroom]
  exact hrest w hw

theorem publish_atRest {M : Type} [Message M] (pub : Publisher M) (m : M)
    {w : World (Link sessionId) σ} (h : AtRest w)
    (hret : ((publish pub m).run w).1.Returned) :
    ((publish pub m).run w).1 = .ok () ∧ AtRest ((publish pub m).run w).2 := by
  have hid : w.session.sessionId = sessionId := h.talk.1
  have hfollows := publish_follows pub m w
  rcases publish_cases w pub m with ⟨body, buf, hlen, hrun⟩ | ⟨buf, hpanic⟩
  · have hnone : requestIn sessionId (writeDataMessage w pub body) = none := by
      have hreq := requestOf_writeData w pub hlen
      rw [hid] at hreq
      simp only [requestIn, hreq]
      exact if_neg (by decide)
    have hmax : txBufSize = 768 := rfl
    have hfront := writeDataPrefix_le w.session.sessionId
    obtain ⟨w', hwrite, hsent⟩ := writeFramed_link
      (show (writeDataMessage w pub body).length ≤ 65535 by rw [length_writeDataMessage]; omega)
      (show Conversing w.link.answered [] [] [] (w.sending (writeDataMessage w pub body) buf)
        from h.talk)
    rw [hnone] at hsent
    rw [hrun, hwrite] at hfollows ⊢
    refine ⟨rfl, h.follows hsent hfollows ?_⟩
    rintro e (he | ⟨frame, req, oid, rfl, hreq⟩)
    · exact he.requests_nothing
    · rw [hid] at hreq
      simp only [Event.requests, requestIn, hreq]
      exact if_neg (by decide)
  · rw [hpanic] at hret
    exact hret.elim

end

/-- The call creates something, and its local checks let it start. -/
def Op.PassesChecks {T : Type} (op : Op σ) (w : World T σ) : Prop :=
  match op with
  | .createNode _ => True
  | @Op.createPublisher _ _ _ _ _ topic => TopicFits topic
  | .createSubscription _ topic _ =>
    w.session.subscriptions.isFull = false ∧ TopicFits topic
  | _ => False

theorem Ruled.map {w₀ w : World (Link sessionId) σ} {α β : Type} {p : Call (Link sessionId) σ α}
    (f : α → β) (h : Ruled w₀ (p.run w).1 (p.run w).2) :
    Ruled w₀ ((p >>= fun a => pure (f a)).run w).1 ((p >>= fun a => pure (f a)).run w).2 := by
  rcases bind_cases p (fun a => (pure (f a) : Call (Link sessionId) σ β)) w with
    ⟨a, w', hrun, hbind⟩ | ⟨o, w', hrun, ho, hbind⟩
  · rw [hrun] at h
    rw [hbind]
    exact h
  · rw [hrun] at h
    rw [hbind]
    cases o <;> simp_all [Ruled]

/-- A call that asks for nothing ends with nothing pending, and without an error of the
two kinds that a STATUS can cause. -/
def Unasked {α : Type} (o : Outcome Error α) (w : World (Link sessionId) σ) : Prop :=
  o.Returned → AtRest w ∧ o ≠ .err .statusReqMismatch ∧ o ≠ .err .unexpectedReply

theorem AtRest.refused {w : World (Link sessionId) σ} (h : AtRest w) {α : Type} {e : Error}
    (hm : e ≠ .statusReqMismatch) (hu : e ≠ .unexpectedReply) :
    Unasked (.err e : Outcome Error α) w := by
  intro _
  refine ⟨h, ?_, ?_⟩
  · intro he
    exact hm (Outcome.err.inj he)
  · intro he
    exact hu (Outcome.err.inj he)

theorem Unasked.of_ok {p : Call (Link sessionId) σ Unit} {w : World (Link sessionId) σ}
    (h : (p.run w).1.Returned → (p.run w).1 = .ok () ∧ AtRest (p.run w).2) {α : Type} (a : α) :
    Unasked ((p >>= fun _ => pure a).run w).1 ((p >>= fun _ => pure a).run w).2 := by
  rcases bind_cases p (fun _ => (pure a : Call (Link sessionId) σ α)) w with
    ⟨u, w', hrun, hbind⟩ | ⟨o, w', hrun, ho, hbind⟩
  · rw [hrun] at h
    rw [hbind]
    intro _
    exact ⟨(h trivial).2, by simp, by simp⟩
  · rw [hrun] at h
    rw [hbind]
    intro hret
    cases o with
    | ok u => cases ho
    | err e => cases (h trivial).1
    | panic => exact hret.elim
    | pending => exact hret.elim

/-- Between two calls: the agent has answered every request of the session, no request is
on its way to it and no STATUS on its way back. -/
structure NothingOpen (w : World (Link sessionId) σ) : Prop where
  owed : w.link.owed = []
  answered : w.link.answered.map Prod.fst = asked sessionId w.history
  toAgent : ∃ frames, w.link.toAgent = stream frames ∧ ∀ f ∈ frames, requestIn sessionId f = none
  toClient : ∃ others : List (OtherFrame sessionId),
    w.link.toClient = stream (others.map OtherFrame.frame)

theorem AtRest.nothingOpen {w : World (Link sessionId) σ} (h : AtRest w) : NothingOpen w := by
  obtain ⟨-, k, hcarries, hstands⟩ := h.talk
  obtain ⟨hinbox, howed, hflight, -⟩ := hstands.at_rest
  have hothers (flight : List (Letter sessionId)) (h : flight.filterMap Letter.tells = []) :
      ∃ others : List (OtherFrame sessionId),
        flight.map Letter.frame = others.map OtherFrame.frame := by
    induction flight with
    | nil => exact ⟨[], rfl⟩
    | cons m ms ih =>
      cases m with
      | other o =>
        obtain ⟨others, heq⟩ := ih h
        exact ⟨o :: others, congrArg (o.frame :: ·) heq⟩
      | status req a => cases h
  obtain ⟨others, heq⟩ := hothers k.flight hflight
  refine ⟨hcarries.owed.trans howed, h.matched, ⟨k.inbox, ?_, ?_⟩, others, ?_⟩
  · exact hcarries.toAgent.trans (List.append_nil _)
  · exact List.filterMap_eq_nil_iff.mp hinbox
  · rw [← heq]
    exact hcarries.toClient

section
variable [Target]

/-- A call either is ruled by the statuses of its requests, or asks for nothing. -/
theorem made_ruled (c : Made (Link sessionId) σ) (h : AtRest c.before) :
    (c.op.PassesChecks c.before ∧ Ruled c.before c.outcome c.after) ∨
    (¬ c.op.PassesChecks c.before ∧ Unasked c.outcome c.after) := by
  obtain ⟨op, fuel, w⟩ := c
  have hstart : Granted w w := ⟨h, rfl, [], (List.append_nil _).symm, List.forall_mem_nil _⟩
  cases op with
  | createNode name =>
    have hcall := Ruled.map (fun node => (.node node : Reply σ)) (createNode_ruled fuel name w hstart)
    left
    simp only [Made.outcome, Made.after, Op.call]
    exact ⟨trivial, hcall⟩
  | createPublisher M node topic =>
    by_cases hfits : TopicFits topic
    · have hcall := Ruled.map (fun pub => (.publisher pub.dwId : Reply σ))
        (createPublisher_ruled M fuel node hfits w hstart)
      left
      simp only [Made.outcome, Made.after, Op.call]
      exact ⟨hfits, hcall⟩
    · right
      refine ⟨hfits, ?_⟩
      have hrun : ((Op.createPublisher M node topic).call fuel).run w = (.err .bufferTooSmall, w) :=
        bind_abort (createPublisher_refused M fuel node hfits w) rfl _
      rw [Made.outcome, Made.after, hrun]
      exact h.refused (by decide) (by decide)
  | createSubscription node topic s =>
    by_cases hpass : w.session.subscriptions.isFull = false ∧ TopicFits topic
    · have hcall := Ruled.map (fun slot => (.subscription slot : Reply σ))
        (createSubscription_ruled fuel node s hpass.1 hpass.2 w hstart)
      left
      simp only [Made.outcome, Made.after, Op.call]
      exact ⟨hpass, hcall⟩
    · right
      obtain ⟨e, he, hcreate⟩ := createSubscription_refused fuel node s
        (refused_of_not_passed hpass)
      have hrun : ((Op.createSubscription node topic s).call fuel).run w = (.err e, w) :=
        bind_abort hcreate rfl _
      refine ⟨hpass, ?_⟩
      rw [Made.outcome, Made.after, hrun]
      rcases he with rfl | rfl <;> exact h.refused (by decide) (by decide)
  | publish M pub m => exact .inr ⟨id, Unasked.of_ok (publish_atRest pub m h) _⟩
  | spinOnce => exact .inr ⟨id, Unasked.of_ok (spinOnce_atRest h) _⟩
  | tryRecv s =>
    have htalk : Conversing w.link.answered [] [] [] (w.takeFrom s) := by
      have hsession := w.takeFrom_session s
      obtain ⟨hid, k, hcarries, hstands⟩ := h.talk
      refine ⟨by rw [hsession]; exact hid, k, ?_, hstands⟩
      rw [World.link, hsession]
      exact hcarries
    have hrest := h.follows htalk (tryRecv_follows s w) fun e he => he.requests_nothing
    exact .inr ⟨id, Unasked.of_ok (fun _ => ⟨rfl, hrest⟩) _⟩

/-- What the caller may rely on: no confusion of answers, and a call that starts to create
something succeeds exactly when all its requests are granted; otherwise it ends at the
first one that is not. -/
structure Made.Agrees (c : Made (Link sessionId) σ) : Prop where
  no_mismatch : c.outcome ≠ .err .statusReqMismatch
  no_unexpected : c.outcome ≠ .err .unexpectedReply
  ruled : c.op.PassesChecks c.before → ∃ statuses,
    c.after.link.answered = c.before.link.answered ++ statuses ∧
    statuses.map Prod.fst = asked sessionId c.events ∧
    (c.outcome.isOk = true ↔ ∀ s ∈ statuses, Grants s.2) ∧
    (c.outcome.isOk = false → ∃ granted req code, statuses = granted ++ [(req, code)] ∧
      (∀ s ∈ granted, Grants s.2) ∧ ¬ Grants code ∧ c.outcome = .err (.agentRejected code))

/-- One call, from rest to rest. -/
theorem made_agrees (c : Made (Link sessionId) σ) (h : AtRest c.before)
    (hret : c.outcome.Returned) : AtRest c.after ∧ c.Agrees := by
  rcases made_ruled c h with ⟨hpass, hruled⟩ | ⟨hnot, hunasked⟩
  · obtain ⟨es, htrail⟩ := c.trail
    -- The statuses of the call are those to the requests of the call.
    have hmatch (hrest : AtRest c.after) (statuses : List (UInt16 × UInt8))
        (hans : c.after.link.answered = c.before.link.answered ++ statuses) :
        statuses.map Prod.fst = asked sessionId c.events := by
      have hafter := hrest.matched
      rw [hans, List.map_append, h.matched, htrail.history, asked_append] at hafter
      rw [Made.events_eq htrail]
      exact List.append_cancel_left hafter
    cases hout : c.outcome with
    | ok r =>
      rw [hout] at hruled
      obtain ⟨hrest, statuses, hans, hgranted⟩ := hruled
      refine ⟨hrest, by simp [hout], by simp [hout], fun _ => ?_⟩
      refine ⟨statuses, hans, hmatch hrest statuses hans, ?_, ?_⟩
      · rw [hout]
        exact ⟨fun _ => hgranted, fun _ => rfl⟩
      · simp [hout]
    | err e =>
      rw [hout] at hruled
      obtain ⟨hrest, granted, req, code, hans, hgranted, hbad, rfl⟩ := hruled
      refine ⟨hrest, by simp [hout], by simp [hout], fun _ => ?_⟩
      refine ⟨_, hans, hmatch hrest _ hans, ?_, ?_⟩
      · rw [hout]
        refine ⟨by simp, fun hall => ?_⟩
        exact absurd (hall (req, code) (List.mem_append_right _ (List.mem_singleton_self _))) hbad
      · intro _
        exact ⟨granted, req, code, rfl, hgranted, hbad, hout⟩
    | panic =>
      rw [hout] at hret
      exact hret.elim
    | pending =>
      rw [hout] at hret
      exact hret.elim
  · obtain ⟨hrest, hm, hu⟩ := hunasked hret
    exact ⟨hrest, hm, hu, fun hpass => absurd hpass hnot⟩

/-- Requests and answers agree in every run in which no call is dropped: no STATUS is ever
taken for the answer to another request, and none is left over for a later call. -/
theorem requests_agree_with_statuses {script : List (Turn sessionId)} {key : ClientKey}
    {tasks : List (List σ)} {calls : List (Made (Link sessionId) σ)} {w : World (Link sessionId) σ}
    (h : Runs (start (Link.fresh script) sessionId key tasks) calls w)
    (hret : ∀ c ∈ calls, c.outcome.Returned) : NothingOpen w ∧ ∀ c ∈ calls, c.Agrees := by
  have hrest : AtRest w ∧ ∀ c ∈ calls, c.Agrees := by
    induction h with
    | nil =>
      refine ⟨⟨⟨rfl, ⟨[], [], [], []⟩, ⟨rfl, rfl, rfl, rfl, List.forall_mem_nil _⟩, ?_⟩, rfl⟩,
        List.forall_mem_nil _⟩
      exact ⟨List.Perm.refl _, rfl⟩
    | @snoc calls c _ _ ih =>
      rw [List.forall_mem_append, List.forall_mem_singleton] at hret ⊢
      obtain ⟨hbefore, hagree⟩ := ih hret.1
      obtain ⟨hafter, hlast⟩ := made_agrees c hbefore hret.2
      exact ⟨hafter, hagree, hlast⟩
  exact ⟨hrest.1.nothingOpen, hrest.2⟩

/-- A STATUS with this status byte, and a DATA frame that nobody subscribed to. -/
def plainStatus (status : UInt8) : StatusFrame 0x81 where
  header := [0x81, 0, 0, 0]
  flags := flagLe
  objectHi := 0
  objectLo := 0
  status := status
  implStatus := 0
  extra := []
  trailing := []
  header_length := rfl
  fits := by decide

def unasked : OtherFrame 0x81 where
  frame := [0x81, 0, 0, 0, submsgData, flagLe, 4, 0, 0, 0, 0, 0x16]
  enough := by decide
  fits := by decide
  other := by decide

/-- The turns of one request: once it has been written, the agent sends a DATA frame and
then its answer. -/
def exchange (status : UInt8) : List (Turn 0x81) :=
  [⟨[], 999⟩, ⟨[], 999⟩, ⟨[.receive, .post unasked, .answer 0 (plainStatus status)], 999⟩,
    ⟨[], 999⟩, ⟨[], 999⟩, ⟨[], 999⟩, ⟨[], 999⟩]

/-- The second request of `create_node` is refused; `create_publisher` then succeeds. -/
def refusedNode : Made (Link 0x81) Unit :=
  ⟨.createNode (ascii "n"), 4, start (Link.fresh
    (exchange statusOk ++ exchange 0x85 ++ exchange statusOk ++ exchange statusOkMatched))
    0x81 ⟨0, 0, 0, 0⟩ []⟩

def laterPublisher : Made (Link 0x81) Unit :=
  ⟨.createPublisher Float32 ⟨1, 1, 1⟩ (ascii "/a"), 4, refusedNode.after⟩

theorem laterPublisher_before : laterPublisher.before = refusedNode.after := by
  rw [laterPublisher]

end

theorem refused_node_agrees :
    letI := rp2040 true
    refusedNode.outcome = .err (.agentRejected 0x85) ∧ laterPublisher.outcome.isOk = true ∧
      NothingOpen laterPublisher.after ∧ ∀ c ∈ [refusedNode, laterPublisher], c.Agrees := by
  have hfirst : letI := rp2040 true; refusedNode.outcome = .err (.agentRejected 0x85) := by
    decide +kernel
  have hsecond : letI := rp2040 true; laterPublisher.outcome.isOk = true := by decide +kernel
  generalize rp2040 true = target at hfirst hsecond ⊢
  have hruns := Runs.pair laterPublisher_before (by simp [hfirst])
  have hagree := requests_agree_with_statuses hruns (by
    intro c hc
    rcases List.mem_cons.mp hc with rfl | hc
    · rw [hfirst]
      trivial
    · rw [List.mem_singleton.mp hc]
      cases hout : laterPublisher.outcome with
      | ok r => trivial
      | _ => rw [hout] at hsecond; cases hsecond)
  exact ⟨hfirst, hsecond, hagree.1, hagree.2⟩

end MicroXrceDds
