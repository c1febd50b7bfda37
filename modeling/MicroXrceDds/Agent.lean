import MicroXrceDds.Dependencies
import MicroXrceDds.Errors
import MicroXrceDds.Numbering

/-!
# An agent that checks references

An agent keeps the objects it has been asked to create, and refuses what refers to an object it
does not hold. As long as the handles that are passed to a session are its own, such an agent
finds nothing to refuse, and no call of the session is ever rejected.
-/
namespace MicroXrceDds

open Prog Session Trace

/-- An object by its kind and its id. -/
structure Object where
  kind : UInt8
  oid : UInt16
  deriving DecidableEq, Repr

/-- Whether what a message refers to is there. -/
def admits (sessionId : UInt8) (frame : Bytes) (store : List Object) : Bool :=
  match creationOf sessionId frame with
  | some (_, entity) => entity.kind = entityParticipant ||
      entity.parent.any fun parent => ⟨parentKind entity.kind, parent⟩ ∈ store
  | none =>
    match requestOf sessionId frame with
    | some (id, _, oid) =>
      (id ≠ submsgReadData || ⟨entityDatareader, oid⟩ ∈ store) &&
        (id ≠ submsgWriteData || ⟨entityDatawriter, oid⟩ ∈ store)
    | none => true

/-- An entity that is created is kept. -/
def keep (sessionId : UInt8) (store : List Object) (frame : Bytes) : List Object :=
  match creationOf sessionId frame with
  | some (_, entity) =>
    if admits sessionId frame store then ⟨entity.kind, entity.oid⟩ :: store else store
  | none => store

/-- What an agent holds after it has read these messages. -/
def storeOf (sessionId : UInt8) (frames : List Bytes) : List Object :=
  frames.foldl (keep sessionId) []

theorem keep_subset (sessionId : UInt8) (store : List Object) (frame : Bytes) :
    store ⊆ keep sessionId store frame := by
  unfold keep
  split
  · split
    · exact List.subset_cons_self _ _
    · exact List.Subset.refl _
  · exact List.Subset.refl _

theorem storeOf_append (sessionId : UInt8) (xs ys : List Bytes) :
    storeOf sessionId xs ⊆ storeOf sessionId (xs ++ ys) := by
  unfold storeOf
  rw [List.foldl_append]
  generalize xs.foldl (keep sessionId) [] = store
  induction ys generalizing store with
  | nil => exact List.Subset.refl _
  | cons y ys ih => exact List.Subset.trans (keep_subset sessionId store y) (ih _)

variable {T σ : Type} [Statics σ] {sessionId : UInt8} {whole : Prop}

/-- What depends on nothing but objects in the store is admitted. -/
theorem Depends.admitted {before : List (Event σ)} {frame : Bytes} {store : List Object}
    (h : Depends sessionId whole before frame)
    (hheld : ∀ kind oid, Known sessionId kind oid before → ⟨kind, oid⟩ ∈ store) :
    admits sessionId frame store = true := by
  unfold admits
  cases hcreation : creationOf sessionId frame with
  | some created =>
    obtain ⟨req, entity⟩ := created
    by_cases hkind : entity.kind = entityParticipant
    · simp [hkind]
    · obtain ⟨parent, hparent, hknown⟩ := h.parent req entity hcreation hkind
      simp [hparent, hheld _ _ hknown]
  | none =>
    cases hrequest : requestOf sessionId frame with
    | none => rfl
    | some request =>
      obtain ⟨id, req, oid⟩ := request
      have hread (hid : id = submsgReadData) : (⟨entityDatareader, oid⟩ : Object) ∈ store :=
        hheld _ _ (h.readData req oid (hid ▸ hrequest))
      have hwrite (hid : id = submsgWriteData) : (⟨entityDatawriter, oid⟩ : Object) ∈ store :=
        hheld _ _ (h.writeData req oid (hid ▸ hrequest))
      simp only [Bool.and_eq_true, Bool.or_eq_true, decide_eq_true_eq]
      exact ⟨(em _).elim (fun hid => .inr (hread hid)) .inl,
        (em _).elim (fun hid => .inr (hwrite hid)) .inl⟩

/-- In a history in which everything is sent after what it depends on, every message is
admitted. The induction is on what came before it. -/
theorem admitted_of_lawful {es : List (Event σ)} (h : Lawful (SentAfter sessionId whole) es)
    {before after : List (Event σ)} {frame : Bytes} (heq : es = before ++ .sent frame :: after) :
    admits sessionId frame (storeOf sessionId (sentFrames before)) = true := by
  induction hn : before.length using Nat.strongRecOn generalizing before after frame with
  | _ n ih =>
    refine (h before _ after heq frame rfl).admitted ?_
    rintro _ _ ⟨entity, rfl, rfl, before', frame', req, between, reply, after', hbefore,
      hcreation, -, -⟩
    have hlt : before'.length < n := by
      rw [← hn, hbefore, List.length_append, List.length_cons]
      omega
    have hsplit : es = before' ++ .sent frame' ::
        (between ++ .received reply :: after' ++ .sent frame :: after) := by
      rw [heq, hbefore]
      simp only [List.append_assoc, List.cons_append]
    have hadmitted := ih _ hlt hsplit rfl
    have hkept : (⟨entity.kind, entity.oid⟩ : Object) ∈
        storeOf sessionId (sentFrames (before' ++ [.sent frame'])) := by
      rw [sentFrames_append, storeOf, List.foldl_append]
      change _ ∈ keep sessionId (storeOf sessionId (sentFrames before')) frame'
      simp only [keep, hcreation, hadmitted, if_true]
      exact List.mem_cons_self
    have hframes : before =
        (before' ++ [.sent frame']) ++ (between ++ .received reply :: after') := by
      rw [hbefore, List.append_assoc]
      rfl
    rw [hframes, sentFrames_append]
    exact storeOf_append _ _ _ hkept

/-- This request, sent after these events, has been answered with this status. -/
def Answered (sessionId : UInt8) (es before : List (Event σ)) (frame : Bytes) (status : UInt8) :
    Prop :=
  ∃ id req oid between reply payload after,
    es = before ++ .sent frame :: (between ++ .received reply :: after) ∧
    requestOf sessionId frame = some (id, req, oid) ∧ (∀ e ∈ between, e.Aside sessionId) ∧
    submessageOf sessionId reply = some (submsgStatus, payload) ∧
    statusOf payload = some (req, status)

theorem lasting_answered (sessionId : UInt8) (before : List (Event σ)) (frame : Bytes)
    (status : UInt8) : Lasting fun es => Answered sessionId es before frame status := by
  rintro _ es' ⟨id, req, oid, between, reply, payload, after, rfl, hreq, haside, hsub, hstatus⟩
  refine ⟨id, req, oid, between, reply, payload, after ++ es', ?_, hreq, haside, hsub, hstatus⟩
  simp only [List.append_assoc, List.cons_append]

/-- Whenever the program reports a rejection, a request has been answered with that status. -/
def Blames {α : Type} (p : Call T σ α) : Prop :=
  ∀ w w' code, p.run w = (.err (.agentRejected code), w') →
    ∃ before frame, Answered w'.session.sessionId w'.history before frame code ∧ ¬ Grants code

namespace Blames

variable {α β : Type}

theorem bind {p : Call T σ α} {f : α → Call T σ β} (hp : Blames p) (hf : ∀ a, Blames (f a)) :
    Blames (p >>= f) := by
  intro w w' code h
  rcases bind_cases p f w with ⟨a, w₁, -, hrun⟩ | ⟨o, w₁, hrun, ho, hbind⟩
  · rw [hrun] at h
    exact hf a w₁ w' code h
  · rw [hbind] at h
    apply hp w w' code
    rw [hrun]
    cases o <;> simp_all

theorem of_raises {E : Error → Prop} {p : Call T σ α} (hp : Raises E p)
    (hE : ∀ code, ¬ E (.agentRejected code)) : Blames p := by
  intro w w' code h
  exact absurd (hp w _ (congrArg Prod.fst h)) (hE code)

theorem pure (a : α) : Blames (Pure.pure a : Call T σ α) := nofun

end Blames

theorem not_reading_rejected (code : UInt8) : ¬ Error.OfReading (.agentRejected code) := by
  rintro ((h | h) | h) <;> cases h

theorem not_link_rejected (code : UInt8) : ¬ Error.OfLink (.agentRejected code) :=
  fun h => not_reading_rejected code h.reading

/-- A STATUS that refuses the request. -/
def RefusesRequest (sessionId : UInt8) (req : UInt16) (code : UInt8) (frame : Bytes) : Prop :=
  (∃ payload, submessageOf sessionId frame = some (submsgStatus, payload) ∧
    statusOf payload = some (req, code)) ∧ ¬ Grants code

theorem parseStatusPayload_rejected {payload : Bytes} {req : UInt16} {code : UInt8}
    {w : World T σ}
    (h : ((parseStatusPayload payload req : Call T σ Unit).run w).1 = .err (.agentRejected code)) :
    statusOf payload = some (req, code) ∧ ¬ Grants code := by
  rw [parseStatusPayload_eq] at h
  cases hstatus : statusOf payload with
  | none =>
    rw [hstatus] at h
    cases h
  | some st =>
    obtain ⟨req', status⟩ := st
    rw [hstatus] at h
    simp only at h
    split at h
    · cases h
    · next hreq =>
      split at h
      · next hbad =>
        cases h
        exact ⟨by rw [not_ne_iff.mp hreq], not_or.mpr hbad⟩
      · cases h

theorem waitFrame_rejected {w : World T σ} {req : UInt16} {code : UInt8} {msg : Bytes}
    (h : ((waitFrame w req msg : Call T σ Bool).run w).1 = .err (.agentRejected code)) :
    RefusesRequest w.session.sessionId req code msg := by
  unfold waitFrame at h
  split at h
  · next id payload hmsg =>
    split at h
    · next hid =>
      subst hid
      rcases bind_cases (parseStatusPayload payload req) (fun _ => (pure true : Call T σ Bool)) w
        with ⟨a, w₁, -, hrun⟩ | ⟨o, w₁, hparse, ho, hrun⟩
      · rw [hrun] at h
        cases h
      · rw [hrun] at h
        have hparse' : ((parseStatusPayload payload req : Call T σ Unit).run w).1 =
            .err (.agentRejected code) := by
          rw [hparse]
          cases o <;> simp_all
        obtain ⟨hstatus, hbad⟩ := parseStatusPayload_rejected hparse'
        exact ⟨⟨payload, hmsg, hstatus⟩, hbad⟩
    · split at h
      · rcases bind_cases (dispatchDataPayload payload w.session.subscriptions.items)
          (fun _ => (pure false : Call T σ Bool)) w with ⟨a, w₁, -, hrun⟩ | ⟨o, w₁, hdisp, ho, hrun⟩
        · rw [hrun] at h
          cases h
        · rw [hrun] at h
          have hne := dispatchDataPayload_ne_err payload w.session.subscriptions.items w
            (.agentRejected code)
          rw [hdisp] at hne
          cases o <;> simp_all
      · cases h
  · cases h

section
variable [ReadWrite T]

/-- An error that no read ends with comes from what is made of a frame. -/
theorem withFrame_err {R : World T σ → World T σ → Prop} (hR : Stable R) {α : Type}
    {k : World T σ → Bytes → Call T σ α} {w w' : World T σ} {e : Error}
    (h : (withFrame k).run w = (.err e, w')) (he : ¬ e.OfReading) :
    ∃ frame w₁, R w w₁ ∧
      (k (w₁.holding frame) frame).run (w₁.holding frame) = (.err e, w') := by
  have hwithin := Framing.within_readFramed hR.refl hR.trans hR.read rxBufSize w
  rcases bind_cases (Framing.readFramed rxBufSize) (fun bytes => (do
      modify (World.holding bytes)
      pure bytes.length : Call T σ Nat)) w with ⟨frame, w₁, hrun, hbind⟩ | ⟨o, w₁, hrun, ho, hbind⟩
  · rw [hrun] at hwithin
    have hread : (readOneFrame : Call T σ Nat).run w = (.ok frame.length, w₁.holding frame) := by
      rw [readOneFrame_eq, hbind]
      rfl
    rw [withFrame_of_read k (Framing.readFramed_length hrun) hread] at h
    exact ⟨frame, w₁, hwithin, h⟩
  · rw [withFrame, readOneFrame_eq, bind_abort hbind (not_isOk_abort ho)] at h
    refine absurd (readFramed_errors rxBufSize w e ?_) he
    rw [hrun]
    cases o <;> simp_all

variable [Target]

theorem waitTurn_rejected {req : UInt16} {code : UInt8} {w w' : World T σ}
    (h : (waitTurn req).run w = (.err (.agentRejected code), w')) :
    ∃ w₁ reply, Follows (Event.Aside w.session.sessionId) w w₁ ∧ Trail w₁ [.received reply] w' ∧
      RefusesRequest w.session.sessionId req code reply := by
  rw [waitTurn_eq] at h
  obtain ⟨frame, w₁, haside, hrun⟩ :=
    withFrame_err (stable_aside w.session.sessionId) h (not_reading_rejected code)
  have hrefuses := waitFrame_rejected (congrArg Prod.fst hrun)
  have hid : (w₁.holding frame).session.sessionId = w.session.sessionId := haside.sessionId
  rw [hid] at hrefuses
  refine ⟨w₁, frame, haside, ?_, hrefuses⟩
  have hstate := waitFrame_state frame (w₁.holding frame) req
  rw [hrun] at hstate
  have hw' : w' = (w₁.holding frame).withSlots ((w₁.holding frame).router.route frame).slots :=
    hstate
  rw [hw']
  exact holding_trail w₁ frame

/-- A wait that ends in a rejection has gone past anything but STATUS, up to the answer. -/
theorem waitStatusFor_rejected {fuel : Nat} {req : UInt16} {code : UInt8} {w w' : World T σ}
    (h : (waitStatusFor fuel req).run w = (.err (.agentRejected code), w')) :
    ∃ w₁ reply, Follows (Event.Aside w.session.sessionId) w w₁ ∧ Trail w₁ [.received reply] w' ∧
      RefusesRequest w.session.sessionId req code reply := by
  induction fuel generalizing w with
  | zero => cases h
  | succ fuel ih =>
    rcases bind_cases (waitTurn req) (fun done =>
        (if done then pure () else waitStatusFor fuel req : Call T σ Unit)) w with
      ⟨done, w₁, hturn, hrest⟩ | ⟨o, w₁, hturn, ho, hrest⟩
    · rw [waitStatusFor, hrest] at h
      cases done with
      | true => cases h
      | false =>
        obtain ⟨w₀, frame, haside, hframe, hdone⟩ := waitTurn_ok hturn
        have hnext : Follows (Event.Aside w.session.sessionId) w w₁ :=
          haside.trans (.of_trail hframe hdone)
        obtain ⟨w₂, reply, haside', hreply, hrefuses⟩ := ih h
        rw [hnext.sessionId] at haside' hrefuses
        exact ⟨w₂, reply, hnext.trans haside', hreply, hrefuses⟩
    · rw [waitStatusFor, hrest] at h
      apply waitTurn_rejected
      rw [hturn]
      cases o <;> simp_all

/-- What is rejected is the request that was sent. -/
theorem blames_request {fuel : Nat} {enc : Encoder} {id flags : UInt8} {oid : UInt16}
    {payload : UInt16 → Bytes} (henc : enc.Requests id flags oid payload) :
    Blames (sendRequest fuel enc : Call T σ Unit) := by
  intro w w' code h
  obtain ⟨buf, -, hrun⟩ := sendRequest_run w fuel henc.writes
  rw [hrun] at h
  have hwritten := (stable_aside w.session.sessionId).writeFramed (w.request id flags payload)
    (w.requesting (w.request id flags payload) buf)
  rcases bind_cases (Framing.writeFramed (w.request id flags payload)) (fun _ =>
      (waitStatusFor fuel w.session.reqId : Call T σ Unit))
      (w.requesting (w.request id flags payload) buf) with
    ⟨_, w₁, hwrite, hwait⟩ | ⟨o, w₁, hwrite, ho, hwait⟩
  · rw [hwait] at h
    rw [hwrite] at hwritten
    have hid : w₁.session.sessionId = w.session.sessionId := hwritten.sessionId
    obtain ⟨w₂, reply, haside, hreply, ⟨payload', hsub, hstatus⟩, hbad⟩ :=
      waitStatusFor_rejected h
    have hlast : w'.session.sessionId = w.session.sessionId :=
      hreply.router.sessionId.trans (haside.sessionId.trans hid)
    rw [hid] at haside hsub
    obtain ⟨between, hbetween, htrail⟩ := hwritten.trans haside
    have hsent := (requesting_trail w (w.request id flags payload) buf).history
    rw [hlast]
    refine ⟨w.history, w.request id flags payload, ⟨id, w.session.reqId, oid, between, reply,
      payload', [], ?_, henc.requestOf w, hbetween, hsub, hstatus⟩, hbad⟩
    rw [hreply.history, htrail.history, hsent, List.append_assoc, List.append_assoc]
    rfl
  · rw [hwait] at h
    have herr := writeFramed_errors (w.request id flags payload)
      (w.requesting (w.request id flags payload) buf) (.agentRejected code)
    rw [hwrite] at herr
    cases o with
    | err e =>
      cases h
      exact absurd (herr rfl) (not_link_rejected code)
    | _ => cases h

theorem composes_blames : Composes (T := T) (σ := σ) fun _ p => Blames p where
  pure := .pure
  bind := .bind
  alloc kind := .of_raises (alloc_errors kind) not_reading_rejected
  topicName topic := .of_raises (ros2TopicName_errors topic) not_reading_rejected
  participant fuel idx xml hxml := by
    rw [createParticipantEntity_eq]
    exact blames_request (requests_createParticipant _ hxml)
  child fuel oid kind xml parent hxml := by
    rw [createWithParentEntity_eq]
    exact blames_request (requests_createWithParent oid kind parent hxml)
  readData fuel oid := by
    rw [sendReadData_eq]
    exact blames_request (requests_readData oid)

/-- Only a request that has been answered so can make a call report a rejection. -/
theorem call_blames (fuel : Nat) (op : Op σ) : Blames (op.call fuel : Call T σ (Reply σ)) := by
  have hreply {α : Type} {p : Call T σ α} (hp : Blames p) (f : α → Reply σ) :
      Blames (p >>= fun a => pure (f a)) := .bind hp fun a => .pure (f a)
  cases op with
  | createNode name => exact hreply (composes_blames.createNode fuel name) _
  | createPublisher M node topic => exact hreply (composes_blames.createPublisher M fuel node topic) _
  | createSubscription node topic s =>
    have henter (s : σ) (drOid : UInt16) : Blames (enter s drOid : Call T σ σ) :=
      .of_raises (enter_errors s drOid) fun code => nofun
    have hfull : Blames (throw .tooManySubscriptions : Call T σ σ) := nofun
    have hget : Blames (get : Call T σ (World T σ)) := nofun
    exact hreply (composes_blames.createSubscription hget hfull henter fuel node topic s) _
  | publish M pub m =>
    exact hreply (.of_raises (publish_errors pub m) not_link_rejected) _
  | spinOnce => exact hreply (.of_raises spinOnce_errors not_reading_rejected) _
  | tryRecv s => exact hreply (.of_raises (.modify _) not_reading_rejected) _

/-- An agent that grants whatever it admits. It may refuse everything else. -/
def GrantsAdmitted (sessionId : UInt8) (es : List (Event σ)) : Prop :=
  ∀ before frame status, Answered sessionId es before frame status →
    admits sessionId frame (storeOf sessionId (sentFrames before)) = true → Grants status

/-- A session that only uses handles of its own never refers to an object that the agent does
not hold, whatever the agent answers; and an agent that refuses nothing else never rejects it. -/
theorem never_rejected {transport : T} {key : ClientKey} {tasks : List (List σ)}
    {calls : List (Made T σ)} {w : World T σ}
    (h : Runs (start transport sessionId key tasks) calls w) (hown : OwnHandles calls) :
    (∀ before frame after, w.history = before ++ .sent frame :: after →
      admits sessionId frame (storeOf sessionId (sentFrames before)) = true) ∧
    (GrantsAdmitted sessionId w.history →
      ∀ c ∈ calls, ∀ code, c.outcome ≠ .err (.agentRejected code)) := by
  have hstart : Sound sessionId False (fun _ => True)
      (start transport sessionId key tasks : World T σ) := ⟨rfl, lawful_nil, trivial⟩
  have hsound := runs_sound h hstart hown nofun
  have hadmitted {before : List (Event σ)} {frame : Bytes} {after : List (Event σ)}
      (heq : w.history = before ++ .sent frame :: after) :
      admits sessionId frame (storeOf sessionId (sentFrames before)) = true :=
    admitted_of_lawful hsound.lawful heq
  refine ⟨fun _ _ _ heq => hadmitted heq, ?_⟩
  intro hagent c hc code hrejected
  obtain ⟨front, back, -, hfront, hback⟩ := h.cut hc
  obtain ⟨before, frame, hanswered, hbad⟩ := call_blames c.fuel c.op c.before c.after code
    (Prod.ext hrejected rfl)
  obtain ⟨es₁, htrail₁⟩ := hfront.trail
  obtain ⟨es₂, htrail₂⟩ := c.trail
  obtain ⟨es₃, htrail₃⟩ := hback.trail
  have hid : c.after.session.sessionId = sessionId :=
    htrail₂.router.sessionId.trans htrail₁.router.sessionId
  rw [hid] at hanswered
  have hlast := lasting_answered sessionId before frame code c.after.history es₃ hanswered
  rw [← htrail₃.history] at hlast
  -- The agent admits what is sent, so it has not refused this frame.
  have hframe : ∃ after, w.history = before ++ .sent frame :: after := by
    obtain ⟨_, _, _, _, _, _, _, heq, -⟩ := hlast
    exact ⟨_, heq⟩
  obtain ⟨after, heq⟩ := hframe
  exact hbad (hagent before frame code hlast (hadmitted heq))

end

/-- No STATUS in this event refuses anything. -/
def Event.refuses (sessionId : UInt8) : Event σ → Bool
  | .received frame =>
    match submessageOf sessionId frame with
    | some (id, payload) =>
      id = submsgStatus && (statusOf payload).any fun answer => ! decide (Grants answer.2)
    | none => false
  | _ => false

/-- An agent that refuses nothing grants what it admits. -/
theorem grantsAdmitted_of_grants {es : List (Event σ)}
    (h : ∀ e ∈ es, e.refuses sessionId = false) : GrantsAdmitted sessionId es := by
  rintro before frame status ⟨id, req, oid, between, reply, payload, after, rfl, -, -, hsub,
    hstatus⟩ -
  have hreply := h (.received reply) (by simp)
  by_contra hbad
  simp [Event.refuses, hsub, hstatus, hbad] at hreply

theorem own_calls_never_rejected : letI := rp2040 true
    (∀ before frame after, ownSample.after.history = before ++ .sent frame :: after →
      admits 0x81 frame (storeOf 0x81 (sentFrames before)) = true) ∧
    ∀ c ∈ [ownNode, ownPublisher, ownSample], ∀ code, c.outcome ≠ .err (.agentRejected code) := by
  have hnode : letI := rp2040 true; ownNode.outcome = .ok (.node ⟨1, 1, 1⟩) := by decide +kernel
  have hpub : letI := rp2040 true; ownPublisher.outcome = .ok (.publisher 0x15) := by
    decide +kernel
  have hgrants : letI := rp2040 true;
      (ownSample.after.history.all fun e => ! e.refuses 0x81) = true := by decide +kernel
  generalize rp2040 true = target at hnode hpub hgrants ⊢
  have hruns := own_calls_run (by rw [hnode]; simp) (by rw [hpub]; simp)
  have hown : OwnHandles [ownNode, ownPublisher, ownSample] := by
    have h₁ : OwnHandles [ownNode] := lawful_nil.snoc trivial
    have h₂ : OwnHandles [ownNode, ownPublisher] := h₁.snoc ⟨ownNode, .head _, hnode⟩
    exact h₂.snoc ⟨ownPublisher, .tail _ (.head _), hpub⟩
  have hagent : GrantsAdmitted 0x81 ownSample.after.history := by
    apply grantsAdmitted_of_grants
    intro e he
    simpa using List.all_eq_true.mp hgrants e he
  generalize ownSample.after = w at hruns hagent ⊢
  obtain ⟨hadmitted, hnever⟩ := never_rejected hruns hown
  exact ⟨hadmitted, hnever hagent⟩

end MicroXrceDds
