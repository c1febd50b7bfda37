import MicroXrceDds.Library.Simulation
import MicroXrceDds.Client

/-!
# The session refines the client

Over any connection that takes what is written to it, and whatever comes in over it, in
pieces of any length, every call of the session ends as the call of the client does.
-/
namespace MicroXrceDds

open Prog Session

variable {T σ : Type} [Statics σ]

/-- The frames that a history has got from the transport. -/
def receivedFrames (es : List (Event σ)) : List Bytes :=
  es.filterMap fun e => match e with
    | .received frame => some frame
    | _ => none

theorem receivedFrames_append (xs ys : List (Event σ)) :
    receivedFrames (xs ++ ys) = receivedFrames xs ++ receivedFrames ys := List.filterMap_append

/-- The client that a session is, when these bytes are still to come in. -/
def World.client (incoming : Bytes) (w : World T σ) : Client σ where
  sessionId := w.session.sessionId
  clientKey := w.session.clientKey
  numbers := w.numbers
  nextIdx := w.session.nextIdx
  drIds s := (w.slots s).drId
  table := w.session.subscriptions
  incoming := incoming
  heard := receivedFrames w.history
  said := sentFrames w.history

/-- An event that is no frame is nothing to the client. -/
theorem client_log {e : Event σ} (hsaid : sentFrames [e] = []) (hheard : receivedFrames [e] = [])
    (w : World T σ) (bs : Bytes) : (w.log e).client bs = w.client bs := by
  have hsent : sentFrames (w.history ++ [e]) = sentFrames w.history := by
    rw [sentFrames_append, hsaid, List.append_nil]
  have hreceived : receivedFrames (w.history ++ [e]) = receivedFrames w.history := by
    rw [receivedFrames_append, hheard, List.append_nil]
  change Client.mk _ _ _ _ _ _ _ (receivedFrames (w.history ++ [e]))
    (sentFrames (w.history ++ [e])) = _
  rw [hsent, hreceived]
  rfl

/-- Nothing that the client sees has changed. -/
def SameClient (w w' : World T σ) : Prop := ∀ bs, w'.client bs = w.client bs

theorem World.takeFrom_client (w : World T σ) (s : σ) : SameClient w (w.takeFrom s) := by
  intro bs
  unfold takeFrom
  split
  · rfl
  · next v sub htake =>
    have hids : (fun s' => ((w.setSlot s sub).slots s').drId) = fun s' => (w.slots s').drId := by
      funext s'
      exact w.router.setSlot_drId (Subscription.tryRecv_eq_some htake).2 s'
    rw [client_log rfl rfl, client, client, hids]
    rfl

theorem stable_client : Stable (T := T) (SameClient (σ := σ)) where
  refl _ _ := rfl
  trans _ _ _ h h' bs := (h' bs).trans (h bs)
  suspend w := by
    unfold World.suspend
    split
    · exact fun _ => rfl
    · next turn rest _ =>
      have hturn (turn : List σ) (w : World T σ) : SameClient w (turn.foldl World.takeFrom w) := by
        induction turn generalizing w with
        | nil => exact fun _ => rfl
        | cons s turn ih => exact fun bs => (ih (w.takeFrom s) bs).trans (w.takeFrom_client s bs)
      exact hturn turn { w with tasks := rest }
  transport _ _ _ := rfl

/-- The world and the client agree, and so do the two ends of the connection: `prior` is
what had been written to it before. -/
structure Mirrors (I : Bytes → Bytes → T → Prop) (prior : Bytes) (id : UInt8) (w : World T σ)
    (c : Client σ) : Prop where
  view : w.client c.incoming = c
  wire : I c.incoming (prior ++ stream c.said) w.session.transport
  named : c.sessionId = id

namespace Mirrors

variable {I : Bytes → Bytes → T → Prop} {prior : Bytes} {id : UInt8} {w w' : World T σ}
  {c : Client σ}

theorem sessionId (h : Mirrors I prior id w c) : w.session.sessionId = c.sessionId :=
  congrArg Client.sessionId h.view

theorem clientKey (h : Mirrors I prior id w c) : w.session.clientKey = c.clientKey :=
  congrArg Client.clientKey h.view

theorem numbers (h : Mirrors I prior id w c) : w.numbers = c.numbers :=
  congrArg Client.numbers h.view

theorem nextIdx (h : Mirrors I prior id w c) : w.session.nextIdx = c.nextIdx :=
  congrArg Client.nextIdx h.view

theorem table (h : Mirrors I prior id w c) : w.session.subscriptions = c.table :=
  congrArg Client.table h.view

theorem drId (h : Mirrors I prior id w c) (s : σ) : (w.slots s).drId = c.drIds s :=
  congrFun (congrArg Client.drIds h.view) s

/-- A step that the client does not see. -/
theorem same (h : Mirrors I prior id w c) (hw : w'.client c.incoming = w.client c.incoming)
    (ht : w'.session.transport = w.session.transport) : Mirrors I prior id w' c :=
  ⟨hw.trans h.view, ht ▸ h.wire, h.named⟩

end Mirrors

theorem tryDeliver_outcome {M : Type} [Message M] {N : Nat} (body : Bytes)
    (sub : Subscription M N) :
    ((ignoreErr (Subscription.tryDeliver body)).run sub).1 = logged (Subscription.decode M body) := by
  simp only [ignoreErr, Subscription.tryDeliver, run_bind, run_ofOutcome]
  cases Subscription.decode M body with
  | ok v =>
    simp only [trySend_run]
    cases sub.inbox.push v <;> rfl
  | _ => rfl

theorem deliverFirst_outcome (id : UInt16) (body : Bytes) (subs : List σ) (w : World T σ) :
    ((deliverFirst id body subs).run w).1 =
      match subs.find? fun s => (w.slots s).drId == id with
      | some s => logged (Subscription.decode (Statics.Msg s) body)
      | none => .ok () := by
  induction subs with
  | nil => rfl
  | cons s subs ih =>
    rw [deliverFirst, run_get_bind]
    by_cases hid : (w.slots s).drId = id
    · rw [if_pos hid, deliverTo, run_zoom, List.find?_cons_of_pos (by simpa using hid)]
      exact tryDeliver_outcome body (w.slots s)
    · rw [if_neg hid, List.find?_cons_of_neg (by simpa using hid)]
      exact ih

section
variable {I : Bytes → Bytes → T → Prop} {prior : Bytes} {sid : UInt8}

/-- Routing a frame changes inboxes, which the client does not see. -/
theorem Mirrors.route {w : World T σ} {c : Client σ} (h : Mirrors I prior sid w c) (msg : Bytes) :
    Mirrors I prior sid (w.withSlots (w.router.route msg).slots) c := by
  refine h.same ?_ rfl
  have hids := (w.router.route_frame msg).2.2.2
  change Client.mk _ _ _ _ (fun s => ((w.router.route msg).slots s).drId) _ _ _ _ = _
  rw [funext hids]
  rfl

theorem Mirrors.owner {w : World T σ} {c : Client σ} (h : Mirrors I prior sid w c) (id : UInt16) :
    (w.session.subscriptions.items.find? fun s => (w.slots s).drId == id) = c.owner id := by
  rw [h.table, Client.owner]
  congr 1
  funext s
  rw [h.drId]

/-- A frame with a sample for one of the slots, at the session and at the client. -/
theorem Mirrors.dispatch {w : World T σ} {c : Client σ} (h : Mirrors I prior sid w c) (msg : Bytes) :
    Alike (Mirrors I prior sid)
      ((dispatchFrame msg w.session.sessionId w.session.subscriptions.items).run w)
      ((Client.offer msg).run c) := by
  rw [Client.offer_run]
  constructor
  · rw [dispatchFrame_eq, Client.offered, dataOf, h.sessionId]
    cases submessageOf c.sessionId msg with
    | none => rfl
    | some sub =>
      obtain ⟨id, payload⟩ := sub
      by_cases hdata : id = submsgData
      · simp only [if_pos hdata, dispatchDataPayload_eq]
        cases sampleOf payload with
        | none => rfl
        | some sample =>
          cases howner : c.owner sample.1 <;> simp only [deliverFirst_outcome, h.owner, howner]
      · simp [hdata]
  · rw [dispatchFrame_state]
    exact h.route msg

theorem parseStatusPayload_verdict (payload : Bytes) (req : UInt16) (w : World T σ) :
    (parseStatusPayload payload req).run w = (verdict payload req, w) := by
  rw [parseStatusPayload_eq, verdict]
  cases statusOf payload with
  | none => rfl
  | some status =>
    obtain ⟨req', code⟩ := status
    by_cases hreq : req' = req
    · by_cases hgrants : Grants code
      · have hcode : ¬ (code ≠ statusOk ∧ code ≠ statusOkMatched) := fun h => hgrants.elim h.1 h.2
        simp only [if_neg (not_not.mpr hreq), if_neg hcode, if_pos hgrants]
        rfl
      · have hcode : code ≠ statusOk ∧ code ≠ statusOkMatched := not_or.mp hgrants
        simp only [if_neg (not_not.mpr hreq), if_pos hcode, if_neg hgrants]
        rfl
    · simp only [if_pos hreq]
      rfl

/-- A frame that is no STATUS is dispatched as everywhere. -/
theorem waitFrame_dispatches {w : World T σ} {msg : Bytes} {id : UInt8} {payload : Bytes}
    (hmsg : submessageOf w.session.sessionId msg = some (id, payload)) (hid : id ≠ submsgStatus)
    (req : UInt16) : waitFrame w req msg = (do
      dispatchFrame msg w.session.sessionId w.session.subscriptions.items
      pure false : Call T σ Bool) := by
  rw [dispatchFrame_eq, waitFrame, hmsg]
  simp only [if_neg hid]
  split
  · rfl
  · rw [pure_bind]

/-- What the wait for a STATUS makes of a frame. -/
theorem Mirrors.wait {w : World T σ} {c : Client σ} (h : Mirrors I prior sid w c) (req : UInt16)
    (msg : Bytes) :
    Alike (Mirrors I prior sid) ((waitFrame w req msg).run w) ((Client.heed req msg).run c) := by
  rw [Client.heed, run_get_bind]
  cases hmsg : submessageOf c.sessionId msg with
  | none =>
    rw [waitFrame, h.sessionId, hmsg]
    exact ⟨rfl, h⟩
  | some sub =>
    obtain ⟨id, payload⟩ := sub
    by_cases hid : id = submsgStatus
    · rw [waitFrame, h.sessionId, hmsg]
      simp only [if_pos hid]
      refine Alike.bind ?_ fun _ _ _ h => ⟨rfl, h⟩
      rw [parseStatusPayload_verdict]
      exact ⟨rfl, h⟩
    · rw [waitFrame_dispatches (h.sessionId.symm ▸ hmsg) hid]
      simp only [if_neg hid]
      exact (h.dispatch msg).bind fun _ _ _ h => ⟨rfl, h⟩

theorem client_holding (w : World T σ) (frame bs rest : Bytes) :
    (w.holding frame).client rest = (w.client bs).took frame rest := by
  have hsaid : sentFrames (w.history ++ [.received frame]) = sentFrames w.history :=
    sentFrames_log (by simp)
  have hheard : receivedFrames (w.history ++ [.received frame]) =
      receivedFrames w.history ++ [frame] := receivedFrames_append w.history [.received frame]
  change Client.mk _ _ _ _ _ _ rest (receivedFrames (w.history ++ [.received frame]))
    (sentFrames (w.history ++ [.received frame])) = _
  rw [hsaid, hheard]
  rfl

theorem Mirrors.holding {w w₁ : World T σ} {c : Client σ} {frame rest : Bytes}
    (h : Mirrors I prior sid w c) (hsame : SameClient w w₁)
    (hin : I rest (prior ++ stream c.said) w₁.session.transport) :
    Mirrors I prior sid (w₁.holding frame) (c.took frame rest) := by
  refine ⟨?_, hin, h.named⟩
  change (w₁.holding frame).client rest = _
  rw [client_holding w₁ frame c.incoming rest, hsame, h.view]

theorem Mirrors.leaving {w w₁ : World T σ} {c : Client σ} {rest : Bytes}
    (h : Mirrors I prior sid w c) (hsame : SameClient w w₁)
    (hin : I rest (prior ++ stream c.said) w₁.session.transport) :
    Mirrors I prior sid w₁ (c.leaving rest) := by
  refine ⟨?_, hin, h.named⟩
  change (w₁.client c.incoming).leaving rest = _
  rw [hsame, h.view]

theorem client_sent (w : World T σ) (frame bs : Bytes) :
    (w.log (.sent frame)).client bs = (w.client bs).saying frame w.numbers := by
  have hsaid : sentFrames (w.history ++ [.sent frame]) = sentFrames w.history ++ [frame] :=
    sentFrames_append w.history [.sent frame]
  have hheard : receivedFrames (w.history ++ [.sent frame]) = receivedFrames w.history := by
    rw [receivedFrames_append]
    exact List.append_nil _
  change Client.mk _ _ _ _ _ _ bs (receivedFrames (w.history ++ [.sent frame]))
    (sentFrames (w.history ++ [.sent frame])) = _
  rw [hsaid, hheard]
  rfl

/-- A request on its way: both counters have moved on. -/
theorem client_requesting (w : World T σ) (frame : Bytes) (buf : Buffer UInt8 txBufSize)
    (bs : Bytes) :
    (w.requesting frame buf).client bs = (w.client bs).saying frame w.numbers.afterRequest := by
  rw [World.requesting, World.sending, client_sent]
  rfl

/-- So is a sample, with the one counter that it uses up. -/
theorem client_sending (w : World T σ) (frame : Bytes) (buf : Buffer UInt8 txBufSize) (bs : Bytes) :
    (w.sending frame buf).client bs = (w.client bs).saying frame w.numbers.afterData := by
  rw [World.sending, client_sent]
  rfl

theorem simulates_alloc [Target] (kind : EntityKind) :
    Simulates (Mirrors I prior sid) (alloc kind : Call T σ UInt16) (Client.alloc kind) := by
  refine Simulates.of_get fun w c h => ?_
  rw [h.nextIdx]
  have hadd : Simulates (Mirrors I prior sid) (addIn 16 (c.nextIdx kind).toNat 1 : Call T σ Nat)
      (addIn 16 (c.nextIdx kind).toNat 1) := by
    unfold addIn
    refine Simulates.ite (fun _ => Simulates.pure _) fun _ => ?_
    exact Simulates.ite (fun _ _ _ h => ⟨rfl, h⟩) fun _ => Simulates.pure _
  refine hadd.bind fun next w c h => ⟨rfl, ?_, h.wire, h.named⟩
  change (World.log (.allocated kind _) (w.setNextIdx kind (UInt16.ofNat next))).client _ = _
  rw [client_log rfl rfl]
  exact congrArg (Client.setNextIdx kind (UInt16.ofNat next)) h.view

/-- The local check on a topic name. -/
theorem simulates_ros2TopicName (topic : Bytes) {α : Type} {f : Bytes → Call T σ α}
    {q : Prog Error (Client σ) α}
    (hf : TopicFits topic → Simulates (Mirrors I prior sid) (f (ddsTopicName topic)) q) :
    Simulates (Mirrors I prior sid) (ros2TopicName topicNameMax topic >>= f)
      (if TopicFits topic then q else throw .bufferTooSmall) := by
  rw [ros2TopicName_eq]
  by_cases hfits : TopicFits topic
  · rw [if_pos hfits, if_pos hfits, pure_bind]
    exact hf hfits
  · rw [if_neg hfits, if_neg hfits]
    exact fun _ _ h => ⟨rfl, h⟩

theorem client_setSlot (w : World T σ) (s : σ) (drOid : UInt16) (bs : Bytes) :
    (w.setSlot s ((w.slots s).setDrId drOid)).client bs = (w.client bs).setDrId s drOid := by
  have hids : (fun s' => ((w.setSlot s ((w.slots s).setDrId drOid)).slots s').drId) =
      Function.update (fun s' => (w.slots s').drId) s drOid := by
    funext s'
    by_cases hs : s' = s
    · subst hs
      simp [World.setSlot, Subscription.setDrId]
    · simp [World.setSlot, Function.update_of_ne hs]
  rw [World.client, hids]
  rfl

theorem simulates_enter (s : σ) (drOid : UInt16) :
    Simulates (Mirrors I prior sid) (enter s drOid : Call T σ σ) (Client.enter s drOid) := by
  have hset : Simulates (Mirrors I prior sid) (setDrId s drOid : Call T σ Unit)
      (modify (Client.setDrId s drOid)) := by
    refine Simulates.modify fun w c h => ⟨?_, h.wire, h.named⟩
    rw [client_log rfl rfl, client_setSlot]
    exact congrArg (Client.setDrId s drOid) h.view
  refine hset.bind fun _ => ?_
  rw [pushSubscription, bind_assoc]
  refine Simulates.of_get fun w c h => ?_
  rw [h.table]
  cases c.table.push s with
  | none => exact Simulates.throw _
  | some table =>
    refine Simulates.bind (Simulates.modify fun w c h => ⟨?_, h.wire, h.named⟩) fun _ =>
      Simulates.pure s
    rw [client_log rfl rfl]
    exact congrArg (Client.setTable table) h.view

theorem simulates_tryRecv (s : σ) :
    Simulates (Mirrors I prior sid) (tryRecv s : Call T σ Unit) (pure ()) := by
  refine fun w c h => ⟨rfl, h.same (w.takeFrom_client s c.incoming) ?_⟩
  change (w.takeFrom s).session.transport = _
  rw [World.takeFrom_session]

section
variable [ReadWrite T] {ending : Ending}

/-- A call that goes on with a frame does so where the client hears it. -/
theorem simulates_hear (hfeed : ∀ out, Feed ending fun bs s => I bs out s) {α : Type}
    {k : World T σ → Bytes → Call T σ α} {g : Bytes → Prog Error (Client σ) α}
    (hk : ∀ f w c, Mirrors I prior sid w c →
      Alike (Mirrors I prior sid) ((k w f).run w) ((g f).run c)) :
    Simulates (Mirrors I prior sid) (withFrame k) (Client.hear ending >>= g) := by
  intro w c h
  have hrun := (hfeed (prior ++ stream c.said)).withFrame_run stable_client k h.wire
  cases hnext : nextFrame rxBufSize c.incoming with
  | frame f rest =>
    rw [hnext] at hrun
    obtain ⟨w₁, hrun, hin, hsame⟩ := hrun
    rw [hrun, bind_ok (Client.hear_frame ending hnext)]
    exact hk f _ _ (h.holding hsame hin)
  | oversized rest =>
    rw [hnext] at hrun
    obtain ⟨w₁, hrun, hin, hsame⟩ := hrun
    rw [hrun, bind_abort (Client.hear_oversized ending hnext) rfl]
    exact ⟨rfl, h.leaving hsame hin⟩
  | cut =>
    rw [hnext] at hrun
    obtain ⟨w₁, hrun, hin, hsame⟩ := hrun
    rw [hrun, bind_abort (Client.hear_cut ending hnext) ending.isOk_outcome, Ending.abort_outcome]
    exact ⟨rfl, h.leaving hsame hin⟩

theorem simulates_spinOnce (hfeed : ∀ out, Feed ending fun bs s => I bs out s) :
    Simulates (Mirrors I prior sid) (spinOnce : Call T σ Unit) (Client.spinOnce ending) := by
  rw [spinOnce_eq]
  exact simulates_hear hfeed fun f _ _ h => h.dispatch f

/-- A frame that is logged and written. -/
theorem Mirrors.writeFramed (hpeer : Peer ending I) {w w₁ : World T σ} {c : Client σ}
    {frame : Bytes} {numbers : Numbers} (h : Mirrors I prior sid w c)
    (hview : w₁.client c.incoming = c.saying frame numbers)
    (htransport : w₁.session.transport = w.session.transport) :
    ∃ w₂, (Framing.writeFramed frame : Call T σ Unit).run w₁ = (.ok (), w₂) ∧
      Mirrors I prior sid w₂ (c.saying frame numbers) := by
  have hwire : I c.incoming (prior ++ stream c.said) w₁.session.transport :=
    htransport ▸ h.wire
  obtain ⟨w₂, hrun, hout, hsame⟩ := ((hpeer.sink c.incoming).world stable_client w₁).writeFramed
    frame ⟨hwire, stable_client.refl w₁⟩
  refine ⟨w₂, hrun, (hsame c.incoming).trans hview, ?_, h.named⟩
  have hsaid : prior ++ stream (c.said ++ [frame]) = prior ++ stream c.said ++ framed frame := by
    rw [stream_append, stream_cons, stream_nil, List.append_nil, List.append_assoc]
  change I c.incoming (prior ++ stream (c.said ++ [frame])) w₂.session.transport
  rw [hsaid]
  exact hout

variable [Target]

theorem simulates_waitStatusFor (hfeed : ∀ out, Feed ending fun bs s => I bs out s) (fuel : Nat)
    (req : UInt16) :
    Simulates (Mirrors I prior sid) (waitStatusFor fuel req : Call T σ Unit)
      (Client.listen ending fuel req) := by
  induction fuel with
  | zero => exact Simulates.pending
  | succ fuel ih =>
    have hturn : Simulates (Mirrors I prior sid) (waitTurn req : Call T σ Bool)
        (Client.hear ending >>= Client.heed req) := by
      rw [waitTurn_eq]
      exact simulates_hear hfeed fun f _ _ h => h.wait req f
    rw [waitStatusFor, Client.listen, ← bind_assoc]
    refine hturn.bind fun done => ?_
    cases done with
    | true => exact Simulates.pure ()
    | false => exact ih

theorem simulates_sendRequest (hpeer : Peer ending I) (fuel : Nat) {enc : Encoder}
    {id flags : UInt8} {payload : UInt16 → Bytes} (henc : enc.Writes id flags payload) :
    Simulates (Mirrors I prior sid) (sendRequest fuel enc : Call T σ Unit)
      (Client.ask ending fuel id flags payload) := by
  intro w c h
  obtain ⟨buf, -, hrun⟩ := sendRequest_run w fuel henc
  have hframe : w.request id flags payload = c.request id flags payload := by
    rw [World.request, Client.request, h.sessionId, h.clientKey, ← h.numbers]
    rfl
  have hview : (w.requesting (w.request id flags payload) buf).client c.incoming =
      c.saying (w.request id flags payload) c.numbers.afterRequest := by
    rw [client_requesting, h.view, h.numbers]
  obtain ⟨w₂, hwrite, hnext⟩ := h.writeFramed hpeer hview rfl
  have hreq : w.session.reqId = c.numbers.reqId := congrArg Numbers.reqId h.numbers
  rw [hrun, bind_ok hwrite, Client.ask, run_get_bind, ← hframe, hreq]
  exact simulates_waitStatusFor hpeer.feed fuel c.numbers.reqId w₂ _ hnext

theorem simulates_askChild (hpeer : Peer ending I) (fuel : Nat) (oid : UInt16) (kind : UInt8)
    {xml : Bytes} (parent : UInt16) (hxml : xml.length ≤ 320) :
    Simulates (Mirrors I prior sid)
      (createWithParentEntity fuel oid kind xml parent : Call T σ Unit)
      (Client.askChild ending fuel oid kind xml parent) := by
  rw [createWithParentEntity_eq]
  unfold Client.askChild
  exact simulates_sendRequest hpeer fuel (requests_createWithParent oid kind parent hxml).writes

theorem simulates_publish (hpeer : Peer ending I) {M : Type} [Message M] (pub : Publisher M)
    {m : M} (hfit : writeDataPrefix sid + (bodyBytes m).length ≤ txBufSize) :
    Simulates (Mirrors I prior sid) (publish pub m : Call T σ Unit) (Client.publish pub m) := by
  intro w c h
  have hsid : w.session.sessionId = sid := h.sessionId.trans h.named
  rcases publish_run w pub m with ⟨buf, hrun⟩ | ⟨hlong, -⟩
  · rw [hsid, List.take_of_length_le (by omega)] at hrun
    have hframe : writeDataMessage w pub (bodyBytes m) = c.writeData pub.dwId (bodyBytes m) := by
      rw [writeDataMessage, Client.writeData, h.sessionId, h.clientKey, ← h.numbers]
      rfl
    have hview : (w.sending (writeDataMessage w pub (bodyBytes m)) buf).client c.incoming =
        c.saying (writeDataMessage w pub (bodyBytes m)) c.numbers.afterData := by
      rw [client_sending, h.view, h.numbers]
    obtain ⟨w₂, hwrite, hnext⟩ := h.writeFramed hpeer hview rfl
    rw [hrun, hwrite, Client.publish, run_get_bind, ← hframe]
    exact ⟨rfl, hnext⟩
  · rw [hsid] at hlong
    omega

theorem simulates_createNode (hpeer : Peer ending I) (fuel : Nat) (name : Bytes) :
    Simulates (Mirrors I prior sid) (createNode fuel name : Call T σ Node)
      (Client.createNode ending fuel name) := by
  refine (simulates_alloc .participant).bind fun participantIdx => ?_
  refine (simulates_alloc .publisher).bind fun publisherIdx => ?_
  refine (simulates_alloc .subscriber).bind fun subscriberIdx => ?_
  refine (simulates_sendRequest hpeer fuel (requests_createParticipant _
    (length_participantXml_le name)).writes).bind fun _ => ?_
  refine (simulates_askChild hpeer fuel _ _ _ (by decide)).bind fun _ => ?_
  refine (simulates_askChild hpeer fuel _ _ _ (by decide)).bind fun _ => ?_
  exact Simulates.pure _

theorem simulates_createPublisher (hpeer : Peer ending I) (M : Type) [Message M] (fuel : Nat)
    (node : Node) (topic : Bytes) :
    Simulates (Mirrors I prior sid) (createPublisher M fuel node topic : Call T σ (Publisher M))
      (Client.createPublisher ending fuel M node topic) := by
  refine simulates_ros2TopicName topic fun _ => ?_
  refine (simulates_alloc .topic).bind fun topicIdx => ?_
  refine (simulates_askChild hpeer fuel _ _ _ (length_topicXml_le _ _)).bind fun _ => ?_
  refine (simulates_alloc .datawriter).bind fun dwIdx => ?_
  refine (simulates_askChild hpeer fuel _ _ _ (length_dataWriterXml_le _ _)).bind fun _ => ?_
  exact Simulates.pure _

theorem simulates_prepareSubscription (hpeer : Peer ending I) (fuel : Nat) (node : Node)
    (topic : Bytes) (s : σ) :
    Simulates (Mirrors I prior sid) (prepareSubscription fuel node topic s : Call T σ UInt16)
      (Client.prepareSubscription ending fuel node topic s) := by
  refine simulates_ros2TopicName topic fun _ => ?_
  refine (simulates_alloc .topic).bind fun topicIdx => ?_
  refine (simulates_askChild hpeer fuel _ _ _ (length_topicXml_le _ _)).bind fun _ => ?_
  refine (simulates_alloc .datareader).bind fun drIdx => ?_
  refine (simulates_askChild hpeer fuel _ _ _ (length_dataReaderXml_le _ _)).bind fun _ => ?_
  refine (simulates_sendRequest hpeer fuel (requests_readData _).writes).bind fun _ => ?_
  exact Simulates.pure _

theorem simulates_createSubscription (hpeer : Peer ending I) (fuel : Nat) (node : Node)
    (topic : Bytes) (s : σ) :
    Simulates (Mirrors I prior sid) (createSubscription fuel node topic s : Call T σ σ)
      (Client.createSubscription ending fuel node topic s) := by
  rw [createSubscription_eq]
  refine Simulates.of_get fun w c h => ?_
  rw [h.table]
  refine Simulates.ite (fun _ => Simulates.throw _) fun _ => ?_
  exact (simulates_prepareSubscription hpeer fuel node topic s).bind (simulates_enter s)

/-- A message to be published leaves room for its headers. -/
def Op.Fits (sid : UInt8) : Op σ → Prop
  | @Op.publish _ _ _ _ _ m => writeDataPrefix sid + (bodyBytes m).length ≤ txBufSize
  | _ => True

theorem simulates_call (hpeer : Peer ending I) (fuel : Nat) {op : Op σ} (hfits : op.Fits sid) :
    Simulates (Mirrors I prior sid) (op.call fuel : Call T σ (Reply σ)) (op.act ending fuel) := by
  cases op with
  | createNode name =>
    exact (simulates_createNode hpeer fuel name).bind fun _ => Simulates.pure _
  | createPublisher M node topic =>
    exact (simulates_createPublisher hpeer M fuel node topic).bind fun _ => Simulates.pure _
  | createSubscription node topic s =>
    exact (simulates_createSubscription hpeer fuel node topic s).bind fun _ => Simulates.pure _
  | publish M pub m =>
    have hroom : writeDataPrefix sid + (bodyBytes m).length ≤ txBufSize := hfits
    exact (simulates_publish hpeer pub hroom).bind fun _ => Simulates.pure _
  | spinOnce => exact (simulates_spinOnce hpeer.feed).bind fun _ => Simulates.pure _
  | tryRecv s =>
    exact (simulates_tryRecv s).bind fun _ => Simulates.pure (Reply.done : Reply σ)

/-- The calls of a run, made at the client. -/
def acts (ending : Ending) (calls : List (Made T σ)) : List (Prog Error (Client σ) (Reply σ)) :=
  calls.map fun call => call.op.act ending call.fuel

/-- A run is what its programs give in a row. -/
theorem Runs.runAll {w₀ w : World T σ} {calls : List (Made T σ)} (h : Runs w₀ calls w) :
    Prog.runAll (calls.map fun call => call.op.call call.fuel) w₀ =
      (calls.map Made.outcome, w) := by
  induction h with
  | nil => rfl
  | @snoc calls call _ _ ih =>
    rw [List.map_append, runAll_append, ih, List.map_append]
    rfl

theorem Mirrors.run (hpeer : Peer ending I) {w₀ w : World T σ} {c₀ : Client σ}
    {calls : List (Made T σ)} (hruns : Runs w₀ calls w) (hstart : Mirrors I prior sid w₀ c₀)
    (hfits : ∀ call ∈ calls, call.op.Fits sid) :
    calls.map Made.outcome = (runAll (acts ending calls) c₀).1 ∧
      Mirrors I prior sid w (runAll (acts ending calls) c₀).2 := by
  have hcalls : List.Forall₂ (Simulates (Mirrors I prior sid))
      (calls.map fun call => call.op.call call.fuel) (acts ending calls) := by
    rw [acts, List.forall₂_map_left_iff, List.forall₂_map_right_iff, List.forall₂_same]
    exact fun call hcall => simulates_call hpeer call.fuel (hfits call hcall)
  have hall := Simulates.runAll hcalls hstart
  rw [hruns.runAll] at hall
  exact hall

/-- Whatever comes in and however it is cut into pieces, whoever runs while the session
waits, and whatever calls are made: each ends as at the client, which says the same frames
and hears the same frames, and has the same counters, ids and table, and the same bytes
still to come in. -/
theorem session_refines_client (hpeer : Peer ending I) {w₀ w : World T σ} {bs prior : Bytes}
    {calls : List (Made T σ)} (hruns : Runs w₀ calls w)
    (hwire : I bs (prior ++ stream (sentFrames w₀.history)) w₀.session.transport)
    (hfits : ∀ call ∈ calls, call.op.Fits w₀.session.sessionId) :
    ∃ c, runAll (acts ending calls) (w₀.client bs) = (calls.map Made.outcome, c) ∧
      w.client c.incoming = c ∧ I c.incoming (prior ++ stream c.said) w.session.transport := by
  have hstart : Mirrors I prior w₀.session.sessionId w₀ (w₀.client bs) := ⟨rfl, hwire, rfl⟩
  obtain ⟨houtcomes, hend⟩ := hstart.run hpeer hruns hfits
  exact ⟨_, Prod.ext houtcomes.symm rfl, hend.view, hend.wire⟩

/-- Nothing else matters to what is said: two sessions that are the same client and make the
same calls end each of them alike, say and hear the same frames, and are the same client again,
whatever is left in their buffers and inboxes, over whatever transports and beside whatever
other tasks. -/
theorem runs_alike {T' : Type} [ReadWrite T'] {I' : Bytes → Bytes → T' → Prop}
    (hpeer : Peer ending I) (hpeer' : Peer ending I') {w₀ w : World T σ} {w₀' w' : World T' σ}
    {bs prior prior' : Bytes} {calls : List (Made T σ)} {calls' : List (Made T' σ)}
    (hruns : Runs w₀ calls w) (hruns' : Runs w₀' calls' w')
    (hsame : calls.map (fun c => (c.op, c.fuel)) = calls'.map fun c => (c.op, c.fuel))
    (hclient : w₀.client bs = w₀'.client bs)
    (hwire : I bs (prior ++ stream (sentFrames w₀.history)) w₀.session.transport)
    (hwire' : I' bs (prior' ++ stream (sentFrames w₀'.history)) w₀'.session.transport)
    (hfits : ∀ call ∈ calls, call.op.Fits w₀.session.sessionId) :
    calls.map Made.outcome = calls'.map Made.outcome ∧
      ∃ rest, w.client rest = w'.client rest ∧
        I rest (prior ++ stream (sentFrames w.history)) w.session.transport ∧
        I' rest (prior' ++ stream (sentFrames w'.history)) w'.session.transport := by
  have hid : w₀.session.sessionId = w₀'.session.sessionId := congrArg Client.sessionId hclient
  have hacts : acts ending calls = acts ending calls' := by
    have hmap := congrArg (List.map fun p : Op σ × Nat => p.1.act ending p.2) hsame
    rw [List.map_map, List.map_map] at hmap
    exact hmap
  have hfits' (call : Made T' σ) (hcall : call ∈ calls') :
      call.op.Fits w₀.session.sessionId := by
    have hmem : (call.op, call.fuel) ∈ calls.map fun c => (c.op, c.fuel) :=
      hsame ▸ List.mem_map_of_mem hcall
    obtain ⟨c, hc, heq⟩ := List.mem_map.mp hmem
    have hop : c.op = call.op := congrArg Prod.fst heq
    exact hop ▸ hfits c hc
  have hstart : Mirrors I prior w₀.session.sessionId w₀ (w₀.client bs) := ⟨rfl, hwire, rfl⟩
  have hstart' : Mirrors I' prior' w₀.session.sessionId w₀' (w₀.client bs) :=
    hclient ▸ ⟨rfl, hwire', hid.symm⟩
  obtain ⟨houtcomes, hend⟩ := hstart.run hpeer hruns hfits
  obtain ⟨houtcomes', hend'⟩ := hstart'.run hpeer' hruns' hfits'
  rw [← hacts] at houtcomes' hend'
  have hsaid : sentFrames w.history = _ := congrArg Client.said hend.view
  have hsaid' : sentFrames w'.history = _ := congrArg Client.said hend'.view
  rw [hsaid, hsaid']
  exact ⟨houtcomes.trans houtcomes'.symm, _, hend.view.trans hend'.view.symm, hend.wire, hend'.wire⟩

end

end

/-- The node that the agent rejects, and the sample published all the same. -/
theorem rejected_node_refines : letI := rp2040 true
    ∃ c : Client Unit, runAll (acts .silent [rejectedNode, publishedAfter])
        ((answering [statusFrame 1 0x83]).client (stream [statusFrame 1 0x83])) =
          ([.err (.agentRejected 0x83), .ok .done], c) ∧
      publishedAfter.after.client c.incoming = c ∧
      publishedAfter.after.session.transport.outgoing = stream c.said := by
  have houtcomes : letI := rp2040 true
      rejectedNode.outcome = .err (.agentRejected 0x83) ∧ publishedAfter.outcome = .ok .done := by
    decide +kernel
  have hfits : letI := rp2040 true
      (publishedAfter.op).Fits 0x81 := by
    change letI := rp2040 true
      writeDataPrefix 0x81 + (bodyBytes (⟨0⟩ : Float32)).length ≤ txBufSize
    decide +kernel
  generalize rp2040 true = target at houtcomes hfits ⊢
  have hruns : Runs (answering [statusFrame 1 0x83]) [rejectedNode, publishedAfter]
      publishedAfter.after := by
    refine Runs.pair publishedAfter_before ?_
    rw [houtcomes.1]
    intro h
    cases h
  have hwire : (answering [statusFrame 1 0x83]).session.transport.incoming =
      stream [statusFrame 1 0x83] ∧
      (answering [statusFrame 1 0x83]).session.transport.outgoing = [] ++ stream [] := ⟨rfl, rfl⟩
  obtain ⟨c, hrun, hview, hin, hout⟩ := session_refines_client Wire.peer hruns hwire (by
    intro call hcall
    rcases List.mem_pair.mp hcall with rfl | rfl
    · trivial
    · exact hfits)
  refine ⟨c, ?_, hview, hout⟩
  rw [hrun, ← houtcomes.1, ← houtcomes.2]
  rfl

/-- The same node over a wire that gives a few bytes at a time, with an older frame still in the
buffer. -/
def rejectedInPieces [Target] : Made Wire Unit :=
  ⟨.createNode (ascii "n"), 4,
    (start ⟨stream [statusFrame 1 0x83], [], [0, 2, 0, 5]⟩ 0x81 ⟨0, 0, 0, 0⟩ []).setRxBuf
      (Buffer.replicate rxBufSize 0xFF)⟩

theorem rejected_alike_in_pieces : letI := rp2040 true
    [rejectedNode.outcome] = [rejectedInPieces.outcome] ∧
      ∃ rest, rejectedNode.after.client rest = rejectedInPieces.after.client rest ∧
        (rejectedNode.after.session.transport.incoming = rest ∧
          rejectedNode.after.session.transport.outgoing =
            [] ++ stream (sentFrames rejectedNode.after.history)) ∧
        rejectedInPieces.after.session.transport.incoming = rest ∧
          rejectedInPieces.after.session.transport.outgoing =
            [] ++ stream (sentFrames rejectedInPieces.after.history) := by
  generalize rp2040 true = target
  have hwire : rejectedNode.before.session.transport.incoming = stream [statusFrame 1 0x83] ∧
      rejectedNode.before.session.transport.outgoing = [] ++ stream [] := ⟨rfl, rfl⟩
  have hwire' : rejectedInPieces.before.session.transport.incoming =
      stream [statusFrame 1 0x83] ∧
      rejectedInPieces.before.session.transport.outgoing = [] ++ stream [] := ⟨rfl, rfl⟩
  refine runs_alike Wire.peer Wire.peer (Runs.single rejectedNode) (Runs.single rejectedInPieces)
    rfl rfl hwire hwire' ?_
  intro call hcall
  rw [List.mem_singleton.mp hcall]
  trivial

end MicroXrceDds
