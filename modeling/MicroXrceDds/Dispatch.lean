import MicroXrceDds.Router
import MicroXrceDds.Suspension

/-!
# The session follows the router

The two places that take a frame apart, `dispatch_frame` and the loop that waits for a
STATUS, read the same submessage, and what they do to the slots is what the router
does. Every other function of the session changes them only as its events say.
-/
namespace MicroXrceDds

open Prog Session

variable {T σ : Type} [Statics σ]

/-- The routing state of a world. -/
def World.router (w : World T σ) : Router σ where
  sessionId := w.session.sessionId
  nextIdx := w.session.nextIdx
  slots := w.slots
  table := w.session.subscriptions

/-- The world with the slots of a router. -/
def World.withSlots (slots : Slots σ) (w : World T σ) : World T σ := { w with slots := slots }

@[simp] theorem World.withSlots_slots (w : World T σ) : w.withSlots w.slots = w := rfl

theorem submessageOf_short {sessionId : UInt8} {msg : Bytes}
    (h : msg.length < msgHeaderLen sessionId + 4) : submessageOf sessionId msg = none := by
  have hlen : (msg.drop (msgHeaderLen sessionId)).length < 4 := by
    rw [List.length_drop]
    omega
  unfold submessageOf
  split
  · next hd =>
    rw [hd] at hlen
    simp only [List.length_cons] at hlen
    omega
  · rfl

/-- The bytes that both computations index and slice. -/
theorem submessageOf_long {sessionId : UInt8} {msg : Bytes}
    (h : msgHeaderLen sessionId + 4 ≤ msg.length) :
    submessageOf sessionId msg = some (msg[msgHeaderLen sessionId],
      (msg.drop (msgHeaderLen sessionId + 4)).take
        (u16FromLe msg[msgHeaderLen sessionId + 2] msg[msgHeaderLen sessionId + 3]).toNat) := by
  have hdrop : msg.drop (msgHeaderLen sessionId) = msg[msgHeaderLen sessionId] ::
      msg[msgHeaderLen sessionId + 1] :: msg[msgHeaderLen sessionId + 2] ::
      msg[msgHeaderLen sessionId + 3] :: msg.drop (msgHeaderLen sessionId + 4) := by
    rw [List.drop_eq_getElem_cons (by omega), List.drop_eq_getElem_cons (by omega),
      List.drop_eq_getElem_cons (by omega), List.drop_eq_getElem_cons (by omega)]
  simp only [submessageOf, hdrop]

theorem dispatchFrame_eq (msg : Bytes) (sessionId : UInt8) (subs : List σ) :
    (dispatchFrame msg sessionId subs : Call T σ Unit) =
      match submessageOf sessionId msg with
      | some (id, payload) => if id = submsgData then dispatchDataPayload payload subs else pure ()
      | none => pure () := by
  by_cases hshort : msg.length < msgHeaderLen sessionId + 4
  · rw [submessageOf_short hshort]
    simp only [dispatchFrame, if_pos hshort]
  · have hlong : msgHeaderLen sessionId + 4 ≤ msg.length := Nat.le_of_not_lt hshort
    rw [submessageOf_long hlong]
    simp only [dispatchFrame, if_neg hshort]
    rw [index_of_lt (by omega), index_of_lt (by omega), index_of_lt (by omega), pure_bind, pure_bind,
      pure_bind, slice_of_le (by omega) (Nat.min_le_right _ _), pure_bind]
    have hcut : (msg.drop (msgHeaderLen sessionId + 4)).take
        (min (msgHeaderLen sessionId + 4 + (u16FromLe msg[msgHeaderLen sessionId + 2]
          msg[msgHeaderLen sessionId + 3]).toNat) msg.length - (msgHeaderLen sessionId + 4)) =
        (msg.drop (msgHeaderLen sessionId + 4)).take (u16FromLe msg[msgHeaderLen sessionId + 2]
          msg[msgHeaderLen sessionId + 3]).toNat := by
      rw [List.take_eq_take_iff, List.length_drop]
      omega
    rw [hcut]

/-- What the loop that waits for a STATUS does with a frame. -/
def waitFrame (w : World T σ) (expectedReq : UInt16) (msg : Bytes) : Call T σ Bool :=
  match submessageOf w.session.sessionId msg with
  | some (id, payload) =>
    if id = submsgStatus then do
      parseStatusPayload payload expectedReq
      pure true
    else if id = submsgData then do
      dispatchDataPayload payload w.session.subscriptions.items
      pure false
    else pure false
  | none => throw .unexpectedReply

section
variable [ReadWrite T]

/-- Read a frame and go on with it. -/
def withFrame {α : Type} (k : World T σ → Bytes → Call T σ α) : Call T σ α := do
  let len ← readOneFrame
  let w ← get
  let msg ← slice w.session.rxBuf.cells 0 len
  k w msg

theorem spinOnce_eq : (spinOnce : Call T σ Unit) = withFrame fun w msg =>
    dispatchFrame msg w.session.sessionId w.session.subscriptions.items := rfl

theorem waitTurn_eq [Target] (expectedReq : UInt16) :
    (waitTurn expectedReq : Call T σ Bool) = withFrame fun w => waitFrame w expectedReq := by
  unfold waitTurn withFrame
  congr 1
  funext len
  congr 1
  funext w
  congr 1
  funext msg
  by_cases hshort : msg.length < msgHeaderLen w.session.sessionId + 4
  · simp only [waitFrame, submessageOf_short hshort, if_pos hshort]
  · have hlong : msgHeaderLen w.session.sessionId + 4 ≤ msg.length := Nat.le_of_not_lt hshort
    have hcut (len : Nat) : (msg.drop (msgHeaderLen w.session.sessionId + 4)).take
        (min len (msg.length - msgHeaderLen w.session.sessionId - 4)) =
        (msg.drop (msgHeaderLen w.session.sessionId + 4)).take len := by
      rw [List.take_eq_take_iff, List.length_drop]
      omega
    simp only [waitFrame, submessageOf_long hlong, if_neg hshort]
    rw [index_of_lt (by omega), index_of_lt (by omega), index_of_lt (by omega), pure_bind,
      pure_bind, pure_bind, usizeSub_of_le (by omega), pure_bind, usizeSub_of_le (by omega),
      pure_bind, slice_of_le (by omega) (by omega), pure_bind, Nat.add_sub_cancel_left, hcut]

end

theorem trySend_run {M : Type} {N : Nat} (v : M) (sub : Subscription M N) :
    (Subscription.trySend v).run sub =
      match sub.inbox.push v with
      | some inbox => (.ok (), { sub with inbox := inbox })
      | none => (.err .subscriptionOverflow, sub) := by
  rw [Subscription.trySend, run_get_bind]
  cases sub.inbox.push v <;> rfl

theorem tryDeliver_state {M : Type} [Message M] {N : Nat} (body : Bytes) (sub : Subscription M N) :
    ((ignoreErr (Subscription.tryDeliver body)).run sub).2 = sub.deliver body := by
  unfold ignoreErr Subscription.tryDeliver Subscription.deliver
  cases hdec : Subscription.decode M body with
  | ok v =>
    have hsend : (Prog.ofOutcome (.ok v) >>= Subscription.trySend :
        Prog Error (Subscription M N) Unit) = Subscription.trySend v := rfl
    simp only [hsend, trySend_run]
    cases sub.inbox.push v <;> rfl
  | _ => rfl

theorem deliverTo_state (s : σ) (body : Bytes) (w : World T σ) :
    ((deliverTo s body).run w).2 = w.setSlot s ((w.slots s).deliver body) := by
  rw [deliverTo, run_zoom, tryDeliver_state]

theorem deliverFirst_state (id : UInt16) (body : Bytes) (subs : List σ) (w : World T σ) :
    ((deliverFirst id body subs).run w).2 =
      match subs.find? fun s => (w.slots s).drId == id with
      | some s => w.setSlot s ((w.slots s).deliver body)
      | none => w := by
  induction subs with
  | nil => rfl
  | cons s subs ih =>
    rw [deliverFirst, run_get_bind]
    by_cases h : (w.slots s).drId = id
    · rw [if_pos h, List.find?_cons_of_pos (by simpa using h), deliverTo_state]
    · rw [if_neg h, List.find?_cons_of_neg (by simpa using h), ih]

theorem dispatchDataPayload_eq (payload : Bytes) (subs : List σ) :
    (dispatchDataPayload payload subs : Call T σ Unit) =
      match sampleOf payload with
      | some (id, body) => deliverFirst id body subs
      | none => pure () := by
  rcases payload with _ | ⟨a, _ | ⟨b, _ | ⟨hi, _ | ⟨lo, body⟩⟩⟩⟩
  · rfl
  · rfl
  · rfl
  · rfl
  · have hlen : (a :: b :: hi :: lo :: body).length = body.length + 4 := rfl
    have hrest : (body.take (body.length + 4 - 4)) = body := List.take_of_length_le (by omega)
    simp only [dispatchDataPayload, sampleOf]
    rw [if_neg (by omega), slice_of_le (by omega) (Nat.le_refl _), index_of_lt (by omega),
      index_of_lt (by omega), pure_bind, pure_bind, pure_bind]
    change deliverFirst (u16FromBe hi lo) (body.take (body.length + 4 - 4)) subs = _
    rw [hrest]

/-- Delivery changes the slots as the router does, and nothing else. -/
theorem deliver_state (id : UInt16) (body : Bytes) (w : World T σ) :
    ((deliverFirst id body w.session.subscriptions.items).run w).2 =
      w.withSlots (w.router.deliver id body).slots := by
  have htarget : (w.session.subscriptions.items.find? fun s => (w.slots s).drId == id) =
      w.router.target id := rfl
  rw [deliverFirst_state, htarget, Router.deliver]
  cases w.router.target id <;> rfl

theorem dispatchDataPayload_state (payload : Bytes) (w : World T σ) :
    ((dispatchDataPayload payload w.session.subscriptions.items).run w).2 =
      match sampleOf payload with
      | some (id, body) => w.withSlots (w.router.deliver id body).slots
      | none => w := by
  rw [dispatchDataPayload_eq]
  cases sampleOf payload with
  | none => rfl
  | some sample => exact deliver_state sample.1 sample.2 w

/-- Routing by cases on the submessage. -/
theorem withSlots_route (msg : Bytes) (w : World T σ) :
    w.withSlots (w.router.route msg).slots =
      match submessageOf w.session.sessionId msg with
      | some (id, payload) => if id = submsgData then
          ((dispatchDataPayload payload w.session.subscriptions.items).run w).2 else w
      | none => w := by
  have hid : w.router.sessionId = w.session.sessionId := rfl
  rw [Router.route, dataOf, hid]
  cases submessageOf w.session.sessionId msg with
  | none => rfl
  | some sub =>
    by_cases hdata : sub.1 = submsgData
    · simp only [if_pos hdata, dispatchDataPayload_state]
      cases sampleOf sub.2 <;> rfl
    · simp only [if_neg hdata]
      rfl

theorem dispatchFrame_state (msg : Bytes) (w : World T σ) :
    ((dispatchFrame msg w.session.sessionId w.session.subscriptions.items).run w).2 =
      w.withSlots (w.router.route msg).slots := by
  rw [dispatchFrame_eq, withSlots_route]
  cases submessageOf w.session.sessionId msg with
  | none => rfl
  | some sub =>
    obtain ⟨id, payload⟩ := sub
    by_cases hdata : id = submsgData
    · simp only [if_pos hdata]
    · simp only [if_neg hdata]
      rfl

/-- Dispatching reports no error. -/
theorem dispatchDataPayload_ne_err (payload : Bytes) (subs : List σ) (w : World T σ)
    (e : Error) : ((dispatchDataPayload payload subs).run w).1 ≠ .err e := by
  have hdeliver (s : σ) (body : Bytes) : ((deliverTo s body).run w).1 ≠ .err e := by
    simp only [deliverTo, run_zoom, ignoreErr]
    cases ((Subscription.tryDeliver body).run (w.slots s)) with
    | mk o sub => cases o <;> simp
  have hfirst (id : UInt16) (body : Bytes) (subs : List σ) :
      ((deliverFirst id body subs).run w).1 ≠ .err e := by
    induction subs with
    | nil => simp [deliverFirst]
    | cons s subs ih =>
      rw [deliverFirst, run_get_bind]
      split
      · exact hdeliver s body
      · exact ih
  rw [dispatchDataPayload_eq]
  cases sampleOf payload with
  | none => simp
  | some sample => exact hfirst sample.1 sample.2 subs

theorem dispatchFrame_ne_err (msg : Bytes) (w : World T σ) (e : Error) :
    ((dispatchFrame msg w.session.sessionId w.session.subscriptions.items).run w).1 ≠ .err e := by
  rw [dispatchFrame_eq]
  split
  · split
    · exact dispatchDataPayload_ne_err _ _ w e
    · intro h
      cases h
  · intro h
    cases h

/-- The request id and the status of a STATUS payload. -/
def statusOf : Bytes → Option (UInt16 × UInt8)
  | hi :: lo :: _ :: _ :: status :: _ :: _ => some (u16FromBe hi lo, status)
  | _ => none

/-- The two status codes that `parse_status_payload` accepts. -/
def Grants (status : UInt8) : Prop := status = statusOk ∨ status = statusOkMatched

instance (status : UInt8) : Decidable (Grants status) := inferInstanceAs (Decidable (_ ∨ _))

theorem parseStatusPayload_eq (payload : Bytes) (expectedReq : UInt16) :
    (parseStatusPayload payload expectedReq : Call T σ Unit) =
      match statusOf payload with
      | some (req, status) =>
        if req ≠ expectedReq then throw .statusReqMismatch
        else if status ≠ statusOk ∧ status ≠ statusOkMatched then throw (.agentRejected status)
        else pure ()
      | none => throw .unexpectedReply := by
  rcases payload with _ | ⟨hi, _ | ⟨lo, _ | ⟨a, _ | ⟨b, _ | ⟨status, _ | ⟨c, rest⟩⟩⟩⟩⟩⟩
  · rfl
  · rfl
  · rfl
  · rfl
  · rfl
  · rfl
  · have hlen : (hi :: lo :: a :: b :: status :: c :: rest).length = rest.length + 6 := rfl
    simp only [parseStatusPayload, statusOf]
    rw [if_neg (by omega), index_of_lt (by omega), index_of_lt (by omega), index_of_lt (by omega),
      pure_bind, pure_bind, pure_bind]
    rfl

/-- The frame is a STATUS that grants the request. -/
def GrantsRequest (sessionId : UInt8) (req : UInt16) (frame : Bytes) : Prop :=
  ∃ payload status, submessageOf sessionId frame = some (submsgStatus, payload) ∧
    statusOf payload = some (req, status) ∧ Grants status

theorem parseStatusPayload_ok {payload : Bytes} {req : UInt16} {w : World T σ}
    (h : ((parseStatusPayload payload req : Call T σ Unit).run w).1 = .ok ()) :
    ∃ status, statusOf payload = some (req, status) ∧ Grants status := by
  rw [parseStatusPayload_eq] at h
  cases hstatus : statusOf payload with
  | none =>
    rw [hstatus] at h
    cases h
  | some st =>
    obtain ⟨req', status⟩ := st
    rw [hstatus] at h
    by_cases hreq : req' = req
    · subst hreq
      refine ⟨status, rfl, ?_⟩
      by_contra hbad
      simp only [ne_eq, not_true_eq_false, if_false, if_pos (not_or.mp hbad)] at h
      cases h
    · simp only [ne_eq, hreq, not_false_eq_true, if_true] at h
      cases h

/-- The loop stops at a STATUS that grants the request, and goes on at anything that is no
STATUS. -/
theorem waitFrame_ok {w : World T σ} {req : UInt16} {msg : Bytes} {done : Bool}
    (h : ((waitFrame w req msg : Call T σ Bool).run w).1 = .ok done) :
    if done then GrantsRequest w.session.sessionId req msg
    else ∀ payload, submessageOf w.session.sessionId msg ≠ some (submsgStatus, payload) := by
  unfold waitFrame at h
  cases hmsg : submessageOf w.session.sessionId msg with
  | none =>
    rw [hmsg] at h
    cases h
  | some sub =>
    obtain ⟨id, payload⟩ := sub
    rw [hmsg] at h
    by_cases hid : id = submsgStatus
    · subst hid
      simp only [if_pos] at h
      obtain ⟨_, w₁, hparse, hdone⟩ := bind_eq_ok (Prod.ext h rfl)
      obtain ⟨status, hstatus, hgrants⟩ := parseStatusPayload_ok (congrArg Prod.fst hparse)
      obtain rfl : true = done := Outcome.ok.inj (congrArg Prod.fst hdone)
      exact ⟨payload, status, hmsg, hstatus, hgrants⟩
    · have hnot : ∀ payload', some (id, payload) ≠ some (submsgStatus, payload') := by
        intro payload' heq
        exact hid (congrArg Prod.fst (Option.some.inj heq))
      have hdone : done = false := by
        simp only [if_neg hid] at h
        split at h
        · obtain ⟨_, w₁, -, hdone⟩ := bind_eq_ok (Prod.ext h rfl)
          exact (Outcome.ok.inj (congrArg Prod.fst hdone)).symm
        · exact (Outcome.ok.inj h).symm
      rw [hdone]
      exact hnot

/-- A STATUS for the request that is waited for. -/
theorem waitFrame_status {w : World T σ} {msg payload : Bytes} {req : UInt16} {status : UInt8}
    (hmsg : submessageOf w.session.sessionId msg = some (submsgStatus, payload))
    (hpayload : statusOf payload = some (req, status)) :
    (waitFrame w req msg : Call T σ Bool) =
      if status ≠ statusOk ∧ status ≠ statusOkMatched then
        (Prog.throw (.agentRejected status) : Call T σ Bool)
      else pure true := by
  simp only [waitFrame, hmsg, if_pos, parseStatusPayload_eq, hpayload, ne_eq, not_true_eq_false,
    if_false]
  split <;> rfl

theorem parseStatusPayload_state (payload : Bytes) (expectedReq : UInt16) (w : World T σ) :
    ((parseStatusPayload payload expectedReq).run w).2 = w := by
  rw [parseStatusPayload_eq]
  cases statusOf payload with
  | none => rfl
  | some st =>
    simp only
    split
    · rfl
    · split <;> rfl

theorem waitFrame_state (msg : Bytes) (w : World T σ) (expectedReq : UInt16) :
    ((waitFrame w expectedReq msg).run w).2 = w.withSlots (w.router.route msg).slots := by
  rw [waitFrame, withSlots_route]
  cases submessageOf w.session.sessionId msg with
  | none => rfl
  | some sub =>
    obtain ⟨id, payload⟩ := sub
    by_cases hstatus : id = submsgStatus
    · have hdata : id ≠ submsgData := by
        rw [hstatus]
        decide
      simp only [if_pos hstatus, if_neg hdata]
      rw [state_map, parseStatusPayload_state]
    · by_cases hdata : id = submsgData
      · simp only [if_neg hstatus, if_pos hdata]
        rw [state_map]
      · simp only [if_neg hstatus, if_neg hdata]
        rfl

/-- What a frame says of the client that has just introduced itself. The length field of the
submessage is not looked at. -/
def agentVerdict (sessionId : UInt8) (frame : Bytes) : Outcome Error Unit :=
  match frame.drop (msgHeaderLen sessionId) with
  | id :: _ :: _ :: _ :: status :: _ :: _ =>
    if id ≠ submsgStatusAgent then .err .unexpectedReply
    else if status ≠ statusOk then .err (.agentRejected status)
    else .ok ()
  | _ => .err .unexpectedReply

theorem parseStatusAgent_verdict {S : Type} (msg : Bytes) (sessionId : UInt8) (s : S) :
    (parseStatusAgent msg sessionId).run s = (agentVerdict sessionId msg, s) := by
  rw [parseStatusAgent, agentVerdict]
  by_cases hshort : msg.length < msgHeaderLen sessionId + 4 + 2
  · rw [if_pos hshort]
    have hlen : (msg.drop (msgHeaderLen sessionId)).length < 6 := by
      rw [List.length_drop]
      omega
    generalize msg.drop (msgHeaderLen sessionId) = rest at hlen ⊢
    match rest, hlen with
    | [], _ | [_], _ | [_, _], _ | [_, _, _], _ | [_, _, _, _], _ | [_, _, _, _, _], _ => rfl
  · have hdrop : msg.drop (msgHeaderLen sessionId) = msg[msgHeaderLen sessionId] ::
        msg[msgHeaderLen sessionId + 1] :: msg[msgHeaderLen sessionId + 2] ::
        msg[msgHeaderLen sessionId + 3] :: msg[msgHeaderLen sessionId + 4] ::
        msg[msgHeaderLen sessionId + 5] :: msg.drop (msgHeaderLen sessionId + 6) := by
      rw [List.drop_eq_getElem_cons (by omega), List.drop_eq_getElem_cons (by omega),
        List.drop_eq_getElem_cons (by omega), List.drop_eq_getElem_cons (by omega),
        List.drop_eq_getElem_cons (by omega), List.drop_eq_getElem_cons (by omega)]
    have hpayload : ((msg.drop (msgHeaderLen sessionId + 4)).take
        (msg.length - (msgHeaderLen sessionId + 4)))[0]? = some msg[msgHeaderLen sessionId + 4] := by
      rw [List.take_of_length_le (by rw [List.length_drop]), List.getElem?_drop,
        List.getElem?_eq_getElem]
    rw [hdrop, if_neg hshort, index_of_lt (by omega), pure_bind]
    simp only
    by_cases hid : msg[msgHeaderLen sessionId] ≠ submsgStatusAgent
    · rw [if_pos hid, if_pos hid]
      rfl
    · rw [if_neg hid, if_neg hid, slice_of_le (by omega) (Nat.le_refl _), pure_bind, index, hpayload]
      simp only [pure_bind]
      split <;> rfl

end MicroXrceDds
