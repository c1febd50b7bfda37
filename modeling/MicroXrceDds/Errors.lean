import MicroXrceDds.Composition
import MicroXrceDds.Delivery
import MicroXrceDds.Run

/-!
# Which errors a call returns

The errors that each call of the API can return, over any transport and in any world. What
goes wrong with a sample on its way to a slot is not among them, nor is a message that does
not fit, and a rejection always carries a status that grants nothing.
-/
namespace MicroXrceDds

open Prog Session

variable {T σ : Type}

/-- The transport has failed, or the far end is gone. -/
def Error.OfLink (e : Error) : Prop := e = .io ∨ e = .disconnected

/-- No whole frame that fits has come in. -/
def Error.OfReading (e : Error) : Prop := e.OfLink ∨ e = .bufferTooSmall

/-- A request has not been granted. -/
def Error.OfRequest (e : Error) : Prop :=
  e.OfReading ∨ e = .unexpectedReply ∨ e = .statusReqMismatch ∨
    ∃ status, ¬ Grants status ∧ e = .agentRejected status

/-- A client has not been let in: `connect` waits for no request that could be mistaken. -/
def Error.OfConnect (e : Error) : Prop :=
  e.OfReading ∨ e = .unexpectedReply ∨ ∃ status, status ≠ statusOk ∧ e = .agentRejected status

theorem Error.OfLink.reading {e : Error} (h : e.OfLink) : e.OfReading := .inl h

theorem Error.OfLink.request {e : Error} (h : e.OfLink) : e.OfRequest := .inl h.reading

theorem mapIo_errors {S α : Type} (p : Prog Unit S α) : Raises Error.OfLink (mapIo p) := by
  intro s e h
  simp only [mapIo] at h
  cases hrun : p.run s with
  | mk o s' =>
    rw [hrun] at h
    cases o with
    | err u =>
      cases h
      exact .inl rfl
    | _ => cases h

section
variable {S : Type} [ReadWrite S]

theorem writeLoop_errors (fuel : Nat) (buf : Bytes) :
    Raises Error.OfLink (Framing.writeLoop fuel buf : Prog Error S Unit) := by
  induction fuel generalizing buf with
  | zero =>
    cases buf with
    | nil => exact .pure ()
    | cons b buf => exact .pending
  | succ fuel ih =>
    cases buf with
    | nil => exact .pure ()
    | cons b buf =>
      refine .bind (mapIo_errors _) fun accepted => ?_
      cases accepted with
      | zero => exact .throw (.inr rfl)
      | succ k =>
        simp only
        split
        · exact ih _
        · exact .panic

theorem writeFramed_errors (payload : Bytes) :
    Raises Error.OfLink (Framing.writeFramed payload : Prog Error S Unit) :=
  .bind (writeLoop_errors _ _) fun _ => .bind (writeLoop_errors _ _) fun _ => mapIo_errors _

theorem readLoop_errors (fuel left : Nat) :
    Raises Error.OfLink (Framing.readLoop fuel left : Prog Error S Bytes) := by
  induction fuel generalizing left with
  | zero =>
    cases left with
    | zero => exact .pure []
    | succ left => exact .pending
  | succ fuel ih =>
    cases left with
    | zero => exact .pure []
    | succ left =>
      refine .bind (mapIo_errors _) fun got => ?_
      cases got with
      | nil => exact .throw (.inr rfl)
      | cons b bs =>
        simp only
        split
        · exact .bind (ih _) fun rest => .pure _
        · exact .panic

theorem readFramed_errors (bufLen : Nat) :
    Raises Error.OfReading (Framing.readFramed bufLen : Prog Error S Bytes) := by
  refine .bind ((readLoop_errors _ _).mono fun _ h => h.reading) fun lenBuf => ?_
  simp only
  split
  · exact .throw (.inr rfl)
  · exact (readLoop_errors _ _).mono fun _ h => h.reading

end

theorem agentVerdict_errors {sessionId : UInt8} {frame : Bytes} {e : Error}
    (h : agentVerdict sessionId frame = .err e) : e.OfConnect := by
  rw [agentVerdict] at h
  split at h
  · split at h
    · cases h
      exact .inr (.inl rfl)
    · split at h
      · next hbad =>
        cases h
        exact .inr (.inr ⟨_, hbad, rfl⟩)
      · cases h
  · cases h
    exact .inr (.inl rfl)

theorem connect_errors [Target] [ReadWrite T] (sessionId : UInt8) (key : ClientKey) :
    Raises Error.OfConnect (connect sessionId key : Prog Error T (Session T σ)) := by
  rw [connect_eq]
  refine .bind ((writeFramed_errors _).mono fun _ h => .inl h.reading) fun _ => ?_
  refine .bind ((readFramed_errors _).mono fun _ h => .inl h) fun reply => ?_
  refine .bind (fun t e h => ?_) fun _ => .bind .get fun t => .pure _
  rw [parseStatusAgent_verdict] at h
  exact agentVerdict_errors h

variable [Statics σ]

section
variable [ReadWrite T]

/-- A frame that is read and handled. -/
theorem withFrame_errors {E : Error → Prop} (hreading : ∀ e, Error.OfReading e → E e) {α : Type}
    {k : World T σ → Bytes → Call T σ α} (hk : ∀ w msg, Raises E (k w msg)) :
    Raises E (withFrame k : Call T σ α) := by
  unfold withFrame
  rw [readOneFrame_eq]
  refine .bind (.bind ((readFramed_errors _).mono hreading) fun bytes => ?_) fun len => ?_
  · exact .bind (.modify _) fun _ => .pure _
  · exact .bind .get fun w => .bind (.slice _ _ _) fun msg => hk w msg

/-- Whatever becomes of a frame is only logged. -/
theorem spinOnce_errors : Raises Error.OfReading (spinOnce : Call T σ Unit) := by
  rw [spinOnce_eq]
  refine withFrame_errors (fun _ h => h) fun w msg => ?_
  rw [dispatchFrame_eq]
  split
  · split
    · exact fun w' e h => absurd h (dispatchDataPayload_ne_err _ _ w' e)
    · exact .pure ()
  · exact .pure ()

end

theorem parseStatusPayload_errors (payload : Bytes) (req : UInt16) :
    Raises Error.OfRequest (parseStatusPayload payload req : Call T σ Unit) := by
  rw [parseStatusPayload_eq]
  split
  · next req' status _ =>
    split
    · exact .throw (.inr (.inr (.inl rfl)))
    · split
      · next hbad => exact .throw (.inr (.inr (.inr ⟨status, not_or.mpr hbad, rfl⟩)))
      · exact .pure ()
  · exact .throw (.inr (.inl rfl))

theorem waitFrame_errors (w : World T σ) (req : UInt16) (msg : Bytes) :
    Raises Error.OfRequest (waitFrame w req msg : Call T σ Bool) := by
  unfold waitFrame
  split
  · split
    · exact .bind (parseStatusPayload_errors _ _) fun _ => .pure true
    · split
      · refine .bind (fun w' e h => absurd h (dispatchDataPayload_ne_err _ _ w' e)) fun _ => ?_
        exact .pure false
      · exact .pure false
  · exact .throw (.inr (.inl rfl))

theorem alloc_errors [Target] {E : Error → Prop} (kind : EntityKind) :
    Raises E (alloc kind : Call T σ UInt16) := by
  intro w e h
  rcases alloc_cases kind w with hrun | ⟨hrun, -⟩ <;> rw [hrun] at h <;> cases h

theorem enter_errors (s : σ) (drOid : UInt16) :
    Raises (· = .tooManySubscriptions) (enter s drOid : Call T σ σ) := by
  have hpush : Raises (· = .tooManySubscriptions) (pushSubscription s : Call T σ Unit) := by
    refine .bind .get fun w => ?_
    split
    · exact .throw rfl
    · exact .modify _
  exact .bind (.modify _) fun _ => .bind hpush fun _ => .pure s

/-- A topic name that is too long. -/
theorem ros2TopicName_errors (topic : Bytes) :
    Raises Error.OfReading (ros2TopicName topicNameMax topic : Call T σ Bytes) := by
  rw [ros2TopicName_eq]
  split
  · exact .pure _
  · exact .throw (.inr rfl)

section
variable [Target] [ReadWrite T]

theorem waitStatusFor_errors (fuel : Nat) (req : UInt16) :
    Raises Error.OfRequest (waitStatusFor fuel req : Call T σ Unit) := by
  induction fuel with
  | zero => exact .pending
  | succ fuel ih =>
    rw [waitStatusFor, waitTurn_eq]
    refine .bind (withFrame_errors (fun _ => .inl) fun w msg => waitFrame_errors w req msg)
      fun done => ?_
    cases done with
    | true => exact .pure ()
    | false => exact ih

theorem sendRequest_errors (fuel : Nat) {enc : Encoder} {id flags : UInt8}
    {payload : UInt16 → Bytes} (henc : enc.Writes id flags payload) :
    Raises Error.OfRequest (sendRequest fuel enc : Call T σ Unit) := by
  intro w e h
  obtain ⟨buf, -, hrun⟩ := sendRequest_run w fuel henc
  rw [hrun] at h
  refine Raises.bind ((writeFramed_errors _).mono fun _ h => h.request) (fun _ => ?_) _ e h
  exact waitStatusFor_errors fuel _

/-- The steps of a creating call. -/
theorem composes_raises {E : Error → Prop} (hE : ∀ e, Error.OfRequest e → E e) :
    Composes (T := T) (σ := σ) fun _ p => Raises E p where
  pure := .pure
  bind := .bind
  alloc := alloc_errors
  topicName topic := (ros2TopicName_errors topic).mono fun e h => hE e (.inl h)
  participant fuel idx xml hxml := by
    rw [createParticipantEntity_eq]
    exact (sendRequest_errors fuel (requests_createParticipant _ hxml).writes).mono hE
  child fuel oid kind xml parent hxml := by
    rw [createWithParentEntity_eq]
    exact (sendRequest_errors fuel (requests_createWithParent oid kind parent hxml).writes).mono hE
  readData fuel oid := by
    rw [sendReadData_eq]
    exact (sendRequest_errors fuel (requests_readData oid).writes).mono hE

theorem prepareSubscription_errors (fuel : Nat) (node : Node) (topic : Bytes) (s : σ) :
    Raises Error.OfRequest (prepareSubscription fuel node topic s : Call T σ UInt16) :=
  (composes_raises fun _ h => h).prepareSubscription fuel node topic s

theorem createSubscription_errors (fuel : Nat) (node : Node) (topic : Bytes) (s : σ) :
    Raises (fun e => e.OfRequest ∨ e = .tooManySubscriptions)
      (createSubscription fuel node topic s : Call T σ σ) :=
  (composes_raises fun _ => .inl).createSubscription .get (.throw (.inr rfl))
    (fun s drOid => (enter_errors s drOid).mono fun _ => .inr) fuel node topic s

theorem publish_errors {M : Type} [Message M] (pub : Publisher M) (m : M) :
    Raises Error.OfLink (publish pub m : Call T σ Unit) := by
  intro w e h
  rcases publish_cases w pub m with ⟨body, buf, -, hsent⟩ | ⟨buf, hpanic⟩
  · rw [hsent] at h
    exact writeFramed_errors _ _ e h
  · rw [hpanic] at h
    cases h

/-- The errors that a call may return. -/
def Op.Errs : Op σ → Error → Prop
  | .createNode _ => Error.OfRequest
  | @Op.createPublisher _ _ _ _ _ _ => Error.OfRequest
  | .createSubscription _ _ _ => fun e => e.OfRequest ∨ e = .tooManySubscriptions
  | @Op.publish _ _ _ _ _ _ => Error.OfLink
  | .spinOnce => Error.OfReading
  | .tryRecv _ => fun _ => False

/-- No call returns any other error, in whatever world it is made and however the transport
and the far end behave. -/
theorem call_errors :
    (∀ (fuel : Nat) (op : Op σ), Raises op.Errs (op.call fuel : Call T σ (Reply σ))) ∧
      ∀ sessionId key,
        Raises Error.OfConnect (connect sessionId key : Prog Error T (Session T σ)) := by
  refine ⟨fun fuel op => ?_, connect_errors⟩
  have hreply {α : Type} {E : Error → Prop} {p : Call T σ α} (hp : Raises E p) (f : α → Reply σ) :
      Raises E (p >>= fun a => pure (f a)) := .bind hp fun a => .pure (f a)
  cases op with
  | createNode name => exact hreply ((composes_raises fun _ h => h).createNode fuel name) _
  | createPublisher M node topic =>
    exact hreply ((composes_raises fun _ h => h).createPublisher M fuel node topic) _
  | createSubscription node topic s => exact hreply (createSubscription_errors fuel node topic s) _
  | publish M pub m => exact hreply (publish_errors pub m) _
  | spinOnce => exact hreply spinOnce_errors _
  | tryRecv s => exact hreply (.modify _) _

end

end MicroXrceDds
