import MicroXrceDds.Requests

/-!
# What the calls of the API leave behind

Every call but a successful `create_subscription` leaves the dispatch table and the ids
of the slots alone. A successful one allocates an index, asks for the DataReader and for
its data, waits, and then in one go gives the slot its id and enters it in the table.
-/
namespace MicroXrceDds

open Prog Session

variable {T σ : Type} [Statics σ]

/-- What happens before READ_DATA: indices are allocated and CREATEs go out. -/
def Event.Creating (sessionId : UInt8) : Event σ → Prop
  | .allocated kind _ => kind ≠ .datareader
  | .sent frame => ∃ req oid, requestOf sessionId frame = some (submsgCreate, req, oid)
  | .received _ => True
  | .taken _ _ => True
  | _ => False

theorem Event.Inbound.creating {e : Event σ} (h : e.Inbound) (sessionId : UInt8) :
    e.Creating sessionId := by
  cases e <;> first | exact h.elim | trivial

theorem Event.Inbound.quiet {e : Event σ} (h : e.Inbound) : e.Quiet := by
  cases e <;> first | exact h.elim | trivial

theorem Event.Creating.quiet {sessionId : UInt8} {e : Event σ} (h : e.Creating sessionId) :
    e.Quiet := by
  cases e <;> first | exact h.elim | trivial

theorem Event.Creating.not_datareader {sessionId : UInt8} {e : Event σ}
    (h : e.Creating sessionId) : e.allocates .datareader = false := by
  cases e with
  | allocated kind idx => exact decide_eq_false h
  | _ => rfl

theorem Event.Creating.not_readData {sessionId : UInt8} {e : Event σ} (h : e.Creating sessionId) :
    e.asks sessionId submsgReadData = none := by
  cases e with
  | sent frame =>
    obtain ⟨req, oid, hreq⟩ := h
    simp only [Event.asks, hreq]
    exact if_neg (by decide)
  | _ => rfl

theorem Follows.sessionId {P : Event σ → Prop} {w w' : World T σ} (h : Follows P w w') :
    w'.session.sessionId = w.session.sessionId := by
  obtain ⟨es, -, ht⟩ := h
  exact ht.router.sessionId

theorem Asks.follows {P : Event σ → Prop} {id : UInt8} {oid : UInt16} {w w' : World T σ}
    (h : Asks id oid w w') (hin : ∀ e : Event σ, e.Inbound → P e)
    (hsent : ∀ frame, requestOf w.session.sessionId frame = some (id, w.session.reqId, oid) →
      P (.sent frame)) : Follows P w w' := by
  obtain ⟨frame, w₁, hreq, hsend, hwait⟩ := h
  exact (Follows.of_trail hsend (hsent frame hreq)).trans (hwait.mono hin)

theorem Asks.creating {oid : UInt16} {w w' : World T σ} (h : Asks submsgCreate oid w w') :
    Follows (Event.Creating w.session.sessionId) w w' :=
  h.follows (fun _ he => he.creating _) fun _ hreq => ⟨_, _, hreq⟩

theorem Asks.quiet {id : UInt8} {oid : UInt16} {w w' : World T σ} (h : Asks id oid w w') :
    Follows Event.Quiet w w' := h.follows (fun _ he => he.quiet) fun _ _ => trivial

theorem stable_quiet : Stable (T := T) (Follows (σ := σ) Event.Quiet) :=
  stable_follows fun _ _ => trivial

/-- The local check changes nothing. -/
theorem ros2TopicName_within {R : World T σ → World T σ → Prop} (refl : ∀ w, R w w)
    (topic : Bytes) : Within R (ros2TopicName topicNameMax topic : Call T σ Bytes) := by
  intro w
  rw [ros2TopicName_eq]
  split
  · exact refl w
  · exact refl w

theorem tryRecv_follows (s : σ) :
    Within (Follows Event.Inbound) (tryRecv s : Call T σ Unit) := by
  intro w
  refine (w.takeFrom_trail s).mono ?_
  rintro e ⟨s', v, rfl⟩
  trivial

/-- The world after an index has been given out. -/
def World.allocating (kind : EntityKind) (w : World T σ) : World T σ :=
  (w.setNextIdx kind (w.session.nextIdx kind + 1)).log (.allocated kind (w.session.nextIdx kind))

theorem World.allocating_trail (w : World T σ) (kind : EntityKind) :
    Trail w [.allocated kind (w.session.nextIdx kind)] (w.allocating kind) :=
  .event rfl (.allocated w.router kind)

section
variable [Target]

/-- An allocation gives the counter's value and logs it, or overflows and panics. -/
theorem alloc_cases (kind : EntityKind) (w : World T σ) :
    (alloc kind : Call T σ UInt16).run w = (.ok (w.session.nextIdx kind), w.allocating kind) ∨
    ((alloc kind : Call T σ UInt16).run w = (.panic, w) ∧
      (w.session.nextIdx kind).toNat = 2 ^ 16 - 1) := by
  have hlt := (w.session.nextIdx kind).toNat_lt
  have hone : (1 : UInt16).toNat = 1 := rfl
  rw [alloc, run_get_bind]
  rcases addIn_cases (ε := Error) (S := World T σ) 16 (w.session.nextIdx kind).toNat 1 with
    ⟨hover, hpanic⟩ | ⟨v, hv, hmod⟩
  · right
    simp only [hpanic]
    exact ⟨rfl, by omega⟩
  · left
    have hnext : UInt16.ofNat v = w.session.nextIdx kind + 1 := by
      apply UInt16.toNat_inj.mp
      rw [UInt16.toNat_ofNat', UInt16.toNat_add, hone, hmod]
    simp only [hv, run_pure_bind, run_modify_bind, run_pure, hnext]
    rfl

theorem alloc_follows {P : Event σ → Prop} {kind : EntityKind} (hP : ∀ idx, P (.allocated kind idx)) :
    Within (Follows P) (alloc kind : Call T σ UInt16) := by
  intro w
  rcases alloc_cases kind w with hrun | ⟨hrun, -⟩
  · rw [hrun]
    exact .of_trail (w.allocating_trail kind) (hP _)
  · rw [hrun]
    exact .refl w

theorem alloc_quiet (kind : EntityKind) :
    Within (Follows Event.Quiet) (alloc kind : Call T σ UInt16) := alloc_follows fun _ => trivial

end

/-- The last two effects, with no suspension between them. -/
def enter (s : σ) (drOid : UInt16) : Call T σ σ := do
  setDrId s drOid
  pushSubscription s
  pure s

/-- The world after the slot has been given its id and entered in the table. -/
def World.entered (s : σ) (drOid : UInt16) (table : Bounded σ maxSubscriptions) (w : World T σ) :
    World T σ :=
  (((w.setSlot s ((w.slots s).setDrId drOid)).log (.assigned s drOid)).setSubscriptions table).log
    (.registered s)

theorem pushSubscription_some {s : σ} {table : Bounded σ maxSubscriptions} {w : World T σ}
    (h : w.session.subscriptions.push s = some table) : (pushSubscription s).run w =
      (.ok (), (w.setSubscriptions table).log (.registered s)) := by
  simp only [pushSubscription, run_get_bind, h, run_modify]

theorem pushSubscription_none {s : σ} {w : World T σ}
    (h : w.session.subscriptions.push s = none) :
    (pushSubscription s).run w = (.err .tooManySubscriptions, w) := by
  simp only [pushSubscription, run_get_bind, h, run_throw]

theorem enter_run {s : σ} {drOid : UInt16} {table : Bounded σ maxSubscriptions} {w : World T σ}
    (h : w.session.subscriptions.push s = some table) :
    (enter s drOid).run w = (.ok s, w.entered s drOid table) := by
  have hpush := pushSubscription_some (w := (w.setSlot s ((w.slots s).setDrId drOid)).log
    (.assigned s drOid)) h
  rw [enter, setDrId, run_modify_bind, bind_ok hpush]
  rfl

/-- Those are its last two events. -/
theorem entered_trail {s : σ} {table : Bounded σ maxSubscriptions} {w : World T σ} (drOid : UInt16)
    (h : w.session.subscriptions.push s = some table) :
    Trail w [.assigned s drOid, .registered s] (w.entered s drOid table) := by
  have hassigned : Trail w [.assigned s drOid]
      ((w.setSlot s ((w.slots s).setDrId drOid)).log (.assigned s drOid)) :=
    .event rfl (.assigned w.router s drOid)
  exact hassigned.trans (.event rfl (.registered _ s table h))

/-- The two events that enter a slot in the table. -/
def Event.Entering : Event σ → Prop
  | .assigned _ _ => True
  | .registered _ => True
  | _ => False

theorem enter_follows (s : σ) (drOid : UInt16) :
    Within (Follows Event.Entering) (enter s drOid : Call T σ σ) := by
  intro w
  cases hpush : w.session.subscriptions.push s with
  | some table =>
    rw [enter_run hpush]
    refine ⟨_, ?_, entered_trail drOid hpush⟩
    rw [List.forall_mem_cons, List.forall_mem_singleton]
    exact ⟨trivial, trivial⟩
  | none =>
    have hrun : ((enter s drOid : Call T σ σ).run w).2 =
        (w.setSlot s ((w.slots s).setDrId drOid)).log (.assigned s drOid) := by
      have hfull := pushSubscription_none (w := (w.setSlot s ((w.slots s).setDrId drOid)).log
        (.assigned s drOid)) hpush
      rw [enter, setDrId, run_modify_bind, bind_abort hfull rfl]
    rw [hrun]
    exact .of_trail (.event rfl (.assigned w.router s drOid)) trivial

/-- The stages of a successful preparation: the topic, the index of the DataReader, its
CREATE, its READ_DATA, and the frames up to the answer. -/
def Prepared (w : World T σ) (drOid : UInt16) (w' : World T σ) : Prop :=
  ∃ (w₁ w₂ w₃ w₄ : World T σ) (frame : Bytes),
    Follows (Event.Creating w.session.sessionId) w w₁ ∧
    drOid = objectId (w₁.session.nextIdx .datareader) entityDatareader ∧
    Trail w₁ [.allocated .datareader (w₁.session.nextIdx .datareader)] w₂ ∧
    Follows (Event.Creating w.session.sessionId) w₂ w₃ ∧
    requestOf w.session.sessionId frame = some (submsgReadData, w₃.session.reqId, drOid) ∧
    Trail w₃ [.sent frame] w₄ ∧ Follows Event.Inbound w₄ w'

theorem Prepared.drOid_eq {w w' : World T σ} {drOid : UInt16} (h : Prepared w drOid w') :
    drOid = objectId (w.session.nextIdx .datareader) entityDatareader ∧
      w'.session.nextIdx .datareader = w.session.nextIdx .datareader + 1 := by
  obtain ⟨w₁, w₂, w₃, w₄, frame, ⟨xs, hxs, htopic⟩, rfl, halloc, ⟨ys, hys, hreader⟩, -, hsend,
    zs, hzs, hwait⟩ := h
  have htopicIdx := htopic.router.nextIdx_eq fun e he => (hxs e he).not_datareader
  have hafter : w'.router.nextIdx .datareader = w₂.router.nextIdx .datareader :=
    ((hreader.trans hsend).trans hwait).router.nextIdx_eq (by
    simp only [List.forall_mem_append, List.forall_mem_singleton]
    exact ⟨⟨fun e he => (hys e he).not_datareader, rfl⟩,
      fun e he => ((hzs e he).creating w.session.sessionId).not_datareader⟩)
  have hnext : w₂.session.nextIdx .datareader = w₁.session.nextIdx .datareader + 1 := by
    cases halloc.router with
    | cons first rest =>
      cases rest
      exact (first.nextIdx .datareader).trans (if_pos (by simp [Event.allocates]))
  constructor
  · change objectId (w₁.router.nextIdx .datareader) _ = _
    rw [htopicIdx]
    rfl
  · change w'.router.nextIdx .datareader = _
    rw [hafter]
    change w₂.session.nextIdx .datareader = _
    rw [hnext]
    change w₁.router.nextIdx .datareader + 1 = _
    rw [htopicIdx]
    rfl

/-- A preparation registers nothing and sends one READ_DATA, for its own DataReader; from
then on it only reads frames. -/
theorem Prepared.window {w w' : World T σ} {drOid : UInt16} (h : Prepared w drOid w') :
    ∃ xs frame zs, (∀ e ∈ xs, e.Quiet ∧ e.asks w.session.sessionId submsgReadData = none) ∧
      (Event.sent frame : Event σ).asks w.session.sessionId submsgReadData = some drOid ∧
      (∀ e ∈ zs, e.Inbound) ∧ Trail w (xs ++ .sent frame :: zs) w' := by
  obtain ⟨w₁, w₂, w₃, w₄, frame, ⟨xs, hxs, ht⟩, -, halloc, ⟨ys, hys, ht'⟩, hreq, hsend,
    zs, hzs, ht''⟩ := h
  refine ⟨_, frame, zs, ?_, ?_, hzs, ((ht.trans halloc).trans ht').trans (hsend.trans ht'')⟩
  · simp only [List.forall_mem_append, List.forall_mem_singleton]
    exact ⟨⟨fun e he => ⟨(hxs e he).quiet, (hxs e he).not_readData⟩, trivial, rfl⟩,
      fun e he => ⟨(hys e he).quiet, (hys e he).not_readData⟩⟩
  · simp only [Event.asks, hreq, if_pos]

theorem Prepared.trail {w w' : World T σ} {drOid : UInt16} (h : Prepared w drOid w') :
    ∃ es, (∀ e ∈ es, e.Quiet) ∧ readDataIds w.session.sessionId es = [drOid] ∧ Trail w es w' := by
  obtain ⟨xs, frame, zs, hxs, hframe, hzs, htrail⟩ := h.window
  refine ⟨_, ?_, ?_, htrail⟩
  · rw [List.forall_mem_append, List.forall_mem_cons]
    exact ⟨fun e he => (hxs e he).1, trivial, fun e he => (hzs e he).quiet⟩
  · have hbefore : xs.filterMap (Event.asks w.session.sessionId submsgReadData) = [] :=
      List.filterMap_eq_nil_iff.mpr fun e he => (hxs e he).2
    have hafter : zs.filterMap (Event.asks w.session.sessionId submsgReadData) = [] :=
      List.filterMap_eq_nil_iff.mpr fun e he => ((hzs e he).creating _).not_readData
    rw [readDataIds, List.filterMap_append, List.filterMap_cons_some hframe, hbefore, hafter]
    rfl

theorem requestOf_writeData {M : Type} (w : World T σ) (pub : Publisher M) {body : Bytes}
    (h : body.length ≤ txBufSize) : requestOf w.session.sessionId (writeDataMessage w pub body) =
      some (submsgWriteData, 0, pub.dwId) := by
  apply requestOf_message
  simp only [txBufSize] at h
  omega

section
variable [ReadWrite T]

theorem spinOnce_quiet : Within (Follows Event.Quiet) (spinOnce : Call T σ Unit) := by
  intro w
  exact (spinOnce_follows w).mono fun _ he => he.quiet

variable [Target]

/-- A relation that holds over the allocations and the requests of a call holds over all of
it. -/
theorem createNode_within {R : World T σ → World T σ → Prop} (refl : ∀ w, R w w)
    (trans : ∀ a b c, R a b → R b c → R a c) {fuel : Nat} {name : Bytes}
    (allocs : ∀ kind, Within R (alloc kind))
    (participant : ∀ idx, Within R (createParticipantEntity fuel idx (participantXml name)))
    (publisher : ∀ idx parent, Within R (createPublisherEntity fuel idx parent))
    (subscriber : ∀ idx parent, Within R (createSubscriberEntity fuel idx parent)) :
    Within R (createNode fuel name : Call T σ Node) := by
  refine Within.bind trans (allocs _) fun participantIdx => ?_
  refine Within.bind trans (allocs _) fun publisherIdx => ?_
  refine Within.bind trans (allocs _) fun subscriberIdx => ?_
  refine Within.bind trans (participant participantIdx) fun _ => ?_
  refine Within.bind trans (publisher publisherIdx participantIdx) fun _ => ?_
  refine Within.bind trans (subscriber subscriberIdx participantIdx) fun _ => ?_
  exact Within.pure refl _

/-- A topic that passes the local check has the name that its CREATEs carry. -/
def ddsTopicName (topic : Bytes) : Bytes := ascii "rt/" ++ stripSlash topic

theorem createPublisher_within {R : World T σ → World T σ → Prop} (refl : ∀ w, R w w)
    (trans : ∀ a b c, R a b → R b c → R a c) (M : Type) [Message M] {fuel : Nat} {node : Node}
    {topic : Bytes} (allocs : ∀ kind, Within R (alloc kind))
    (topicEntity : TopicFits topic → ∀ idx, Within R (createWithParentEntity fuel
      (objectId idx entityTopic) entityTopic
      (topicXml (ddsTopicName topic) (Message.typeName M))
      (objectId node.participantIdx entityParticipant)))
    (dataWriter : TopicFits topic → ∀ idx, Within R (createWithParentEntity fuel
      (objectId idx entityDatawriter) entityDatawriter
      (dataWriterXml (ddsTopicName topic) (Message.typeName M))
      (objectId node.publisherIdx entityPublisher))) :
    Within R (createPublisher M fuel node topic : Call T σ (Publisher M)) := by
  unfold createPublisher
  rw [ros2TopicName_eq]
  by_cases hfits : TopicFits topic
  · rw [if_pos hfits, pure_bind]
    refine Within.bind trans (allocs _) fun topicIdx => ?_
    refine Within.bind trans (topicEntity hfits topicIdx) fun _ => ?_
    refine Within.bind trans (allocs _) fun dwIdx => ?_
    refine Within.bind trans (dataWriter hfits dwIdx) fun _ => ?_
    exact Within.pure refl _
  · rw [if_neg hfits]
    exact refl

theorem createWithParentEntity_quiet (fuel : Nat) (oid : UInt16) (kind : UInt8) {xml : Bytes}
    (parent : UInt16) (hxml : xml.length ≤ 320) : Within (Follows Event.Quiet)
      (createWithParentEntity fuel oid kind xml parent : Call T σ Unit) := by
  refine (createWithParentEntity_asks fuel oid kind parent hxml).mono ?_
  intro w w' h
  exact h.quiet

theorem createNode_quiet (fuel : Nat) (name : Bytes) :
    Within (Follows Event.Quiet) (createNode fuel name : Call T σ Node) := by
  refine createNode_within stable_quiet.refl stable_quiet.trans alloc_quiet ?_ ?_ ?_
  · intro idx
    exact (createParticipantEntity_asks fuel idx (length_participantXml_le name)).mono
      fun _ _ => Asks.quiet
  · intro idx parent
    exact createWithParentEntity_quiet fuel _ _ _ (by decide)
  · intro idx parent
    exact createWithParentEntity_quiet fuel _ _ _ (by decide)

theorem createPublisher_quiet (M : Type) [Message M] (fuel : Nat) (node : Node) (topic : Bytes) :
    Within (Follows Event.Quiet) (createPublisher M fuel node topic : Call T σ (Publisher M)) := by
  refine createPublisher_within stable_quiet.refl stable_quiet.trans M alloc_quiet ?_ ?_
  · intro _ idx
    exact createWithParentEntity_quiet fuel _ _ _ (length_topicXml_le _ _)
  · intro _ idx
    exact createWithParentEntity_quiet fuel _ _ _ (length_dataWriterXml_le _ _)

/-- Whatever is left of the body goes out in one frame, or nothing does. -/
theorem publish_cases {M : Type} [Message M] (w : World T σ) (pub : Publisher M) (m : M) :
    (∃ body buf, body.length ≤ txBufSize ∧
      (publish pub m).run w = (Framing.writeFramed (writeDataMessage w pub body)).run
        (w.sending (writeDataMessage w pub body) buf)) ∨
    ∃ buf, (publish pub m).run w = (.panic, w.setTxBuf buf) := by
  rcases publish_run w pub m with ⟨buf, hsent⟩ | ⟨-, buf, hpanic⟩
  · have hlen : ((bodyBytes m).take (txBufSize - writeDataPrefix w.session.sessionId)).length ≤
        txBufSize := by
      rw [List.length_take]
      omega
    exact .inl ⟨_, buf, hlen, hsent⟩
  · exact .inr ⟨buf, hpanic⟩

/-- At most one frame goes out, and it is a WRITE_DATA. -/
theorem publish_follows {M : Type} [Message M] (pub : Publisher M) (m : M) (w : World T σ) :
    Follows (fun e => e.Inbound ∨ ∃ frame req oid, e = .sent frame ∧
      requestOf w.session.sessionId frame = some (submsgWriteData, req, oid)) w
      ((publish pub m).run w).2 := by
  rcases publish_cases w pub m with ⟨body, buf, hlen, hsent⟩ | ⟨buf, hpanic⟩
  · rw [hsent]
    have hreq := requestOf_writeData w pub hlen
    have hsend : Trail w [.sent (writeDataMessage w pub body)]
        (w.sending (writeDataMessage w pub body) buf) := .event rfl (.sent w.router _)
    exact (Follows.of_trail hsend (.inr ⟨_, _, _, rfl, hreq⟩)).trans
      ((stable_inbound.writeFramed _ _).mono fun _ => .inl)
  · rw [hpanic]
    exact .of_same rfl rfl

theorem publish_quiet {M : Type} [Message M] (pub : Publisher M) (m : M) :
    Within (Follows Event.Quiet) (publish pub m : Call T σ Unit) := by
  intro w
  refine (publish_follows pub m w).mono ?_
  rintro e (he | ⟨frame, req, oid, rfl, -⟩)
  · exact he.quiet
  · trivial

/-- `create_subscription` from the topic name to the answer to READ_DATA; gives the id
of the new DataReader. -/
def prepareSubscription (fuel : Nat) (node : Node) (topic : Bytes) (s : σ) : Call T σ UInt16 := do
  let ddsTopic ← ros2TopicName topicNameMax topic
  let topicIdx ← allocTopic
  createWithParentEntity fuel (objectId topicIdx entityTopic) entityTopic
    (topicXml ddsTopic (Message.typeName (Statics.Msg s)))
    (objectId node.participantIdx entityParticipant)
  let drIdx ← allocDr
  createWithParentEntity fuel (objectId drIdx entityDatareader) entityDatareader
    (dataReaderXml ddsTopic (Message.typeName (Statics.Msg s)))
    (objectId node.subscriberIdx entitySubscriber)
  sendReadData fuel (objectId drIdx entityDatareader)
  pure (objectId drIdx entityDatareader)

theorem createSubscription_eq (fuel : Nat) (node : Node) (topic : Bytes) (s : σ) :
    createSubscription fuel node topic s = (do
      let w ← get
      if w.session.subscriptions.isFull then throw .tooManySubscriptions
      else do
        let drOid ← prepareSubscription fuel node topic s
        enter s drOid : Call T σ σ) := by
  simp only [createSubscription, prepareSubscription, enter, bind_assoc, pure_bind]

theorem prepareSubscription_within {R : World T σ → World T σ → Prop} (refl : ∀ w, R w w)
    (trans : ∀ a b c, R a b → R b c → R a c) {fuel : Nat} {node : Node} {topic : Bytes} {s : σ}
    (allocs : ∀ kind, Within R (alloc kind))
    (topicEntity : TopicFits topic → ∀ idx, Within R (createWithParentEntity fuel
      (objectId idx entityTopic) entityTopic
      (topicXml (ddsTopicName topic) (Message.typeName (Statics.Msg s)))
      (objectId node.participantIdx entityParticipant)))
    (dataReader : TopicFits topic → ∀ idx, Within R (createWithParentEntity fuel
      (objectId idx entityDatareader) entityDatareader
      (dataReaderXml (ddsTopicName topic) (Message.typeName (Statics.Msg s)))
      (objectId node.subscriberIdx entitySubscriber)))
    (readData : ∀ oid, Within R (sendReadData fuel oid)) :
    Within R (prepareSubscription fuel node topic s : Call T σ UInt16) := by
  unfold prepareSubscription
  rw [ros2TopicName_eq]
  by_cases hfits : TopicFits topic
  · rw [if_pos hfits, pure_bind]
    refine Within.bind trans (allocs _) fun topicIdx => ?_
    refine Within.bind trans (topicEntity hfits topicIdx) fun _ => ?_
    refine Within.bind trans (allocs _) fun drIdx => ?_
    refine Within.bind trans (dataReader hfits drIdx) fun _ => ?_
    refine Within.bind trans (readData _) fun _ => ?_
    exact Within.pure refl _
  · rw [if_neg hfits]
    exact refl

theorem createSubscription_within {R : World T σ → World T σ → Prop} (refl : ∀ w, R w w)
    (trans : ∀ a b c, R a b → R b c → R a c) {fuel : Nat} {node : Node} {topic : Bytes} {s : σ}
    (prepare : Within R (prepareSubscription fuel node topic s))
    (enters : ∀ drOid, Within R (enter s drOid)) :
    Within R (createSubscription fuel node topic s : Call T σ σ) := by
  intro w
  rw [createSubscription_eq, run_get_bind]
  split
  · exact refl w
  · exact Within.bind trans prepare enters w

theorem prepareSubscription_quiet (fuel : Nat) (node : Node) (topic : Bytes) (s : σ) :
    Within (Follows Event.Quiet) (prepareSubscription fuel node topic s : Call T σ UInt16) := by
  refine prepareSubscription_within stable_quiet.refl stable_quiet.trans alloc_quiet ?_ ?_ ?_
  · intro _ idx
    exact createWithParentEntity_quiet fuel _ _ _ (length_topicXml_le _ _)
  · intro _ idx
    exact createWithParentEntity_quiet fuel _ _ _ (length_dataReaderXml_le _ _)
  · intro oid
    exact (sendReadData_asks fuel oid).mono fun _ _ => Asks.quiet

theorem prepareSubscription_ok {fuel : Nat} {node : Node} {topic : Bytes} {s : σ}
    {w w' : World T σ} {drOid : UInt16}
    (h : (prepareSubscription fuel node topic s).run w = (.ok drOid, w')) :
    Prepared w drOid w' := by
  obtain ⟨ddsTopic, w₀, hname, h⟩ := bind_eq_ok h
  obtain ⟨topicIdx, w₁, htopic, h⟩ := bind_eq_ok h
  obtain ⟨_, w₂, hcreate, h⟩ := bind_eq_ok h
  obtain ⟨drIdx, w₃, hdr, h⟩ := bind_eq_ok h
  obtain ⟨_, w₄, hcreate', h⟩ := bind_eq_ok h
  obtain ⟨_, w₅, hread, h⟩ := bind_eq_ok h
  cases h
  have hstable : Stable (T := T) (Follows (σ := σ) (Event.Creating w.session.sessionId)) :=
    stable_follows fun _ _ => trivial
  have hnamed := (ros2TopicName_within hstable.refl topic).of_run hname
  have hnotDr (idx : UInt16) :
      (Event.allocated .topic idx : Event σ).Creating w.session.sessionId := by
    change EntityKind.topic ≠ EntityKind.datareader
    decide
  have htopicIdx := (alloc_follows hnotDr).of_run htopic
  have hsame₁ := (hnamed.trans htopicIdx).sessionId
  have htopicMade := ((createWithParentEntity_asks fuel _ _ _
    (length_topicXml_le _ _)).of_run hcreate).creating
  rw [hsame₁] at htopicMade
  have hbefore := (hnamed.trans htopicIdx).trans htopicMade
  rcases alloc_cases .datareader w₂ with hrun | ⟨hrun, -⟩
  · cases hdr.symm.trans hrun
    have halloc := w₂.allocating_trail .datareader
    have hsame₃ : (w₂.allocating .datareader).session.sessionId = w.session.sessionId :=
      halloc.router.sessionId.trans hbefore.sessionId
    have hreaderMade := ((createWithParentEntity_asks fuel _ _ _
      (length_dataReaderXml_le _ _)).of_run hcreate').creating
    rw [hsame₃] at hreaderMade
    have hsame₄ := hreaderMade.sessionId.trans hsame₃
    obtain ⟨frame, w₅, hreq, hsend, hwait⟩ := (sendReadData_asks fuel _).of_run hread
    rw [hsame₄] at hreq
    exact ⟨w₂, _, w₄, w₅, frame, hbefore, rfl, halloc, hreaderMade, hreq, hsend, hwait⟩
  · cases hdr.symm.trans hrun

/-- The room found at the start is still there at the end. -/
theorem push_prepared {fuel : Nat} {node : Node} {topic : Bytes} {s : σ} {w w' : World T σ}
    {drOid : UInt16} (hroom : w.session.subscriptions.isFull = false)
    (h : (prepareSubscription fuel node topic s).run w = (.ok drOid, w')) :
    w'.session.subscriptions = w.session.subscriptions ∧
      ∃ table, w'.session.subscriptions.push s = some table := by
  obtain ⟨es, hquiet, htrail⟩ := (prepareSubscription_quiet fuel node topic s).of_run h
  have htable : w'.session.subscriptions = w.session.subscriptions :=
    (htrail.router.quiet hquiet).1
  refine ⟨htable, ?_⟩
  cases hpush : w'.session.subscriptions.push s with
  | none =>
    rw [htable] at hpush
    exact absurd (Bounded.push_eq_none.mp hpush) (Nat.ne_of_lt (Bounded.isFull_eq_false.mp hroom))
  | some table => exact ⟨table, rfl⟩

/-- The two outcomes: nothing is registered, or the slot the caller passed is. -/
theorem createSubscription_cases (fuel : Nat) (node : Node) (topic : Bytes) (s : σ)
    (w : World T σ) :
    (∃ o w', (createSubscription fuel node topic s).run w = (o, w') ∧ o.isOk = false ∧
      Follows Event.Quiet w w') ∨
    (∃ drOid w₁ table, Prepared w drOid w₁ ∧ w₁.session.subscriptions.push s = some table ∧
      (createSubscription fuel node topic s).run w = (.ok s, w₁.entered s drOid table)) := by
  rw [createSubscription_eq, run_get_bind]
  by_cases hfull : w.session.subscriptions.isFull = true
  · left
    rw [if_pos hfull]
    exact ⟨_, _, rfl, rfl, .refl w⟩
  · rw [if_neg hfull]
    rcases bind_cases (prepareSubscription fuel node topic s) (enter s) w with
      ⟨drOid, w₁, hprep, hbind⟩ | ⟨o, w₁, hprep, ho, hbind⟩
    · right
      obtain ⟨-, table, hpush⟩ := push_prepared (by simpa using hfull) hprep
      refine ⟨drOid, w₁, table, prepareSubscription_ok hprep, hpush, ?_⟩
      rw [hbind, enter_run hpush]
    · left
      refine ⟨o.abort, w₁, hbind, not_isOk_abort ho, ?_⟩
      exact (prepareSubscription_quiet fuel node topic s).of_run hprep

/-- A topic name that is too long is refused before anything happens. -/
theorem createPublisher_refused (M : Type) [Message M] (fuel : Nat) (node : Node) {topic : Bytes}
    (h : ¬ TopicFits topic) (w : World T σ) :
    (createPublisher M fuel node topic).run w = (.err .bufferTooSmall, w) := by
  unfold createPublisher
  rw [ros2TopicName_eq, if_neg h, run_throw_bind]

/-- So is a subscription, or it is refused because the table is full. -/
theorem createSubscription_refused (fuel : Nat) (node : Node) {topic : Bytes} (s : σ)
    {w : World T σ} (h : w.session.subscriptions.isFull = true ∨ ¬ TopicFits topic) :
    ∃ e, (e = .tooManySubscriptions ∨ e = .bufferTooSmall) ∧
      (createSubscription fuel node topic s).run w = (.err e, w) := by
  rw [createSubscription_eq, run_get_bind]
  by_cases hfull : w.session.subscriptions.isFull = true
  · rw [if_pos hfull]
    exact ⟨_, .inl rfl, rfl⟩
  · rw [if_neg hfull, prepareSubscription, ros2TopicName_eq, if_neg (h.resolve_left hfull)]
    exact ⟨_, .inr rfl, rfl⟩

/-- A subscription that succeeds has passed these checks. -/
theorem createSubscription_passed {fuel : Nat} {node : Node} {topic : Bytes} {s s' : σ}
    {w w' : World T σ} (h : (createSubscription fuel node topic s).run w = (.ok s', w')) :
    w.session.subscriptions.isFull = false ∧ TopicFits topic := by
  by_contra hnot
  obtain ⟨e, -, hrun⟩ := createSubscription_refused fuel node s (refused_of_not_passed hnot)
  rw [hrun] at h
  cases h

end

end MicroXrceDds
