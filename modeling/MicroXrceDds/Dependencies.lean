import MicroXrceDds.Library.Trace
import MicroXrceDds.Creations
import MicroXrceDds.Registration

/-!
# Entities are created in order

An entity is acknowledged when its CREATE has been answered. The session only refers to
entities that have been: as parents, as topics, and as the objects of READ_DATA and
WRITE_DATA.
-/
namespace MicroXrceDds

open Prog Session Trace

variable {T σ : Type} [Statics σ]

/-- What happens while the answer to a request is outstanding. -/
def Event.Aside (sessionId : UInt8) : Event σ → Prop
  | .received frame => ∀ payload, submessageOf sessionId frame ≠ some (submsgStatus, payload)
  | .taken _ _ => True
  | _ => False

/-- The entity was asked for by a CREATE, and the first STATUS after it granted the request. -/
def Acknowledged (sessionId : UInt8) (entity : Creation) (es : List (Event σ)) : Prop :=
  ∃ before frame req between reply after,
    es = before ++ .sent frame :: (between ++ .received reply :: after) ∧
    creationOf sessionId frame = some (req, entity) ∧ (∀ e ∈ between, e.Aside sessionId) ∧
    GrantsRequest sessionId req reply

/-- An entity of this kind with this id has been acknowledged. -/
def Known (sessionId : UInt8) (kind : UInt8) (oid : UInt16) (es : List (Event σ)) : Prop :=
  ∃ entity, entity.kind = kind ∧ entity.oid = oid ∧ Acknowledged sessionId entity es

theorem lasting_acknowledged (sessionId : UInt8) (entity : Creation) :
    Lasting (Acknowledged (σ := σ) sessionId entity) := by
  rintro _ es' ⟨before, frame, req, between, reply, after, rfl, hcreation, haside, hanswer⟩
  refine ⟨before, frame, req, between, reply, after ++ es', ?_, hcreation, haside, hanswer⟩
  simp only [List.append_assoc, List.cons_append]

theorem lasting_known (sessionId kind : UInt8) (oid : UInt16) :
    Lasting (Known (σ := σ) sessionId kind oid) := by
  rintro es es' ⟨entity, hkind, hoid, hack⟩
  exact ⟨entity, hkind, hoid, lasting_acknowledged sessionId entity es es' hack⟩

/-- The kind of the parent that an entity of this kind is created under. -/
def parentKind (kind : UInt8) : UInt8 :=
  if kind = entityDatawriter then entityPublisher
  else if kind = entityDatareader then entitySubscriber
  else entityParticipant

/-- The document of a writer or a reader of this kind. -/
def endpointDocument (kind : UInt8) (ddsTopic typeName : Bytes) : Bytes :=
  if kind = entityDatawriter then dataWriterDocument ddsTopic typeName
  else dataReaderDocument ddsTopic typeName

/-- What a frame refers to has been acknowledged. The names of topics and types are only
compared where they are whole. -/
structure Depends (sessionId : UInt8) (whole : Prop) (before : List (Event σ)) (frame : Bytes) :
    Prop where
  parent : ∀ req entity, creationOf sessionId frame = some (req, entity) →
    entity.kind ≠ entityParticipant → ∃ parent, entity.parent = some parent ∧
      Known sessionId (parentKind entity.kind) parent before
  topic : whole → ∀ req entity, creationOf sessionId frame = some (req, entity) →
    entity.kind = entityDatawriter ∨ entity.kind = entityDatareader →
    ∃ topic ddsTopic typeName, topic.kind = entityTopic ∧
      topic.xml = topicDocument ddsTopic typeName ∧
      entity.xml = endpointDocument entity.kind ddsTopic typeName ∧
      Acknowledged sessionId topic before
  readData : ∀ req oid, requestOf sessionId frame = some (submsgReadData, req, oid) →
    Known sessionId entityDatareader oid before
  writeData : ∀ req oid, requestOf sessionId frame = some (submsgWriteData, req, oid) →
    Known sessionId entityDatawriter oid before

/-- Every frame is sent after what it depends on. -/
def SentAfter (sessionId : UInt8) (whole : Prop) (before : List (Event σ)) (e : Event σ) : Prop :=
  ∀ frame, e = .sent frame → Depends sessionId whole before frame

/-- A CREATE is no other request. -/
theorem requestOf_creation {sessionId id : UInt8} {frame : Bytes} {req req' oid : UInt16}
    {entity : Creation} (h : creationOf sessionId frame = some (req, entity))
    (h' : requestOf sessionId frame = some (id, req', oid)) : id = submsgCreate := by
  by_contra hid
  rw [creationOf_request h' hid] at h
  cases h

section
variable {sessionId : UInt8} {whole : Prop} {before : List (Event σ)} {frame : Bytes}

/-- A CREATE depends on the parent and, for a writer or a reader, on the topic. -/
theorem depends_creation {req : UInt16} {entity : Creation}
    (h : creationOf sessionId frame = some (req, entity))
    (hparent : entity.kind ≠ entityParticipant → ∃ parent, entity.parent = some parent ∧
      Known sessionId (parentKind entity.kind) parent before)
    (htopic : whole → entity.kind = entityDatawriter ∨ entity.kind = entityDatareader →
      ∃ topic ddsTopic typeName, topic.kind = entityTopic ∧
        topic.xml = topicDocument ddsTopic typeName ∧
        entity.xml = endpointDocument entity.kind ddsTopic typeName ∧
        Acknowledged sessionId topic before) : Depends sessionId whole before frame := by
  have hsame {req' : UInt16} {entity' : Creation}
      (h' : creationOf sessionId frame = some (req', entity')) : entity = entity' := by
    rw [h] at h'
    exact congrArg Prod.snd (Option.some.inj h')
  constructor
  · intro req' entity' h'
    exact hsame h' ▸ hparent
  · intro hwhole req' entity' h'
    exact hsame h' ▸ htopic hwhole
  · intro req' oid h'
    exact absurd (requestOf_creation h h') (by decide)
  · intro req' oid h'
    exact absurd (requestOf_creation h h') (by decide)

/-- READ_DATA and WRITE_DATA depend on their object. -/
theorem depends_data {id : UInt8} {req oid : UInt16}
    (h : requestOf sessionId frame = some (id, req, oid)) (hid : id ≠ submsgCreate)
    (hread : id = submsgReadData → Known sessionId entityDatareader oid before)
    (hwrite : id = submsgWriteData → Known sessionId entityDatawriter oid before) :
    Depends sessionId whole before frame := by
  have hnone := creationOf_request h hid
  have hsame {id' : UInt8} {req' oid' : UInt16}
      (h' : requestOf sessionId frame = some (id', req', oid')) : id = id' ∧ oid = oid' := by
    rw [h] at h'
    cases h'
    exact ⟨rfl, rfl⟩
  constructor
  · intro req' entity' h'
    rw [hnone] at h'
    cases h'
  · intro _ req' entity' h'
    rw [hnone] at h'
    cases h'
  · intro req' oid' h'
    obtain ⟨rfl, rfl⟩ := hsame h'
    exact hread rfl
  · intro req' oid' h'
    obtain ⟨rfl, rfl⟩ := hsame h'
    exact hwrite rfl

end

theorem stable_aside (sessionId : UInt8) :
    Stable (T := T) (Follows (σ := σ) (Event.Aside sessionId)) := stable_follows fun _ _ => trivial

section
variable [Target] [ReadWrite T]

theorem waitTurn_ok {req : UInt16} {w w' : World T σ} {done : Bool}
    (h : (waitTurn req).run w = (.ok done, w')) :
    ∃ w₁ frame, Follows (Event.Aside w.session.sessionId) w w₁ ∧ Trail w₁ [.received frame] w' ∧
      if done then GrantsRequest w.session.sessionId req frame
      else ∀ payload, submessageOf w.session.sessionId frame ≠ some (submsgStatus, payload) := by
  rw [waitTurn_eq] at h
  rcases withFrame_cases (stable_aside w.session.sessionId) (fun w => waitFrame w req) w with
    ⟨frame, w₁, haside, -, hrun⟩ | ⟨o, w₁, -, ho, hrun⟩
  · rw [hrun] at h
    have hstate := waitFrame_state frame (w₁.holding frame) req
    have hok := waitFrame_ok (congrArg Prod.fst h)
    have hid : (w₁.holding frame).session.sessionId = w.session.sessionId := haside.sessionId
    rw [hid] at hok
    refine ⟨w₁, frame, haside, ?_, hok⟩
    rw [h] at hstate
    have hw' : w' = (w₁.holding frame).withSlots
        ((w₁.holding frame).router.route frame).slots := hstate
    rw [hw']
    exact holding_trail w₁ frame
  · rw [hrun] at h
    cases h
    cases ho

/-- A wait that ends well has gone past anything but STATUS, up to the answer. -/
theorem waitStatusFor_ok {fuel : Nat} {req : UInt16} {w w' : World T σ}
    (h : (waitStatusFor fuel req).run w = (.ok (), w')) :
    ∃ w₁ reply, Follows (Event.Aside w.session.sessionId) w w₁ ∧ Trail w₁ [.received reply] w' ∧
      GrantsRequest w.session.sessionId req reply := by
  induction fuel generalizing w with
  | zero => cases h
  | succ fuel ih =>
    obtain ⟨done, w₁, hturn, hrest⟩ := bind_eq_ok h
    obtain ⟨w₀, frame, haside, hframe, hdone⟩ := waitTurn_ok hturn
    cases done with
    | true =>
      cases hrest
      exact ⟨w₀, frame, haside, hframe, hdone⟩
    | false =>
      have hnext : Follows (Event.Aside w.session.sessionId) w w₁ :=
        haside.trans (.of_trail hframe hdone)
      obtain ⟨w₂, reply, haside', hreply, hgrants⟩ := ih hrest
      rw [hnext.sessionId] at haside' hgrants
      exact ⟨w₂, reply, hnext.trans haside', hreply, hgrants⟩

theorem sendRequest_granted {fuel : Nat} {enc : Encoder} {id flags : UInt8}
    {payload : UInt16 → Bytes} (henc : enc.Writes id flags payload) {w w' : World T σ}
    (h : (sendRequest fuel enc).run w = (.ok (), w')) :
    ∃ between reply, w'.history =
        w.history ++ .sent (w.request id flags payload) :: (between ++ [.received reply]) ∧
      (∀ e ∈ between, e.Aside w.session.sessionId) ∧
      GrantsRequest w.session.sessionId w.session.reqId reply := by
  obtain ⟨buf, -, hrun⟩ := sendRequest_run w fuel henc
  rw [hrun] at h
  obtain ⟨_, w₁, hwrite, hwait⟩ := bind_eq_ok h
  have hwritten := (stable_aside w.session.sessionId).writeFramed (w.request id flags payload)
    (w.requesting (w.request id flags payload) buf)
  rw [hwrite] at hwritten
  have hid : w₁.session.sessionId = w.session.sessionId := hwritten.sessionId
  obtain ⟨w₂, reply, haside, hreply, hgrants⟩ := waitStatusFor_ok hwait
  rw [hid] at haside hgrants
  obtain ⟨between, hbetween, htrail⟩ := hwritten.trans haside
  refine ⟨between, reply, ?_, hbetween, hgrants⟩
  have hsent := (requesting_trail w (w.request id flags payload) buf).history
  rw [hreply.history, htrail.history, hsent, List.append_assoc, List.append_assoc]
  rfl

end

/-- The history so far is in order, and this much is known from it. -/
structure Sound (sessionId : UInt8) (whole : Prop) (known : List (Event σ) → Prop)
    (w : World T σ) : Prop where
  session : w.session.sessionId = sessionId
  lawful : Lawful (SentAfter sessionId whole) w.history
  known : known w.history

/-- However a call ends, the history is in order, and more is known if it has succeeded. -/
def Leaves {α : Type} (sessionId : UInt8) (whole : Prop) (goal : α → List (Event σ) → Prop)
    (o : Outcome Error α) : World T σ → Prop :=
  Sound sessionId whole fun es => ∀ a, o = .ok a → goal a es

def Event.Unsent (e : Event σ) : Prop := ∀ frame, e ≠ .sent frame

theorem Event.Inbound.unsent {e : Event σ} (h : e.Inbound) : e.Unsent := by
  rintro frame rfl
  exact h

theorem Event.Entering.unsent {e : Event σ} (h : e.Entering) : e.Unsent := by
  rintro frame rfl
  exact h

section
variable {sessionId : UInt8} {whole : Prop} {known : List (Event σ) → Prop}

theorem Sound.follows {w w' : World T σ} (h : Sound sessionId whole known w)
    (hlast : Lasting known) (h' : Follows Event.Unsent w w') :
    Sound sessionId whole known w' := by
  have hid := h'.sessionId
  obtain ⟨es, hes, htrail⟩ := h'
  constructor
  · rw [hid, h.session]
  · rw [htrail.history]
    refine h.lawful.append_free fun e he before frame hframe => ?_
    exact absurd hframe (hes e he frame)
  · rw [htrail.history]
    exact hlast _ _ h.known

/-- A frame goes out after what it depends on. -/
theorem Sound.sent {w w' : World T σ} {frame : Bytes} (h : Sound sessionId whole known w)
    (hlast : Lasting known) (hdep : Depends sessionId whole w.history frame)
    (h' : Trail w [.sent frame] w') : Sound sessionId whole known w' := by
  constructor
  · exact h'.router.sessionId.trans h.session
  · rw [h'.history]
    apply h.lawful.snoc
    rintro frame' heq
    cases heq
    exact hdep
  · rw [h'.history]
    exact hlast _ _ h.known

theorem Sound.leaves {α : Type} {goal : α → List (Event σ) → Prop} {o : Outcome Error α}
    {w : World T σ} (h : Sound sessionId whole known w) (hgoal : ∀ a, o = .ok a →
      known w.history → goal a w.history) : Leaves sessionId whole goal o w :=
  ⟨h.session, h.lawful, fun a ha => hgoal a ha h.known⟩

theorem leaves_pure {α : Type} {goal : α → List (Event σ) → Prop} {a : α}
    (hgoal : ∀ es, known es → goal a es) :
    Spec (Sound sessionId whole known) (pure a : Call T σ α) (Leaves sessionId whole goal) := by
  intro w h
  refine h.leaves ?_
  rintro _ ⟨⟩ hknown
  exact hgoal _ hknown

/-- A call inside a call. -/
theorem leaves_bind {α β : Type} {goal : α → List (Event σ) → Prop}
    {goal' : β → List (Event σ) → Prop} {p : Call T σ α} {f : α → Call T σ β}
    (hp : Spec (Sound sessionId whole known) p (Leaves sessionId whole goal))
    (hf : ∀ a, Spec (Sound sessionId whole (goal a)) (f a) (Leaves sessionId whole goal')) :
    Spec (Sound sessionId whole known) (p >>= f) (Leaves sessionId whole goal') := by
  refine Spec.bind (R := fun a => Sound sessionId whole (goal a)) ?_ hf
  intro w h
  have hnext := hp w h
  cases hrun : (p.run w).1 with
  | ok a =>
    rw [hrun] at hnext
    exact ⟨hnext.session, hnext.lawful, hnext.known a rfl⟩
  | _ => exact hnext.leaves fun a ha => by cases ha

/-- A step that sends nothing. -/
theorem leaves_silent {α β : Type} {goal : β → List (Event σ) → Prop} {p : Call T σ α}
    (hlast : Lasting known) (hp : Within (Follows Event.Unsent) p) :
    Spec (Sound sessionId whole known) p
      (Midway (fun _ => Sound sessionId whole known) (Leaves sessionId whole goal)) := by
  intro w h
  have hnext := h.follows hlast (hp w)
  cases (p.run w).1 with
  | ok a => exact hnext
  | _ => exact hnext.leaves fun a ha => by cases ha

variable [Target]

theorem leaves_alloc {β : Type} {goal : β → List (Event σ) → Prop} (hlast : Lasting known)
    (kind : EntityKind) : Spec (Sound sessionId whole known) (alloc kind : Call T σ UInt16)
      (Midway (fun _ => Sound sessionId whole known) (Leaves sessionId whole goal)) :=
  leaves_silent hlast (alloc_follows fun idx frame h => by cases h)

variable [ReadWrite T]

/-- A request goes out in its place, and if the call goes on it has been granted. -/
theorem leaves_request {β : Type} {goal : β → List (Event σ) → Prop} {fuel : Nat} {enc : Encoder}
    {id flags : UInt8} {payload : UInt16 → Bytes} (hlast : Lasting known)
    (henc : enc.Writes id flags payload) {fact : List (Event σ) → Prop}
    (hdep : ∀ w : World T σ, Sound sessionId whole known w →
      Depends sessionId whole w.history (w.request id flags payload))
    (hfact : ∀ (w : World T σ) between reply, w.session.sessionId = sessionId →
      (∀ e ∈ between, e.Aside sessionId) → GrantsRequest sessionId w.session.reqId reply →
      fact (w.history ++ .sent (w.request id flags payload) :: (between ++ [.received reply]))) :
    Spec (Sound sessionId whole known) (sendRequest fuel enc : Call T σ Unit)
      (Midway (fun _ => Sound sessionId whole fun es => known es ∧ fact es)
        (Leaves sessionId whole goal)) := by
  intro w h
  obtain ⟨w₁, hsend, hwait⟩ := sendRequest_trail fuel henc w
  have hnext := (h.sent hlast (hdep w h) hsend).follows hlast
    (hwait.mono fun e he => he.unsent)
  cases hrun : (sendRequest fuel enc).run w with
  | mk o w' =>
    rw [hrun] at hnext
    cases o with
    | ok a =>
      obtain ⟨between, reply, hhist, hbetween, hgrants⟩ := sendRequest_granted henc hrun
      rw [h.session] at hbetween hgrants
      refine ⟨hnext.session, hnext.lawful, hnext.known, ?_⟩
      rw [hhist]
      exact hfact w between reply h.session hbetween hgrants
    | _ => exact hnext.leaves fun a ha => by cases ha

/-- A CREATE under a parent that is known. -/
theorem leaves_create {β : Type} {goal : β → List (Event σ) → Prop} {fuel : Nat} {oid : UInt16}
    {kind : UInt8} {xml : Bytes} {parent : UInt16} (hlast : Lasting known)
    (hkind : kind ≠ entityParticipant) (hxml : xml.length ≤ 320)
    (hparent : ∀ es, known es → Known sessionId (parentKind kind) parent es)
    (htopic : whole → kind = entityDatawriter ∨ kind = entityDatareader → ∀ es, known es →
      ∃ topic ddsTopic typeName, topic.kind = entityTopic ∧
        topic.xml = topicDocument ddsTopic typeName ∧
        xml = endpointDocument kind ddsTopic typeName ∧ Acknowledged sessionId topic es) :
    Spec (Sound sessionId whole known)
      (createWithParentEntity fuel oid kind xml parent : Call T σ Unit)
      (Midway (fun _ => Sound sessionId whole fun es => known es ∧
        Acknowledged sessionId ⟨oid, kind, xml, some parent⟩ es)
        (Leaves sessionId whole goal)) := by
  rw [createWithParentEntity_eq]
  refine leaves_request hlast (requests_createWithParent oid kind parent hxml).writes ?_ ?_
  · intro w h
    have hcreation := creationOf_child (w := w) oid parent hkind hxml
    rw [h.session] at hcreation
    refine depends_creation hcreation ?_ ?_
    · intro _
      exact ⟨parent, rfl, hparent _ h.known⟩
    · intro hwhole hend
      exact htopic hwhole hend _ h.known
  · intro w between reply hid hbetween hgrants
    have hcreation := creationOf_child (w := w) oid parent hkind hxml
    rw [hid] at hcreation
    exact ⟨_, _, _, between, reply, [], rfl, hcreation, hbetween, hgrants⟩

theorem leaves_participant {β : Type} {goal : β → List (Event σ) → Prop} {fuel : Nat}
    {idx : UInt16} {xml : Bytes} (hlast : Lasting known) (hxml : xml.length ≤ 320) :
    Spec (Sound sessionId whole known) (createParticipantEntity fuel idx xml : Call T σ Unit)
      (Midway (fun _ => Sound sessionId whole fun es => known es ∧ Acknowledged sessionId
        ⟨objectId idx entityParticipant, entityParticipant, xml, none⟩ es)
        (Leaves sessionId whole goal)) := by
  rw [createParticipantEntity_eq]
  refine leaves_request hlast
    (requests_createParticipant (objectId idx entityParticipant) hxml).writes ?_ ?_
  · intro w h
    have hcreation := creationOf_participant (w := w) (objectId idx entityParticipant) hxml
    rw [h.session] at hcreation
    refine depends_creation hcreation ?_ ?_
    · intro hkind
      exact absurd rfl hkind
    · rintro _ (hkind | hkind)
      · exact absurd hkind (show entityParticipant ≠ entityDatawriter by decide)
      · exact absurd hkind (show entityParticipant ≠ entityDatareader by decide)
  · intro w between reply hid hbetween hgrants
    have hcreation := creationOf_participant (w := w) (objectId idx entityParticipant) hxml
    rw [hid] at hcreation
    exact ⟨_, _, _, between, reply, [], rfl, hcreation, hbetween, hgrants⟩

/-- READ_DATA for a DataReader that is known. -/
theorem leaves_readData {β : Type} {goal : β → List (Event σ) → Prop} {fuel : Nat} {oid : UInt16}
    (hlast : Lasting known) (hreader : ∀ es, known es → Known sessionId entityDatareader oid es) :
    Spec (Sound sessionId whole known) (sendReadData fuel oid : Call T σ Unit)
      (Midway (fun _ => Sound sessionId whole fun es => known es ∧ True)
        (Leaves sessionId whole goal)) := by
  rw [sendReadData_eq]
  refine leaves_request hlast (requests_readData oid).writes ?_ ?_
  · intro w h
    have hreq := (requests_readData oid).requestOf w
    rw [h.session] at hreq
    refine depends_data hreq (by decide) (fun _ => hreader _ h.known) ?_
    intro hid
    exact absurd hid (by decide)
  · intro w between reply _ _ _
    trivial

end

/-- What stands behind a node. -/
def NodeKnown (sessionId : UInt8) (node : Node) (es : List (Event σ)) : Prop :=
  Known sessionId entityParticipant (objectId node.participantIdx entityParticipant) es ∧
    Known sessionId entityPublisher (objectId node.publisherIdx entityPublisher) es ∧
    Known sessionId entitySubscriber (objectId node.subscriberIdx entitySubscriber) es

theorem lasting_nodeKnown (sessionId : UInt8) (node : Node) :
    Lasting (NodeKnown (σ := σ) sessionId node) :=
  (lasting_known _ _ _).and ((lasting_known _ _ _).and (lasting_known _ _ _))

/-- What stands behind a handle. -/
def Reply.Backed (sessionId : UInt8) (es : List (Event σ)) : Reply σ → Prop
  | node n => NodeKnown sessionId n es
  | publisher dwId => Known sessionId entityDatawriter dwId es
  | _ => True

theorem Reply.lasting_backed (sessionId : UInt8) (r : Reply σ) :
    Lasting fun es => r.Backed sessionId es := by
  cases r with
  | node n => exact lasting_nodeKnown sessionId n
  | publisher dwId => exact lasting_known sessionId entityDatawriter dwId
  | _ => exact lasting_true

/-- What has to stand behind the handles of a call. -/
def Op.Needs (sessionId : UInt8) : Op σ → List (Event σ) → Prop
  | createPublisher _ node _ => NodeKnown sessionId node
  | createSubscription node _ _ => NodeKnown sessionId node
  | publish _ pub _ => Known sessionId entityDatawriter pub.dwId
  | _ => fun _ => True

/-- None of the XML buffers for the topic overflows. -/
def Op.NamesShort : Op σ → Prop
  | createPublisher M _ topic =>
      (topicDocument (ddsTopicName topic) (Message.typeName M)).length ≤ 256 ∧
        (dataWriterDocument (ddsTopicName topic) (Message.typeName M)).length ≤ 320
  | createSubscription _ topic slot =>
      (topicDocument (ddsTopicName topic) (Message.typeName (Statics.Msg slot))).length ≤ 256 ∧
        (dataReaderDocument (ddsTopicName topic) (Message.typeName (Statics.Msg slot))).length ≤
          320
  | _ => True

section
variable [Target] [ReadWrite T] {sessionId : UInt8} {whole : Prop}

theorem createNode_leaves (fuel : Nat) (name : Bytes) :
    Spec (Sound sessionId whole fun _ => True) (createNode fuel name : Call T σ Node)
      (Leaves sessionId whole (NodeKnown sessionId)) := by
  refine Spec.bind (leaves_alloc lasting_true _) fun participantIdx => ?_
  refine Spec.bind (leaves_alloc lasting_true _) fun publisherIdx => ?_
  refine Spec.bind (leaves_alloc lasting_true _) fun subscriberIdx => ?_
  refine Spec.bind (leaves_participant lasting_true (length_participantXml_le name)) fun _ => ?_
  have hparticipant := lasting_true.and (lasting_acknowledged (σ := σ) sessionId
    ⟨objectId participantIdx entityParticipant, entityParticipant, participantXml name, none⟩)
  refine Spec.bind (leaves_create hparticipant (by decide) (by decide) ?_ ?_) fun _ => ?_
  · rintro es ⟨-, hack⟩
    exact ⟨_, rfl, rfl, hack⟩
  · rintro - (h | h)
    · exact absurd h (by decide)
    · exact absurd h (by decide)
  have hpublisher := hparticipant.and (lasting_acknowledged (σ := σ) sessionId
    ⟨objectId publisherIdx entityPublisher, entityPublisher, publisherXml,
      some (objectId participantIdx entityParticipant)⟩)
  refine Spec.bind (leaves_create hpublisher (by decide) (by decide) ?_ ?_) fun _ => ?_
  · rintro es ⟨⟨-, hack⟩, -⟩
    exact ⟨_, rfl, rfl, hack⟩
  · rintro - (h | h)
    · exact absurd h (by decide)
    · exact absurd h (by decide)
  apply leaves_pure
  rintro es ⟨⟨⟨-, hpart⟩, hpub⟩, hsub⟩
  exact ⟨⟨_, rfl, rfl, hpart⟩, ⟨_, rfl, rfl, hpub⟩, ⟨_, rfl, rfl, hsub⟩⟩

theorem createPublisher_leaves (M : Type) [Message M] (fuel : Nat) (node : Node) {topic : Bytes}
    (hshort : whole →
      (topicDocument (ddsTopicName topic) (Message.typeName M)).length ≤ 256 ∧
        (dataWriterDocument (ddsTopicName topic) (Message.typeName M)).length ≤ 320) :
    Spec (Sound sessionId whole (NodeKnown sessionId node))
      (createPublisher M fuel node topic : Call T σ (Publisher M))
      (Leaves sessionId whole fun pub => Known sessionId entityDatawriter pub.dwId) := by
  have hnode := lasting_nodeKnown (σ := σ) sessionId node
  unfold createPublisher
  rw [ros2TopicName_eq]
  by_cases hfits : TopicFits topic
  · rw [if_pos hfits, pure_bind]
    refine Spec.bind (leaves_alloc hnode _) fun topicIdx => ?_
    refine Spec.bind (leaves_create hnode (by decide) (length_topicXml_le _ _) ?_ ?_) fun _ => ?_
    · rintro es ⟨hpart, -, -⟩
      exact hpart
    · rintro - (h | h)
      · exact absurd h (by decide)
      · exact absurd h (by decide)
    have htopic := hnode.and (lasting_acknowledged (σ := σ) sessionId
      ⟨objectId topicIdx entityTopic, entityTopic,
        topicXml (ddsTopicName topic) (Message.typeName M),
        some (objectId node.participantIdx entityParticipant)⟩)
    refine Spec.bind (leaves_alloc htopic _) fun dwIdx => ?_
    refine Spec.bind
      (leaves_create htopic (by decide) (length_dataWriterXml_le _ _) ?_ ?_) fun _ => ?_
    · rintro es ⟨⟨-, hpub, -⟩, -⟩
      exact hpub
    · rintro hwhole - es ⟨-, hack⟩
      exact ⟨_, _, _, rfl, (topicXml_eq_iff _ _).mpr (hshort hwhole).1,
        (dataWriterXml_eq_iff _ _).mpr (hshort hwhole).2, hack⟩
    apply leaves_pure
    rintro es ⟨-, hack⟩
    exact ⟨_, rfl, rfl, hack⟩
  · rw [if_neg hfits]
    intro w h
    exact h.leaves fun a ha => by cases ha

theorem prepareSubscription_leaves (fuel : Nat) (node : Node) {topic : Bytes} (s : σ)
    (hshort : whole →
      (topicDocument (ddsTopicName topic) (Message.typeName (Statics.Msg s))).length ≤ 256 ∧
        (dataReaderDocument (ddsTopicName topic) (Message.typeName (Statics.Msg s))).length ≤
          320) :
    Spec (Sound sessionId whole (NodeKnown sessionId node))
      (prepareSubscription fuel node topic s : Call T σ UInt16)
      (Leaves sessionId whole fun _ _ => True) := by
  have hnode := lasting_nodeKnown (σ := σ) sessionId node
  unfold prepareSubscription
  rw [ros2TopicName_eq]
  by_cases hfits : TopicFits topic
  · rw [if_pos hfits, pure_bind]
    refine Spec.bind (leaves_alloc hnode _) fun topicIdx => ?_
    refine Spec.bind (leaves_create hnode (by decide) (length_topicXml_le _ _) ?_ ?_) fun _ => ?_
    · rintro es ⟨hpart, -, -⟩
      exact hpart
    · rintro - (h | h)
      · exact absurd h (by decide)
      · exact absurd h (by decide)
    have htopic := hnode.and (lasting_acknowledged (σ := σ) sessionId
      ⟨objectId topicIdx entityTopic, entityTopic,
        topicXml (ddsTopicName topic) (Message.typeName (Statics.Msg s)),
        some (objectId node.participantIdx entityParticipant)⟩)
    refine Spec.bind (leaves_alloc htopic _) fun drIdx => ?_
    refine Spec.bind
      (leaves_create htopic (by decide) (length_dataReaderXml_le _ _) ?_ ?_) fun _ => ?_
    · rintro es ⟨⟨-, -, hsub⟩, -⟩
      exact hsub
    · rintro hwhole - es ⟨-, hack⟩
      exact ⟨_, _, _, rfl, (topicXml_eq_iff _ _).mpr (hshort hwhole).1,
        (dataReaderXml_eq_iff _ _).mpr (hshort hwhole).2, hack⟩
    have hreader := htopic.and (lasting_acknowledged (σ := σ) sessionId
      ⟨objectId drIdx entityDatareader, entityDatareader,
        dataReaderXml (ddsTopicName topic) (Message.typeName (Statics.Msg s)),
        some (objectId node.subscriberIdx entitySubscriber)⟩)
    refine Spec.bind (leaves_readData hreader ?_) fun _ => ?_
    · rintro es ⟨-, hack⟩
      exact ⟨_, rfl, rfl, hack⟩
    apply leaves_pure
    intro es _
    trivial
  · rw [if_neg hfits]
    intro w h
    exact h.leaves fun a ha => by cases ha

theorem createSubscription_leaves (fuel : Nat) (node : Node) {topic : Bytes} (s : σ)
    (hshort : whole →
      (topicDocument (ddsTopicName topic) (Message.typeName (Statics.Msg s))).length ≤ 256 ∧
        (dataReaderDocument (ddsTopicName topic) (Message.typeName (Statics.Msg s))).length ≤
          320) :
    Spec (Sound sessionId whole (NodeKnown sessionId node))
      (createSubscription fuel node topic s : Call T σ σ)
      (Leaves sessionId whole fun _ _ => True) := by
  intro w h
  rw [createSubscription_eq, run_get_bind]
  split
  · exact h.leaves fun a ha => by cases ha
  · refine leaves_bind (prepareSubscription_leaves fuel node s hshort) (fun drOid w₁ h₁ => ?_) w h
    have hnext := h₁.follows lasting_true ((enter_follows s drOid w₁).mono fun e he => he.unsent)
    exact hnext.leaves fun _ _ _ => trivial

/-- WRITE_DATA for a DataWriter that is known. -/
theorem publish_leaves {M : Type} [Message M] (pub : Publisher M) (m : M) :
    Spec (Sound sessionId whole (Known sessionId entityDatawriter pub.dwId))
      (publish pub m : Call T σ Unit) (Leaves sessionId whole fun _ _ => True) := by
  intro w h
  have hlast := lasting_known (σ := σ) sessionId entityDatawriter pub.dwId
  rcases publish_cases w pub m with ⟨body, buf, hlen, hsent⟩ | ⟨buf, hpanic⟩
  · rw [hsent]
    have hreq := requestOf_writeData w pub hlen
    rw [h.session] at hreq
    have hdep : Depends sessionId whole w.history (writeDataMessage w pub body) :=
      depends_data hreq (by decide) (fun hid => absurd hid (by decide)) fun _ => h.known
    have hsend : Trail w [.sent (writeDataMessage w pub body)]
        (w.sending (writeDataMessage w pub body) buf) := .event rfl (.sent w.router _)
    have hnext := (h.sent hlast hdep hsend).follows hlast
      ((stable_inbound.writeFramed (writeDataMessage w pub body) _).mono fun e he => he.unsent)
    exact hnext.leaves fun _ _ _ => trivial
  · rw [hpanic]
    have hsame : Follows Event.Unsent w (w.setTxBuf buf) := .of_same rfl rfl
    exact (h.follows hlast hsame).leaves fun _ _ _ => trivial

/-- The handles that are passed to a call were returned by earlier ones. -/
def Op.HandlesFrom (earlier : List (Made T σ)) : Op σ → Prop
  | createPublisher _ node _ => ∃ c ∈ earlier, c.outcome = .ok (.node node)
  | createSubscription node _ _ => ∃ c ∈ earlier, c.outcome = .ok (.node node)
  | publish _ pub _ => ∃ c ∈ earlier, c.outcome = .ok (.publisher pub.dwId)
  | _ => True

def OwnHandles (calls : List (Made T σ)) : Prop :=
  Lawful (fun earlier (c : Made T σ) => c.op.HandlesFrom earlier) calls

theorem call_leaves (fuel : Nat) {op : Op σ} (hshort : whole → op.NamesShort) :
    Spec (Sound sessionId whole (op.Needs sessionId)) (op.call fuel : Call T σ (Reply σ))
      (Leaves sessionId whole fun r es => r.Backed sessionId es) := by
  have hdone {α : Type} {f : α → Reply σ} (hf : ∀ a es, (f a).Backed sessionId es) (a : α) :
      Spec (Sound sessionId whole fun _ => True) (pure (f a) : Call T σ (Reply σ))
        (Leaves sessionId whole fun r es => r.Backed sessionId es) :=
    leaves_pure fun es _ => hf a es
  cases op with
  | createNode name =>
    exact leaves_bind (createNode_leaves fuel name) fun node => leaves_pure fun es h => h
  | createPublisher M node topic =>
    exact leaves_bind (createPublisher_leaves M fuel node hshort) fun pub =>
      leaves_pure fun es h => h
  | createSubscription node topic slot =>
    exact leaves_bind (createSubscription_leaves fuel node slot hshort)
      (hdone fun _ _ => trivial)
  | publish M pub msg =>
    exact leaves_bind (publish_leaves pub msg) (hdone fun _ _ => trivial)
  | spinOnce =>
    refine Spec.bind (leaves_silent lasting_true ?_) (hdone fun _ _ => trivial)
    exact spinOnce_follows.mono fun _ _ h => h.mono fun e he => he.unsent
  | tryRecv slot =>
    refine Spec.bind (leaves_silent lasting_true ?_) (hdone fun _ _ => trivial)
    exact (tryRecv_follows slot).mono fun _ _ h => h.mono fun e he => he.unsent

/-- All the handles that a run has returned are backed. -/
theorem runs_sound {w₀ w : World T σ} {calls : List (Made T σ)} (h : Runs w₀ calls w)
    (hstart : Sound sessionId whole (fun _ => True) w₀) (hown : OwnHandles calls)
    (hshort : whole → ∀ c ∈ calls, c.op.NamesShort) :
    Sound sessionId whole (fun es => ∀ c ∈ calls, ∀ r, c.outcome = .ok r →
      r.Backed sessionId es) w := by
  induction h with
  | nil => exact ⟨hstart.session, hstart.lawful, fun c hc => absurd hc List.not_mem_nil⟩
  | @snoc calls c hruns live ih =>
    rw [OwnHandles, lawful_snoc] at hown
    obtain ⟨hbefore, hhandles⟩ := hown
    have hsound := ih hbefore fun hwhole c' hc' =>
      hshort hwhole c' (List.mem_append_left _ hc')
    have hneeds : Sound sessionId whole (c.op.Needs sessionId) c.before := by
      refine ⟨hsound.session, hsound.lawful, ?_⟩
      have hbacked := hsound.known
      revert hhandles
      cases c.op with
      | createPublisher M node topic =>
        rintro ⟨c', hc', hok⟩
        exact hbacked c' hc' _ hok
      | createSubscription node topic slot =>
        rintro ⟨c', hc', hok⟩
        exact hbacked c' hc' _ hok
      | publish M pub msg =>
        rintro ⟨c', hc', hok⟩
        exact hbacked c' hc' _ hok
      | _ => exact fun _ => trivial
    have hafter := call_leaves c.fuel (fun hwhole => hshort hwhole c
      (List.mem_append_right _ (.head _))) c.before hneeds
    refine ⟨hafter.session, hafter.lawful, ?_⟩
    intro c' hc' r hok
    rcases List.mem_append.mp hc' with hin | hlast
    · obtain ⟨es, htrail⟩ := c.trail
      have hold := hsound.known c' hin r hok
      rw [htrail.history]
      exact r.lasting_backed sessionId _ _ hold
    · obtain rfl := List.mem_singleton.mp hlast
      exact hafter.known r hok

/-- Whatever the agent answers, nothing is referred to before it has been acknowledged. -/
theorem dependencies_acknowledged {transport : T} {key : ClientKey} {tasks : List (List σ)}
    {calls : List (Made T σ)} {w : World T σ}
    (h : Runs (start transport sessionId key tasks) calls w) (hown : OwnHandles calls) :
    ∀ before frame after, w.history = before ++ .sent frame :: after →
      Depends sessionId (∀ c ∈ calls, c.op.NamesShort) before frame := by
  intro before frame after heq
  have hsound := runs_sound h ⟨rfl, lawful_nil, trivial⟩ hown fun hshort => hshort
  exact hsound.lawful before _ after heq frame rfl

end

/-- A node, a publisher on it and a sample, with everything granted. -/
def ownNode [Target] : Made Wire Unit :=
  ⟨.createNode (ascii "n"), 4, answering ((List.range' 1 5).map fun r => statusFrame (.ofNat r) 0)⟩

def ownPublisher [Target] : Made Wire Unit :=
  ⟨.createPublisher Float32 ⟨1, 1, 1⟩ (ascii "/a"), 4, ownNode.after⟩

def ownSample [Target] : Made Wire Unit := ⟨.publish Float32 ⟨0x15⟩ ⟨0⟩, 0, ownPublisher.after⟩

theorem ownPublisher_before [Target] : ownPublisher.before = ownNode.after := by
  rw [ownPublisher]

theorem ownSample_before [Target] : ownSample.before = ownPublisher.after := by
  rw [ownSample]

theorem own_calls_run [Target] (hnode : ownNode.outcome ≠ .panic)
    (hpub : ownPublisher.outcome ≠ .panic) :
    Runs ownNode.before [ownNode, ownPublisher, ownSample] ownSample.after := by
  have hfirst : Runs ownNode.before [ownNode, ownPublisher] ownSample.before := by
    rw [ownSample_before]
    exact Runs.pair ownPublisher_before hnode
  apply Runs.snoc ownSample hfirst
  intro c hc
  rcases List.mem_cons.mp hc with rfl | hc
  · exact hnode
  · rw [List.mem_singleton.mp hc]
    exact hpub

theorem sample_after_acknowledged : letI := rp2040 true
    ownPublisher.outcome = .ok (.publisher 0x15) ∧
      ∀ before frame after, ownSample.after.history = before ++ .sent frame :: after →
        Depends 0x81 (∀ c ∈ [ownNode, ownPublisher, ownSample], c.op.NamesShort) before frame := by
  have hnode : letI := rp2040 true; ownNode.outcome = .ok (.node ⟨1, 1, 1⟩) := by decide +kernel
  have hpub : letI := rp2040 true; ownPublisher.outcome = .ok (.publisher 0x15) := by
    decide +kernel
  generalize rp2040 true = target at hnode hpub ⊢
  have hruns := own_calls_run (by rw [hnode]; simp) (by rw [hpub]; simp)
  have hown : OwnHandles [ownNode, ownPublisher, ownSample] := by
    have h₁ : OwnHandles [ownNode] := lawful_nil.snoc trivial
    have h₂ : OwnHandles [ownNode, ownPublisher] := h₁.snoc ⟨ownNode, .head _, hnode⟩
    exact h₂.snoc ⟨ownPublisher, .tail _ (.head _), hpub⟩
  refine ⟨hpub, ?_⟩
  generalize ownSample.after = w at hruns ⊢
  exact dependencies_acknowledged hruns hown

end MicroXrceDds
