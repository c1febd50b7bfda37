import MicroXrceDds.Creations
import MicroXrceDds.Registration

/-!
# The documents of the calls

Whether the XML of a CREATE is all there. The formatter's result is thrown away, so a
document that is too long for its buffer goes out cut short.
-/
namespace MicroXrceDds

open Prog Session

variable {T σ : Type} [Statics σ]

/-- The document for a CREATE of one kind, and the room there is for it. -/
structure Document where
  kind : UInt8
  cap : Nat
  text : Bytes

namespace Op

/-- The documents that a call is to send. Two of them are constants of the program. -/
def documents : Op σ → List Document
  | createNode name => [⟨entityParticipant, 128, participantDocument name⟩,
      ⟨entityPublisher, publisherXml.length, publisherXml⟩,
      ⟨entitySubscriber, subscriberXml.length, subscriberXml⟩]
  | createPublisher M _ topic =>
      [⟨entityTopic, 256, topicDocument (ddsTopicName topic) (Message.typeName M)⟩,
        ⟨entityDatawriter, 320, dataWriterDocument (ddsTopicName topic) (Message.typeName M)⟩]
  | createSubscription _ topic slot =>
      [⟨entityTopic, 256,
          topicDocument (ddsTopicName topic) (Message.typeName (Statics.Msg slot))⟩,
        ⟨entityDatareader, 320,
          dataReaderDocument (ddsTopicName topic) (Message.typeName (Statics.Msg slot))⟩]
  | _ => []

/-- The topic fits behind its prefix. -/
def TopicFits : Op σ → Prop
  | createPublisher _ _ topic => MicroXrceDds.TopicFits topic
  | createSubscription _ topic _ => MicroXrceDds.TopicFits topic
  | _ => True

/-- The document of a participant leaves 64 bytes for the name, that of a topic 196 bytes for
the topic and the type. A topic that does not fit is refused, unless the table is full. -/
def TextFits (w : World T σ) : Op σ → Prop
  | createNode name => name.length ≤ 64
  | createPublisher M _ topic => MicroXrceDds.TopicFits topic →
      (ddsTopicName topic).length + (Message.typeName M).length ≤ 196
  | createSubscription _ topic slot =>
      if MicroXrceDds.TopicFits topic then
        (ddsTopicName topic).length + (Message.typeName (Statics.Msg slot)).length ≤ 196
      else w.session.subscriptions.isFull = false
  | _ => True

end Op

/-- The frame is a CREATE for this entity. -/
def Event.CreatesEntity (sessionId : UInt8) (entity : Creation) : Event σ → Prop
  | .sent frame => ∃ req, creationOf sessionId frame = some (req, entity)
  | _ => False

section
variable [Target] [ReadWrite T]

/-- Every CREATE of the call carries a whole document, and a call with a document or a topic
that does not fit reports that, without the CREATE for it. -/
structure Made.Uncut (c : Made T σ) : Prop where
  whole : ∀ e ∈ c.events, ∀ entity, e.CreatesEntity c.before.session.sessionId entity →
    ∃ d ∈ c.op.documents, d.kind = entity.kind ∧ d.text = entity.xml
  refused : ∀ d ∈ c.op.documents, d.cap < d.text.length ∨ ¬ c.op.TopicFits →
    c.outcome = .err .bufferTooSmall ∧ ∀ e ∈ c.events, ∀ entity,
      e.CreatesEntity c.before.session.sessionId entity → entity.kind ≠ d.kind

end

/-- A CREATE with this event has one of these documents. -/
def Event.Carries (sessionId : UInt8) (docs : List Document) (e : Event σ) : Prop :=
  ∀ entity, e.CreatesEntity sessionId entity →
    ∃ d ∈ docs, d.kind = entity.kind ∧ d.text = entity.xml

def Carrying (docs : List Document) (w w' : World T σ) : Prop :=
  Follows (Event.Carries w.session.sessionId docs) w w'

variable {docs : List Document}

theorem Carrying.refl (w : World T σ) : Carrying docs w w := Follows.refl w

theorem Carrying.trans {w w₁ w₂ : World T σ} (h : Carrying docs w w₁) (h' : Carrying docs w₁ w₂) :
    Carrying docs w w₂ := by
  rw [Carrying, Follows.sessionId h] at h'
  exact Follows.trans h h'

/-- Where no CREATE is sent. -/
theorem Carrying.of_follows {P : Event σ → Prop} {w w' : World T σ} (h : Follows P w w')
    (hP : ∀ e : Event σ, P e → ∀ entity, ¬ e.CreatesEntity w.session.sessionId entity) :
    Carrying docs w w' :=
  h.mono fun e he entity hentity => absurd hentity (hP e he entity)

theorem Event.Inbound.creates_none {e : Event σ} (h : e.Inbound) {sessionId : UInt8}
    (entity : Creation) : ¬ e.CreatesEntity sessionId entity := by
  cases e <;> first | exact h.elim | exact id

theorem Event.Entering.creates_none {e : Event σ} (h : e.Entering) {sessionId : UInt8}
    (entity : Creation) : ¬ e.CreatesEntity sessionId entity := by
  cases e <;> first | exact h.elim | exact id

/-- A request of another kind is no CREATE. -/
theorem sent_creates_none {sessionId id : UInt8} {frame : Bytes} {req oid : UInt16}
    (h : requestOf sessionId frame = some (id, req, oid)) (hid : id ≠ submsgCreate)
    (entity : Creation) : ¬ (Event.sent frame : Event σ).CreatesEntity sessionId entity := by
  rintro ⟨req', hcreation⟩
  rw [creationOf_request h hid] at hcreation
  cases hcreation

theorem Creates.carrying {entity : Creation} {w w' : World T σ} (h : Creates entity w w')
    {d : Document} (hd : d ∈ docs) (hkind : d.kind = entity.kind) (htext : d.text = entity.xml) :
    Carrying docs w w' := by
  obtain ⟨frame, w₁, hcreation, hsend, hwait⟩ := h
  refine (Follows.of_trail hsend ?_).trans (hwait.mono fun e he entity hentity =>
    absurd hentity (he.creates_none entity))
  rintro entity' ⟨req, hentity⟩
  obtain rfl : entity = entity' := by
    rw [hcreation] at hentity
    exact congrArg Prod.snd (Option.some.inj hentity)
  exact ⟨d, hd, hkind, htext⟩

/-- Among what has happened is a CREATE of this kind. -/
def SendsKind (kind : UInt8) (w w' : World T σ) : Prop :=
  ∃ es e entity, e ∈ es ∧ e.CreatesEntity w.session.sessionId entity ∧ entity.kind = kind ∧
    Trail w es w'

theorem SendsKind.before {kind : UInt8} {P : Event σ → Prop} {w w₁ w₂ : World T σ}
    (h : Follows P w w₁) (h' : SendsKind kind w₁ w₂) : SendsKind kind w w₂ := by
  obtain ⟨es, e, entity, he, hentity, hkind, htrail⟩ := h'
  rw [h.sessionId] at hentity
  obtain ⟨es₀, -, htrail₀⟩ := h
  exact ⟨es₀ ++ es, e, entity, List.mem_append_right _ he, hentity, hkind, htrail₀.trans htrail⟩

theorem SendsKind.after {kind : UInt8} {P : Event σ → Prop} {w w₁ w₂ : World T σ}
    (h : SendsKind kind w w₁) (h' : Follows P w₁ w₂) : SendsKind kind w w₂ := by
  obtain ⟨es, e, entity, he, hentity, hkind, htrail⟩ := h
  obtain ⟨es', -, htrail'⟩ := h'
  exact ⟨es ++ es', e, entity, List.mem_append_left _ he, hentity, hkind, htrail.trans htrail'⟩

theorem Creates.sendsKind {entity : Creation} {w w' : World T σ} (h : Creates entity w w') :
    SendsKind entity.kind w w' := by
  obtain ⟨frame, w₁, hcreation, hsend, hwait⟩ := h
  exact SendsKind.after ⟨[.sent frame], .sent frame, entity, .head _, ⟨_, hcreation⟩, rfl,
    hsend⟩ hwait

/-- Any events at all. -/
theorem stable_any : Stable (T := T) (Follows (σ := σ) fun _ => True) :=
  stable_follows fun _ _ => trivial

/-- The call panics, or it sends a CREATE of this kind. -/
def Attempts {α : Type} (kind : UInt8) (p : Call T σ α) : Prop :=
  ∀ w, (p.run w).1 = .panic ∨ SendsKind kind w (p.run w).2

section
variable {α β : Type} {kind : UInt8}

theorem attempts_alloc [Target] {k : EntityKind} {f : UInt16 → Call T σ α}
    (hf : ∀ idx, Attempts kind (f idx)) : Attempts kind (alloc k >>= f) := by
  intro w
  rcases alloc_cases k w with hrun | ⟨hrun, -⟩
  · rw [bind_ok hrun]
    have halloc : Follows (fun _ => True) w (w.allocating k) :=
      .of_trail (w.allocating_trail k) trivial
    exact (hf _ _).imp_right (SendsKind.before halloc)
  · rw [bind_abort hrun rfl]
    exact .inl rfl

theorem panic_bind {p : Call T σ α} {w : World T σ} (h : (p.run w).1 = .panic)
    (f : α → Call T σ β) : ((p >>= f).run w).1 = .panic := by
  rw [bind_abort (Prod.ext h rfl) rfl]
  rfl

theorem Attempts.bind {p : Call T σ α} (hp : Attempts kind p) {f : α → Call T σ β}
    (hf : ∀ a, Within (Follows fun _ => True) (f a)) : Attempts kind (p >>= f) := by
  intro w
  rcases hp w with hpanic | hsends
  · exact .inl (panic_bind hpanic f)
  · refine .inr ?_
    rcases bind_cases p f w with ⟨a, w₁, hrun, hbind⟩ | ⟨o, w₁, hrun, -, hbind⟩
    · rw [hrun] at hsends
      rw [hbind]
      exact hsends.after (hf a w₁)
    · rw [hrun] at hsends
      rw [hbind]
      exact hsends

theorem attempts_create {entity : Creation} {p : Call T σ Unit} (hp : Within (Creates entity) p)
    {f : Unit → Call T σ α} (hf : ∀ a, Within (Follows fun _ => True) (f a)) :
    Attempts entity.kind (p >>= f) :=
  Attempts.bind (fun w => .inr (hp w).sendsKind) hf

end

section
variable [Target]

theorem alloc_carrying (kind : EntityKind) :
    Within (Carrying docs) (alloc kind : Call T σ UInt16) := by
  intro w
  exact alloc_follows (P := Event.Carries w.session.sessionId docs)
    (fun _ _ h => h.elim) w

variable [ReadWrite T]

theorem createNode_carrying (fuel : Nat) {name : Bytes} (hfits : name.length ≤ 64) :
    Within (Carrying (Op.createNode name : Op σ).documents)
      (createNode fuel name : Call T σ Node) := by
  have hwhole : participantXml name = participantDocument name :=
    (participantXml_eq_iff name).mpr (by rw [length_participantDocument]; omega)
  refine createNode_within Carrying.refl (fun _ _ _ => Carrying.trans) alloc_carrying ?_ ?_ ?_
  · intro idx w
    exact (createParticipantEntity_creates fuel idx (length_participantXml_le name) w).carrying
      (.head _) rfl hwhole.symm
  · intro idx parent w
    exact (createWithParentEntity_creates fuel _ _ (by decide) (by decide) w).carrying
      (.tail _ (.head _)) rfl rfl
  · intro idx parent w
    exact (createWithParentEntity_creates fuel _ _ (by decide) (by decide) w).carrying
      (.tail _ (.tail _ (.head _))) rfl rfl

theorem createPublisher_carrying (M : Type) [Message M] (fuel : Nat) (node : Node) {topic : Bytes}
    (hfits : TopicFits topic → (ddsTopicName topic).length + (Message.typeName M).length ≤ 196) :
    Within (Carrying (Op.createPublisher M node topic : Op σ).documents)
      (createPublisher M fuel node topic : Call T σ (Publisher M)) := by
  refine createPublisher_within Carrying.refl (fun _ _ _ => Carrying.trans) M alloc_carrying ?_ ?_
  · intro htopic idx w
    have hwhole := (topicXml_eq_iff (ddsTopicName topic) (Message.typeName M)).mpr
      (by rw [length_topicDocument]; have h := hfits htopic; omega)
    exact (createWithParentEntity_creates fuel _ _ (by decide) (length_topicXml_le _ _) w).carrying
      (.head _) rfl hwhole.symm
  · intro htopic idx w
    have hwhole := (dataWriterXml_eq_iff (ddsTopicName topic) (Message.typeName M)).mpr
      (by rw [length_dataWriterDocument]; have h := hfits htopic; omega)
    exact (createWithParentEntity_creates fuel _ _ (by decide) (length_dataWriterXml_le _ _)
      w).carrying (.tail _ (.head _)) rfl hwhole.symm

theorem createSubscription_carrying (fuel : Nat) (node : Node) {topic : Bytes} (s : σ)
    (hfits : TopicFits topic →
      (ddsTopicName topic).length + (Message.typeName (Statics.Msg s)).length ≤ 196) :
    Within (Carrying (Op.createSubscription node topic s).documents)
      (createSubscription fuel node topic s : Call T σ σ) := by
  refine createSubscription_within Carrying.refl (fun _ _ _ => Carrying.trans) ?_ ?_
  · refine prepareSubscription_within Carrying.refl (fun _ _ _ => Carrying.trans) alloc_carrying
      ?_ ?_ ?_
    · intro htopic idx w
      have hwhole := (topicXml_eq_iff (ddsTopicName topic)
        (Message.typeName (Statics.Msg s))).mpr
          (by rw [length_topicDocument]; have h := hfits htopic; omega)
      exact (createWithParentEntity_creates fuel _ _ (by decide) (length_topicXml_le _ _)
        w).carrying (.head _) rfl hwhole.symm
    · intro htopic idx w
      have hwhole := (dataReaderXml_eq_iff (ddsTopicName topic)
        (Message.typeName (Statics.Msg s))).mpr
          (by rw [length_dataReaderDocument]; have h := hfits htopic; omega)
      exact (createWithParentEntity_creates fuel _ _ (by decide) (length_dataReaderXml_le _ _)
        w).carrying (.tail _ (.head _)) rfl hwhole.symm
    · intro oid w
      obtain ⟨frame, w₁, hreq, hsend, hwait⟩ := sendReadData_asks fuel oid w
      exact (Carrying.of_follows (.of_trail (P := fun e => e = .sent frame) hsend rfl)
        fun e he => he ▸ sent_creates_none hreq (by decide)).trans
          (.of_follows hwait fun e he => he.creates_none)
  · intro drOid w
    exact .of_follows (enter_follows s drOid w) fun e he => he.creates_none

theorem publish_carrying {M : Type} [Message M] (pub : Publisher M) (m : M) :
    Within (Carrying docs) (publish pub m : Call T σ Unit) := by
  intro w
  refine .of_follows (publish_follows pub m w) ?_
  rintro e (he | ⟨frame, req, oid, rfl, hreq⟩)
  · exact he.creates_none
  · exact sent_creates_none hreq (by decide)

/-- A call whose texts fit sends whole documents. -/
theorem call_carrying (fuel : Nat) {op : Op σ} {w : World T σ} (hfits : op.TextFits w) :
    Carrying op.documents w ((op.call fuel).run w).2 := by
  cases op with
  | createNode name =>
    rw [Op.call, state_map]
    exact createNode_carrying fuel hfits w
  | createPublisher M node topic =>
    rw [Op.call, state_map]
    exact createPublisher_carrying M fuel node hfits w
  | createSubscription node topic slot =>
    rw [Op.call, state_map]
    refine createSubscription_carrying fuel node slot (fun htopic => ?_) w
    exact (if_pos htopic).mp hfits
  | publish M pub msg =>
    rw [Op.call, state_map]
    exact publish_carrying pub msg w
  | spinOnce =>
    rw [Op.call, state_map]
    exact .of_follows (spinOnce_follows w) fun e he => he.creates_none
  | tryRecv slot =>
    rw [Op.call, state_map]
    exact .of_follows (tryRecv_follows slot w) fun e he => he.creates_none

theorem createWithParentEntity_any (fuel : Nat) (oid : UInt16) (kind : UInt8) {xml : Bytes}
    (parent : UInt16) (hxml : xml.length ≤ 320) : Within (Follows fun _ => True)
      (createWithParentEntity fuel oid kind xml parent : Call T σ Unit) :=
  (createWithParentEntity_quiet fuel oid kind parent hxml).mono
    fun _ _ h => h.mono fun _ _ => trivial

theorem createNode_attempts (fuel : Nat) (name : Bytes) :
    Attempts entityParticipant (createNode fuel name : Call T σ Node) := by
  refine attempts_alloc fun participantIdx => ?_
  refine attempts_alloc fun publisherIdx => ?_
  refine attempts_alloc fun subscriberIdx => ?_
  refine attempts_create (createParticipantEntity_creates fuel participantIdx
    (length_participantXml_le name)) fun _ => ?_
  refine stable_any.bind (createWithParentEntity_any fuel _ _ _ (by decide)) fun _ => ?_
  refine stable_any.bind (createWithParentEntity_any fuel _ _ _ (by decide)) fun _ => ?_
  exact stable_any.pure _

theorem createPublisher_attempts (M : Type) [Message M] (fuel : Nat) (node : Node)
    {topic : Bytes} (hfits : TopicFits topic) :
    Attempts entityTopic (createPublisher M fuel node topic : Call T σ (Publisher M)) := by
  unfold createPublisher
  rw [ros2TopicName_eq, if_pos hfits, pure_bind]
  refine attempts_alloc fun topicIdx => ?_
  refine attempts_create (createWithParentEntity_creates fuel _ _ (by decide)
    (length_topicXml_le _ _)) fun _ => ?_
  refine stable_any.bind (alloc_follows fun _ => trivial) fun dwIdx => ?_
  refine stable_any.bind
    (createWithParentEntity_any fuel _ _ _ (length_dataWriterXml_le _ _)) fun _ => ?_
  exact stable_any.pure _

theorem prepareSubscription_attempts (fuel : Nat) (node : Node) {topic : Bytes} (s : σ)
    (hfits : TopicFits topic) :
    Attempts entityTopic (prepareSubscription fuel node topic s : Call T σ UInt16) := by
  unfold prepareSubscription
  rw [ros2TopicName_eq, if_pos hfits, pure_bind]
  refine attempts_alloc fun topicIdx => ?_
  refine attempts_create (createWithParentEntity_creates fuel _ _ (by decide)
    (length_topicXml_le _ _)) fun _ => ?_
  refine stable_any.bind (alloc_follows fun _ => trivial) fun drIdx => ?_
  refine stable_any.bind
    (createWithParentEntity_any fuel _ _ _ (length_dataReaderXml_le _ _)) fun _ => ?_
  refine stable_any.bind ((sendReadData_asks fuel _).mono fun _ _ h => h.quiet.mono
    fun _ _ => trivial) fun _ => ?_
  exact stable_any.pure _

theorem createSubscription_attempts (fuel : Nat) (node : Node) {topic : Bytes} (s : σ)
    (hfits : TopicFits topic) {w : World T σ} (hroom : w.session.subscriptions.isFull = false) :
    ((createSubscription fuel node topic s).run w).1 = .panic ∨
      SendsKind entityTopic w ((createSubscription fuel node topic s).run w).2 := by
  rw [createSubscription_eq, run_get_bind, hroom]
  refine (prepareSubscription_attempts fuel node s hfits).bind (fun drOid => ?_) w
  exact (enter_follows s drOid).mono fun _ _ h => h.mono fun _ _ => trivial

theorem Made.Uncut.fits {c : Made T σ} (h : c.Uncut) : c.op.TextFits c.before := by
  -- What the claim excludes for a document, the call does: it panics or sends the CREATE.
  have hnever (d : Document) (hd : d ∈ c.op.documents)
      (hbad : d.cap < d.text.length ∨ ¬ c.op.TopicFits) :
      ¬ (c.outcome = .panic ∨ SendsKind d.kind c.before c.after) := by
    obtain ⟨hout, hunsent⟩ := h.refused d hd hbad
    rintro (hpanic | ⟨es, e, entity, he, hentity, hkind, htrail⟩)
    · rw [hpanic] at hout
      cases hout
    · rw [Made.events_eq htrail] at hunsent
      exact hunsent e he entity hentity hkind
  obtain ⟨op, fuel, w⟩ := c
  cases op with
  | createNode name =>
    by_contra hlong
    have hlen : 64 < name.length := Nat.lt_of_not_le hlong
    refine hnever _ (.head _) (.inl ?_) ?_
    · simp only [length_participantDocument]
      omega
    · rw [Made.after, Made.outcome, Op.call, state_map]
      exact (createNode_attempts fuel name w).imp_left fun hpanic => panic_bind hpanic _
  | createPublisher M node topic =>
    intro htopic
    by_contra hlong
    refine hnever _ (.head _) (.inl ?_) ?_
    · simp only [length_topicDocument]
      omega
    · rw [Made.after, Made.outcome, Op.call, state_map]
      exact (createPublisher_attempts M fuel node htopic w).imp_left
        fun hpanic => panic_bind hpanic _
  | createSubscription node topic slot =>
    have hroom (d : Document) (hd : d ∈ (Op.createSubscription node topic slot).documents)
        (hbad : d.cap < d.text.length ∨ ¬ TopicFits topic) :
        w.session.subscriptions.isFull = false := by
      by_contra hfull
      have hout := (h.refused d hd hbad).1
      have hrun : (createSubscription fuel node topic slot).run w =
          (.err .tooManySubscriptions, w) := by
        rw [createSubscription_eq, run_get_bind, if_pos (by simpa using hfull)]
        rfl
      rw [Made.outcome, Op.call, bind_abort hrun rfl] at hout
      cases hout
    by_cases htopic : TopicFits topic
    · refine (if_pos htopic).mpr ?_
      by_contra hlong
      have hcut : 256 < (topicDocument (ddsTopicName topic)
          (Message.typeName (Statics.Msg slot))).length := by
        rw [length_topicDocument]
        omega
      refine hnever _ (.head _) (.inl hcut) ?_
      rw [Made.after, Made.outcome, Op.call, state_map]
      exact (createSubscription_attempts fuel node slot htopic
        (hroom _ (.head _) (.inl hcut))).imp_left fun hpanic => panic_bind hpanic _
    · exact (if_neg htopic).mpr (hroom _ (.head _) (.inr htopic))
  | _ => trivial

/-- Where the texts fit, what does not fit is a topic, and it is refused before anything is
sent. -/
theorem refused_of_fits {c : Made T σ} (hfits : c.op.TextFits c.before) {d : Document}
    (hd : d ∈ c.op.documents) (hbad : d.cap < d.text.length ∨ ¬ c.op.TopicFits) :
    c.outcome = .err .bufferTooSmall ∧ c.after = c.before := by
  obtain ⟨op, fuel, w⟩ := c
  cases op with
  | createNode name =>
    have hlen : name.length ≤ 64 := hfits
    have hroom : d.text.length ≤ d.cap := by
      simp only [Op.documents, List.mem_cons, List.not_mem_nil, or_false] at hd
      rcases hd with rfl | rfl | rfl
      · simp only [length_participantDocument]
        omega
      · exact Nat.le_refl _
      · exact Nat.le_refl _
    exact absurd hroom (Nat.not_le_of_lt (hbad.resolve_right fun h => h trivial))
  | createPublisher M node topic =>
    by_cases htopic : TopicFits topic
    · have hlen := hfits htopic
      have hroom : d.text.length ≤ d.cap := by
        simp only [Op.documents, List.mem_cons, List.not_mem_nil, or_false] at hd
        rcases hd with rfl | rfl
        · simp only [length_topicDocument]
          omega
        · simp only [length_dataWriterDocument]
          omega
      exact absurd hroom (Nat.not_le_of_lt (hbad.resolve_right fun h => h htopic))
    · have hrun := createPublisher_refused M fuel node htopic w
      rw [Made.outcome, Made.after, Op.call, bind_abort hrun rfl]
      exact ⟨rfl, rfl⟩
  | createSubscription node topic slot =>
    by_cases htopic : TopicFits topic
    · have hlen := (if_pos htopic).mp hfits
      have hroom : d.text.length ≤ d.cap := by
        simp only [Op.documents, List.mem_cons, List.not_mem_nil, or_false] at hd
        rcases hd with rfl | rfl
        · simp only [length_topicDocument]
          omega
        · simp only [length_dataReaderDocument]
          omega
      exact absurd hroom (Nat.not_le_of_lt (hbad.resolve_right fun h => h htopic))
    · have hroom : w.session.subscriptions.isFull = false := (if_neg htopic).mp hfits
      have hrun : (createSubscription fuel node topic slot).run w =
          (.err .bufferTooSmall, w) := by
        rw [createSubscription_eq, run_get_bind, hroom, prepareSubscription, ros2TopicName_eq,
          if_neg htopic]
        rfl
      rw [Made.outcome, Made.after, Op.call, bind_abort hrun rfl]
      exact ⟨rfl, rfl⟩
  | _ => cases hd

theorem Made.uncut_of_fits {c : Made T σ} (hfits : c.op.TextFits c.before) : c.Uncut := by
  constructor
  · obtain ⟨es, hes, htrail⟩ := call_carrying c.fuel hfits
    rw [Made.events_eq htrail]
    exact fun e he entity hentity => hes e he entity hentity
  · intro d hd hbad
    obtain ⟨hout, hsame⟩ := refused_of_fits hfits hd hbad
    refine ⟨hout, ?_⟩
    have hnone : c.events = [] := by rw [Made.events, hsame, List.drop_length]
    rw [hnone]
    exact fun e he => absurd he List.not_mem_nil

/-- No document of a call is cut short exactly if its texts fit, and then the documents tell
the nodes apart. -/
theorem documents_whole_iff : (∀ c : Made T σ, c.Uncut ↔ c.op.TextFits c.before) ∧
    ∀ name name' : Bytes, name.length ≤ 64 → name'.length ≤ 64 →
      (participantXml name = participantXml name' ↔ name = name') := by
  constructor
  · intro c
    exact ⟨Made.Uncut.fits, Made.uncut_of_fits⟩
  · intro name name' h h'
    exact ⟨participantXml_inj h h', congrArg participantXml⟩

end

/-- A node with a name of 99 letters, for which the agent grants everything. -/
def longName [Target] (letter : UInt8) : Made Wire Unit :=
  ⟨.createNode (List.replicate 99 letter), 4,
    answering ((List.range' 1 3).map fun r => statusFrame (.ofNat r) 0)⟩

/-- The call succeeds with a document that stops before the name, the same for every such
name. -/
theorem long_name_cut : letI := rp2040 true
    (longName 0x61).outcome.isOk = true ∧ ¬ (longName 0x61).Uncut ∧
      participantXml (List.replicate 99 0x61) = participantXml (List.replicate 99 0x62) := by
  have hok : letI := rp2040 true; (longName 0x61).outcome.isOk = true := by decide +kernel
  let target := rp2040 true
  refine ⟨hok, fun h => ?_, by decide⟩
  have hlen : 99 ≤ 64 := h.fits
  exact absurd hlen (by decide)

end MicroXrceDds
