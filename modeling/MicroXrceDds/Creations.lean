import MicroXrceDds.Run

/-!
# What a CREATE says

The entity that a CREATE asks for, read back from the frame, and the XML documents that the
session means to put into it.
-/
namespace MicroXrceDds

open Prog Session LittleEndian

/-- What a CREATE asks for; a participant has no parent. -/
structure Creation where
  oid : UInt16
  kind : UInt8
  xml : Bytes
  parent : Option UInt16
  deriving DecidableEq, Repr

def parentIn : Bytes → Option UInt16
  | hi :: lo :: _ => some (u16FromBe hi lo)
  | _ => none

/-- The request id and the entity of a CREATE payload. The XML is a string with its length in
front and a zero behind. -/
def creationIn : Bytes → Option (UInt16 × Creation)
  | rhi :: rlo :: ohi :: olo :: kind :: _ :: _ :: _ :: l₀ :: l₁ :: l₂ :: l₃ :: rest =>
    let len := leNat [l₀, l₁, l₂, l₃] - 1
    some (u16FromBe rhi rlo, ⟨u16FromBe ohi olo, kind, rest.take len,
      if kind = entityParticipant then none else parentIn (rest.drop (len + 1))⟩)
  | _ => none

def creationOf (sessionId : UInt8) (frame : Bytes) : Option (UInt16 × Creation) :=
  match submessageOf sessionId frame with
  | some (id, payload) => if id = submsgCreate then creationIn payload else none
  | none => none

theorem creationOf_message {sessionId flags : UInt8} {seq : UInt16} {key : ClientKey}
    {payload : Bytes} (h : payload.length < 2 ^ 16) :
    creationOf sessionId (message sessionId seq key submsgCreate flags payload) =
      creationIn payload := by
  simp only [creationOf, submessageOf_message h, if_pos]

theorem creationOf_other {sessionId id : UInt8} {frame payload : Bytes}
    (h : submessageOf sessionId frame = some (id, payload)) (hid : id ≠ submsgCreate) :
    creationOf sessionId frame = none := by
  simp only [creationOf, h, if_neg hid]

/-- A request of another kind creates nothing. -/
theorem creationOf_request {sessionId id : UInt8} {frame : Bytes} {req oid : UInt16}
    (h : requestOf sessionId frame = some (id, req, oid)) (hid : id ≠ submsgCreate) :
    creationOf sessionId frame = none := by
  unfold requestOf at h
  split at h
  · next id' rhi rlo ohi olo rest hsub =>
    have hid' : id' = id := congrArg Prod.fst (Option.some.inj h)
    exact creationOf_other hsub (hid' ▸ hid)
  · cases h

theorem creationIn_start (req oid : UInt16) (kind : UInt8) {xml : Bytes} (rest : Bytes)
    (h : xml.length + 1 < 2 ^ 32) : creationIn (createStart req oid kind xml ++ rest) =
      some (req, ⟨oid, kind, xml, if kind = entityParticipant then none else parentIn rest⟩) := by
  have hlen := leNat_leBytes_of_lt (w := 4) h
  simp only [leBytes] at hlen
  simp only [createStart, cdrText, leBytes, requestIdBeBytes, objectIdBeBytes, List.append_assoc,
    List.cons_append, List.nil_append, creationIn, hlen, Nat.add_sub_cancel, u16FromBe_bytes,
    List.take_left]
  rw [List.drop_append, List.drop_eq_nil_of_le (Nat.le_succ _), Nat.add_sub_cancel_left]
  rfl

theorem creationIn_child (req oid : UInt16) {kind : UInt8} {xml : Bytes} (parent : UInt16)
    (hkind : kind ≠ entityParticipant) (h : xml.length + 1 < 2 ^ 32) :
    creationIn (childPayload req oid kind xml parent) =
      some (req, ⟨oid, kind, xml, some parent⟩) := by
  have hparent : parentIn (objectIdBeBytes parent) = some parent :=
    congrArg some (u16FromBe_bytes parent)
  rw [childPayload, creationIn_start req oid kind _ h, if_neg hkind, hparent]

theorem creationIn_participant (req oid : UInt16) {xml : Bytes} (domainId : Int16)
    (h : xml.length + 1 < 2 ^ 32) : creationIn (participantPayload req oid xml domainId) =
      some (req, ⟨oid, entityParticipant, xml, none⟩) := by
  rw [participantPayload, padTo, List.append_assoc, creationIn_start req oid _ _ h, if_pos rfl]

/-- A CREATE for this entity goes out under the next request id, and after that only frames
come in. -/
def Creates {T σ : Type} [Statics σ] (entity : Creation) (w w' : World T σ) : Prop :=
  ∃ frame w₁, creationOf w.session.sessionId frame = some (w.session.reqId, entity) ∧
    Trail w [.sent frame] w₁ ∧ Follows Event.Inbound w₁ w'

section
variable {T σ : Type} [Statics σ]

theorem creationOf_child {w : World T σ} (oid : UInt16) {kind : UInt8} {xml : Bytes}
    (parent : UInt16) (hkind : kind ≠ entityParticipant) (hxml : xml.length ≤ 320) :
    creationOf w.session.sessionId (w.request submsgCreate flagsCreate fun req =>
      childPayload req oid kind xml parent) =
        some (w.session.reqId, ⟨oid, kind, xml, some parent⟩) := by
  rw [World.request, creationOf_message (by rw [length_childPayload]; omega)]
  exact creationIn_child _ oid parent hkind (by omega)

theorem creationOf_participant {w : World T σ} (oid : UInt16) {xml : Bytes}
    (hxml : xml.length ≤ 320) :
    creationOf w.session.sessionId (w.request submsgCreate flagsCreate fun req =>
      participantPayload req oid xml 0) =
        some (w.session.reqId, ⟨oid, entityParticipant, xml, none⟩) := by
  have hlen := length_participantPayload_le w.session.reqId oid xml 0
  rw [World.request, creationOf_message (by omega)]
  exact creationIn_participant _ oid 0 (by omega)

variable [Target] [ReadWrite T]

theorem createWithParentEntity_creates (fuel : Nat) (oid : UInt16) {kind : UInt8} {xml : Bytes}
    (parent : UInt16) (hkind : kind ≠ entityParticipant) (hxml : xml.length ≤ 320) :
    Within (Creates ⟨oid, kind, xml, some parent⟩)
      (createWithParentEntity fuel oid kind xml parent : Call T σ Unit) := by
  intro w
  obtain ⟨w₁, hsend, hwait⟩ :=
    sendRequest_trail fuel (requests_createWithParent oid kind parent hxml).writes w
  exact ⟨_, w₁, creationOf_child oid parent hkind hxml, hsend, hwait⟩

theorem createParticipantEntity_creates (fuel : Nat) (idx : UInt16) {xml : Bytes}
    (hxml : xml.length ≤ 320) :
    Within (Creates ⟨objectId idx entityParticipant, entityParticipant, xml, none⟩)
      (createParticipantEntity fuel idx xml : Call T σ Unit) := by
  intro w
  obtain ⟨w₁, hsend, hwait⟩ := sendRequest_trail fuel
    (requests_createParticipant (objectId idx entityParticipant) hxml).writes w
  exact ⟨_, w₁, creationOf_participant _ hxml, hsend, hwait⟩

end

def participantDocument (name : Bytes) : Bytes :=
  ascii "<dds><participant><rtps><name>" ++ name ++ ascii "</name></rtps></participant></dds>"

def topicDocument (ddsTopic typeName : Bytes) : Bytes :=
  ascii "<dds><topic><name>" ++ ddsTopic ++ ascii "</name><dataType>" ++ typeName ++
    ascii "</dataType></topic></dds>"

def dataWriterDocument (ddsTopic typeName : Bytes) : Bytes :=
  ascii "<dds><data_writer><topic><kind>NO_KEY</kind><name>" ++ ddsTopic ++
    ascii "</name><dataType>" ++ typeName ++ ascii "</dataType></topic></data_writer></dds>"

def dataReaderDocument (ddsTopic typeName : Bytes) : Bytes :=
  ascii "<dds><data_reader><topic><kind>NO_KEY</kind><name>" ++ ddsTopic ++
    ascii "</name><dataType>" ++ typeName ++ ascii "</dataType></topic></data_reader></dds>"

theorem writeFmt_of_le {cap : Nat} {acc : Bytes} {fragments : List Bytes}
    (h : (acc ++ fragments.flatten).length ≤ cap) :
    writeFmt cap acc fragments = acc ++ fragments.flatten := by
  induction fragments generalizing acc with
  | nil => rw [writeFmt, List.flatten_nil, List.append_nil]
  | cons fragment fragments ih =>
    rw [List.flatten_cons, ← List.append_assoc] at h ⊢
    have hfit : acc.length + fragment.length ≤ cap := by
      simp only [List.length_append] at h
      omega
    rw [writeFmt, pushStr, if_pos hfit]
    exact ih h

/-- The formatter writes everything, or something is missing. -/
theorem writeFmt_eq_iff {cap : Nat} (fragments : List Bytes) :
    writeFmt cap [] fragments = fragments.flatten ↔ fragments.flatten.length ≤ cap := by
  constructor
  · intro h
    rw [← h]
    exact length_writeFmt_le _ (Nat.zero_le cap)
  · intro h
    exact @writeFmt_of_le cap [] fragments h

theorem participantXml_eq_iff (name : Bytes) :
    participantXml name = participantDocument name ↔ (participantDocument name).length ≤ 128 := by
  have hflat : participantDocument name = [ascii "<dds><participant><rtps><name>", name,
      ascii "</name></rtps></participant></dds>"].flatten := by
    simp only [participantDocument, List.flatten_cons, List.flatten_nil, List.append_assoc,
      List.append_nil]
  rw [hflat]
  exact writeFmt_eq_iff _

/-- A document with a topic and a type between its literals. -/
theorem typedXml_eq_iff {cap : Nat} (opening middle closing ddsTopic typeName : Bytes) :
    writeFmt cap [] [opening, ddsTopic, middle, typeName, closing] =
        opening ++ ddsTopic ++ middle ++ typeName ++ closing ↔
      (opening ++ ddsTopic ++ middle ++ typeName ++ closing).length ≤ cap := by
  have hflat : opening ++ ddsTopic ++ middle ++ typeName ++ closing =
      [opening, ddsTopic, middle, typeName, closing].flatten := by
    simp only [List.flatten_cons, List.flatten_nil, List.append_assoc, List.append_nil]
  rw [hflat]
  exact writeFmt_eq_iff _

theorem length_typedDocument (opening middle closing ddsTopic typeName : Bytes) :
    (opening ++ ddsTopic ++ middle ++ typeName ++ closing).length =
      ddsTopic.length + typeName.length + (opening.length + middle.length + closing.length) := by
  simp only [List.length_append]
  omega

theorem topicXml_eq_iff (ddsTopic typeName : Bytes) :
    topicXml ddsTopic typeName = topicDocument ddsTopic typeName ↔
      (topicDocument ddsTopic typeName).length ≤ 256 := typedXml_eq_iff _ _ _ ddsTopic typeName

theorem dataWriterXml_eq_iff (ddsTopic typeName : Bytes) :
    dataWriterXml ddsTopic typeName = dataWriterDocument ddsTopic typeName ↔
      (dataWriterDocument ddsTopic typeName).length ≤ 320 :=
  typedXml_eq_iff _ _ _ ddsTopic typeName

theorem dataReaderXml_eq_iff (ddsTopic typeName : Bytes) :
    dataReaderXml ddsTopic typeName = dataReaderDocument ddsTopic typeName ↔
      (dataReaderDocument ddsTopic typeName).length ≤ 320 :=
  typedXml_eq_iff _ _ _ ddsTopic typeName

theorem length_participantDocument (name : Bytes) :
    (participantDocument name).length = name.length + 64 := by
  have hopen : (ascii "<dds><participant><rtps><name>").length = 30 := rfl
  have hclose : (ascii "</name></rtps></participant></dds>").length = 34 := rfl
  simp only [participantDocument, List.length_append, hopen, hclose]
  omega

/-- Whole documents tell the names apart. -/
theorem participantXml_inj {name name' : Bytes} (h : name.length ≤ 64) (h' : name'.length ≤ 64)
    (heq : participantXml name = participantXml name') : name = name' := by
  rw [(participantXml_eq_iff name).mpr (by rw [length_participantDocument]; omega),
    (participantXml_eq_iff name').mpr (by rw [length_participantDocument]; omega)] at heq
  exact List.append_cancel_left (List.append_cancel_right heq)

theorem length_topicDocument (ddsTopic typeName : Bytes) :
    (topicDocument ddsTopic typeName).length = ddsTopic.length + typeName.length + 60 :=
  length_typedDocument _ _ _ ddsTopic typeName

theorem length_dataWriterDocument (ddsTopic typeName : Bytes) :
    (dataWriterDocument ddsTopic typeName).length = ddsTopic.length + typeName.length + 106 :=
  length_typedDocument _ _ _ ddsTopic typeName

theorem length_dataReaderDocument (ddsTopic typeName : Bytes) :
    (dataReaderDocument ddsTopic typeName).length = ddsTopic.length + typeName.length + 106 :=
  length_typedDocument _ _ _ ddsTopic typeName

end MicroXrceDds
