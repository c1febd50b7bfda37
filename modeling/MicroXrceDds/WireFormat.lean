import MicroXrceDds.Library.Decoder
import MicroXrceDds.MsgLayout
import MicroXrceDds.Session

/-!
# The wire format, read by someone else

A reference parser for the messages of the client, written from the format and not
from the encoders: a header with the client key exactly when the session id is below
`0x80`, one submessage on a 4-byte boundary, and payload fields that are aligned from
the payload start. Every message the encoders produce parses back to its fields.
-/
namespace MicroXrceDds

open Prog LittleEndian

namespace WireFormat

structure Header where
  sessionId : UInt8
  streamId : UInt8
  seq : UInt16
  clientKey : Option ClientKey
  deriving DecidableEq, Repr

/-- What follows the XML of a CREATE is a domain id for a participant and a parent id
for everything else. The bytes alone do not say which, so both readings are kept. -/
inductive Payload where
  | createClient (cookie version vendorId : Bytes) (clientKey : ClientKey)
      (sessionId optionalProperties : UInt8) (mtu : UInt16)
  | create (reqId objId : UInt16) (kind representation : UInt8) (xml : Bytes)
      (parentId : Option UInt16) (domainId : Option Int16)
  | readData (reqId objId : UInt16) (streamId format contentFilter deliveryControl : UInt8)
  | writeData (reqId objId : UInt16) (body : Bytes)
  deriving DecidableEq, Repr

/-- `offset` is where the submessage header starts and `length` its length field. -/
structure Message where
  header : Header
  offset : Nat
  id : UInt8
  flags : UInt8
  length : Nat
  payload : Payload
  deriving DecidableEq, Repr

open Decoder

def idBe : Decoder UInt16 := do
  let hi ← byte
  let lo ← byte
  pure (u16FromBe hi lo)

def u16Le : Decoder UInt16 := do
  let v ← numberLe 2
  pure (UInt16.ofNat v)

def i16Le : Decoder Int16 := do
  let v ← u16Le
  pure v.toInt16

def clientKey : Decoder ClientKey := do
  let k0 ← byte
  let k1 ← byte
  let k2 ← byte
  let k3 ← byte
  pure ⟨k0, k1, k2, k3⟩

def optionalKey (sessionId : UInt8) : Decoder (Option ClientKey) :=
  if sessionId < 0x80 then do
    let key ← clientKey
    pure (some key)
  else pure none

def header : Decoder Header := do
  let sessionId ← byte
  let streamId ← byte
  let seq ← u16Le
  let key ← optionalKey sessionId
  pure ⟨sessionId, streamId, seq, key⟩

/-- A CDR string with its terminator. -/
def text : Decoder Bytes := do
  align 4
  let len ← numberLe 4
  guardThat (0 < len)
  let s ← bytes (len - 1)
  let terminator ← byte
  guardThat (terminator == 0)
  pure s

/-- One more decoder over everything that is left, which it has to use up. -/
def finishes {α : Type} (d : Decoder α) (c : Cursor) : Option α :=
  match d.run c with
  | some (v, ⟨_, []⟩) => some v
  | _ => none

def createClientFields : Decoder Payload := do
  let cookie ← bytes 4
  let version ← bytes 2
  let vendorId ← bytes 2
  let key ← clientKey
  let sessionId ← byte
  let optionalProperties ← byte
  align 2
  let mtu ← u16Le
  pure (.createClient cookie version vendorId key sessionId optionalProperties mtu)

def createFields : Decoder Payload := do
  let reqId ← idBe
  let objId ← idBe
  let kind ← byte
  let representation ← byte
  let xml ← text
  let c ← get
  let _ ← rest
  pure (.create reqId objId kind representation xml (finishes idBe c)
    (finishes (do align 2; i16Le) c))

def readDataFields : Decoder Payload := do
  let reqId ← idBe
  let objId ← idBe
  let streamId ← byte
  let format ← byte
  let contentFilter ← byte
  let deliveryControl ← byte
  pure (.readData reqId objId streamId format contentFilter deliveryControl)

def writeDataFields : Decoder Payload := do
  let reqId ← idBe
  let objId ← idBe
  let body ← rest
  pure (.writeData reqId objId body)

def payloadFields (id : UInt8) : Decoder Payload :=
  if id = submsgCreateClient then createClientFields
  else if id = submsgCreate then createFields
  else if id = submsgReadData then readDataFields
  else if id = submsgWriteData then writeDataFields
  else failure

/-- The length field has to be the number of bytes up to the end of the message. -/
def message : Decoder Message := do
  let h ← header
  align 4
  let offset ← position
  let id ← byte
  let flags ← byte
  let length ← numberLe 2
  let payload ← rest
  guardThat (length == payload.length)
  match finishes (payloadFields id) ⟨0, payload⟩ with
  | some fields => pure ⟨h, offset, id, flags, length, fields⟩
  | none => failure

def parse (bs : Bytes) : Option Message := decode message bs

theorem reads_idBe (id : UInt16) (o : Nat) : Reads idBe o (objectIdBeBytes id) id := by
  have h : Reads idBe o (objectIdBeBytes id) (u16FromBe (id >>> 8).toUInt8 id.toUInt8) :=
    (Reads.byte _ o).bind ((Reads.byte _ _).bind (Reads.pure _ _))
  rwa [u16FromBe_bytes] at h

theorem reads_u16Le (v : UInt16) (o : Nat) : Reads u16Le o (u16LeBytes v) v := by
  have h : Reads u16Le o (leBytes 2 v.toNat) (UInt16.ofNat v.toNat) :=
    (Reads.numberLe 2 v.toNat o v.toNat_lt).map _
  rwa [UInt16.ofNat_toNat] at h

theorem reads_i16Le (v : Int16) (o : Nat) : Reads i16Le o (u16LeBytes v.toUInt16) v := by
  have h : Reads i16Le o (u16LeBytes v.toUInt16) v.toUInt16.toInt16 :=
    (reads_u16Le v.toUInt16 o).map _
  exact h

theorem reads_clientKey (key : ClientKey) (o : Nat) : Reads clientKey o key.bytes key :=
  (Reads.byte key.k0 o).bind ((Reads.byte key.k1 _).bind ((Reads.byte key.k2 _).bind
    ((Reads.byte key.k3 _).bind (Reads.pure _ _))))

/-- The key a header carries. -/
def keyOf (sessionId : UInt8) (key : ClientKey) : Option ClientKey :=
  if sessionId < 0x80 then some key else none

theorem reads_optionalKey (sessionId : UInt8) (key : ClientKey) (o : Nat) :
    Reads (optionalKey sessionId) o
      (if sessionId < sessionIdWithoutClientKey then key.bytes else []) (keyOf sessionId key) := by
  unfold optionalKey keyOf
  by_cases h : sessionId < 0x80
  · rw [if_pos h, if_pos h, if_pos (show sessionId < sessionIdWithoutClientKey from h)]
    exact (reads_clientKey key o).map some
  · rw [if_neg h, if_neg h, if_neg (show ¬ sessionId < sessionIdWithoutClientKey from h)]
    exact Reads.pure none o

theorem reads_header (sessionId streamId : UInt8) (seq : UInt16) (key : ClientKey) (o : Nat) :
    Reads header o (sessionHeader sessionId streamId seq key)
      ⟨sessionId, streamId, seq, keyOf sessionId key⟩ := by
  rw [sessionHeader, List.append_assoc]
  exact (Reads.byte sessionId o).bind ((Reads.byte streamId _).bind
    ((reads_u16Le seq _).bind ((reads_optionalKey sessionId key _).map _)))

theorem reads_text {s : Bytes} (hs : s.length < 2 ^ 32 - 1) {o : Nat} {gap : Bytes}
    (hgap : gap.length = (4 - o % 4) % 4) : Reads text o (gap ++ cdrText s) s := by
  have hlen : s.length + 1 < 256 ^ 4 := by omega
  have hpos : decide (0 < s.length + 1) = true := by simp
  have h : Reads text o (gap ++ (leBytes 4 (s.length + 1) ++ ([] ++ (s ++ ([0] ++ ([] ++ [])))))) s :=
    (Reads.align hgap).bind ((Reads.numberLe 4 _ _ hlen).bind ((Reads.guardThat hpos _).bind
      ((Reads.bytes s _).bind ((Reads.byte 0 _).bind ((Reads.guardThat (by rfl) _).bind
        (Reads.pure s _))))))
  simpa only [cdrText, List.append_assoc, List.nil_append, List.append_nil] using h

theorem finishes_of_run {α : Type} {d : Decoder α} {c : Cursor} {v : α} {o : Nat}
    (h : d.run c = some (v, ⟨o, []⟩)) : finishes d c = some v := by
  simp only [finishes, h]

/-- A decoder that takes all of its input finishes. -/
theorem finishes_of_reads {α : Type} {d : Decoder α} {o : Nat} {bs : Bytes} {v : α}
    (h : Reads d o bs v) : finishes d ⟨o, bs⟩ = some v := by
  have hrun := h []
  rw [List.append_nil] at hrun
  simp only [finishes, hrun]

theorem finishes_createClient (sessionId : UInt8) (key : ClientKey) (mtu : UInt16) :
    finishes (payloadFields submsgCreateClient) ⟨0, createClientPayload sessionId key mtu⟩ =
      some (.createClient xrceCookie xrceVersion vendorIdEprosima key sessionId 0 mtu) := by
  apply finishes_of_reads
  have hgap : ([] : Bytes).length = (2 - 14 % 2) % 2 := rfl
  have hbytes : createClientPayload sessionId key mtu = xrceCookie ++ (xrceVersion ++
      (vendorIdEprosima ++ (key.bytes ++ ([sessionId] ++ ([0] ++ ([] ++ u16LeBytes mtu)))))) := by
    simp only [createClientPayload, List.append_assoc, List.cons_append, List.nil_append]
  rw [hbytes]
  exact (Reads.bytes xrceCookie 0).bind ((Reads.bytes xrceVersion _).bind
    ((Reads.bytes vendorIdEprosima _).bind ((reads_clientKey key _).bind
      ((Reads.byte sessionId _).bind ((Reads.byte 0 _).bind
        ((Reads.align hgap).bind ((reads_u16Le mtu _).map _)))))))

theorem finishes_readData (reqId drOid : UInt16) :
    finishes (payloadFields submsgReadData) ⟨0, readDataPayload reqId drOid⟩ =
      some (.readData reqId drOid streamBestEffort formatData 0 0) := by
  apply finishes_of_reads
  rw [readDataPayload, List.append_assoc]
  exact (reads_idBe reqId 0).bind ((reads_idBe drOid _).bind ((Reads.byte streamBestEffort _).bind
    ((Reads.byte formatData _).bind ((Reads.byte 0 _).bind ((Reads.byte 0 _).map _)))))

theorem finishes_writeData (dwOid : UInt16) (body : Bytes) :
    finishes (payloadFields submsgWriteData) ⟨0, writeDataPayload dwOid body⟩ =
      some (.writeData 0 dwOid body) := by
  rw [writeDataPayload, List.append_assoc]
  have h₁ := (reads_idBe 0 0).run_bind (fun reqId => do
    let objId ← idBe
    let body ← rest
    pure (Payload.writeData reqId objId body)) (objectIdBeBytes dwOid ++ body)
  have h₂ := (reads_idBe dwOid 2).run_bind (fun objId => do
    let body ← rest
    pure (Payload.writeData 0 objId body)) body
  exact finishes_of_run (h₁.trans h₂)

/-- The common front of the two CREATE payloads, and then both readings of the tail. -/
theorem finishes_create (reqId objId : UInt16) (kind : UInt8) {xml : Bytes} (tail : Bytes)
    (hxml : xml.length < 2 ^ 32 - 1) :
    finishes (payloadFields submsgCreate) ⟨0, createStart reqId objId kind xml ++ tail⟩ =
      some (.create reqId objId kind reprAsXml xml (finishes idBe ⟨xml.length + 13, tail⟩)
        (finishes (do align 2; i16Le) ⟨xml.length + 13, tail⟩)) := by
  have hfront : Reads (do
      let reqId ← idBe
      let objId ← idBe
      let kind ← byte
      let representation ← byte
      let xml ← text
      pure (reqId, objId, kind, representation, xml)) 0 (createStart reqId objId kind xml)
      (reqId, objId, kind, reprAsXml, xml) := by
    have hgap : ([0, 0] : Bytes).length = (4 - 6 % 4) % 4 := rfl
    simp only [createStart, List.append_assoc]
    exact (reads_idBe reqId 0).bind ((reads_idBe objId _).bind ((Reads.byte kind _).bind
      ((Reads.byte reprAsXml _).bind ((reads_text hxml hgap).map _))))
  have hrun := hfront.run_bind (fun front => do
    let c ← get
    let _ ← rest
    pure (Payload.create front.1 front.2.1 front.2.2.1 front.2.2.2.1 front.2.2.2.2
      (finishes idBe c) (finishes (do align 2; i16Le) c))) tail
  simp only [bind_assoc, pure_bind] at hrun
  rw [Nat.zero_add, length_createStart] at hrun
  have hfields : (payloadFields submsgCreate).run ⟨0, createStart reqId objId kind xml ++ tail⟩ = _ :=
    hrun
  simp only [finishes, hfields]
  rfl

theorem finishes_child (reqId objId : UInt16) (kind : UInt8) (xml : Bytes) (parent : UInt16)
    (hxml : xml.length < 2 ^ 32 - 1) : ∃ domainId,
    finishes (payloadFields submsgCreate) ⟨0, childPayload reqId objId kind xml parent⟩ =
      some (.create reqId objId kind reprAsXml xml (some parent) domainId) := by
  have h := finishes_create reqId objId kind (objectIdBeBytes parent) hxml
  rw [finishes_of_reads (reads_idBe parent _)] at h
  exact ⟨_, h⟩

theorem finishes_participant (reqId objId : UInt16) (xml : Bytes) (domainId : Int16)
    (hxml : xml.length < 2 ^ 32 - 1) : ∃ parentId,
    finishes (payloadFields submsgCreate) ⟨0, participantPayload reqId objId xml domainId⟩ =
      some (.create reqId objId entityParticipant reprAsXml xml parentId (some domainId)) := by
  have hgap : (List.replicate (padding 2 (xml.length + 13)) (0 : UInt8)).length =
      (2 - (xml.length + 13) % 2) % 2 := by
    rw [List.length_replicate, padding]
    split <;> omega
  have htail : Reads (do align 2; i16Le) (xml.length + 13)
      (List.replicate (padding 2 (xml.length + 13)) 0 ++ u16LeBytes domainId.toUInt16) domainId :=
    (Reads.align hgap).bind (reads_i16Le domainId _)
  have h := finishes_create reqId objId entityParticipant
    (List.replicate (padding 2 (xml.length + 13)) 0 ++ u16LeBytes domainId.toUInt16) hxml
  rw [finishes_of_reads htail] at h
  rw [participantPayload, padTo, length_createStart, List.append_assoc]
  exact ⟨_, h⟩

/-- A message whose payload is read back is read back. -/
theorem parse_message {sessionId streamId id flags : UInt8} {seq : UInt16} {key : ClientKey}
    {payload : Bytes} {fields : Payload} (hlen : payload.length < 2 ^ 16)
    (h : finishes (payloadFields id) ⟨0, payload⟩ = some fields) :
    parse (sessionHeader sessionId streamId seq key ++ submessage id flags payload) =
      some ⟨⟨sessionId, streamId, seq, keyOf sessionId key⟩, msgHeaderLen sessionId, id, flags,
        payload.length, fields⟩ := by
  have haligned : (4 - msgHeaderLen sessionId % 4) % 4 = 0 := by
    rcases msgHeaderLen_cases sessionId with h | h <;> rw [h]
  have hgap : ([] : Bytes).length = (4 - msgHeaderLen sessionId % 4) % 4 := haligned.symm
  have hlength := Reads.numberLe 2 payload.length (msgHeaderLen sessionId + 2) hlen
  have hfront : Reads (do
      let h ← header
      align 4
      let offset ← position
      let id ← byte
      let flags ← byte
      let length ← numberLe 2
      pure (h, offset, id, flags, length)) 0
      (sessionHeader sessionId streamId seq key ++ ([] ++ ([] ++ ([id] ++ ([flags] ++
        leBytes 2 payload.length)))))
      (⟨sessionId, streamId, seq, keyOf sessionId key⟩, msgHeaderLen sessionId, id, flags,
        payload.length) := by
    refine (reads_header sessionId streamId seq key 0).bind ?_
    rw [Nat.zero_add, length_sessionHeader]
    exact (Reads.align hgap).bind ((Reads.position _).bind ((Reads.byte id _).bind
      ((Reads.byte flags _).bind (hlength.map _))))
  have hrun := hfront.run_bind (fun (h, offset, id, flags, length) => do
    let payload ← rest
    guardThat (length == payload.length)
    match finishes (payloadFields id) ⟨0, payload⟩ with
    | some fields => pure ⟨h, offset, id, flags, length, fields⟩
    | none => failure : _ → Decoder Message) payload
  simp only [bind_assoc, pure_bind] at hrun
  have hwidth : u16LeBytes (UInt16.ofNat payload.length) = leBytes 2 payload.length := by
    rw [u16LeBytes, UInt16.toNat_ofNat']
    exact leBytes_mod 2 payload.length
  have hbytes : sessionHeader sessionId streamId seq key ++ submessage id flags payload =
      sessionHeader sessionId streamId seq key ++ ([] ++ ([] ++ ([id] ++ ([flags] ++
        leBytes 2 payload.length)))) ++ payload := by
    simp only [submessage, hwidth, List.append_assoc, List.cons_append, List.nil_append]
  rw [hbytes, parse, decode]
  have hmessage : message.run ⟨0, _⟩ = _ := hrun
  have hequal : (payload.length == payload.length) = true := beq_self_eq_true _
  rw [hmessage]
  change ((do
    guardThat (payload.length == payload.length)
    match finishes (payloadFields id) ⟨0, payload⟩ with
    | some fields => pure ⟨_, _, id, flags, payload.length, fields⟩
    | none => failure : Decoder Message).run _).map Prod.fst = _
  rw [hequal, h]
  rfl

/-- A message of the client, with the values its encoder is given. -/
inductive Emission where
  | createClient (sessionId : UInt8) (clientKey : ClientKey) (mtu : UInt16)
  | createParticipant (sessionId : UInt8) (seq : UInt16) (clientKey : ClientKey)
      (reqId objId : UInt16) (xml : Bytes) (domainId : Int16)
  | createWithParent (sessionId : UInt8) (seq : UInt16) (clientKey : ClientKey)
      (reqId objId : UInt16) (objKind : UInt8) (xml : Bytes) (parentObjId : UInt16)
  | readData (sessionId : UInt8) (seq : UInt16) (clientKey : ClientKey) (reqId drOid : UInt16)
  | writeData (sessionId : UInt8) (seq : UInt16) (clientKey : ClientKey) (dwOid : UInt16)
      (body : Bytes)

namespace Emission

/-- XML of at most 320 bytes, and a body that leaves room for the headers. -/
def Fits : Emission → Prop
  | .createClient _ _ _ => True
  | .createParticipant _ _ _ _ _ xml _ => xml.length ≤ 320
  | .createWithParent _ _ _ _ _ _ xml _ => xml.length ≤ 320
  | .readData _ _ _ _ _ => True
  | .writeData sessionId _ _ _ body => msgHeaderLen sessionId + 8 + body.length ≤ txBufSize

def header : Emission → Header
  | .createClient sessionId key _ =>
    ⟨sessionId &&& 0x80, streamNone, 0, keyOf (sessionId &&& 0x80) key⟩
  | .createParticipant sessionId seq key _ _ _ _ =>
    ⟨sessionId, streamBestEffort, seq, keyOf sessionId key⟩
  | .createWithParent sessionId seq key _ _ _ _ _ =>
    ⟨sessionId, streamBestEffort, seq, keyOf sessionId key⟩
  | .readData sessionId seq key _ _ => ⟨sessionId, streamBestEffort, seq, keyOf sessionId key⟩
  | .writeData sessionId seq key _ _ => ⟨sessionId, streamBestEffort, seq, keyOf sessionId key⟩

def id : Emission → UInt8
  | .createClient .. => submsgCreateClient
  | .createParticipant .. => submsgCreate
  | .createWithParent .. => submsgCreate
  | .readData .. => submsgReadData
  | .writeData .. => submsgWriteData

def flags : Emission → UInt8
  | .createClient .. => flagLe
  | .createParticipant .. => flagsCreate
  | .createWithParent .. => flagsCreate
  | .readData .. => flagLe
  | .writeData .. => flagLe ||| formatData

/-- The payload gives back the values of the emission. -/
def CarriedBy : Emission → Payload → Prop
  | .createClient sessionId key mtu, p =>
    p = .createClient xrceCookie xrceVersion vendorIdEprosima key sessionId 0 mtu
  | .createParticipant _ _ _ reqId objId xml domainId, p => ∃ parentId,
    p = .create reqId objId entityParticipant reprAsXml xml parentId (some domainId)
  | .createWithParent _ _ _ reqId objId objKind xml parentObjId, p => ∃ domainId,
    p = .create reqId objId objKind reprAsXml xml (some parentObjId) domainId
  | .readData _ _ _ reqId drOid, p => p = .readData reqId drOid streamBestEffort formatData 0 0
  | .writeData _ _ _ dwOid body, p => p = .writeData 0 dwOid body

end Emission

variable {n : Nat}

/-- The bytes of the buffer up to the length an encoder returns. -/
def encoded (p : WriteMsg n Nat) (buf : Buffer UInt8 n) : Outcome Error Bytes :=
  match p.run (MsgWriter.new buf) with
  | (.ok len, b) => .ok (b.buf.cells.take len)
  | (o, _) => o.abort

/-- The body put behind room for the headers, and then the header fill-in. -/
def filledIn [Target] (sessionId : UInt8) (seq : UInt16) (key : ClientKey) (dwOid : UInt16)
    (body : Bytes) (buf : Buffer UInt8 n) : Outcome Error Bytes :=
  let prefixLen := msgHeaderLen sessionId + 8
  let frame := (buf.overwrite prefixLen body).takeFront (prefixLen + body.length)
  match (finalizeWriteDataHeaders sessionId seq key dwOid).run (MsgWriter.new frame) with
  | (.ok (), b) => .ok b.buf.cells
  | (o, _) => o.abort

/-- What the code emits, whatever its buffers held before. -/
def Emission.emit [Target] (client : Buffer UInt8 64) (tx : Buffer UInt8 txBufSize) :
    Emission → Outcome Error Bytes
  | .createClient sessionId key mtu => encoded (buildCreateClient sessionId key mtu) client
  | .createParticipant sessionId seq key reqId objId xml domainId =>
    encoded (encodeCreateParticipant sessionId seq key reqId objId xml domainId) tx
  | .createWithParent sessionId seq key reqId objId objKind xml parentObjId =>
    encoded (encodeCreateWithParent sessionId seq key reqId objId objKind xml parentObjId) tx
  | .readData sessionId seq key reqId drOid =>
    encoded (encodeReadData sessionId seq key reqId drOid) tx
  | .writeData sessionId seq key dwOid body => filledIn sessionId seq key dwOid body tx

theorem encoded_of_run {p : WriteMsg n Nat} {buf : Buffer UInt8 n} {out : Bytes}
    (h : ∃ b', p.run (MsgWriter.new buf) = (.ok out.length, b') ∧ MsgWriter.Holds buf out b') :
    encoded p buf = .ok out := by
  obtain ⟨b', hrun, hb'⟩ := h
  have htake := hb'.filled.take
  rw [List.take_of_length_le hb'.fits] at htake
  simp only [encoded, hrun, htake]

theorem filledIn_eq [Target] (sessionId : UInt8) (seq : UInt16) (key : ClientKey) (dwOid : UInt16)
    {body : Bytes} {buf : Buffer UInt8 n} (h : msgHeaderLen sessionId + 8 + body.length ≤ n) :
    filledIn sessionId seq key dwOid body buf =
      .ok (MicroXrceDds.message sessionId seq key submsgWriteData (flagLe ||| formatData)
        (writeDataPayload dwOid body)) := by
  have hplaced : (((buf.overwrite (msgHeaderLen sessionId + 8) body).takeFront
      (msgHeaderLen sessionId + 8 + body.length)).cells.drop (msgHeaderLen sessionId + 8)) = body := by
    have hlen : (buf.cells.take (msgHeaderLen sessionId + 8)).length = msgHeaderLen sessionId + 8 := by
      rw [List.length_take, buf.size]
      omega
    rw [Buffer.cells_takeFront, Buffer.cells_overwrite h, List.append_assoc,
      List.drop_take, Nat.add_sub_cancel_left, List.drop_append, hlen, Nat.sub_self,
      List.drop_eq_nil_of_le (by omega), List.nil_append, List.drop_zero, List.take_left]
  obtain ⟨b', hrun, hb'⟩ := finalizeWriteDataHeaders_run sessionId seq key dwOid body _
    (by omega) hplaced
  simp only [filledIn, hrun, hb']

/-- The bytes parse to the values of the emission; the submessage is aligned and its
length counts everything behind its header. -/
def Emission.RecoveredFrom (e : Emission) (bytes : Bytes) : Prop :=
  ∃ m, parse bytes = some m ∧ m.header = e.header ∧ m.id = e.id ∧ m.flags = e.flags ∧
    e.CarriedBy m.payload ∧ m.offset % 4 = 0 ∧ m.offset + 4 + m.length = bytes.length

theorem recovered {e : Emission} {sessionId streamId : UInt8} {seq : UInt16} {key : ClientKey}
    {payload : Bytes} (hheader : e.header = ⟨sessionId, streamId, seq, keyOf sessionId key⟩)
    (hlen : payload.length < 2 ^ 16)
    (hfields : ∃ fields, finishes (payloadFields e.id) ⟨0, payload⟩ = some fields ∧
      e.CarriedBy fields) :
    e.RecoveredFrom (sessionHeader sessionId streamId seq key ++
      submessage e.id e.flags payload) := by
  obtain ⟨fields, hfields, hcarried⟩ := hfields
  refine ⟨_, parse_message hlen hfields, hheader.symm, rfl, rfl, hcarried, ?_, ?_⟩
  · change msgHeaderLen sessionId % 4 = 0
    rcases msgHeaderLen_cases sessionId with h | h <;> rw [h]
  · change msgHeaderLen sessionId + 4 + payload.length = _
    rw [List.length_append, length_sessionHeader, length_submessage, Nat.add_assoc]

/-- Every message of the client is well formed and gives back its fields. -/
theorem emitted_message_recovered [Target] (e : Emission) (h : e.Fits) (client : Buffer UInt8 64)
    (tx : Buffer UInt8 txBufSize) :
    ∃ bytes, e.emit client tx = .ok bytes ∧ e.RecoveredFrom bytes := by
  cases e with
  | createClient sessionId key mtu =>
    refine ⟨_, encoded_of_run (buildCreateClient_run sessionId key mtu client (by decide)), ?_⟩
    exact recovered rfl (show 16 < 2 ^ 16 by decide) ⟨_, finishes_createClient sessionId key mtu, rfl⟩
  | createParticipant sessionId seq key reqId objId xml domainId =>
    have hxml : xml.length ≤ 320 := h
    have h48 := msgHeaderLen_cases sessionId
    have hlen := length_participantPayload_le reqId objId xml domainId
    obtain ⟨parentId, hfields⟩ := finishes_participant reqId objId xml domainId
      (show xml.length < 2 ^ 32 - 1 by omega)
    refine ⟨_, encoded_of_run (encodeCreateParticipant_run sessionId seq key reqId objId domainId tx
      (by omega) (by simp only [txBufSize]; omega)), ?_⟩
    exact recovered rfl (by omega) ⟨_, hfields, parentId, rfl⟩
  | createWithParent sessionId seq key reqId objId objKind xml parentObjId =>
    have hxml : xml.length ≤ 320 := h
    have h48 := msgHeaderLen_cases sessionId
    have hlen := length_childPayload reqId objId objKind xml parentObjId
    obtain ⟨domainId, hfields⟩ := finishes_child reqId objId objKind xml parentObjId
      (show xml.length < 2 ^ 32 - 1 by omega)
    refine ⟨_, encoded_of_run (encodeCreateWithParent_run sessionId seq key reqId objId objKind
      parentObjId tx (by omega) (by simp only [txBufSize]; omega)), ?_⟩
    exact recovered rfl (by omega) ⟨_, hfields, domainId, rfl⟩
  | readData sessionId seq key reqId drOid =>
    have h48 := msgHeaderLen_cases sessionId
    refine ⟨_, encoded_of_run (encodeReadData_run sessionId seq key reqId drOid tx
      (by simp only [txBufSize]; omega)), ?_⟩
    exact recovered rfl (show 8 < 2 ^ 16 by decide) ⟨_, finishes_readData reqId drOid, rfl⟩
  | writeData sessionId seq key dwOid body =>
    have hroom : msgHeaderLen sessionId + 8 + body.length ≤ 768 := h
    have hlen : (writeDataPayload dwOid body).length = 4 + body.length := by
      simp only [writeDataPayload, List.length_append, length_requestIdBeBytes,
        length_objectIdBeBytes]
    refine ⟨_, filledIn_eq sessionId seq key dwOid h, ?_⟩
    exact recovered rfl (by omega) ⟨_, finishes_writeData dwOid body, rfl⟩

/-- A participant under a session id that puts the client key into the header. -/
theorem emitted_message_recovered_participant :
    letI := rp2040 true
    let e : Emission := .createParticipant 0x01 7 ⟨1, 2, 3, 4⟩ 9 0x0011 (ascii "<dds/>") (-1)
    ∃ bytes, e.emit (Buffer.replicate 64 0) (Buffer.replicate txBufSize 0xFF) = .ok bytes ∧
      e.RecoveredFrom bytes := by
  let target := rp2040 true
  intro e
  have hfits : e.Fits := show (ascii "<dds/>").length ≤ 320 by decide
  exact emitted_message_recovered e hfits _ _

end WireFormat

end MicroXrceDds
