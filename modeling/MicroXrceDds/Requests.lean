import MicroXrceDds.Refinement

/-!
# Requests

CREATE and READ_DATA go out the same way: a request id and a sequence number are used
up, the message is encoded into `tx_buf` and written, and the call waits for its STATUS.
-/
namespace MicroXrceDds

open Prog Session MsgWriter

variable {T σ : Type} [Statics σ]

/-- The submessage id, the request id and the object id of a request. -/
def requestOf (sessionId : UInt8) (frame : Bytes) : Option (UInt8 × UInt16 × UInt16) :=
  match submessageOf sessionId frame with
  | some (id, rhi :: rlo :: ohi :: olo :: _) => some (id, u16FromBe rhi rlo, u16FromBe ohi olo)
  | _ => none

theorem submessageOf_message {sessionId id flags : UInt8} {seq : UInt16} {key : ClientKey}
    {payload : Bytes} (h : payload.length < 2 ^ 16) :
    submessageOf sessionId (message sessionId seq key id flags payload) = some (id, payload) := by
  have hdrop : (message sessionId seq key id flags payload).drop (msgHeaderLen sessionId) =
      id :: flags :: UInt8.ofNat payload.length :: UInt8.ofNat (payload.length / 256) :: payload := by
    rw [message, ← length_sessionHeader sessionId streamBestEffort seq key, List.drop_left]
    have hlen : (UInt16.ofNat payload.length).toNat = payload.length := by
      rw [UInt16.toNat_ofNat']
      omega
    simp [submessage, u16LeBytes, LittleEndian.leBytes, hlen]
  have htoNat : (u16FromLe (UInt8.ofNat payload.length) (UInt8.ofNat (payload.length / 256))).toNat =
      payload.length := by
    have hround := u16FromLe_bytes (UInt16.ofNat payload.length)
    rw [UInt16.toNat_ofNat', Nat.mod_eq_of_lt h] at hround
    rw [hround, UInt16.toNat_ofNat', Nat.mod_eq_of_lt h]
  simp only [submessageOf, hdrop, htoNat, List.take_length]

/-- Every payload that starts with a request id and an object id names them. -/
theorem requestOf_message {sessionId id flags : UInt8} {seq req oid : UInt16} {key : ClientKey}
    {rest : Bytes} (h : rest.length + 4 < 2 ^ 16) :
    requestOf sessionId (message sessionId seq key id flags
      (requestIdBeBytes req ++ objectIdBeBytes oid ++ rest)) = some (id, req, oid) := by
  have hlen : (requestIdBeBytes req ++ objectIdBeBytes oid ++ rest).length < 2 ^ 16 := by
    simp only [List.length_append, length_requestIdBeBytes, length_objectIdBeBytes]
    omega
  rw [requestOf, submessageOf_message hlen]
  simp only [requestIdBeBytes, objectIdBeBytes, List.cons_append, List.nil_append]
  rw [u16FromBe_bytes, u16FromBe_bytes]

/-- The object that a sent request of one kind is about. -/
def Event.asks (sessionId id : UInt8) : Event σ → Option UInt16
  | .sent frame =>
    match requestOf sessionId frame with
    | some (id', _, oid) => if id' = id then some oid else none
    | none => none
  | _ => none

/-- The DataReaders whose data a history asks for. -/
def readDataIds (sessionId : UInt8) (es : List (Event σ)) : List UInt16 :=
  es.filterMap (Event.asks sessionId submsgReadData)

/-- A request goes out under the next request id, and after that only frames come in. -/
def Asks (id : UInt8) (oid : UInt16) (w w' : World T σ) : Prop :=
  ∃ frame w₁, requestOf w.session.sessionId frame = some (id, w.session.reqId, oid) ∧
    Trail w [.sent frame] w₁ ∧ Follows Event.Inbound w₁ w'

/-- An encoder for a request, given the header fields and the request id. -/
abbrev Encoder := UInt8 → UInt16 → ClientKey → UInt16 → WriteMsg txBufSize Nat

/-- It writes this submessage whatever the buffer held before. -/
def Encoder.Writes (enc : Encoder) (id flags : UInt8) (payload : UInt16 → Bytes) : Prop :=
  ∀ sessionId seq key req buf,
    ∃ b', (enc sessionId seq key req).run (MsgWriter.new buf) =
        (.ok (message sessionId seq key id flags (payload req)).length, b') ∧
      MsgWriter.Holds buf (message sessionId seq key id flags (payload req)) b'

/-- It writes a request about this object. -/
structure Encoder.Requests (enc : Encoder) (id flags : UInt8) (oid : UInt16)
    (payload : UInt16 → Bytes) : Prop where
  writes : enc.Writes id flags payload
  starts : ∀ req, ∃ rest : Bytes, rest.length + 4 < 2 ^ 16 ∧
    payload req = requestIdBeBytes req ++ objectIdBeBytes oid ++ rest

/-- The world in which a request is about to be written. -/
def World.requesting (frame : Bytes) (buf : Buffer UInt8 txBufSize) (w : World T σ) : World T σ :=
  (w.setReqId (max (w.session.reqId + 1) 1)).sending frame buf

/-- The message a request consists of. -/
def World.request (w : World T σ) (id flags : UInt8) (payload : UInt16 → Bytes) : Bytes :=
  message w.session.sessionId w.session.seq w.session.clientKey id flags (payload w.session.reqId)

theorem Encoder.Requests.requestOf {enc : Encoder} {id flags : UInt8} {oid : UInt16}
    {payload : UInt16 → Bytes} (henc : enc.Requests id flags oid payload) (w : World T σ) :
    requestOf w.session.sessionId (w.request id flags payload) =
      some (id, w.session.reqId, oid) := by
  obtain ⟨rest, hlen, hrest⟩ := henc.starts w.session.reqId
  rw [World.request, hrest]
  exact requestOf_message hlen

theorem requesting_trail (w : World T σ) (frame : Bytes) (buf : Buffer UInt8 txBufSize) :
    Trail w [.sent frame] (w.requesting frame buf) := .event rfl (.sent w.router frame)

section
variable [Target] [ReadWrite T]

/-- The body that the three functions below share. -/
def sendRequest (fuel : Nat) (enc : Encoder) : Call T σ Unit := do
  let req ← nextReq
  let seq ← nextSeq
  let w ← get
  let len ← encode (enc w.session.sessionId seq w.session.clientKey req)
  sendTx len
  waitStatusFor fuel req

theorem createParticipantEntity_eq (fuel : Nat) (idx : UInt16) (xml : Bytes) :
    (createParticipantEntity fuel idx xml : Call T σ Unit) =
      sendRequest fuel fun sessionId seq key req => encodeCreateParticipant sessionId seq
        key req (objectId idx entityParticipant) xml 0 := rfl

theorem createWithParentEntity_eq (fuel : Nat) (oid : UInt16) (kind : UInt8) (xml : Bytes)
    (parent : UInt16) : (createWithParentEntity fuel oid kind xml parent : Call T σ Unit) =
      sendRequest fuel fun sessionId seq key req =>
        encodeCreateWithParent sessionId seq key req oid kind xml parent := rfl

theorem sendReadData_eq (fuel : Nat) (oid : UInt16) : (sendReadData fuel oid : Call T σ Unit) =
    sendRequest fuel fun sessionId seq key req =>
      encodeReadData sessionId seq key req oid := rfl

theorem sendRequest_run (w : World T σ) (fuel : Nat) {enc : Encoder} {id flags : UInt8}
    {payload : UInt16 → Bytes} (henc : enc.Writes id flags payload) :
    ∃ buf, (w.request id flags payload).length ≤ txBufSize ∧
      (sendRequest fuel enc).run w = (do
        Framing.writeFramed (w.request id flags payload)
        waitStatusFor fuel w.session.reqId : Call T σ Unit).run
          (w.requesting (w.request id flags payload) buf) := by
  obtain ⟨b', hrun, hb'⟩ := henc w.session.sessionId w.session.seq w.session.clientKey
    w.session.reqId w.session.txBuf
  have htake : b'.buf.cells.take (w.request id flags payload).length =
      w.request id flags payload := by
    have h := hb'.filled.take
    rw [List.take_of_length_le hb'.fits] at h
    exact h
  have hfit : (w.request id flags payload).length ≤ txBufSize := hb'.fits
  let w₁ := (w.setReqId (max (w.session.reqId + 1) 1)).setSeq (w.session.seq + 1)
  have hencode : (encode (enc w₁.session.sessionId w.session.seq w₁.session.clientKey
      w.session.reqId) : Call T σ Nat).run w₁ =
      (.ok (w.request id flags payload).length, w₁.setTxBuf b'.buf) := by
    change (((enc w.session.sessionId w.session.seq w.session.clientKey w.session.reqId).run
      (MsgWriter.new w.session.txBuf)).1, w₁.setTxBuf ((enc w.session.sessionId w.session.seq
      w.session.clientKey w.session.reqId).run (MsgWriter.new w.session.txBuf)).2.buf) = _
    rw [hrun]
    rfl
  refine ⟨b'.buf, hfit, ?_⟩
  have hreq : (nextReq : Call T σ UInt16).run w =
      (.ok w.session.reqId, w.setReqId (max (w.session.reqId + 1) 1)) := rfl
  have hseq : (nextSeq : Call T σ UInt16).run (w.setReqId (max (w.session.reqId + 1) 1)) =
      (.ok w.session.seq, w₁) := rfl
  have hsend : (sendTx (w.request id flags payload).length : Call T σ Unit).run
      (w₁.setTxBuf b'.buf) = (Framing.writeFramed (w.request id flags payload)).run
        (w.requesting (w.request id flags payload) b'.buf) := by
    rw [sendTx_run _ hfit]
    change (Framing.writeFramed (b'.buf.cells.take (w.request id flags payload).length)).run
      (World.log (.sent (b'.buf.cells.take (w.request id flags payload).length)) _) = _
    rw [htake]
    rfl
  rw [sendRequest, bind_ok hreq, bind_ok hseq, run_get_bind, bind_ok hencode, run_bind, hsend,
    ← run_bind]

/-- However the transport behaves, a request is one frame out and then frames in. -/
theorem sendRequest_trail (fuel : Nat) {enc : Encoder} {id flags : UInt8}
    {payload : UInt16 → Bytes} (henc : enc.Writes id flags payload) (w : World T σ) :
    ∃ w₁, Trail w [.sent (w.request id flags payload)] w₁ ∧
      Follows Event.Inbound w₁ ((sendRequest fuel enc : Call T σ Unit).run w).2 := by
  obtain ⟨buf, -, hrun⟩ := sendRequest_run w fuel henc
  refine ⟨w.requesting (w.request id flags payload) buf, requesting_trail w _ buf, ?_⟩
  rw [hrun]
  exact stable_inbound.bind (stable_inbound.writeFramed _)
    (fun _ => waitStatusFor_follows fuel w.session.reqId) _

theorem sendRequest_asks (fuel : Nat) {enc : Encoder} {id flags : UInt8}
    {oid : UInt16} {payload : UInt16 → Bytes} (henc : enc.Requests id flags oid payload) :
    Within (Asks id oid) (sendRequest fuel enc : Call T σ Unit) := by
  intro w
  obtain ⟨w₁, hsend, hwait⟩ := sendRequest_trail fuel henc.writes w
  exact ⟨w.request id flags payload, w₁, henc.requestOf w, hsend, hwait⟩

theorem requests_createWithParent (oid : UInt16) (kind : UInt8) {xml : Bytes} (parent : UInt16)
    (hxml : xml.length ≤ 320) :
    Encoder.Requests (fun sessionId seq key req =>
      encodeCreateWithParent sessionId seq key req oid kind xml parent) submsgCreate flagsCreate oid
      fun req => childPayload req oid kind xml parent := by
  constructor
  · intro sessionId seq key req buf
    have hhead := msgHeaderLen_cases sessionId
    apply encodeCreateWithParent_run
    · omega
    · simp only [txBufSize]
      omega
  · intro req
    refine ⟨[kind, reprAsXml, 0, 0] ++ cdrText xml ++ objectIdBeBytes parent, ?_, ?_⟩
    · simp only [List.length_append, length_cdrText, length_objectIdBeBytes, List.length_cons,
        List.length_nil]
      omega
    · simp only [childPayload, createStart, List.append_assoc, List.cons_append, List.nil_append]

theorem requests_createParticipant (oid : UInt16) {xml : Bytes} (hxml : xml.length ≤ 320) :
    Encoder.Requests (fun sessionId seq key req =>
      encodeCreateParticipant sessionId seq key req oid xml 0) submsgCreate flagsCreate oid
      fun req => participantPayload req oid xml 0 := by
  constructor
  · intro sessionId seq key req buf
    have hhead := msgHeaderLen_cases sessionId
    have hlen := length_participantPayload_le req oid xml 0
    apply encodeCreateParticipant_run
    · omega
    · simp only [txBufSize]
      omega
  · intro req
    refine ⟨[entityParticipant, reprAsXml, 0, 0] ++ cdrText xml ++
      List.replicate (padding 2 (xml.length + 13)) 0 ++ u16LeBytes (0 : Int16).toUInt16, ?_, ?_⟩
    · have hpad := padding_lt (show 0 < 2 by decide) (xml.length + 13)
      simp only [List.length_append, length_cdrText, length_u16LeBytes, List.length_replicate,
        List.length_cons, List.length_nil]
      omega
    · rw [participantPayload, padTo, length_createStart]
      simp only [createStart, List.append_assoc, List.cons_append, List.nil_append]

theorem requests_readData (oid : UInt16) :
    Encoder.Requests (fun sessionId seq key req => encodeReadData sessionId seq key req oid)
      submsgReadData flagLe oid fun req => readDataPayload req oid := by
  constructor
  · intro sessionId seq key req buf
    have hhead := msgHeaderLen_cases sessionId
    apply encodeReadData_run
    simp only [txBufSize]
    omega
  · intro req
    refine ⟨[streamBestEffort, formatData, 0, 0], by decide, ?_⟩
    simp only [readDataPayload]

theorem createWithParentEntity_asks (fuel : Nat) (oid : UInt16) (kind : UInt8)
    {xml : Bytes} (parent : UInt16) (hxml : xml.length ≤ 320) : Within (Asks submsgCreate oid)
      (createWithParentEntity fuel oid kind xml parent : Call T σ Unit) := by
  rw [createWithParentEntity_eq]
  exact sendRequest_asks fuel (requests_createWithParent oid kind parent hxml)

theorem createParticipantEntity_asks (fuel : Nat) (idx : UInt16) {xml : Bytes}
    (hxml : xml.length ≤ 320) : Within (Asks submsgCreate (objectId idx entityParticipant))
      (createParticipantEntity fuel idx xml : Call T σ Unit) := by
  rw [createParticipantEntity_eq]
  exact sendRequest_asks fuel (requests_createParticipant _ hxml)

theorem sendReadData_asks (fuel : Nat) (oid : UInt16) :
    Within (Asks submsgReadData oid) (sendReadData fuel oid : Call T σ Unit) := by
  rw [sendReadData_eq]
  exact sendRequest_asks fuel (requests_readData oid)

end

/-- Request ids go round without zero. -/
theorem toNat_next (req : UInt16) :
    (max (req + 1) 1).toNat = if req.toNat = 65535 then 1 else req.toNat + 1 := by
  have hone : (1 : UInt16).toNat = 1 := rfl
  have hlt := req.toNat_lt
  have hsum : (req + 1).toNat = (req.toNat + 1) % 2 ^ 16 := by rw [UInt16.toNat_add, hone]
  change (if req + 1 ≤ 1 then 1 else req + 1).toNat = _
  by_cases hle : req + 1 ≤ 1
  · rw [if_pos hle, hone]
    rw [UInt16.le_iff_toNat_le, hsum, hone] at hle
    split <;> omega
  · rw [if_neg hle, hsum]
    rw [UInt16.le_iff_toNat_le, hsum, hone] at hle
    split <;> omega

theorem length_writeFmt_le {cap : Nat} {acc : Bytes} (fragments : List Bytes)
    (h : acc.length ≤ cap) : (writeFmt cap acc fragments).length ≤ cap := by
  induction fragments generalizing acc with
  | nil => exact h
  | cons fragment fragments ih =>
    rw [writeFmt, pushStr]
    by_cases hfit : acc.length + fragment.length ≤ cap
    · simp only [if_pos hfit]
      apply ih
      rw [List.length_append]
      exact hfit
    · simp only [if_neg hfit]
      exact h

theorem length_participantXml_le (name : Bytes) : (participantXml name).length ≤ 320 :=
  Nat.le_trans (length_writeFmt_le _ (Nat.zero_le 128)) (by decide)

theorem length_topicXml_le (topic type : Bytes) : (topicXml topic type).length ≤ 320 :=
  Nat.le_trans (length_writeFmt_le _ (Nat.zero_le 256)) (by decide)

theorem length_dataWriterXml_le (topic type : Bytes) : (dataWriterXml topic type).length ≤ 320 :=
  length_writeFmt_le _ (Nat.zero_le 320)

theorem length_dataReaderXml_le (topic type : Bytes) : (dataReaderXml topic type).length ≤ 320 :=
  length_writeFmt_le _ (Nat.zero_le 320)

/-- The local check on a topic name: whether it still fits behind `rt/`. -/
def TopicFits (topic : Bytes) : Prop := 3 + (stripSlash topic).length ≤ topicNameMax

instance (topic : Bytes) : Decidable (TopicFits topic) := inferInstanceAs (Decidable (_ ≤ _))

theorem refused_of_not_passed {full : Bool} {topic : Bytes}
    (h : ¬ (full = false ∧ TopicFits topic)) : full = true ∨ ¬ TopicFits topic :=
  (not_and_or.mp h).imp_left Bool.eq_true_of_not_eq_false

theorem ros2TopicName_eq (topic : Bytes) :
    (ros2TopicName topicNameMax topic : Call T σ Bytes) =
      if TopicFits topic then pure (ascii "rt/" ++ stripSlash topic)
      else throw Error.bufferTooSmall := by
  have hfront : pushStr topicNameMax [] (ascii "rt/") = some (ascii "rt/") := rfl
  by_cases hfit : TopicFits topic
  · have hrest : pushStr topicNameMax (ascii "rt/") (stripSlash topic) =
        some (ascii "rt/" ++ stripSlash topic) := if_pos hfit
    simp only [ros2TopicName, hfront, hrest, if_pos hfit]
  · have hrest : pushStr topicNameMax (ascii "rt/") (stripSlash topic) = none := if_neg hfit
    simp only [ros2TopicName, hfront, hrest, if_neg hfit]

/-- CREATE_CLIENT fits its buffer, so `connect` consists of a frame out and a frame in. -/
theorem connect_eq {T σ : Type} [Target] [ReadWrite T] (sessionId : UInt8) (key : ClientKey) :
    (connect sessionId key : Prog Error T (Session T σ)) = (do
      Framing.writeFramed (createClientMessage sessionId key 512)
      let reply ← Framing.readFramed 128
      parseStatusAgent reply sessionId
      let transport ← get
      pure (connected transport sessionId key)) := by
  obtain ⟨b, hbuild, hholds⟩ := buildCreateClient_run sessionId key 512
    (Buffer.replicate 64 (0 : UInt8)) (by decide)
  have hframe : b.buf.cells.take (createClientMessage sessionId key 512).length =
      createClientMessage sessionId key 512 := by
    have h := hholds.filled.take
    rw [List.take_of_length_le hholds.fits] at h
    exact h
  have hlen : (createClientMessage sessionId key 512).length ≤ b.buf.cells.length := by
    rw [b.buf.size]
    exact hholds.fits
  have hok : (ofOutcome (.ok (createClientMessage sessionId key 512).length) :
      Prog Error T Nat) = pure (createClientMessage sessionId key 512).length := rfl
  unfold connect
  simp only [hbuild]
  rw [hok, pure_bind, slice_of_le (Nat.zero_le _) hlen, pure_bind, Nat.sub_zero, List.drop_zero,
    hframe]

end MicroXrceDds
