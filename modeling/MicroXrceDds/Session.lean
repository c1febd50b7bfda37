import MicroXrceDds.MsgWriter
import MicroXrceDds.Transport
import MicroXrceDds.Subscription

/-!
# The session

`session.rs`. A call of the API is a program over a world: the session, the static
subscription slots, and the other tasks, which may call `try_recv` whenever the
session is suspended on its transport. The history records what happened, in order;
no function of the session reads it.
-/
namespace MicroXrceDds

open Prog MsgWriter

def maxSubscriptions : Nat := 8
def txBufSize : Nat := 768
def rxBufSize : Nat := 768
def topicNameMax : Nat := 96

structure Node where
  participantIdx : UInt16
  publisherIdx : UInt16
  subscriberIdx : UInt16
  deriving DecidableEq, Repr

structure Publisher (M : Type) where
  dwId : UInt16
  deriving DecidableEq, Repr

/-- The six `next_*_idx` fields are one map from kinds to counters. -/
structure Session (T σ : Type) where
  transport : T
  sessionId : UInt8
  clientKey : ClientKey
  seq : UInt16
  reqId : UInt16
  nextIdx : EntityKind → UInt16
  txBuf : Buffer UInt8 txBufSize
  rxBuf : Buffer UInt8 rxBufSize
  subscriptions : Bounded σ maxSubscriptions

/-- What an observer of the program sees: indices being allocated, frames handed to
the transport and frames received from it, a slot being given its id and entered in
the dispatch table, and samples being taken from an inbox. -/
inductive Event (σ : Type) [Statics σ] where
  | allocated : EntityKind → UInt16 → Event σ
  | sent : Bytes → Event σ
  | received : Bytes → Event σ
  | assigned : σ → UInt16 → Event σ
  | registered : σ → Event σ
  | taken : (s : σ) → Statics.Msg s → Event σ

/-- `tasks` lists, for each suspension point still to come, the slots on which
other tasks call `try_recv` there. -/
structure World (T σ : Type) [Statics σ] where
  session : Session T σ
  slots : Slots σ
  tasks : List (List σ)
  history : List (Event σ)

abbrev Call (T σ : Type) [Statics σ] (α : Type) := Prog Error (World T σ) α

variable {T σ : Type} [Statics σ]

namespace World

def log (e : Event σ) (w : World T σ) : World T σ := { w with history := w.history ++ [e] }

def setSlot (s : σ) (sub : Subscription (Statics.Msg s) (Statics.depth s)) (w : World T σ) :
    World T σ := { w with slots := Function.update w.slots s sub }

/-- Another task calls `try_recv` on one slot. -/
def takeFrom (w : World T σ) (s : σ) : World T σ :=
  match (w.slots s).tryRecv with
  | none => w
  | some (v, sub) => (w.setSlot s sub).log (.taken s v)

/-- The session waits at an `await`: the other tasks get their turn. -/
def suspend (w : World T σ) : World T σ :=
  match w.tasks with
  | [] => w
  | turn :: rest => turn.foldl takeFrom { w with tasks := rest }

def setTransport (t : T) (w : World T σ) : World T σ :=
  { w with session := { w.session with transport := t } }

def setTxBuf (buf : Buffer UInt8 txBufSize) (w : World T σ) : World T σ :=
  { w with session := { w.session with txBuf := buf } }

def setRxBuf (buf : Buffer UInt8 rxBufSize) (w : World T σ) : World T σ :=
  { w with session := { w.session with rxBuf := buf } }

def setSeq (seq : UInt16) (w : World T σ) : World T σ :=
  { w with session := { w.session with seq := seq } }

def setReqId (reqId : UInt16) (w : World T σ) : World T σ :=
  { w with session := { w.session with reqId := reqId } }

def setNextIdx (kind : EntityKind) (idx : UInt16) (w : World T σ) : World T σ :=
  { w with session := { w.session with nextIdx := Function.update w.session.nextIdx kind idx } }

def setSubscriptions (subs : Bounded σ maxSubscriptions) (w : World T σ) : World T σ :=
  { w with session := { w.session with subscriptions := subs } }

@[simp] theorem session_log (e : Event σ) (w : World T σ) : (w.log e).session = w.session := rfl
@[simp] theorem session_setTxBuf (buf : Buffer UInt8 txBufSize) (w : World T σ) :
    (w.setTxBuf buf).session = { w.session with txBuf := buf } := rfl
@[simp] theorem session_setSeq (seq : UInt16) (w : World T σ) :
    (w.setSeq seq).session = { w.session with seq := seq } := rfl

end World

/-- An operation of the transport, after the suspension it starts with. -/
def World.onTransport {α : Type} (p : Prog Unit T α) : Prog Unit (World T σ) α := do
  modify World.suspend
  zoom (fun w => w.session.transport) World.setTransport p

/-- Every transport operation of a session is a suspension point. -/
instance [ReadWrite T] : ReadWrite (World T σ) where
  read len := World.onTransport (ReadWrite.read len)
  write buf := World.onTransport (ReadWrite.write buf)
  flush := World.onTransport ReadWrite.flush

namespace Session

def nextReq : Call T σ UInt16 := do
  let w ← get
  let r := w.session.reqId
  -- `wrapping_add(1).max(1)`: the id 0 is skipped.
  modify (World.setReqId (max (r + 1) 1))
  pure r

def nextSeq : Call T σ UInt16 := do
  let w ← get
  let s := w.session.seq
  modify (World.setSeq (s + 1))
  pure s

section
variable [Target]

/-- `let n = self.next_idx; self.next_idx += 1; n`. -/
def alloc (kind : EntityKind) : Call T σ UInt16 := do
  let w ← get
  let idx := w.session.nextIdx kind
  let next ← addIn 16 idx.toNat 1
  modify (World.setNextIdx kind (UInt16.ofNat next))
  modify (World.log (.allocated kind idx))
  pure idx

def allocParticipant : Call T σ UInt16 := alloc .participant
def allocTopic : Call T σ UInt16 := alloc .topic
def allocPublisher : Call T σ UInt16 := alloc .publisher
def allocSubscriber : Call T σ UInt16 := alloc .subscriber
def allocDw : Call T σ UInt16 := alloc .datawriter
def allocDr : Call T σ UInt16 := alloc .datareader

end

/-- `heapless::String<cap>::push_str`: all of the text or nothing. -/
def pushStr (cap : Nat) (s t : Bytes) : Option Bytes :=
  if s.length + t.length ≤ cap then some (s ++ t) else none

/-- `let _ = write!(xml, ..)`: the fragments up to the first that does not fit. -/
def writeFmt (cap : Nat) (acc : Bytes) : List Bytes → Bytes
  | [] => acc
  | fragment :: rest =>
    match pushStr cap acc fragment with
    | some acc' => writeFmt cap acc' rest
    | none => acc

/-- `topic.strip_prefix('/').unwrap_or(topic)`. -/
def stripSlash : Bytes → Bytes
  | [] => []
  | c :: rest => if c = 0x2F then rest else c :: rest

def ros2TopicName (cap : Nat) (topic : Bytes) : Call T σ Bytes :=
  match pushStr cap [] (ascii "rt/") with
  | none => throw .bufferTooSmall
  | some s =>
    match pushStr cap s (stripSlash topic) with
    | none => throw .bufferTooSmall
    | some s' => pure s'

def participantXml (name : Bytes) : Bytes := writeFmt 128 []
  [ascii "<dds><participant><rtps><name>", name, ascii "</name></rtps></participant></dds>"]

def topicXml (ddsTopic typeName : Bytes) : Bytes := writeFmt 256 []
  [ascii "<dds><topic><name>", ddsTopic, ascii "</name><dataType>", typeName,
    ascii "</dataType></topic></dds>"]

def dataWriterXml (ddsTopic typeName : Bytes) : Bytes := writeFmt 320 []
  [ascii "<dds><data_writer><topic><kind>NO_KEY</kind><name>", ddsTopic,
    ascii "</name><dataType>", typeName, ascii "</dataType></topic></data_writer></dds>"]

def dataReaderXml (ddsTopic typeName : Bytes) : Bytes := writeFmt 320 []
  [ascii "<dds><data_reader><topic><kind>NO_KEY</kind><name>", ddsTopic,
    ascii "</name><dataType>", typeName, ascii "</dataType></topic></data_reader></dds>"]

def publisherXml : Bytes := ascii "<dds><publisher><name>MyPublisher</name></publisher></dds>"

def subscriberXml : Bytes := ascii "<dds><subscriber><name>MySubscriber</name></subscriber></dds>"

section
variable [ReadWrite T]

def readLoop : Nat → Nat → Call T σ Bytes
  | _, 0 => pure []
  | 0, _ + 1 => Prog.pending
  | fuel + 1, left + 1 => do
    let got ← Framing.read (left + 1)
    match got with
    | [] => throw .disconnected
    | b :: bs =>
      if bs.length ≤ left then
        let rest ← readLoop fuel (left - bs.length)
        pure (b :: bs ++ rest)
      else Prog.panic

/-- The session's own copy of `read_exact`. -/
def readExact (len : Nat) : Call T σ Bytes := readLoop len len

/-- Reads one frame into `rx_buf` and returns its length. -/
def readOneFrame : Call T σ Nat := do
  let lenBuf ← readExact 2
  let len := Framing.frameLen lenBuf
  if rxBufSize < len then throw .bufferTooSmall
  else
    let bytes ← readExact len
    let w ← get
    modify (World.setRxBuf (w.session.rxBuf.overwrite 0 bytes))
    modify (World.log (.received bytes))
    pure len

end

/-- `slot.try_deliver(user_data)`, with the error only logged. -/
def deliverTo (s : σ) (userData : Bytes) : Call T σ Unit :=
  zoom (fun w => w.slots s) (World.setSlot s) (ignoreErr (Subscription.tryDeliver userData))

/-- The loop over the dispatch table: the first slot with the id gets the data. -/
def deliverFirst (drOid : UInt16) (userData : Bytes) : List σ → Call T σ Unit
  | [] => pure ()
  | s :: subs => do
    let w ← get
    if (w.slots s).drId = drOid then deliverTo s userData
    else deliverFirst drOid userData subs

def dispatchDataPayload (payload : Bytes) (subs : List σ) : Call T σ Unit := do
  if payload.length < 4 then pure ()
  else
    let hi ← index payload 2
    let lo ← index payload 3
    let userData ← slice payload 4 payload.length
    deliverFirst (u16FromBe hi lo) userData subs

def dispatchFrame (msg : Bytes) (sessionId : UInt8) (subs : List σ) : Call T σ Unit := do
  let hdrLen := msgHeaderLen sessionId
  if msg.length < hdrLen + 4 then pure ()
  else
    let submsgId ← index msg hdrLen
    let lo ← index msg (hdrLen + 2)
    let hi ← index msg (hdrLen + 3)
    let submsgLen := (u16FromLe lo hi).toNat
    let payloadEnd := min (hdrLen + 4 + submsgLen) msg.length
    let payload ← slice msg (hdrLen + 4) payloadEnd
    if submsgId = submsgData then dispatchDataPayload payload subs
    -- STATUS, STATUS_AGENT and everything else: logged and dropped.
    else pure ()

def parseStatusPayload (payload : Bytes) (expectedReq : UInt16) : Call T σ Unit := do
  if payload.length < 6 then throw .unexpectedReply
  else
    let hi ← index payload 0
    let lo ← index payload 1
    if u16FromBe hi lo ≠ expectedReq then throw .statusReqMismatch
    else
      let status ← index payload 4
      if status ≠ statusOk ∧ status ≠ statusOkMatched then throw (.agentRejected status)
      else pure ()

section
variable [Target] [ReadWrite T]

/-- One turn of the loop of `wait_status_for`; `false` is `continue`. -/
def waitTurn (expectedReq : UInt16) : Call T σ Bool := do
  let len ← readOneFrame
  let w ← get
  let msg ← slice w.session.rxBuf.cells 0 len
  let hdrLen := msgHeaderLen w.session.sessionId
  if msg.length < hdrLen + 4 then throw .unexpectedReply
  else
    let submsgId ← index msg hdrLen
    let lo ← index msg (hdrLen + 2)
    let hi ← index msg (hdrLen + 3)
    let submsgLen := (u16FromLe lo hi).toNat
    let afterHdr ← usizeSub msg.length hdrLen
    let room ← usizeSub afterHdr 4
    let payload ← slice msg (hdrLen + 4) (hdrLen + 4 + min submsgLen room)
    if submsgId = submsgStatus then
      parseStatusPayload payload expectedReq
      pure true
    else if submsgId = submsgData then
      dispatchDataPayload payload w.session.subscriptions.items
      pure false
    else pure false

/-- The loop itself, watched for at most `fuel` turns: after that many the call
counts as still pending. -/
def waitStatusFor : Nat → UInt16 → Call T σ Unit
  | 0, _ => Prog.pending
  | fuel + 1, expectedReq => do
    let done ← waitTurn expectedReq
    if done then pure () else waitStatusFor fuel expectedReq

def spinOnce : Call T σ Unit := do
  let len ← readOneFrame
  let w ← get
  let msg ← slice w.session.rxBuf.cells 0 len
  dispatchFrame msg w.session.sessionId w.session.subscriptions.items

/-- `spin_once` again and again, up to its first error, which is what `spin` returns. It is
watched for at most `fuel` turns. -/
def spin : Nat → Call T σ Error
  | 0 => Prog.pending
  | fuel + 1 => do
    let result ← attempt spinOnce
    match result with
    | .ok _ => spin fuel
    | .error e => pure e

/-- Run an encoder over `tx_buf`. -/
def encode {α : Type} (p : WriteMsg txBufSize α) : Call T σ α :=
  zoom (fun w => MsgWriter.new w.session.txBuf) (fun b => World.setTxBuf b.buf) p

/-- `write_framed(&mut self.transport, &self.tx_buf[..n])`. -/
def sendTx (len : Nat) : Call T σ Unit := do
  let w ← get
  let frame ← slice w.session.txBuf.cells 0 len
  modify (World.log (.sent frame))
  Framing.writeFramed frame

def createParticipantEntity (fuel : Nat) (idx : UInt16) (xml : Bytes) : Call T σ Unit := do
  let oid := objectId idx entityParticipant
  let req ← nextReq
  let seq ← nextSeq
  let w ← get
  let len ← encode
    (encodeCreateParticipant w.session.sessionId seq w.session.clientKey req oid xml 0)
  sendTx len
  waitStatusFor fuel req

def createWithParentEntity (fuel : Nat) (objOid : UInt16) (objKind : UInt8) (xml : Bytes)
    (parentOid : UInt16) : Call T σ Unit := do
  let req ← nextReq
  let seq ← nextSeq
  let w ← get
  let len ← encode (encodeCreateWithParent w.session.sessionId seq w.session.clientKey req
    objOid objKind xml parentOid)
  sendTx len
  waitStatusFor fuel req

def createPublisherEntity (fuel : Nat) (pubIdx participantIdx : UInt16) : Call T σ Unit :=
  createWithParentEntity fuel (objectId pubIdx entityPublisher) entityPublisher publisherXml
    (objectId participantIdx entityParticipant)

def createSubscriberEntity (fuel : Nat) (subIdx participantIdx : UInt16) : Call T σ Unit :=
  createWithParentEntity fuel (objectId subIdx entitySubscriber) entitySubscriber subscriberXml
    (objectId participantIdx entityParticipant)

def sendReadData (fuel : Nat) (drOid : UInt16) : Call T σ Unit := do
  let req ← nextReq
  let seq ← nextSeq
  let w ← get
  let len ← encode (encodeReadData w.session.sessionId seq w.session.clientKey req drOid)
  sendTx len
  waitStatusFor fuel req

def createNode (fuel : Nat) (name : Bytes) : Call T σ Node := do
  let participantIdx ← allocParticipant
  let publisherIdx ← allocPublisher
  let subscriberIdx ← allocSubscriber
  createParticipantEntity fuel participantIdx (participantXml name)
  createPublisherEntity fuel publisherIdx participantIdx
  createSubscriberEntity fuel subscriberIdx participantIdx
  pure ⟨participantIdx, publisherIdx, subscriberIdx⟩

def createPublisher (M : Type) [Message M] (fuel : Nat) (node : Node) (topic : Bytes) :
    Call T σ (Publisher M) := do
  let ddsTopic ← ros2TopicName topicNameMax topic
  let topicIdx ← allocTopic
  createWithParentEntity fuel (objectId topicIdx entityTopic) entityTopic
    (topicXml ddsTopic (Message.typeName M)) (objectId node.participantIdx entityParticipant)
  let dwIdx ← allocDw
  let dwOid := objectId dwIdx entityDatawriter
  createWithParentEntity fuel dwOid entityDatawriter
    (dataWriterXml ddsTopic (Message.typeName M)) (objectId node.publisherIdx entityPublisher)
  pure ⟨dwOid⟩

def setDrId (s : σ) (drOid : UInt16) : Call T σ Unit := modify fun w =>
  (w.setSlot s ((w.slots s).setDrId drOid)).log (.assigned s drOid)

/-- `self.subscriptions.push(slot)`. -/
def pushSubscription (s : σ) : Call T σ Unit := do
  let w ← get
  match w.session.subscriptions.push s with
  | none => throw .tooManySubscriptions
  | some subs => modify fun w => (w.setSubscriptions subs).log (.registered s)

def createSubscription (fuel : Nat) (node : Node) (topic : Bytes) (s : σ) : Call T σ σ := do
  let w ← get
  if w.session.subscriptions.isFull then throw .tooManySubscriptions
  else
    let ddsTopic ← ros2TopicName topicNameMax topic
    let topicIdx ← allocTopic
    createWithParentEntity fuel (objectId topicIdx entityTopic) entityTopic
      (topicXml ddsTopic (Message.typeName (Statics.Msg s)))
      (objectId node.participantIdx entityParticipant)
    let drIdx ← allocDr
    let drOid := objectId drIdx entityDatareader
    createWithParentEntity fuel drOid entityDatareader
      (dataReaderXml ddsTopic (Message.typeName (Statics.Msg s)))
      (objectId node.subscriberIdx entitySubscriber)
    sendReadData fuel drOid
    setDrId s drOid
    pushSubscription s
    pure s

/-- `msg.serialize` into `tx_buf[prefix..]`; returns `bytes_written()`. -/
def serializeBody {M : Type} [Message M] (prefixLen : Nat) (m : M) : Call T σ Nat := do
  zoom (fun w => CdrWriter.new (w.session.txBuf.dropFront prefixLen))
    (fun c w => w.setTxBuf (w.session.txBuf.overwrite prefixLen c.buf.cells))
    (do
      runCalls (Message.serialize m)
      let c ← get
      pure c.bytesWritten)

/-- `finalize_write_data_headers(&mut self.tx_buf[..total], ..)`. -/
def fillHeaders (total : Nat) (seq : UInt16) (dwOid : UInt16) : Call T σ Unit := do
  let w ← get
  zoom (fun w => MsgWriter.new (w.session.txBuf.takeFront total))
    (fun b w => w.setTxBuf (w.session.txBuf.overwrite 0 b.buf.cells))
    (finalizeWriteDataHeaders w.session.sessionId seq w.session.clientKey dwOid)

def publish {M : Type} [Message M] (pub : Publisher M) (m : M) : Call T σ Unit := do
  let w ← get
  let prefixLen := msgHeaderLen w.session.sessionId + 4 + 4
  if txBufSize < prefixLen then throw .bufferTooSmall
  else
    let bodyLen ← serializeBody prefixLen m
    if txBufSize - prefixLen < bodyLen then throw .bufferTooSmall
    else
      -- A body above `MAX_SERIALIZED_SIZE` is only logged.
      let total := prefixLen + bodyLen
      let seq ← nextSeq
      fillHeaders total seq pub.dwId
      sendTx total

/-- A task calls `try_recv` between two calls of the session. -/
def tryRecv (s : σ) : Call T σ Unit := modify fun w => w.takeFrom s

end

def parseStatusAgent {S : Type} (msg : Bytes) (sessionId : UInt8) : Prog Error S Unit := do
  let hdrLen := msgHeaderLen sessionId
  if msg.length < hdrLen + 4 + 2 then throw .unexpectedReply
  else
    let submsgId ← index msg hdrLen
    if submsgId ≠ submsgStatusAgent then throw .unexpectedReply
    else
      let payload ← slice msg (hdrLen + 4) msg.length
      let status ← index payload 0
      if status ≠ statusOk then throw (.agentRejected status) else pure ()

/-- The session `connect` returns: sequence number 0, request id 1, every index 1. -/
def connected (transport : T) (sessionId : UInt8) (clientKey : ClientKey) : Session T σ where
  transport := transport
  sessionId := sessionId
  clientKey := clientKey
  seq := 0
  reqId := 1
  nextIdx := fun _ => 1
  txBuf := Buffer.replicate txBufSize 0
  rxBuf := Buffer.replicate rxBufSize 0
  subscriptions := Bounded.empty

/-- The world right after `connect`: every slot is as `Subscription::new` made it. -/
def start (transport : T) (sessionId : UInt8) (clientKey : ClientKey) (tasks : List (List σ)) :
    World T σ where
  session := connected transport sessionId clientKey
  slots := fun _ => Subscription.new
  tasks := tasks
  history := []

def connect [Target] [ReadWrite T] (sessionId : UInt8) (clientKey : ClientKey) :
    Prog Error T (Session T σ) := do
  let tx := (buildCreateClient sessionId clientKey 512).run
    (MsgWriter.new (Buffer.replicate 64 0))
  let len ← ofOutcome tx.1
  let frame ← slice tx.2.buf.cells 0 len
  Framing.writeFramed frame
  let reply ← Framing.readFramed 128
  parseStatusAgent reply sessionId
  let transport ← get
  pure (connected transport sessionId clientKey)

end Session

end MicroXrceDds
