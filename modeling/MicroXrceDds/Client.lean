import MicroXrceDds.Incoming
import MicroXrceDds.Numbering

/-!
# The client as its agent knows it

A client hears frames and says frames. It has no buffers, nobody else runs while it waits,
and its inboxes take anything; what is left are the counters, the ids of the slots and the
dispatch table. Each call of the API is a program over this state.
-/
namespace MicroXrceDds

open Prog
open Session (participantXml publisherXml subscriberXml topicXml dataWriterXml dataReaderXml)

structure Client (σ : Type) where
  sessionId : UInt8
  clientKey : ClientKey
  numbers : Numbers
  nextIdx : EntityKind → UInt16
  drIds : σ → UInt16
  table : Bounded σ maxSubscriptions
  /-- The bytes that are still to come in. -/
  incoming : Bytes
  heard : List Bytes
  said : List Bytes

/-- What a STATUS payload means for the request that is waited for. -/
def verdict (payload : Bytes) (req : UInt16) : Outcome Error Unit :=
  match statusOf payload with
  | some (req', status) =>
    if req' ≠ req then .err .statusReqMismatch
    else if Grants status then .ok ()
    else .err (.agentRejected status)
  | none => .err .unexpectedReply

/-- An outcome whose error is only logged. -/
def logged {α : Type} : Outcome Error α → Outcome Error Unit
  | .panic => .panic
  | .pending => .pending
  | _ => .ok ()

namespace Client

variable {σ : Type}

def took (frame rest : Bytes) (c : Client σ) : Client σ :=
  { c with incoming := rest, heard := c.heard ++ [frame] }

def leaving (rest : Bytes) (c : Client σ) : Client σ := { c with incoming := rest }

def saying (frame : Bytes) (numbers : Numbers) (c : Client σ) : Client σ :=
  { c with said := c.said ++ [frame], numbers := numbers }

def setNextIdx (kind : EntityKind) (idx : UInt16) (c : Client σ) : Client σ :=
  { c with nextIdx := Function.update c.nextIdx kind idx }

def setDrId [Statics σ] (s : σ) (id : UInt16) (c : Client σ) : Client σ :=
  { c with drIds := Function.update c.drIds s id }

def setTable (table : Bounded σ maxSubscriptions) (c : Client σ) : Client σ :=
  { c with table := table }

/-- The slot that samples with this object id belong to. -/
def owner (c : Client σ) (id : UInt16) : Option σ := c.table.items.find? fun s => c.drIds s == id

def request (c : Client σ) (id flags : UInt8) (payload : UInt16 → Bytes) : Bytes :=
  message c.sessionId c.numbers.seq c.clientKey id flags (payload c.numbers.reqId)

def writeData (c : Client σ) (dwId : UInt16) (body : Bytes) : Bytes :=
  message c.sessionId c.numbers.seq c.clientKey submsgWriteData (flagLe ||| formatData)
    (writeDataPayload dwId body)

/-- The next frame, if it comes in as a whole and fits. -/
def hear (ending : Ending) : Prog Error (Client σ) Bytes := do
  let c ← get
  match nextFrame rxBufSize c.incoming with
  | .frame f rest => do
    modify (took f rest)
    pure f
  | .oversized rest => do
    modify (leaving rest)
    throw .bufferTooSmall
  | .cut => do
    modify (leaving [])
    ofOutcome ending.outcome

theorem hear_frame (ending : Ending) {c : Client σ} {f rest : Bytes}
    (h : nextFrame rxBufSize c.incoming = .frame f rest) :
    (hear ending).run c = (.ok f, c.took f rest) := by
  rw [hear, run_get_bind, h]
  rfl

theorem hear_oversized (ending : Ending) {c : Client σ} {rest : Bytes}
    (h : nextFrame rxBufSize c.incoming = .oversized rest) :
    (hear ending).run c = (.err .bufferTooSmall, c.leaving rest) := by
  rw [hear, run_get_bind, h]
  rfl

theorem hear_cut (ending : Ending) {c : Client σ} (h : nextFrame rxBufSize c.incoming = .cut) :
    (hear ending).run c = (ending.outcome, c.leaving []) := by
  rw [hear, run_get_bind, h]
  rfl

/-- The client after it has heard these frames. -/
def tookAll (frames : List Bytes) (rest : Bytes) (c : Client σ) : Client σ :=
  { c with incoming := rest, heard := c.heard ++ frames }

theorem tookAll_cons (f : Bytes) (frames : List Bytes) (bs rest : Bytes) (c : Client σ) :
    (c.took f bs).tookAll frames rest = c.tookAll (f :: frames) rest := by
  simp only [took, tookAll, List.append_assoc, List.singleton_append]

theorem hear_nil (ending : Ending) {c : Client σ} (h : c.incoming = []) :
    (hear ending).run c = (ending.outcome, c) := by
  rw [hear_cut ending (by rw [h]; rfl), leaving, ← h]

theorem hear_framed (ending : Ending) {c : Client σ} {f rest : Bytes}
    (hin : c.incoming = framed f ++ rest) (hfit : f.length ≤ rxBufSize) :
    (hear ending).run c = (.ok f, c.took f rest) := by
  apply hear_frame
  rw [hin]
  exact nextFrame_framed (by rw [rxBufSize] at hfit; omega) hfit rest

variable [Statics σ]

/-- A sample is decoded for the slot it belongs to. -/
def offer (f : Bytes) : Prog Error (Client σ) Unit := do
  let c ← get
  match dataOf c.sessionId f with
  | some (id, body) =>
    match c.owner id with
    | some s => ofOutcome (logged (Subscription.decode (Statics.Msg s) body))
    | none => pure ()
  | none => pure ()

/-- What comes of a frame that is offered to the slots. -/
def offered (c : Client σ) (f : Bytes) : Outcome Error Unit :=
  match dataOf c.sessionId f with
  | some (id, body) =>
    match c.owner id with
    | some s => logged (Subscription.decode (Statics.Msg s) body)
    | none => .ok ()
  | none => .ok ()

theorem offered_of_none {c : Client σ} {f : Bytes} (hdata : dataOf c.sessionId f = none) :
    c.offered f = .ok () := by
  rw [offered, hdata]

theorem offer_run (f : Bytes) (c : Client σ) : (offer f).run c = (c.offered f, c) := by
  rw [offer, run_get_bind, offered]
  cases dataOf c.sessionId f with
  | none => rfl
  | some data => cases hs : c.owner data.1 <;> simp only [hs] <;> rfl

/-- A STATUS is for the request that is waited for, or the wait fails. -/
def heed (req : UInt16) (f : Bytes) : Prog Error (Client σ) Bool := do
  let c ← get
  match submessageOf c.sessionId f with
  | some (id, payload) =>
    if id = submsgStatus then do
      ofOutcome (verdict payload req)
      pure true
    else do
      offer f
      pure false
  | none => throw .unexpectedReply

/-- Frames are heard until one is a STATUS, for at most `fuel` of them. -/
def listen (ending : Ending) : Nat → UInt16 → Prog Error (Client σ) Unit
  | 0, _ => pending
  | fuel + 1, req => do
    let f ← hear ending
    let done ← heed req f
    if done then pure () else listen ending fuel req

section
variable [Target] (ending : Ending) (fuel : Nat)

def alloc (kind : EntityKind) : Prog Error (Client σ) UInt16 := do
  let c ← get
  let next ← addIn 16 (c.nextIdx kind).toNat 1
  modify (setNextIdx kind (UInt16.ofNat next))
  pure (c.nextIdx kind)

/-- A request goes out, and its STATUS is waited for. -/
def ask (id flags : UInt8) (payload : UInt16 → Bytes) : Prog Error (Client σ) Unit := do
  let c ← get
  modify (saying (c.request id flags payload) c.numbers.afterRequest)
  listen ending fuel c.numbers.reqId

def askParticipant (idx : UInt16) (xml : Bytes) : Prog Error (Client σ) Unit :=
  ask ending fuel submsgCreate flagsCreate fun req =>
    participantPayload req (objectId idx entityParticipant) xml 0

def askChild (oid : UInt16) (kind : UInt8) (xml : Bytes) (parent : UInt16) :
    Prog Error (Client σ) Unit :=
  ask ending fuel submsgCreate flagsCreate fun req => childPayload req oid kind xml parent

def askData (oid : UInt16) : Prog Error (Client σ) Unit :=
  ask ending fuel submsgReadData flagLe fun req => readDataPayload req oid

def createNode (name : Bytes) : Prog Error (Client σ) Node := do
  let participantIdx ← alloc .participant
  let publisherIdx ← alloc .publisher
  let subscriberIdx ← alloc .subscriber
  askParticipant ending fuel participantIdx (participantXml name)
  askChild ending fuel (objectId publisherIdx entityPublisher) entityPublisher publisherXml
    (objectId participantIdx entityParticipant)
  askChild ending fuel (objectId subscriberIdx entitySubscriber) entitySubscriber subscriberXml
    (objectId participantIdx entityParticipant)
  pure ⟨participantIdx, publisherIdx, subscriberIdx⟩

def createPublisher (M : Type) [Message M] (node : Node) (topic : Bytes) :
    Prog Error (Client σ) (Publisher M) := do
  if TopicFits topic then do
    let topicIdx ← alloc .topic
    askChild ending fuel (objectId topicIdx entityTopic) entityTopic
      (topicXml (ddsTopicName topic) (Message.typeName M))
      (objectId node.participantIdx entityParticipant)
    let dwIdx ← alloc .datawriter
    askChild ending fuel (objectId dwIdx entityDatawriter) entityDatawriter
      (dataWriterXml (ddsTopicName topic) (Message.typeName M))
      (objectId node.publisherIdx entityPublisher)
    pure ⟨objectId dwIdx entityDatawriter⟩
  else throw .bufferTooSmall

/-- Everything of `create_subscription` up to the answer to READ_DATA. -/
def prepareSubscription (node : Node) (topic : Bytes) (s : σ) :
    Prog Error (Client σ) UInt16 := do
  if TopicFits topic then do
    let topicIdx ← alloc .topic
    askChild ending fuel (objectId topicIdx entityTopic) entityTopic
      (topicXml (ddsTopicName topic) (Message.typeName (Statics.Msg s)))
      (objectId node.participantIdx entityParticipant)
    let drIdx ← alloc .datareader
    askChild ending fuel (objectId drIdx entityDatareader) entityDatareader
      (dataReaderXml (ddsTopicName topic) (Message.typeName (Statics.Msg s)))
      (objectId node.subscriberIdx entitySubscriber)
    askData ending fuel (objectId drIdx entityDatareader)
    pure (objectId drIdx entityDatareader)
  else throw .bufferTooSmall

def enter (s : σ) (drOid : UInt16) : Prog Error (Client σ) σ := do
  modify (setDrId s drOid)
  let c ← get
  match c.table.push s with
  | none => throw .tooManySubscriptions
  | some table => do
    modify (setTable table)
    pure s

def createSubscription (node : Node) (topic : Bytes) (s : σ) : Prog Error (Client σ) σ := do
  let c ← get
  if c.table.isFull then throw .tooManySubscriptions
  else do
    let drOid ← prepareSubscription ending fuel node topic s
    enter s drOid

/-- A message that fits goes out in one piece. -/
def publish {M : Type} [Message M] (pub : Publisher M) (m : M) : Prog Error (Client σ) Unit := do
  let c ← get
  modify (saying (c.writeData pub.dwId (bodyBytes m)) c.numbers.afterData)

def spinOnce : Prog Error (Client σ) Unit := do
  let f ← hear ending
  offer f

end

end Client

section
variable {σ : Type} [Statics σ] [Target]

/-- A call of the API at the client. -/
def Op.act (ending : Ending) (fuel : Nat) : Op σ → Prog Error (Client σ) (Reply σ)
  | createNode name => do
    let node ← Client.createNode ending fuel name
    pure (.node node)
  | createPublisher M node topic => do
    let pub ← Client.createPublisher ending fuel M node topic
    pure (.publisher pub.dwId)
  | createSubscription node topic slot => do
    let slot ← Client.createSubscription ending fuel node topic slot
    pure (.subscription slot)
  | publish _ pub msg => do
    Client.publish pub msg
    pure .done
  | spinOnce => do
    Client.spinOnce ending
    pure .done
  -- Taking a sample from an inbox is no business of the client's.
  | tryRecv _ => pure .done

end

end MicroXrceDds
