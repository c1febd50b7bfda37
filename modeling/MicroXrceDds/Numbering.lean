import MicroXrceDds.Registration
import MicroXrceDds.Delivery

/-!
# The numbering of outgoing messages

Every message uses up one sequence number, and every CREATE and READ_DATA one request id.
No call uses up either without a message going out.
-/
namespace MicroXrceDds

open Prog Session

/-- The two counters that outgoing messages are numbered with. -/
structure Numbers where
  seq : UInt16
  reqId : UInt16

namespace Numbers

def afterData (c : Numbers) : Numbers := { c with seq := c.seq + 1 }

/-- The request id 0 is skipped. -/
def afterRequest (c : Numbers) : Numbers := ⟨c.seq + 1, max (c.reqId + 1) 1⟩

end Numbers

/-- A whole message with one submessage about an object. -/
def IsMessage (sessionId : UInt8) (seq : UInt16) (id : UInt8) (req : UInt16) (frame : Bytes) : Prop :=
  ∃ key flags oid rest, rest.length + 4 < 2 ^ 16 ∧
    frame = message sessionId seq key id flags (requestIdBeBytes req ++ objectIdBeBytes oid ++ rest)

/-- The messages are numbered on from the one pair of counters to the other. -/
inductive Sequenced (sessionId : UInt8) : Numbers → List Bytes → Numbers → Prop
  | nil (c : Numbers) : Sequenced sessionId c [] c
  | data {c c' : Numbers} {frame : Bytes} {frames : List Bytes}
      (first : IsMessage sessionId c.seq submsgWriteData 0 frame)
      (rest : Sequenced sessionId c.afterData frames c') : Sequenced sessionId c (frame :: frames) c'
  | request {c c' : Numbers} {id : UInt8} {frame : Bytes} {frames : List Bytes}
      (kind : id = submsgCreate ∨ id = submsgReadData)
      (first : IsMessage sessionId c.seq id c.reqId frame)
      (rest : Sequenced sessionId c.afterRequest frames c') :
      Sequenced sessionId c (frame :: frames) c'

/-- The request id of a CREATE or a READ_DATA. -/
def requestId (sessionId : UInt8) (frame : Bytes) : Option UInt16 :=
  match requestOf sessionId frame with
  | some (id, req, _) => if id = submsgCreate ∨ id = submsgReadData then some req else none
  | none => none

theorem IsMessage.requestOf {sessionId id : UInt8} {seq req : UInt16} {frame : Bytes}
    (h : IsMessage sessionId seq id req frame) :
    ∃ oid, requestOf sessionId frame = some (id, req, oid) := by
  obtain ⟨key, flags, oid, rest, hlen, rfl⟩ := h
  exact ⟨oid, requestOf_message hlen⟩

theorem seq_succ (seq : UInt16) (i : Nat) :
    seq + 1 + UInt16.ofNat i = seq + UInt16.ofNat (i + 1) := by
  rw [UInt16.ofNat_add, UInt16.add_assoc, UInt16.add_comm 1]
  rfl

namespace Sequenced

variable {sessionId : UInt8} {c c₁ c₂ : Numbers} {xs ys frames : List Bytes}

theorem append (h : Sequenced sessionId c xs c₁) (h' : Sequenced sessionId c₁ ys c₂) :
    Sequenced sessionId c (xs ++ ys) c₂ := by
  induction h with
  | nil => exact h'
  | data first _ ih => exact .data first (ih h')
  | request kind first _ ih => exact .request kind first (ih h')

/-- The sequence numbers run without a gap. -/
theorem seq_get (h : Sequenced sessionId c frames c₁) {i : Nat} {frame : Bytes}
    (hi : frames[i]? = some frame) :
    ∃ id req, IsMessage sessionId (c.seq + UInt16.ofNat i) id req frame ∧
      (id = submsgCreate ∨ id = submsgReadData ∨ id = submsgWriteData ∧ req = 0) := by
  induction h generalizing i with
  | nil => cases hi
  | @data c c' first frames hfirst _ ih =>
    cases i with
    | zero =>
      cases hi
      exact ⟨_, _, (UInt16.add_zero c.seq).symm ▸ hfirst, .inr (.inr ⟨rfl, rfl⟩)⟩
    | succ i => exact seq_succ c.seq i ▸ ih hi
  | @request c c' id first frames kind hfirst _ ih =>
    cases i with
    | zero =>
      cases hi
      exact ⟨_, _, (UInt16.add_zero c.seq).symm ▸ hfirst, kind.imp_right .inl⟩
    | succ i => exact seq_succ c.seq i ▸ ih hi

/-- The request ids run from 1 to 65535, again and again. -/
theorem req_get (h : Sequenced sessionId c frames c₁) (hc : c.reqId ≠ 0) {n : Nat} {req : UInt16}
    (hn : (frames.filterMap (requestId sessionId))[n]? = some req) :
    req.toNat = 1 + (c.reqId.toNat - 1 + n) % 65535 := by
  induction h generalizing n with
  | nil => cases hn
  | @data c c' first frames hfirst _ ih =>
    obtain ⟨oid, hreq⟩ := hfirst.requestOf
    have hnone : requestId sessionId first = none := by
      simp only [requestId, hreq]
      exact if_neg (by decide)
    rw [List.filterMap_cons_none hnone] at hn
    exact ih hc hn
  | @request c c' id first frames kind hfirst _ ih =>
    obtain ⟨oid, hreq⟩ := hfirst.requestOf
    have hsome : requestId sessionId first = some c.reqId := by
      simp only [requestId, hreq, if_pos kind]
    rw [List.filterMap_cons_some hsome] at hn
    have hpos : 0 < c.reqId.toNat := by
      apply Nat.pos_of_ne_zero
      intro h
      exact hc (UInt16.toNat_inj.mp h)
    have hlt := c.reqId.toNat_lt
    cases n with
    | zero =>
      cases hn
      omega
    | succ n =>
      have hnext : c.afterRequest.reqId.toNat =
          if c.reqId.toNat = 65535 then 1 else c.reqId.toNat + 1 := toNat_next c.reqId
      have hne : c.afterRequest.reqId ≠ 0 := by
        intro h
        rw [h] at hnext
        split at hnext <;> simp at hnext
      rw [ih hne hn, hnext]
      split <;> omega

/-- The counter says how many messages have gone out. -/
theorem seq_end (h : Sequenced sessionId c frames c₁) :
    c₁.seq = c.seq + UInt16.ofNat frames.length := by
  induction h with
  | nil c => exact (UInt16.add_zero c.seq).symm
  | data _ _ ih => exact ih.trans (seq_succ _ _)
  | request _ _ _ ih => exact ih.trans (seq_succ _ _)

end Sequenced

/-- What the far end can tell of the numbers. -/
structure WellNumbered (sessionId : UInt8) (frames : List Bytes) : Prop where
  seq : ∀ i frame, frames[i]? = some frame → ∃ id req,
    IsMessage sessionId (UInt16.ofNat i) id req frame ∧
      (id = submsgCreate ∨ id = submsgReadData ∨ id = submsgWriteData ∧ req = 0)
  req : ∀ (n : Nat) req, (frames.filterMap (requestId sessionId))[n]? = some req →
    req.toNat = 1 + n % 65535
  nonzero : 0 ∉ frames.filterMap (requestId sessionId)
  fresh : ∀ (m n : Nat) req req', m < n → n ≤ m + 65534 →
    (frames.filterMap (requestId sessionId))[m]? = some req →
    (frames.filterMap (requestId sessionId))[n]? = some req' → req ≠ req'

theorem Sequenced.well {sessionId : UInt8} {frames : List Bytes} {c : Numbers}
    (h : Sequenced sessionId ⟨0, 1⟩ frames c) : WellNumbered sessionId frames := by
  have hone : (1 : UInt16).toNat = 1 := rfl
  have hreq : ∀ (n : Nat) req, (frames.filterMap (requestId sessionId))[n]? = some req →
      req.toNat = 1 + n % 65535 := by
    intro n req hn
    have hget := h.req_get (by decide) hn
    simp only [hone] at hget
    omega
  constructor
  · intro i frame hi
    obtain ⟨id, req, hmessage, hkind⟩ := h.seq_get hi
    rw [UInt16.zero_add] at hmessage
    exact ⟨id, req, hmessage, hkind⟩
  · exact hreq
  · intro hmem
    obtain ⟨n, hn⟩ := List.mem_iff_getElem?.mp hmem
    have hget : 0 = 1 + n % 65535 := hreq n 0 hn
    omega
  · rintro m n req req' hlt hle hm hn rfl
    have hget := hreq m req hm
    have hget' := hreq n req hn
    omega

variable {T σ : Type} [Statics σ]

def World.numbers (w : World T σ) : Numbers := ⟨w.session.seq, w.session.reqId⟩

/-- The frames that a history hands to the transport. -/
def sentFrames (es : List (Event σ)) : List Bytes :=
  es.filterMap fun e => match e with
    | .sent frame => some frame
    | _ => none

/-- A transport whose writes succeed, with the bytes that have been written to it; reading
writes nothing. -/
structure Records [ReadWrite T] (written : T → Bytes) : Prop extends
    Sink (fun bs t => written t = bs) where
  read : ∀ len t, written ((ReadWrite.read len : Prog Unit T Bytes).run t).2 = written t

/-- From the one world to the other these frames have been written, one whole message after
the other, numbered on from the counters. -/
def Sends (written : T → Bytes) (w w' : World T σ) : Prop :=
  ∃ frames, sentFrames w'.history = sentFrames w.history ++ frames ∧
    written w'.session.transport = written w.session.transport ++ stream frames ∧
    w'.session.sessionId = w.session.sessionId ∧
    Sequenced w.session.sessionId w.numbers frames w'.numbers

namespace Sends

variable {written : T → Bytes} {w w₁ w₂ : World T σ}

theorem same (hhist : sentFrames w₁.history = sentFrames w.history)
    (hwritten : written w₁.session.transport = written w.session.transport)
    (hid : w₁.session.sessionId = w.session.sessionId) (hnumbers : w₁.numbers = w.numbers) :
    Sends written w w₁ := by
  refine ⟨[], ?_, ?_, hid, ?_⟩
  · rw [hhist, List.append_nil]
  · rw [hwritten, stream_nil, List.append_nil]
  · rw [hnumbers]
    exact .nil _

theorem refl (w : World T σ) : Sends written w w := same rfl rfl rfl rfl

theorem trans (h : Sends written w w₁) (h' : Sends written w₁ w₂) : Sends written w w₂ := by
  obtain ⟨xs, hhist, hwritten, hid, hnumbered⟩ := h
  obtain ⟨ys, hhist', hwritten', hid', hnumbered'⟩ := h'
  refine ⟨xs ++ ys, ?_, ?_, hid'.trans hid, ?_⟩
  · rw [hhist', hhist, List.append_assoc]
  · rw [hwritten', hwritten, stream_append, List.append_assoc]
  · rw [hid] at hnumbered'
    exact hnumbered.append hnumbered'

/-- A frame that has been handed to the transport and written. -/
theorem single {frame : Bytes} (hhist : sentFrames w₁.history = sentFrames w.history ++ [frame])
    (hwritten : written w₁.session.transport = written w.session.transport ++ framed frame)
    (hid : w₁.session.sessionId = w.session.sessionId)
    (hnumbered : Sequenced w.session.sessionId w.numbers [frame] w₁.numbers) : Sends written w w₁ :=
  ⟨[frame], hhist, by rw [hwritten, stream_cons, stream_nil, List.append_nil], hid, hnumbered⟩

end Sends

theorem sentFrames_append (xs ys : List (Event σ)) :
    sentFrames (xs ++ ys) = sentFrames xs ++ sentFrames ys := List.filterMap_append

/-- What does not concern the transport, the counters or the frames sent. -/
def Silent (w w' : World T σ) : Prop :=
  sentFrames w'.history = sentFrames w.history ∧ w'.session.sessionId = w.session.sessionId ∧
    w'.numbers = w.numbers

theorem silent_suspend (w : World T σ) : Silent w w.suspend := by
  obtain ⟨es, hes, htrail⟩ := w.suspend_trail
  refine ⟨?_, ?_, ?_⟩
  · have hnone : sentFrames es = [] := by
      apply List.filterMap_eq_nil_iff.mpr
      intro e he
      obtain ⟨s, v, rfl⟩ := hes e he
      rfl
    rw [htrail.history, sentFrames_append, hnone, List.append_nil]
  · rw [World.suspend_session]
  · rw [World.numbers, World.suspend_session]
    rfl

theorem stable_silent : Stable (T := T) (Silent (σ := σ)) where
  refl _ := ⟨rfl, rfl, rfl⟩
  trans _ _ _ h h' := ⟨h'.1.trans h.1, h'.2.1.trans h.2.1, h'.2.2.trans h.2.2⟩
  suspend := silent_suspend
  transport _ _ := ⟨rfl, rfl, rfl⟩

section
variable {written : T → Bytes}

/-- An event that is not a frame going out. -/
theorem sentFrames_log {w : World T σ} {e : Event σ} (h : ∀ frame, e ≠ .sent frame) :
    sentFrames (w.history ++ [e]) = sentFrames w.history := by
  have hnone : sentFrames [e] = [] := by
    cases e with
    | sent frame => exact absurd rfl (h frame)
    | _ => rfl
  rw [sentFrames_append, hnone, List.append_nil]

theorem enter_sends (s : σ) (drOid : UInt16) :
    Within (Sends written) (enter s drOid : Call T σ σ) := by
  have hassign : Within (Sends written) (setDrId s drOid : Call T σ Unit) :=
    fun w => .same (sentFrames_log (by simp)) rfl rfl rfl
  have hpush : Within (Sends written) (pushSubscription s : Call T σ Unit) := by
    intro w
    cases h : w.session.subscriptions.push s with
    | none =>
      rw [pushSubscription_none h]
      exact .refl w
    | some table =>
      rw [pushSubscription_some h]
      exact .same (sentFrames_log (by simp)) rfl rfl rfl
  refine Within.bind (fun _ _ _ => Sends.trans) hassign fun _ => ?_
  refine Within.bind (fun _ _ _ => Sends.trans) hpush fun _ => ?_
  exact Within.pure Sends.refl s

theorem tryRecv_sends (s : σ) : Within (Sends written) (tryRecv s : Call T σ Unit) := by
  intro w
  obtain ⟨es, hes, htrail⟩ := w.takeFrom_trail s
  have hnone : sentFrames es = [] := by
    apply List.filterMap_eq_nil_iff.mpr
    intro e he
    obtain ⟨s', v, rfl⟩ := hes e he
    rfl
  have hsession : (w.takeFrom s).session = w.session := w.takeFrom_session s
  refine .same ?_ ?_ ?_ ?_
  · change sentFrames (w.takeFrom s).history = _
    rw [htrail.history, sentFrames_append, hnone, List.append_nil]
  · exact congrArg (fun session => written session.transport) hsession
  · exact congrArg Session.sessionId hsession
  · exact congrArg (fun session => (⟨session.seq, session.reqId⟩ : Numbers)) hsession

theorem alloc_sends [Target] (kind : EntityKind) :
    Within (Sends written) (alloc kind : Call T σ UInt16) := by
  intro w
  rcases alloc_cases kind w with hrun | ⟨hrun, -⟩
  · rw [hrun]
    exact .same (sentFrames_log (by simp)) rfl rfl rfl
  · rw [hrun]
    exact .refl w

end

section
variable [ReadWrite T] {written : T → Bytes}

/-- The session writes what its transport writes. -/
theorem Records.sink (hrec : Records written) (w₀ : World T σ) :
    Sink fun bs (w : World T σ) => written w.session.transport = bs ∧ Silent w₀ w := by
  constructor
  · rintro buf bs w hne ⟨hbs, hsilent⟩
    obtain ⟨n, t, hrun, hpos, hle, hnext⟩ := hrec.write buf bs w.session.transport hne hbs
    exact ⟨n, _, onTransport_run hrun, hpos, hle, hnext, stable_silent.trans _ _ _ hsilent
      (stable_silent.trans _ _ _ (silent_suspend w) (stable_silent.transport _ t))⟩
  · rintro bs w ⟨hbs, hsilent⟩
    obtain ⟨t, hrun, hnext⟩ := hrec.flush bs w.session.transport hbs
    exact ⟨_, onTransport_run hrun, hnext, stable_silent.trans _ _ _ hsilent
      (stable_silent.trans _ _ _ (silent_suspend w) (stable_silent.transport _ t))⟩

theorem Records.writeFramed (hrec : Records written) (frame : Bytes) (w : World T σ) :
    ∃ w', (Framing.writeFramed frame : Call T σ Unit).run w = (.ok (), w') ∧
      written w'.session.transport = written w.session.transport ++ framed frame ∧ Silent w w' := by
  obtain ⟨w', hrun, hwritten, hsilent⟩ :=
    (hrec.sink w).writeFramed frame ⟨rfl, stable_silent.refl w⟩
  exact ⟨w', hrun, hwritten, hsilent⟩

/-- Receiving sends nothing. -/
theorem Records.hears (hrec : Records written) : Hears (T := T) (Sends (σ := σ) written) where
  refl := Sends.refl
  trans _ _ _ := Sends.trans
  read len := by
    refine within_mapIo fun w => ?_
    have hrun := onTransport_run (w := w) (Prod.ext rfl rfl :
      (ReadWrite.read len : Prog Unit T Bytes).run w.session.transport = (_, _))
    have hsilent := silent_suspend w
    change Sends written w ((World.onTransport (ReadWrite.read len) :
      Prog Unit (World T σ) Bytes).run w).2
    rw [hrun]
    exact .same hsilent.1 (hrec.read len w.session.transport) hsilent.2.1 hsilent.2.2
  holding w frame := by
    refine .same ?_ rfl rfl rfl
    change sentFrames (w.history ++ [.received frame]) = _
    rw [sentFrames_append]
    exact List.append_nil _
  slots w slots := .same rfl rfl rfl rfl

variable [Target]

/-- Sending a request: both counters move on, and the request goes out whole. -/
theorem sendRequest_sends (hrec : Records written) (fuel : Nat) {enc : Encoder} {id flags : UInt8}
    {oid : UInt16} {payload : UInt16 → Bytes} (henc : enc.Requests id flags oid payload)
    (hkind : id = submsgCreate ∨ id = submsgReadData) :
    Within (Sends written) (sendRequest fuel enc : Call T σ Unit) := by
  intro w
  obtain ⟨buf, -, hrun⟩ := sendRequest_run w fuel henc.writes
  obtain ⟨w₁, hwrite, hwritten, hhist, hid, hnumbers⟩ :=
    hrec.writeFramed (w.request id flags payload) (w.requesting (w.request id flags payload) buf)
  obtain ⟨rest, hlen, hrest⟩ := henc.starts w.session.reqId
  rw [hrun, bind_ok hwrite]
  have hsend : Sends written w w₁ := by
    refine .single ?_ hwritten hid ?_
    · rw [hhist]
      exact sentFrames_append _ _
    · rw [hnumbers]
      refine .request hkind ⟨w.session.clientKey, flags, oid, rest, hlen, ?_⟩ (.nil _)
      rw [World.request, hrest]
      rfl
  exact hsend.trans (hrec.hears.waitStatusFor fuel _ w₁)

theorem publish_sends (hrec : Records written) {M : Type} [Message M] (pub : Publisher M) (m : M) :
    Within (Sends written) (publish pub m : Call T σ Unit) := by
  intro w
  rcases publish_cases w pub m with ⟨body, buf, hlen, hsent⟩ | ⟨buf, hpanic⟩
  · rw [hsent]
    obtain ⟨w₁, hwrite, hwritten, hhist, hid, hnumbers⟩ :=
      hrec.writeFramed (writeDataMessage w pub body) (w.sending (writeDataMessage w pub body) buf)
    rw [hwrite]
    refine .single ?_ hwritten hid ?_
    · rw [hhist]
      exact sentFrames_append _ _
    · rw [hnumbers]
      simp only [txBufSize] at hlen
      exact .data ⟨w.session.clientKey, flagLe ||| formatData, pub.dwId, body, by omega, rfl⟩
        (.nil _)
  · rw [hpanic]
    exact .same rfl rfl rfl rfl

section
variable (hrec : Records written) (fuel : Nat)
include hrec

theorem createWithParentEntity_sends (oid : UInt16) (kind : UInt8) {xml : Bytes} (parent : UInt16)
    (hxml : xml.length ≤ 320) : Within (Sends written)
      (createWithParentEntity fuel oid kind xml parent : Call T σ Unit) := by
  rw [createWithParentEntity_eq]
  exact sendRequest_sends hrec fuel (requests_createWithParent oid kind parent hxml) (.inl rfl)

theorem createParticipantEntity_sends (idx : UInt16) {xml : Bytes} (hxml : xml.length ≤ 320) :
    Within (Sends written) (createParticipantEntity fuel idx xml : Call T σ Unit) := by
  rw [createParticipantEntity_eq]
  exact sendRequest_sends hrec fuel (requests_createParticipant _ hxml) (.inl rfl)

theorem sendReadData_sends (oid : UInt16) :
    Within (Sends written) (sendReadData fuel oid : Call T σ Unit) := by
  rw [sendReadData_eq]
  exact sendRequest_sends hrec fuel (requests_readData oid) (.inr rfl)

theorem createNode_sends (name : Bytes) :
    Within (Sends written) (createNode fuel name : Call T σ Node) := by
  refine createNode_within Sends.refl (fun _ _ _ => Sends.trans) alloc_sends ?_ ?_ ?_
  · intro idx
    exact createParticipantEntity_sends hrec fuel idx (length_participantXml_le name)
  · intro idx parent
    exact createWithParentEntity_sends hrec fuel _ _ _ (by decide)
  · intro idx parent
    exact createWithParentEntity_sends hrec fuel _ _ _ (by decide)

theorem createPublisher_sends (M : Type) [Message M] (node : Node) (topic : Bytes) :
    Within (Sends written) (createPublisher M fuel node topic : Call T σ (Publisher M)) := by
  refine createPublisher_within Sends.refl (fun _ _ _ => Sends.trans) M alloc_sends ?_ ?_
  · intro _ idx
    exact createWithParentEntity_sends hrec fuel _ _ _ (length_topicXml_le _ _)
  · intro _ idx
    exact createWithParentEntity_sends hrec fuel _ _ _ (length_dataWriterXml_le _ _)

theorem createSubscription_sends (node : Node) (topic : Bytes) (s : σ) :
    Within (Sends written) (createSubscription fuel node topic s : Call T σ σ) := by
  refine createSubscription_within Sends.refl (fun _ _ _ => Sends.trans) ?_ (enter_sends s)
  refine prepareSubscription_within Sends.refl (fun _ _ _ => Sends.trans) alloc_sends ?_ ?_ ?_
  · intro _ idx
    exact createWithParentEntity_sends hrec fuel _ _ _ (length_topicXml_le _ _)
  · intro _ idx
    exact createWithParentEntity_sends hrec fuel _ _ _ (length_dataReaderXml_le _ _)
  · intro oid
    exact sendReadData_sends hrec fuel oid

theorem call_sends (op : Op σ) :
    Within (Sends written) (op.call fuel : Call T σ (Reply σ)) := by
  have hmap {α : Type} {p : Call T σ α} (hp : Within (Sends written) p) (f : α → Reply σ) :
      Within (Sends written) (p >>= fun a => pure (f a)) :=
    Within.bind (fun _ _ _ => Sends.trans) hp fun a => Within.pure Sends.refl (f a)
  cases op with
  | createNode name => exact hmap (createNode_sends hrec fuel name) _
  | createPublisher M node topic => exact hmap (createPublisher_sends hrec fuel M node topic) _
  | createSubscription node topic slot =>
    exact hmap (createSubscription_sends hrec fuel node topic slot) _
  | publish M pub msg => exact hmap (publish_sends hrec pub msg) _
  | spinOnce => exact hmap hrec.hears.spinOnce _
  | tryRecv slot => exact hmap (tryRecv_sends slot) _

end

theorem runs_sends (hrec : Records written) {calls : List (Made T σ)} {w₀ w : World T σ}
    (h : Runs w₀ calls w) : Sends written w₀ w := by
  induction h with
  | nil => exact .refl w₀
  | snoc c _ _ ih => exact ih.trans (call_sends hrec c.fuel c.op c.before)

/-- Whatever the agent answers and however reading fails, what is on the wire after
CREATE_CLIENT is whole messages numbered without gap, repeat or reserved value, and every
number that has been used up is among them. -/
theorem outgoing_numbers (hrec : Records written) {transport : T} {sessionId : UInt8}
    {key : ClientKey} {tasks : List (List σ)} {calls : List (Made T σ)} {w : World T σ}
    (h : Runs (start transport sessionId key tasks) calls w) :
    written w.session.transport = written transport ++ stream (sentFrames w.history) ∧
      WellNumbered sessionId (sentFrames w.history) ∧
      w.session.seq = UInt16.ofNat (sentFrames w.history).length := by
  obtain ⟨frames, hhist, hwritten, -, hnumbered⟩ := runs_sends hrec h
  have hframes : sentFrames w.history = frames := hhist
  rw [hframes]
  exact ⟨hwritten, hnumbered.well, hnumbered.seq_end.trans (UInt16.zero_add _)⟩

end

theorem Wire.records : Records Wire.outgoing := by
  constructor
  · constructor
    · rintro buf bs w hne rfl
      have hpos : 0 < buf.length := List.length_pos_iff.mpr hne
      have hchunk : 0 < w.chunk buf.length := by
        unfold Wire.chunk
        split
        · exact hpos
        · omega
      have htake : buf.take (buf.take (w.chunk buf.length)).length =
          buf.take (w.chunk buf.length) := by
        rw [List.length_take, ← List.take_eq_take_min]
      refine ⟨(buf.take (w.chunk buf.length)).length, w.gave (buf.take (w.chunk buf.length)), rfl,
        ?_, ?_, ?_⟩
      · rw [List.length_take]
        omega
      · rw [List.length_take]
        exact Nat.min_le_right _ _
      · rw [htake]
        rfl
    · rintro bs w rfl
      exact ⟨w, rfl, rfl⟩
  · intro len w
    change Wire.outgoing (if w.incoming = [] then ((Outcome.pending : Outcome Unit Bytes), w)
      else (.ok (w.incoming.take (w.chunk len)), w.took (w.chunk len))).2 = _
    split
    · rfl
    · rfl

/-- A node that the agent rejects, and a sample published under a DataWriter all the same. -/
def rejectedNode [Target] : Made Wire Unit :=
  ⟨.createNode (ascii "n"), 4, answering [statusFrame 1 0x83]⟩

def publishedAfter [Target] : Made Wire Unit :=
  ⟨.publish Float32 ⟨0x15⟩ ⟨0⟩, 0, rejectedNode.after⟩

theorem publishedAfter_before [Target] : publishedAfter.before = rejectedNode.after := by
  rw [publishedAfter]

theorem numbers_past_rejection : letI := rp2040 true
    rejectedNode.outcome = .err (.agentRejected 0x83) ∧
      publishedAfter.after.session.transport.outgoing =
        stream (sentFrames publishedAfter.after.history) ∧
      WellNumbered 0x81 (sentFrames publishedAfter.after.history) := by
  have hrejected : letI := rp2040 true
      rejectedNode.outcome = .err (.agentRejected 0x83) := by decide +kernel
  generalize rp2040 true = target at hrejected ⊢
  have hruns : Runs (answering [statusFrame 1 0x83]) [rejectedNode, publishedAfter]
      publishedAfter.after := by
    refine Runs.pair publishedAfter_before ?_
    rw [hrejected]
    intro h
    cases h
  refine ⟨hrejected, ?_⟩
  generalize publishedAfter.after = w at hruns ⊢
  obtain ⟨hwritten, hnumbers, -⟩ := outgoing_numbers Wire.records hruns
  exact ⟨hwritten, hnumbers⟩

end MicroXrceDds
