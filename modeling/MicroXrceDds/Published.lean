import MicroXrceDds.Faults
import MicroXrceDds.Truncation

/-!
# Samples that are published

What goes out under a DataWriter over a run: bodies of the messages published under it, in
order, whole or cut off. A subscriber of any of the message types with the same name decodes
such a body as the fields of the message, or refuses it.
-/
namespace MicroXrceDds

open Prog Session

/-- The fields of a message, in the order of its type. -/
def Ros2Msg.fields (k : Ros2Msg) (m : k.Sample) : List Cdr.Item := k.reference .zero m

section
variable [t : Target]

/-- From a part of what it parses, a decoder gets all of it or nothing. -/
theorem Parses.of_front {α : Type} {p : ReadCdr α} {items : List Cdr.Item} {a v : α} {body : Bytes}
    (hp : Parses p items a) (hbody : body <+: Cdr.encode 0 items)
    (hsize : body.length + 16 ≤ 2 ^ t.usizeBits)
    (h : (p.run (CdrReader.fromBody body)).1 = .ok v) : v = a := by
  by_cases hcut : body.length < (Cdr.encode 0 items).length
  · exact absurd h (hp.cut [] body ⟨hbody, hcut⟩ hsize v)
  · have hwhole : body = Cdr.encode 0 items :=
      hbody.eq_of_length (Nat.le_antisymm hbody.length_le (Nat.le_of_not_lt hcut))
    rw [hwhole] at hsize h
    obtain ⟨r', hrun⟩ := hp.run_body hsize
    rw [hrun] at h
    exact (Outcome.ok.inj h).symm

/-- So does an owned string, whatever its capacity. -/
theorem stringOwned_of_front {N : Nat} {s : String} {body : Bytes} {v : StringOwned N}
    (hs : (utf8 s).length < 2 ^ 32 - 1) (hbody : body <+: Cdr.encode 0 [.text (utf8 s)])
    (hsize : body.length + 16 ≤ 2 ^ t.usizeBits)
    (h : ((Message.deserialize : ReadCdr (StringOwned N)).run (CdrReader.fromBody body)).1 = .ok v) :
    v.data = s := by
  obtain ⟨bytes, r', hrun, -⟩ := bind_eq_ok (Prod.ext h rfl)
  have hbytes : bytes = utf8 s :=
    (parses_string hs).of_front hbody hsize (congrArg Prod.fst hrun)
  rw [hbytes] at hrun
  rw [deserialize_stringOwned hrun] at h
  simp only at h
  split at h
  · cases h
    rfl
  · cases h

/-- The two kinds whose content is one string. -/
def Ros2Msg.Text : Ros2Msg → Prop
  | .string => True
  | .stringOwned _ => True
  | _ => False

/-- Only these two have a type name in common. -/
theorem same_typeName {k k' : Ros2Msg}
    (h : Message.typeName k.Sample = Message.typeName k'.Sample) :
    k = k' ∨ (k.Text ∧ k'.Text) := by
  cases k <;> cases k' <;> first
    | exact .inl rfl
    | exact .inr ⟨trivial, trivial⟩
    | exact absurd h (by change ¬ ascii _ = ascii _; decide)

/-- What a subscriber makes of a body that was published, whole or cut off, has the fields of
the message. -/
theorem decoded_fields {k k' : Ros2Msg}
    (hname : Message.typeName k.Sample = Message.typeName k'.Sample)
    {m : k.Sample} (hm : k.Encodable m) {body : Bytes} (hbody : body <+: bodyBytes m)
    (hlen : body.length ≤ txBufSize) {v : k'.Sample}
    (h : ((Message.deserialize : ReadCdr k'.Sample).run (CdrReader.fromBody body)).1 = .ok v) :
    k'.fields v = k.fields m := by
  have h32 := two_pow_32_le (t := t)
  have hsize : body.length + 16 ≤ 2 ^ t.usizeBits := by
    simp only [txBufSize] at hlen
    omega
  rw [bodyBytes, serialize_reference] at hbody
  rcases same_typeName hname with rfl | ⟨htext, htext'⟩
  · by_cases hk : k = .string
    · subst hk
      cases h
    · rw [(parses_reference hk .zero hm).of_front hbody hsize h]
  · -- The two kinds of strings differ in their capacity at most.
    cases k' with
    | string => cases h
    | stringOwned N =>
      have hfields {s : String} (hs : (utf8 s).length < 2 ^ 32 - 1)
          (hpart : body <+: Cdr.encode 0 [.text (utf8 s)]) :
          Ros2Msg.fields (.stringOwned N) v = [.text (utf8 s)] := by
        rw [← stringOwned_of_front hs hpart hsize h]
        rfl
      cases k with
      | string => exact hfields hm hbody
      | stringOwned N' => exact hfields hm hbody
      | _ => exact htext.elim
    | _ => exact htext'.elim

end

/-- The sample of a WRITE_DATA of this DataWriter, as the reference parser finds it. -/
def writtenSample (dwId : UInt16) (frame : Bytes) : Option Bytes :=
  match WireFormat.parse frame with
  | some ⟨_, _, _, _, _, .writeData _ id body⟩ => if id = dwId then some body else none
  | _ => none

/-- The call publishes this message under the DataWriter. -/
inductive Op.Publishes {σ : Type} [Statics σ] (M : Type) [Message M] (dwId : UInt16) :
    Op σ → M → Prop
  | intro (pub : Publisher M) (m : M) (h : pub.dwId = dwId) : Publishes M dwId (.publish M pub m) m

/-- The call publishes nothing under the DataWriter. -/
def Op.Spares {σ : Type} [Statics σ] (dwId : UInt16) : Op σ → Prop
  | @Op.publish _ _ _ _ pub _ => pub.dwId ≠ dwId
  | _ => True

variable {T σ : Type} [Statics σ]

/-- The messages that a run publishes under a DataWriter, which all have one type. -/
inductive Published (M : Type) [Message M] (dwId : UInt16) : List (Made T σ) → List M → Prop
  | nil : Published M dwId [] []
  | sample {calls : List (Made T σ)} {ms : List M} (c : Made T σ) (m : M)
      (h : Published M dwId calls ms) (publishes : c.op.Publishes M dwId m) :
      Published M dwId (calls ++ [c]) (ms ++ [m])
  | other {calls : List (Made T σ)} {ms : List M} (c : Made T σ)
      (h : Published M dwId calls ms) (spares : c.op.Spares dwId) :
      Published M dwId (calls ++ [c]) ms

theorem writtenSample_message (w : World T σ) {M : Type} (pub : Publisher M) {body : Bytes}
    (hlen : body.length ≤ txBufSize) (dwId : UInt16) :
    writtenSample dwId (writeDataMessage w pub body) =
      if pub.dwId = dwId then some body else none := by
  obtain ⟨⟨header, offset, id, flags, length, payload⟩, hparse, -, hpayload⟩ :=
    parse_writeDataMessage w pub hlen
  cases hpayload
  rw [writtenSample, hparse]

/-- Nothing sent is a sample. -/
def Event.Unwritten : Event σ → Prop
  | .sent frame => ∀ dwId, writtenSample dwId frame = none
  | _ => True

theorem Event.Inbound.unwritten {e : Event σ} (h : e.Inbound) : e.Unwritten := by
  cases e <;> first | exact h.elim | trivial

theorem stable_unwritten : Stable (T := T) (Follows (σ := σ) Event.Unwritten) :=
  stable_follows fun _ _ => trivial

theorem sentFrames_unwritten {es : List (Event σ)} (h : ∀ e ∈ es, e.Unwritten) (dwId : UInt16) :
    (sentFrames es).filterMap (writtenSample dwId) = [] := by
  rw [List.filterMap_eq_nil_iff]
  intro frame hframe
  obtain ⟨e, he, hsent⟩ := List.mem_filterMap.mp hframe
  cases e with
  | sent frame' =>
    cases hsent
    exact h _ he dwId
  | _ => cases hsent

theorem enter_unwritten (s : σ) (drOid : UInt16) :
    Within (Follows Event.Unwritten) (enter s drOid : Call T σ σ) := by
  intro w
  refine (enter_follows s drOid w).mono fun e he => ?_
  cases e <;> first | exact he.elim | trivial

/-- So much of a body always fits the buffer. -/
theorem length_kept (body : Bytes) (w : World T σ) :
    (body.take (txBufSize - writeDataPrefix w.session.sessionId)).length ≤ txBufSize := by
  rw [List.length_take]
  omega

section
variable [Target] [ReadWrite T]

/-- A request is no sample. -/
theorem sendRequest_unwritten (fuel : Nat) {enc : Encoder} {id flags : UInt8}
    {payload : UInt16 → Bytes} (henc : enc.Wants id flags payload) :
    Within (Follows Event.Unwritten) (sendRequest fuel enc : Call T σ Unit) := by
  intro w
  obtain ⟨w₁, hsend, hwait⟩ := sendRequest_trail fuel henc.writes w
  obtain ⟨fields, hreq, hfields⟩ := henc.asks w.session.reqId
  have hparse : WireFormat.parse (w.request id flags payload) = _ :=
    WireFormat.parse_message (henc.short w.session.reqId) hfields
  refine (Follows.of_trail hsend ?_).trans (hwait.mono fun _ he => he.unwritten)
  intro dwId
  rw [writtenSample, hparse]
  cases fields <;> first | rfl | cases hreq

theorem composes_unwritten :
    Composes (T := T) (σ := σ) fun _ p => Within (Follows Event.Unwritten) p where
  pure := stable_unwritten.pure
  bind := stable_unwritten.bind
  alloc kind := alloc_follows fun _ => trivial
  topicName := ros2TopicName_within stable_unwritten.refl
  participant fuel idx xml hxml := by
    rw [createParticipantEntity_eq]
    exact sendRequest_unwritten fuel (wants_createParticipant _ hxml)
  child fuel oid kind xml parent hxml := by
    rw [createWithParentEntity_eq]
    exact sendRequest_unwritten fuel (wants_createWithParent oid kind parent hxml)
  readData fuel oid := by
    rw [sendReadData_eq]
    exact sendRequest_unwritten fuel (wants_readData oid)

/-- A publishing call sends one message, with as much of the body as there is room for, or
nothing if it does not fit. -/
theorem publish_sent (c : Made T σ) {M : Type} [Message M] {pub : Publisher M} {m : M}
    (hop : c.op = .publish M pub m) :
    sentFrames c.events = [writeDataMessage c.before pub
        ((bodyBytes m).take (txBufSize - writeDataPrefix c.before.session.sessionId))] ∨
      (txBufSize < writeDataPrefix c.before.session.sessionId + (bodyBytes m).length ∧
        sentFrames c.events = []) := by
  obtain ⟨op, fuel, w⟩ := c
  subst hop
  have hafter : (⟨.publish M pub m, fuel, w⟩ : Made T σ).after = ((publish pub m).run w).2 :=
    state_map _ _ w
  rcases publish_run w pub m with ⟨buf, hsent⟩ | ⟨hlong, buf, hpanic⟩
  · left
    generalize writeDataMessage w pub ((bodyBytes m).take
      (txBufSize - writeDataPrefix w.session.sessionId)) = frame at hsent ⊢
    obtain ⟨es, hes, htrail⟩ := stable_inbound.writeFramed frame (w.sending frame buf)
    have hbegun : Trail w [.sent frame] (w.sending frame buf) := .event rfl (.sent w.router frame)
    have hnone : sentFrames es = [] := by
      apply List.filterMap_eq_nil_iff.mpr
      intro e he
      cases e <;> first | exact (hes _ he).elim | rfl
    have hall := hbegun.trans htrail
    rw [← hsent, ← hafter] at hall
    rw [Made.events_eq hall, sentFrames_append, hnone]
    rfl
  · right
    have hnothing : Trail w [] (w.setTxBuf buf) := .same rfl rfl
    have hevents := @Made.events_eq _ _ _ _ _ ⟨.publish M pub m, fuel, w⟩ []
    rw [hafter, hpanic] at hevents
    refine ⟨hlong, ?_⟩
    rw [hevents hnothing]
    rfl

theorem call_unwritten (c : Made T σ) {dwId : UInt16} (h : c.op.Spares dwId) :
    (sentFrames c.events).filterMap (writtenSample dwId) = [] := by
  have hunwritten (hfollows : Follows Event.Unwritten c.before c.after) :
      (sentFrames c.events).filterMap (writtenSample dwId) = [] := by
    obtain ⟨es, hes, htrail⟩ := hfollows
    rw [Made.events_eq htrail]
    exact sentFrames_unwritten hes dwId
  obtain ⟨op, fuel, w⟩ := c
  have hmap {α : Type} {p : Call T σ α} (hp : Within (Follows Event.Unwritten) p) (f : α → Reply σ) :
      Follows Event.Unwritten w ((p >>= fun a => pure (f a)).run w).2 := by
    rw [state_map]
    exact hp w
  cases op with
  | createNode name => exact hunwritten (hmap (composes_unwritten.createNode fuel name) _)
  | createPublisher M node topic =>
    exact hunwritten (hmap (composes_unwritten.createPublisher M fuel node topic) _)
  | createSubscription node topic s =>
    exact hunwritten (hmap (composes_unwritten.createSubscription stable_unwritten.refl
      (stable_unwritten.throw _) enter_unwritten fuel node topic s) _)
  | spinOnce =>
    exact hunwritten (hmap (spinOnce_follows.mono fun _ _ h => h.mono fun _ he => he.unwritten) _)
  | tryRecv s =>
    exact hunwritten (hmap ((tryRecv_follows s).mono fun _ _ h => h.mono fun _ he => he.unwritten) _)
  | publish M pub m =>
    rcases publish_sent ⟨.publish M pub m, fuel, w⟩ rfl with hsent | ⟨-, hnone⟩
    · rw [hsent, List.filterMap_cons, writtenSample_message w pub (length_kept _ w), if_neg h]
      rfl
    · rw [hnone]
      rfl

/-- What goes out under the DataWriter of a run are bodies of messages published under it,
in order. -/
theorem Published.written {M : Type} [Message M] {dwId : UInt16} {calls : List (Made T σ)}
    {ms : List M} (h : Published M dwId calls ms) : ∃ kept, kept.Sublist ms ∧
      List.Forall₂ (fun m body => body <+: bodyBytes m ∧ body.length ≤ txBufSize) kept
        ((calls.flatMap fun c => sentFrames c.events).filterMap (writtenSample dwId)) := by
  induction h with
  | nil => exact ⟨[], List.Sublist.refl _, .nil⟩
  | other c _ spares ih =>
    rw [List.flatMap_append, List.flatMap_singleton, List.filterMap_append, call_unwritten c spares,
      List.append_nil]
    exact ih
  | sample c m _ publishes ih =>
    obtain ⟨kept, hkept, hbodies⟩ := ih
    rw [List.flatMap_append, List.flatMap_singleton, List.filterMap_append]
    obtain ⟨op, fuel, w⟩ := c
    cases publishes with
    | intro pub _ hid =>
      rcases publish_sent ⟨.publish M pub m, fuel, w⟩ rfl with hsent | ⟨-, hnone⟩
      · rw [hsent, List.filterMap_cons, writtenSample_message w pub (length_kept _ w), if_pos hid]
        exact ⟨kept ++ [m], hkept.append_right [m],
          List.rel_append hbodies (.cons ⟨List.take_prefix _ _, length_kept _ w⟩ .nil)⟩
      · rw [hnone, List.filterMap_nil, List.append_nil]
        exact ⟨kept, hkept.trans (List.sublist_append_left _ _), hbodies⟩

/-- If all of them fit, these are the whole bodies of all of them. -/
theorem Published.whole {M : Type} [Message M] {dwId : UInt16} {calls : List (Made T σ)}
    {ms : List M} {sessionId : UInt8} (h : Published M dwId calls ms)
    (hsession : ∀ c ∈ calls, c.before.session.sessionId = sessionId)
    (hfit : ∀ m ∈ ms, writeDataPrefix sessionId + (bodyBytes m).length ≤ txBufSize) :
    (calls.flatMap fun c => sentFrames c.events).filterMap (writtenSample dwId) =
      ms.map bodyBytes := by
  induction h with
  | nil => rfl
  | other c _ spares ih =>
    rw [List.forall_mem_append] at hsession
    rw [List.flatMap_append, List.flatMap_singleton, List.filterMap_append, call_unwritten c spares,
      List.append_nil]
    exact ih hsession.1 hfit
  | sample c m _ publishes ih =>
    rw [List.forall_mem_append, List.forall_mem_singleton] at hsession hfit
    rw [List.flatMap_append, List.flatMap_singleton, List.filterMap_append, List.map_append,
      ih hsession.1 hfit.1]
    have hsession' := hsession.2
    have hfit' := hfit.2
    obtain ⟨op, fuel, w⟩ := c
    cases publishes with
    | intro pub _ hid =>
      rw [← hsession'] at hfit'
      rcases publish_sent ⟨.publish M pub m, fuel, w⟩ rfl with hsent | ⟨hlong, -⟩
      · have hwhole : (bodyBytes m).take (txBufSize - writeDataPrefix w.session.sessionId) =
            bodyBytes m := List.take_of_length_le (Nat.le_sub_of_add_le (Nat.add_comm _ _ ▸ hfit'))
        rw [hsent, List.filterMap_cons, writtenSample_message w pub (length_kept _ w), if_pos hid,
          hwhole]
        rfl
      · exact absurd hfit' (Nat.not_le.mpr hlong)

section
variable {transport : T} {sessionId : UInt8} {key : ClientKey} {tasks : List (List σ)}
  {calls : List (Made T σ)} {w : World T σ}

/-- The messages of a run are those of its calls. -/
theorem Runs.sent (h : Runs (start transport sessionId key tasks) calls w) :
    sentFrames w.history = calls.flatMap fun c => sentFrames c.events := by
  induction h with
  | nil => rfl
  | snoc c _ _ ih =>
    obtain ⟨es, htrail⟩ := c.trail
    rw [htrail.history, sentFrames_append, ih, List.flatMap_append, List.flatMap_singleton,
      c.events_eq htrail]

theorem Runs.one_session (h : Runs (start transport sessionId key tasks) calls w) :
    ∀ c ∈ calls, c.before.session.sessionId = sessionId := by
  intro c hc
  obtain ⟨front, back, -, hfront, -⟩ := h.cut hc
  obtain ⟨es, htrail⟩ := hfront.trail
  exact htrail.router.sessionId

end

end

end MicroXrceDds
