import MicroXrceDds.Composition
import MicroXrceDds.Numbering
import MicroXrceDds.WireFormat

/-!
# Writing over a link that fails

Writes may fail, be cut short or be given up at any point. Whatever happens, every message
that was begun can be read by the reference parser, the numbers run on without a gap, and a
call leaves at most its last message unfinished on the wire, and only if it does not succeed.
-/
namespace MicroXrceDds

open Prog Session LittleEndian

variable {T σ : Type} [Statics σ]

/-- A transport with the bytes that have gone out over it. A write that succeeds has written
as much as it says, any other an unknown part of what it was given. -/
structure Tracks [ReadWrite T] (written : T → Bytes) : Prop where
  write : ∀ buf t, ∃ k, k ≤ buf.length ∧
    written ((ReadWrite.write buf : Prog Unit T Nat).run t).2 = written t ++ buf.take k ∧
    ∀ n, ((ReadWrite.write buf : Prog Unit T Nat).run t).1 = .ok n → n = k
  flush : ∀ t, written ((ReadWrite.flush : Prog Unit T Unit).run t).2 = written t
  read : ∀ len t, written ((ReadWrite.read len : Prog Unit T Bytes).run t).2 = written t

/-- What messages are numbered with and made of has not changed, nor has any been begun. -/
structure Idle (w w' : World T σ) : Prop where
  said : sentFrames w'.history = sentFrames w.history
  sessionId : w'.session.sessionId = w.session.sessionId
  clientKey : w'.session.clientKey = w.session.clientKey
  numbers : w'.numbers = w.numbers

theorem stable_idle : Stable (T := T) (Idle (σ := σ)) where
  refl _ := ⟨rfl, rfl, rfl, rfl⟩
  trans _ _ _ h h' := ⟨h'.said.trans h.said, h'.sessionId.trans h.sessionId,
    h'.clientKey.trans h.clientKey, h'.numbers.trans h.numbers⟩
  suspend w := by
    obtain ⟨hsaid, hid, hnumbers⟩ := silent_suspend w
    exact ⟨hsaid, hid, by rw [World.suspend_session], hnumbers⟩
  transport _ _ := ⟨rfl, rfl, rfl, rfl⟩

/-- A part of `buf` has gone out, and all of it if the write succeeded. -/
def WritesPart (written : T → Bytes) {α : Type} (buf : Bytes) (w : World T σ)
    (r : Outcome Error α × World T σ) : Prop :=
  Idle w r.2 ∧ ∃ part, part <+: buf ∧
    written r.2.session.transport = written w.session.transport ++ part ∧
    (r.1.isOk = true → part = buf)

theorem WritesPart.bind {written : T → Bytes} {α β : Type} {p : Call T σ α} {f : α → Call T σ β}
    {xs ys : Bytes} {w : World T σ} (hp : WritesPart written xs w (p.run w))
    (hf : ∀ a w', WritesPart written ys w' ((f a).run w')) :
    WritesPart written (xs ++ ys) w ((p >>= f).run w) := by
  rcases bind_cases p f w with ⟨a, w₁, hrun, hbind⟩ | ⟨o, w₁, hrun, ho, hbind⟩
  · rw [hrun] at hp
    rw [hbind]
    obtain ⟨hidle, part, -, hwritten, hall⟩ := hp
    obtain ⟨hidle', part', hcut, hwritten', hall'⟩ := hf a w₁
    rw [hall rfl] at hwritten
    refine ⟨stable_idle.trans _ _ _ hidle hidle', xs ++ part',
      (List.prefix_append_right_inj _).mpr hcut, ?_, fun hok => by rw [hall' hok]⟩
    rw [hwritten', hwritten, List.append_assoc]
  · rw [hrun] at hp
    rw [hbind]
    obtain ⟨hidle, part, hcut, hwritten, -⟩ := hp
    refine ⟨hidle, part, hcut.trans (List.prefix_append xs ys), hwritten, fun hok => ?_⟩
    rw [not_isOk_abort ho] at hok
    cases hok

section
variable [ReadWrite T] {written : T → Bytes}

theorem Tracks.write_run (htracks : Tracks written) (buf : Bytes) (w : World T σ) :
    ∃ o w' k, (Framing.write buf : Call T σ Nat).run w = (o, w') ∧ Idle w w' ∧ k ≤ buf.length ∧
      written w'.session.transport = written w.session.transport ++ buf.take k ∧
      ∀ n, o = .ok n → n = k := by
  obtain ⟨k, hk, hwritten, hn⟩ := htracks.write buf w.session.transport
  rcases hrun : (ReadWrite.write buf : Prog Unit T Nat).run w.session.transport with ⟨o, t⟩
  rw [hrun] at hwritten hn
  have hworld := onTransport_run (w := w) hrun
  have hidle : Idle w (w.suspend.setTransport t) :=
    stable_idle.trans _ _ _ (stable_idle.suspend w) (stable_idle.transport w.suspend t)
  change ∃ o w' k, (mapIo (World.onTransport (ReadWrite.write buf)) : Call T σ Nat).run w = _ ∧ _
  simp only [mapIo, hworld]
  cases o with
  | ok n => exact ⟨_, _, k, rfl, hidle, hk, hwritten, fun m hm => by cases hm; exact hn n rfl⟩
  | _ => exact ⟨_, _, k, rfl, hidle, hk, hwritten, fun m hm => by cases hm⟩

theorem Tracks.writeLoop (htracks : Tracks written) (fuel : Nat) (buf : Bytes) (w : World T σ) :
    WritesPart written buf w ((Framing.writeLoop fuel buf : Call T σ Unit).run w) := by
  induction fuel generalizing buf w with
  | zero =>
    cases buf with
    | nil => exact ⟨stable_idle.refl w, [], List.prefix_rfl, (List.append_nil _).symm, fun _ => rfl⟩
    | cons b buf =>
      exact ⟨stable_idle.refl w, [], List.nil_prefix, (List.append_nil _).symm, nofun⟩
  | succ fuel ih =>
    cases buf with
    | nil => exact ⟨stable_idle.refl w, [], List.prefix_rfl, (List.append_nil _).symm, fun _ => rfl⟩
    | cons b buf =>
      obtain ⟨o, w₁, k, hrun, hidle, hk, hwritten, hn⟩ := htracks.write_run (b :: buf) w
      have hpart : ∀ {o' : Outcome Error Unit}, o'.isOk = false →
          WritesPart written (b :: buf) w (o', w₁) := fun ho =>
        ⟨hidle, _, List.take_prefix k (b :: buf), hwritten, fun h => by rw [ho] at h; cases h⟩
      cases o with
      | ok n =>
        obtain rfl := hn n rfl
        rw [Framing.writeLoop, bind_ok hrun]
        cases n with
        | zero => exact hpart rfl
        | succ k =>
          rw [List.length_cons] at hk
          simp only
          rw [if_pos (by omega)]
          obtain ⟨hidle', part, hcut, hwritten', hall⟩ := ih (buf.drop k) w₁
          have hbuf : b :: buf = (b :: buf).take (k + 1) ++ buf.drop k :=
            (List.take_append_drop (k + 1) (b :: buf)).symm
          refine ⟨stable_idle.trans _ _ _ hidle hidle', (b :: buf).take (k + 1) ++ part, ?_, ?_, ?_⟩
          · rw [hbuf, List.take_left' (by rw [List.length_take, List.length_cons]; omega)]
            exact (List.prefix_append_right_inj _).mpr hcut
          · rw [hwritten', hwritten, List.append_assoc]
          · intro hok
            rw [hall hok]
            exact hbuf.symm
      | _ =>
        rw [Framing.writeLoop, bind_abort hrun rfl]
        exact hpart rfl

theorem Tracks.flush_run (htracks : Tracks written) (w : World T σ) :
    WritesPart written [] w ((Framing.flush : Call T σ Unit).run w) := by
  have hwritten := htracks.flush w.session.transport
  rcases hrun : (ReadWrite.flush : Prog Unit T Unit).run w.session.transport with ⟨o, t⟩
  rw [hrun] at hwritten
  refine ⟨stable_idle.flush w, [], List.prefix_rfl, ?_, fun _ => rfl⟩
  have hworld := onTransport_run (w := w) hrun
  change written ((mapIo (World.onTransport ReadWrite.flush) : Call T σ Unit).run
    w).2.session.transport = _
  rw [state_mapIo, hworld, List.append_nil]
  exact hwritten

/-- A frame goes out whole, or a part of it does and the call does not succeed. -/
theorem Tracks.writeFramed (htracks : Tracks written) (payload : Bytes) (w : World T σ) :
    WritesPart written (framed payload) w
      ((Framing.writeFramed payload : Call T σ Unit).run w) := by
  have hall : framed payload =
      u16LeBytes (UInt16.ofNat payload.length) ++ (payload ++ []) := by
    rw [List.append_nil]
    rfl
  rw [hall]
  refine (htracks.writeLoop _ _ w).bind fun _ w₁ => ?_
  exact (htracks.writeLoop _ _ w₁).bind fun _ w₂ => htracks.flush_run w₂

end

namespace WireFormat

/-- The request id of a message that wants an answer. -/
def Payload.asks : Payload → Option UInt16
  | .create reqId .. => some reqId
  | .readData reqId .. => some reqId
  | _ => none

end WireFormat

/-- An encoder whose messages the reference parser reads as requests with the given id. -/
structure Encoder.Wants (enc : Encoder) (id flags : UInt8) (payload : UInt16 → Bytes) : Prop where
  writes : enc.Writes id flags payload
  short : ∀ req, (payload req).length < 2 ^ 16
  asks : ∀ req, ∃ fields : WireFormat.Payload, fields.asks = some req ∧
    WireFormat.finishes (WireFormat.payloadFields id) ⟨0, payload req⟩ = some fields

section
variable [Target]

theorem wants_createWithParent (oid : UInt16) (kind : UInt8) {xml : Bytes} (parent : UInt16)
    (hxml : xml.length ≤ 320) :
    Encoder.Wants (fun sessionId seq key req =>
      encodeCreateWithParent sessionId seq key req oid kind xml parent) submsgCreate flagsCreate
      fun req => childPayload req oid kind xml parent where
  writes := (requests_createWithParent oid kind parent hxml).writes
  short req := by
    rw [childPayload, List.length_append, length_createStart, length_objectIdBeBytes]
    omega
  asks req := by
    obtain ⟨domainId, hfields⟩ := WireFormat.finishes_child req oid kind xml parent (by omega)
    exact ⟨_, rfl, hfields⟩

theorem wants_createParticipant (oid : UInt16) {xml : Bytes} (hxml : xml.length ≤ 320) :
    Encoder.Wants (fun sessionId seq key req =>
      encodeCreateParticipant sessionId seq key req oid xml 0) submsgCreate flagsCreate
      fun req => participantPayload req oid xml 0 where
  writes := (requests_createParticipant oid hxml).writes
  short req := by
    have hlen := length_participantPayload_le req oid xml 0
    omega
  asks req := by
    obtain ⟨parentId, hfields⟩ := WireFormat.finishes_participant req oid xml 0 (by omega)
    exact ⟨_, rfl, hfields⟩

theorem wants_readData (oid : UInt16) :
    Encoder.Wants (fun sessionId seq key req => encodeReadData sessionId seq key req oid)
      submsgReadData flagLe fun req => readDataPayload req oid where
  writes := (requests_readData oid).writes
  short req := by
    have hlen : (readDataPayload req oid).length = 8 := rfl
    omega
  asks req := ⟨_, rfl, WireFormat.finishes_readData req oid⟩

end

open WireFormat in
/-- The reference parser reads every message, as one of a session of its own, and finds them
numbered on from the one pair of counters to the other. -/
inductive Understood (sessionId : UInt8) (key : ClientKey) : Numbers → List Bytes → Numbers → Prop
  | nil (c : Numbers) : Understood sessionId key c [] c
  | data {c c' : Numbers} {frame : Bytes} {frames : List Bytes} {m : WireFormat.Message}
      (parsed : parse frame = some m)
      (header : m.header = ⟨sessionId, streamBestEffort, c.seq, keyOf sessionId key⟩)
      (payload : ∃ dwId body, m.payload = .writeData 0 dwId body)
      (rest : Understood sessionId key c.afterData frames c') :
      Understood sessionId key c (frame :: frames) c'
  | request {c c' : Numbers} {frame : Bytes} {frames : List Bytes} {m : WireFormat.Message}
      (parsed : parse frame = some m)
      (header : m.header = ⟨sessionId, streamBestEffort, c.seq, keyOf sessionId key⟩)
      (payload : m.payload.asks = some c.reqId)
      (rest : Understood sessionId key c.afterRequest frames c') :
      Understood sessionId key c (frame :: frames) c'

theorem Understood.append {sessionId : UInt8} {key : ClientKey} {c c₁ c₂ : Numbers}
    {xs ys : List Bytes} (h : Understood sessionId key c xs c₁)
    (h' : Understood sessionId key c₁ ys c₂) : Understood sessionId key c (xs ++ ys) c₂ := by
  induction h with
  | nil => exact h'
  | data parsed header payload _ ih => exact .data parsed header payload (ih h')
  | request parsed header payload _ ih => exact .request parsed header payload (ih h')

theorem parse_writeDataMessage {M : Type} (w : World T σ) (pub : Publisher M) {body : Bytes}
    (hlen : body.length ≤ txBufSize) : ∃ m, WireFormat.parse (writeDataMessage w pub body) = some m ∧
      m.header = ⟨w.session.sessionId, streamBestEffort, w.session.seq,
        WireFormat.keyOf w.session.sessionId w.session.clientKey⟩ ∧
      m.payload = .writeData 0 pub.dwId body := by
  have hpayload : (writeDataPayload pub.dwId body).length < 2 ^ 16 := by
    simp only [txBufSize] at hlen
    rw [writeDataPayload, List.length_append, List.length_append, length_requestIdBeBytes,
      length_objectIdBeBytes]
    omega
  exact ⟨_, WireFormat.parse_message hpayload (WireFormat.finishes_writeData pub.dwId body),
    rfl, rfl⟩

/-- The messages of a call have gone out, except that the last one may be unfinished if the
call has not succeeded. -/
def Poured (ok : Bool) (frames : List Bytes) (bs : Bytes) : Prop :=
  bs = stream frames ∨ (ok = false ∧ ∃ front last part, frames = front ++ [last] ∧
    part <+: framed last ∧ bs = stream front ++ part)

/-- What a call has begun to send, and what of it has gone out. -/
def Utters (written : T → Bytes) {α : Type} (w : World T σ) (r : Outcome Error α × World T σ) :
    Prop :=
  ∃ frames bs, sentFrames r.2.history = sentFrames w.history ++ frames ∧
    written r.2.session.transport = written w.session.transport ++ bs ∧
    r.2.session.sessionId = w.session.sessionId ∧ r.2.session.clientKey = w.session.clientKey ∧
    Understood w.session.sessionId w.session.clientKey w.numbers frames r.2.numbers ∧
    Poured r.1.isOk frames bs

namespace Utters

variable {written : T → Bytes} {α β : Type}

theorem of_idle {w w' : World T σ} (h : Idle w w')
    (hwritten : written w'.session.transport = written w.session.transport)
    (o : Outcome Error α) : Utters written w (o, w') := by
  refine ⟨[], [], ?_, ?_, h.sessionId, h.clientKey, ?_, .inl rfl⟩
  · rw [h.said, List.append_nil]
  · rw [hwritten, List.append_nil]
  · rw [h.numbers]
    exact .nil _

theorem bind_from {p : Call T σ α} {f : α → Call T σ β} {w w' : World T σ}
    (hp : Utters written w (p.run w')) (hf : ∀ a w', Utters written w' ((f a).run w')) :
    Utters written w ((p >>= f).run w') := by
  rcases bind_cases p f w' with ⟨a, w₁, hrun, hbind⟩ | ⟨o, w₁, hrun, ho, hbind⟩
  · rw [hrun] at hp
    rw [hbind]
    obtain ⟨frames, bs, hsaid, hwritten, hid, hkey, hunderstood, hpoured⟩ := hp
    obtain ⟨frames', bs', hsaid', hwritten', hid', hkey', hunderstood', hpoured'⟩ := hf a w₁
    have hbs : bs = stream frames := by
      rcases hpoured with h | ⟨h, -⟩
      · exact h
      · cases h
    refine ⟨frames ++ frames', bs ++ bs', ?_, ?_, hid'.trans hid, hkey'.trans hkey, ?_, ?_⟩
    · rw [hsaid', hsaid, List.append_assoc]
    · rw [hwritten', hwritten, List.append_assoc]
    · rw [hid, hkey] at hunderstood'
      exact hunderstood.append hunderstood'
    · rw [hbs]
      rcases hpoured' with h | ⟨hfailed, front, last, part, hframes, hpart, hbs'⟩
      · exact .inl (by rw [h, stream_append])
      · refine .inr ⟨hfailed, frames ++ front, last, part, ?_, hpart, ?_⟩
        · rw [hframes, List.append_assoc]
        · rw [hbs', stream_append, List.append_assoc]
  · rw [hrun] at hp
    rw [hbind]
    obtain ⟨frames, bs, hsaid, hwritten, hid, hkey, hunderstood, hpoured⟩ := hp
    refine ⟨frames, bs, hsaid, hwritten, hid, hkey, hunderstood, ?_⟩
    rw [ho] at hpoured
    rw [not_isOk_abort ho]
    exact hpoured

theorem bind {p : Call T σ α} {f : α → Call T σ β} {w : World T σ}
    (hp : Utters written w (p.run w)) (hf : ∀ a w', Utters written w' ((f a).run w')) :
    Utters written w ((p >>= f).run w) := hp.bind_from hf

theorem pure (a : α) (w : World T σ) :
    Utters written w ((Pure.pure a : Call T σ α).run w) :=
  of_idle (stable_idle.refl w) rfl (.ok a)

/-- A frame that has been begun. -/
theorem single {w w₁ : World T σ} {frame : Bytes} {r : Outcome Error α × World T σ}
    (h : WritesPart written (framed frame) w₁ r)
    (hsaid : sentFrames w₁.history = sentFrames w.history ++ [frame])
    (htransport : w₁.session.transport = w.session.transport)
    (hid : w₁.session.sessionId = w.session.sessionId)
    (hkey : w₁.session.clientKey = w.session.clientKey)
    (hunderstood : Understood w.session.sessionId w.session.clientKey w.numbers [frame]
      w₁.numbers) : Utters written w r := by
  obtain ⟨hidle, part, hcut, hwritten, hall⟩ := h
  refine ⟨[frame], part, by rw [hidle.said, hsaid], by rw [hwritten, htransport],
    hidle.sessionId.trans hid, hidle.clientKey.trans hkey, by rw [hidle.numbers]; exact hunderstood,
    ?_⟩
  cases hok : r.1.isOk with
  | true =>
    refine .inl ?_
    rw [hall hok, stream_cons, stream_nil, List.append_nil]
  | false => exact .inr ⟨rfl, [], frame, part, rfl, hcut, rfl⟩

end Utters

/-- The world in which the reference parser has read another request. -/
theorem understood_request {sessionId : UInt8} {key : ClientKey} {c : Numbers} {id flags : UInt8}
    {payload : Bytes} {fields : WireFormat.Payload} (hlen : payload.length < 2 ^ 16)
    (hfields : WireFormat.finishes (WireFormat.payloadFields id) ⟨0, payload⟩ = some fields)
    (hasks : fields.asks = some c.reqId) :
    Understood sessionId key c [message sessionId c.seq key id flags payload] c.afterRequest :=
  .request (WireFormat.parse_message hlen hfields) rfl hasks (.nil _)

section
variable {written : T → Bytes}

theorem enter_utters (s : σ) (drOid : UInt16) (w : World T σ) :
    Utters written w ((enter s drOid).run w) := by
  have hassign (w : World T σ) : Utters written w ((setDrId s drOid).run w) := by
    have hidle : Idle w ((w.setSlot s ((w.slots s).setDrId drOid)).log (.assigned s drOid)) :=
      ⟨sentFrames_log nofun, rfl, rfl, rfl⟩
    exact .of_idle hidle rfl (.ok ())
  have hpush (w : World T σ) : Utters written w ((pushSubscription s).run w) := by
    cases h : w.session.subscriptions.push s with
    | none =>
      rw [pushSubscription_none h]
      exact .of_idle (stable_idle.refl w) rfl _
    | some table =>
      have hidle : Idle w ((w.setSubscriptions table).log (.registered s)) :=
        ⟨sentFrames_log nofun, rfl, rfl, rfl⟩
      rw [pushSubscription_some h]
      exact .of_idle hidle rfl (.ok ())
  exact (hassign w).bind fun _ w₁ => (hpush w₁).bind fun _ w₂ => .pure s w₂

theorem ros2TopicName_utters (topic : Bytes) (w : World T σ) :
    Utters written w ((ros2TopicName topicNameMax topic : Call T σ Bytes).run w) := by
  rw [ros2TopicName_eq]
  split
  · exact .pure _ w
  · exact .of_idle (stable_idle.refl w) rfl _

theorem alloc_utters [Target] (kind : EntityKind) (w : World T σ) :
    Utters written w ((alloc kind).run w) := by
  rcases alloc_cases kind w with h | ⟨h, -⟩
  · have hidle : Idle w (w.allocating kind) := ⟨sentFrames_log nofun, rfl, rfl, rfl⟩
    rw [h]
    exact .of_idle hidle rfl _
  · rw [h]
    exact .of_idle (stable_idle.refl w) rfl _

theorem tryRecv_utters (s : σ) (w : World T σ) : Utters written w ((tryRecv s).run w) := by
  obtain ⟨es, hes, htrail⟩ := w.takeFrom_trail s
  have hnone : sentFrames es = [] := by
    apply List.filterMap_eq_nil_iff.mpr
    intro e he
    obtain ⟨s', v, rfl⟩ := hes e he
    rfl
  have hsaid : sentFrames (w.takeFrom s).history = sentFrames w.history := by
    rw [htrail.history, sentFrames_append, hnone, List.append_nil]
  have hsession := w.takeFrom_session s
  exact .of_idle ⟨hsaid, by rw [hsession], by rw [hsession], by rw [World.numbers, hsession]; rfl⟩
    (by rw [hsession]) (.ok ())

end

section
variable [ReadWrite T] {written : T → Bytes}

/-- Receiving begins no message, and nothing goes out meanwhile. -/
theorem Tracks.hears (htracks : Tracks written) : Hears (T := T) fun w w' : World T σ =>
    Idle w w' ∧ written w'.session.transport = written w.session.transport where
  refl w := ⟨stable_idle.refl w, rfl⟩
  trans _ _ _ h h' := ⟨stable_idle.trans _ _ _ h.1 h'.1, h'.2.trans h.2⟩
  read len w := by
    refine ⟨stable_idle.read len w, ?_⟩
    have hwritten := htracks.read len w.session.transport
    rcases hrun : (ReadWrite.read len : Prog Unit T Bytes).run w.session.transport with ⟨o, t⟩
    rw [hrun] at hwritten
    have hworld := onTransport_run (w := w) hrun
    change written ((mapIo (World.onTransport (ReadWrite.read len)) : Call T σ Bytes).run
      w).2.session.transport = _
    rw [state_mapIo, hworld]
    exact hwritten
  holding w frame := ⟨⟨sentFrames_log nofun, rfl, rfl, rfl⟩, rfl⟩
  slots w slots := ⟨⟨rfl, rfl, rfl, rfl⟩, rfl⟩

theorem Tracks.spinOnce (htracks : Tracks written) (w : World T σ) :
    Utters written w ((spinOnce : Call T σ Unit).run w) := by
  obtain ⟨hidle, hwritten⟩ := htracks.hears.spinOnce w
  exact .of_idle hidle hwritten _

variable [Target]

theorem Tracks.waitStatusFor (htracks : Tracks written) (fuel : Nat) (req : UInt16)
    (w : World T σ) : Utters written w ((waitStatusFor fuel req : Call T σ Unit).run w) := by
  obtain ⟨hidle, hwritten⟩ := htracks.hears.waitStatusFor fuel req w
  exact .of_idle hidle hwritten _

theorem Tracks.sendRequest (htracks : Tracks written) (fuel : Nat) {enc : Encoder}
    {id flags : UInt8} {payload : UInt16 → Bytes} (henc : enc.Wants id flags payload)
    (w : World T σ) : Utters written w ((sendRequest fuel enc).run w) := by
  obtain ⟨buf, -, hrun⟩ := sendRequest_run w fuel henc.writes
  obtain ⟨fields, hreq, hfields⟩ := henc.asks w.session.reqId
  have hunderstood : Understood w.session.sessionId w.session.clientKey w.numbers
      [w.request id flags payload] w.numbers.afterRequest :=
    understood_request (henc.short w.session.reqId) hfields hreq
  rw [hrun]
  refine Utters.bind_from ?_ fun _ w' => htracks.waitStatusFor fuel _ w'
  exact .single (htracks.writeFramed _ _) (sentFrames_append w.history [.sent _]) rfl rfl rfl
    hunderstood

theorem Tracks.publish (htracks : Tracks written) {M : Type} [Message M] (pub : Publisher M) (m : M)
    (w : World T σ) : Utters written w ((publish pub m).run w) := by
  rcases publish_cases w pub m with ⟨body, buf, hlen, hsent⟩ | ⟨buf, hpanic⟩
  · rw [hsent]
    refine .single (htracks.writeFramed _ _)
      (sentFrames_append w.history [.sent _]) rfl rfl rfl ?_
    obtain ⟨m, hparse, hheader, hpayload⟩ := parse_writeDataMessage w pub hlen
    exact .data hparse hheader ⟨_, _, hpayload⟩ (.nil _)
  · have hidle : Idle w (w.setTxBuf buf) := ⟨rfl, rfl, rfl, rfl⟩
    rw [hpanic]
    exact .of_idle hidle rfl _

theorem Tracks.composes (htracks : Tracks written) :
    Composes (T := T) (σ := σ) fun _ p => ∀ w, Utters written w (p.run w) where
  pure a w := .pure a w
  bind hp hf w := (hp w).bind hf
  alloc kind w := alloc_utters kind w
  topicName topic w := ros2TopicName_utters topic w
  participant fuel idx xml hxml w := by
    rw [createParticipantEntity_eq]
    exact htracks.sendRequest fuel (wants_createParticipant _ hxml) w
  child fuel oid kind xml parent hxml w := by
    rw [createWithParentEntity_eq]
    exact htracks.sendRequest fuel (wants_createWithParent oid kind parent hxml) w
  readData fuel oid w := by
    rw [sendReadData_eq]
    exact htracks.sendRequest fuel (wants_readData oid) w

theorem Tracks.call (htracks : Tracks written) (fuel : Nat) (op : Op σ) (w : World T σ) :
    Utters written w ((op.call fuel).run w) := by
  have hreply {α : Type} {p : Call T σ α} (hp : Utters written w (p.run w)) (f : α → Reply σ) :
      Utters written w ((p >>= fun a => pure (f a)).run w) := hp.bind fun a w => .pure (f a) w
  cases op with
  | createNode name => exact hreply (htracks.composes.createNode fuel name w) _
  | createPublisher M node topic =>
    exact hreply (htracks.composes.createPublisher M fuel node topic w) _
  | createSubscription node topic slot =>
    exact hreply (htracks.composes.createSubscription
      (fun w => .of_idle (stable_idle.refl w) rfl _) (fun w => .of_idle (stable_idle.refl w) rfl _)
      enter_utters fuel node topic slot w) _
  | publish M pub m => exact hreply (htracks.publish pub m w) _
  | spinOnce => exact hreply (htracks.spinOnce w) _
  | tryRecv slot => exact hreply (tryRecv_utters slot w) _

/-- Whatever becomes of reads and writes, each call leaves on the wire the messages it has
begun, and only a call that fails may leave its last one unfinished. The reference parser
reads each of them as a message of this session, and their numbers run on over all the calls. -/
theorem outgoing_over_faults (htracks : Tracks written) {transport : T} {sessionId : UInt8}
    {key : ClientKey} {tasks : List (List σ)} {calls : List (Made T σ)} {w : World T σ}
    (h : Runs (start transport sessionId key tasks) calls w) :
    ∃ pieces, List.Forall₂ (fun c piece => Poured c.outcome.isOk (sentFrames c.events) piece)
        calls pieces ∧
      written w.session.transport = written transport ++ pieces.flatten ∧
      Understood sessionId key ⟨0, 1⟩ (calls.flatMap fun c => sentFrames c.events) w.numbers := by
  suffices hall : w.session.sessionId = sessionId ∧ w.session.clientKey = key ∧
      ∃ pieces, List.Forall₂ (fun c piece => Poured c.outcome.isOk (sentFrames c.events) piece)
          calls pieces ∧
        written w.session.transport = written transport ++ pieces.flatten ∧
        Understood sessionId key ⟨0, 1⟩ (calls.flatMap fun c => sentFrames c.events) w.numbers from
    hall.2.2
  generalize hstart : start transport sessionId key tasks = w₀ at h
  induction h with
  | nil =>
    rw [← hstart]
    exact ⟨rfl, rfl, [], .nil, (List.append_nil _).symm, .nil _⟩
  | snoc c _ _ ih =>
    obtain ⟨hid, hkey, pieces, hpieces, hwritten, hunderstood⟩ := ih
    obtain ⟨frames, piece, hsaid, hpiece, hid', hkey', hunderstood', hpoured⟩ :=
      htracks.call c.fuel c.op c.before
    obtain ⟨es, htrail⟩ := c.trail
    have hframes : frames = sentFrames c.events := by
      rw [c.events_eq htrail]
      apply List.append_cancel_left
      rw [← sentFrames_append, ← htrail.history]
      exact hsaid.symm
    rw [hframes] at hunderstood' hpoured
    rw [hid, hkey] at hunderstood'
    refine ⟨hid'.trans hid, hkey'.trans hkey, pieces ++ [piece], ?_, ?_, ?_⟩
    · exact List.rel_append hpieces (.cons hpoured .nil)
    · rw [List.flatten_append, List.flatten_singleton, ← List.append_assoc, ← hwritten]
      exact hpiece
    · rw [List.flatMap_append, List.flatMap_singleton]
      exact hunderstood.append hunderstood'

end

/-- A connection that breaks once `room` more bytes have gone out. -/
structure Brittle where
  outgoing : Bytes
  room : Nat
  deriving DecidableEq, Repr

/-- The connection after `bs` has been written. -/
def Brittle.gave (bs : Bytes) (b : Brittle) : Brittle := ⟨b.outgoing ++ bs, b.room - bs.length⟩

instance : ReadWrite Brittle where
  read _ := Prog.pending
  write buf := ⟨fun b => if b.room = 0 then (.err (), b)
    else (.ok (min b.room buf.length), b.gave (buf.take (min b.room buf.length)))⟩
  flush := pure ()

theorem Brittle.tracks : Tracks Brittle.outgoing where
  write buf b := by
    change ∃ k, k ≤ buf.length ∧ (if b.room = 0 then ((.err () : Outcome Unit Nat), b)
      else (.ok (min b.room buf.length), b.gave (buf.take (min b.room buf.length)))).2.outgoing =
        b.outgoing ++ buf.take k ∧ ∀ n, (if b.room = 0 then ((.err () : Outcome Unit Nat), b)
      else (.ok (min b.room buf.length), b.gave (buf.take (min b.room buf.length)))).1 = .ok n →
        n = k
    split
    · exact ⟨0, Nat.zero_le _, (List.append_nil _).symm, nofun⟩
    · refine ⟨min b.room buf.length, Nat.min_le_right _ _, rfl, ?_⟩
      intro n hn
      cases hn
      rfl
  flush _ := rfl
  read _ _ := rfl

/-- The connection breaks in the middle of one sample, and another is published all the same. -/
def tornPublish [Target] : Made Brittle Unit :=
  ⟨.publish Float32 ⟨0x15⟩ ⟨0⟩, 0, start ⟨[], 12⟩ 0x81 ⟨0, 0, 0, 0⟩ []⟩

def publishedNext [Target] : Made Brittle Unit :=
  ⟨.publish Float32 ⟨0x15⟩ ⟨0⟩, 0, tornPublish.after⟩

theorem publishedNext_before [Target] : publishedNext.before = tornPublish.after := by
  rw [publishedNext]

theorem published_over_broken_link : letI := rp2040 true
    tornPublish.outcome = .err .io ∧ ∃ pieces, List.Forall₂
        (fun c piece => Poured c.outcome.isOk (sentFrames c.events) piece)
        [tornPublish, publishedNext] pieces ∧
      publishedNext.after.session.transport.outgoing = pieces.flatten ∧
      Understood 0x81 ⟨0, 0, 0, 0⟩ ⟨0, 1⟩
        ([tornPublish, publishedNext].flatMap fun c => sentFrames c.events)
        publishedNext.after.numbers := by
  have htorn : letI := rp2040 true
      tornPublish.outcome = .err .io := by decide +kernel
  generalize rp2040 true = target at htorn ⊢
  have hruns : Runs (start ⟨[], 12⟩ 0x81 ⟨0, 0, 0, 0⟩ []) [tornPublish, publishedNext]
      publishedNext.after := by
    refine Runs.pair publishedNext_before ?_
    rw [htorn]
    intro h
    cases h
  exact ⟨htorn, outgoing_over_faults Brittle.tracks hruns⟩

end MicroXrceDds
