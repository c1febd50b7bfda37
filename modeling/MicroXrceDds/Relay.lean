import Mathlib.Data.List.TakeWhile
import MicroXrceDds.ClientRefinement
import MicroXrceDds.Published
import MicroXrceDds.Setup

/-!
# From a publisher to a subscriber

One session publishes under a DataWriter, another has a slot with a DataReader, and an agent
between them hands samples on. All that is asked of the agent is that it makes up no sample,
changes none, and hands each on at most once and in order. Then the same is true of what the
subscriber takes, and if nothing is lost on the way and there is room, it takes everything.
-/
namespace MicroXrceDds

open Prog Session

section
variable {σ : Type} [Statics σ]

/-- The sample of a DATA for this DataReader. -/
def readSample (sessionId : UInt8) (drId : UInt16) (frame : Bytes) : Option Bytes :=
  match dataOf sessionId frame with
  | some (id, sample) => if id = drId then some sample else none
  | none => none

/-- What a slot makes of a sample. -/
def decoded (M : Type) [Message M] (sample : Bytes) : Option M :=
  match Subscription.decode M sample with
  | .ok v => some v
  | _ => none

/-- The values of the samples for a DataReader. -/
def valuesOf (M : Type) [Message M] (sessionId : UInt8) (drId : UInt16) (frames : List Bytes) :
    List M := (frames.filterMap (readSample sessionId drId)).filterMap (decoded M)

/-- The frames that were read since a slot was registered. -/
def framesSince (s : σ) (es : List (Event σ)) : List Bytes :=
  receivedFrames (es.dropWhile fun e => !e.registers s)

/-- An account with the frames that were read since it counts them: nothing is accepted but
their values, in order, and all of them as long as they find room. -/
structure Heard (sessionId : UInt8) (s : σ) (a : Account (Statics.Msg s)) (frames : List Bytes) :
    Prop where
  silent : a.registered = false → a.ledger.accepted = [] ∧ frames = []
  inOrder : a.ledger.accepted.Sublist (valuesOf (Statics.Msg s) sessionId a.drId frames)
  complete : (valuesOf (Statics.Msg s) sessionId a.drId frames).length ≤ Statics.depth s →
    a.ledger.accepted = valuesOf (Statics.Msg s) sessionId a.drId frames

theorem valuesOf_append (M : Type) [Message M] (sessionId : UInt8) (drId : UInt16)
    (xs ys : List Bytes) : valuesOf M sessionId drId (xs ++ ys) =
      valuesOf M sessionId drId xs ++ valuesOf M sessionId drId ys := by
  simp only [valuesOf, List.filterMap_append]

variable {sessionId : UInt8} {s : σ} {a : Account (Statics.Msg s)} {frames : List Bytes}

/-- A frame offers its value, if it has one for the slot. -/
theorem noteFrame_registered (h : a.registered = true) (frame : Bytes) :
    a.noteFrame sessionId s frame =
      ⟨a.drId, a.registered, (valuesOf (Statics.Msg s) sessionId a.drId [frame]).foldl
        (fun l v => l.offer (Statics.depth s) v) a.ledger⟩ := by
  obtain ⟨drId, registered, ledger⟩ := a
  obtain rfl : registered = true := h
  unfold Account.noteFrame valuesOf readSample
  rw [List.filterMap_cons]
  cases hdata : dataOf sessionId frame with
  | none => rfl
  | some data =>
    obtain ⟨id, sample⟩ := data
    by_cases hmine : id = drId
    · simp only [hmine, true_and, if_true, List.filterMap_cons, List.filterMap_nil, decoded]
      cases Subscription.decode (Statics.Msg s) sample <;> rfl
    · simp only [hmine, and_false, if_false, List.filterMap_nil, List.foldl_nil]

theorem Heard.offer (h : Heard sessionId s a frames) (hreg : a.registered = true) (frame : Bytes) :
    Heard sessionId s (a.noteFrame sessionId s frame) (frames ++ [frame]) := by
  obtain ⟨ws, hsub, haccepted, hall⟩ := @Ledger.accepted_offers _ (Statics.depth s)
    (valuesOf (Statics.Msg s) sessionId a.drId [frame]) a.ledger
  rw [noteFrame_registered hreg]
  refine ⟨fun hnot => ?_, ?_, ?_⟩
  · rw [hreg] at hnot
    cases hnot
  · rw [haccepted, valuesOf_append]
    exact h.inOrder.append hsub
  · intro hfit
    change (valuesOf (Statics.Msg s) sessionId a.drId (frames ++ [frame])).length ≤ _ at hfit
    rw [valuesOf_append, List.length_append] at hfit
    have hbefore := h.complete (by omega)
    rw [haccepted, valuesOf_append, hall (by rw [hbefore]; exact hfit), hbefore]

/-- What happens between registrations. -/
theorem Heard.quiet (h : Heard sessionId s a frames) {e : Event σ} (he : e.Quiet) :
    (a.note sessionId s e).registered = a.registered ∧
      Heard sessionId s (a.note sessionId s e)
        (if a.registered then frames ++ receivedFrames [e] else frames) := by
  have hsame (hnone : receivedFrames [e] = []) : Heard sessionId s a
      (if a.registered then frames ++ receivedFrames [e] else frames) := by
    rw [hnone, List.append_nil, ite_self]
    exact h
  cases e with
  | received frame =>
    by_cases hreg : a.registered = true
    · refine ⟨?_, ?_⟩
      · change (a.noteFrame sessionId s frame).registered = _
        rw [noteFrame_registered hreg]
      · rw [if_pos hreg]
        exact h.offer hreg frame
    · rw [if_neg hreg]
      have hnot : a.noteFrame sessionId s frame = a :=
        noteFrame_unregistered (Bool.eq_false_iff.mpr hreg)
      change (a.noteFrame sessionId s frame).registered = _ ∧
        Heard sessionId s (a.noteFrame sessionId s frame) frames
      rw [hnot]
      exact ⟨rfl, h⟩
  | taken s' v =>
    have hcase := hsame rfl
    by_cases hs : s' = s
    · subst hs
      simp only [Account.note, dif_pos]
      exact ⟨trivial, hcase.silent, hcase.inOrder, hcase.complete⟩
    · simp only [Account.note, dif_neg hs]
      exact ⟨trivial, hcase⟩
  | assigned s' id => exact he.elim
  | registered s' => exact he.elim
  | _ => exact ⟨rfl, hsame rfl⟩

theorem Heard.quiets (h : Heard sessionId s a frames) {es : List (Event σ)}
    (hes : ∀ e ∈ es, e.Quiet) :
    (es.foldl (Account.note sessionId s) a).registered = a.registered ∧
      Heard sessionId s (es.foldl (Account.note sessionId s) a)
        (if a.registered then frames ++ receivedFrames es else frames) := by
  induction es generalizing a frames with
  | nil =>
    rw [show receivedFrames ([] : List (Event σ)) = [] from rfl, List.append_nil, ite_self]
    exact ⟨rfl, h⟩
  | cons e es ih =>
    rw [List.forall_mem_cons] at hes
    obtain ⟨hreg, hnext⟩ := h.quiet hes.1
    obtain ⟨hreg', hlast⟩ := ih hnext hes.2
    rw [List.foldl_cons]
    refine ⟨hreg'.trans hreg, ?_⟩
    have hframes : receivedFrames (e :: es) = receivedFrames [e] ++ receivedFrames es :=
      receivedFrames_append [e] es
    rw [hreg] at hlast
    rw [hframes]
    cases hregistered : a.registered with
    | true =>
      rw [hregistered] at hlast
      simp only [if_true, List.append_assoc] at hlast ⊢
      exact hlast
    | false =>
      rw [hregistered] at hlast
      exact hlast

theorem framesSince_append (s : σ) (xs ys : List (Event σ)) :
    framesSince s (xs ++ ys) = if xs.any (Event.registers s) then
      framesSince s xs ++ receivedFrames ys else framesSince s ys := by
  unfold framesSince
  rw [List.dropWhile_append]
  by_cases hany : xs.any (Event.registers s) = true
  · obtain ⟨e, he, hreg⟩ := List.any_eq_true.mp hany
    have hsome : ¬ (xs.dropWhile fun e => !e.registers s).isEmpty = true := by
      rw [List.isEmpty_iff, List.dropWhile_eq_nil_iff]
      intro hall
      have hnot := hall e he
      rw [hreg] at hnot
      cases hnot
    rw [if_pos hany, if_neg hsome, receivedFrames_append]
  · have hnone : (xs.dropWhile fun e => !e.registers s).isEmpty = true := by
      rw [List.isEmpty_iff, List.dropWhile_eq_nil_iff]
      intro e he
      rw [Bool.not_eq_true']
      exact Bool.eq_false_iff.mpr fun hreg => hany (List.any_eq_true.mpr ⟨e, he, hreg⟩)
    rw [if_neg hany, if_pos hnone]

theorem any_registers_quiet (s : σ) {es : List (Event σ)} (hes : ∀ e ∈ es, e.Quiet) :
    es.any (Event.registers s) = false := by
  rw [List.any_eq_false]
  intro e he hreg
  cases e with
  | registered s' => exact hes _ he
  | _ => cases hreg

theorem framesSince_quiet (s : σ) {es : List (Event σ)} (hes : ∀ e ∈ es, e.Quiet) :
    framesSince s es = [] := by
  have hnone : (es.dropWhile fun e => !e.registers s) = [] := by
    rw [List.dropWhile_eq_nil_iff]
    intro e he
    have hall := List.any_eq_false.mp (any_registers_quiet s hes) e he
    rw [Bool.eq_false_iff.mpr hall]
    rfl
  rw [framesSince, hnone]
  rfl

/-- What an account knows of a history: whether the slot is registered, and since then
what it has heard. -/
def Listens (sessionId : UInt8) (s : σ) (es : List (Event σ)) : Prop :=
  (accountOf sessionId s es).registered = es.any (Event.registers s) ∧
    Heard sessionId s (accountOf sessionId s es) (framesSince s es)

theorem Listens.quiet {xs ys : List (Event σ)} (h : Listens sessionId s xs)
    (hys : ∀ e ∈ ys, e.Quiet) : Listens sessionId s (xs ++ ys) := by
  obtain ⟨hreg, hheard⟩ := h
  obtain ⟨hreg', hheard'⟩ := hheard.quiets hys
  unfold Listens accountOf
  rw [List.foldl_append, List.any_append, any_registers_quiet s hys, Bool.or_false,
    framesSince_append, framesSince_quiet s hys, ← hreg]
  refine ⟨hreg', ?_⟩
  cases hregistered : (accountOf sessionId s xs).registered with
  | true =>
    rw [hregistered] at hheard'
    exact hheard'
  | false =>
    rw [hregistered] at hheard'
    rw [(hheard.silent hregistered).2] at hheard'
    exact hheard'

/-- A slot that is entered starts to listen, and the others go on. -/
theorem Listens.entered {s' : σ} {xs : List (Event σ)} (h : Listens sessionId s xs)
    (hnew : s' = s → xs.any (Event.registers s) = false) (drOid : UInt16) :
    Listens sessionId s (xs ++ [.assigned s' drOid, .registered s']) := by
  obtain ⟨hreg, hheard⟩ := h
  unfold Listens accountOf
  rw [List.foldl_append, List.any_append, framesSince_append]
  by_cases hs : s' = s
  · subst hs
    have hnot := hnew rfl
    rw [hnot] at hreg
    have hlast : framesSince s' [.assigned s' drOid, .registered s'] = [] := by
      simp [framesSince, Event.registers, receivedFrames]
    simp only [hnot, hlast, List.foldl_cons, List.foldl_nil, Account.note, if_pos]
    have hempty : (accountOf sessionId s' xs).ledger.accepted = [] := (hheard.silent hreg).1
    refine ⟨by simp [Event.registers], fun h => Bool.noConfusion h, ?_, ?_⟩
    · exact hempty ▸ List.nil_sublist _
    · exact fun _ => hempty
  · have hothers : [Event.assigned s' drOid, .registered s'].any (Event.registers s) = false := by
      simp [Event.registers, hs]
    have hlast : framesSince s [.assigned s' drOid, .registered s'] = [] := by
      simp [framesSince, Event.registers, receivedFrames, hs]
    simp only [hothers, hlast, List.foldl_cons, List.foldl_nil, Account.note, if_neg hs,
      Bool.or_false]
    refine ⟨hreg, ?_⟩
    rw [show receivedFrames [Event.assigned s' drOid, .registered s'] = [] from rfl,
      List.append_nil]
    cases hany : xs.any (Event.registers s) with
    | true => exact hheard
    | false =>
      rw [hany] at hreg
      rw [(hheard.silent hreg).2] at hheard
      exact hheard

end

section
variable {T σ : Type} [Statics σ] [Target] [ReadWrite T] {transport : T} {sessionId : UInt8}
  {key : ClientKey} {tasks : List (List σ)} {calls : List (Made T σ)} {w : World T σ}

theorem Runs.listens (h : Runs (start transport sessionId key tasks) calls w)
    (hfresh : ∀ c ∈ calls, c.EntersFresh) (s : σ) : Listens sessionId s w.history := by
  induction h with
  | nil => exact ⟨rfl, fun _ => ⟨rfl, rfl⟩, List.Sublist.refl _, fun _ => rfl⟩
  | @snoc calls c hbefore _ ih =>
    have hall := List.forall_mem_append.mp hfresh
    have hsettled := hbefore.settled hall.1 s
    rcases made_cases c with ⟨⟨es, hquiet, htrail⟩, -⟩ | ⟨_, _, s', drOid, -, hreg⟩
    · rw [htrail.history]
      exact (ih hall.1).quiet hquiet
    · obtain ⟨es, hquiet, -, htrail⟩ := hreg.trail
      rw [htrail.history, ← List.append_assoc]
      refine ((ih hall.1).quiet hquiet).entered ?_ drOid
      rintro rfl
      have hnew := (List.forall_mem_singleton.mp hall.2 s' drOid hreg).1
      rw [List.any_append, any_registers_quiet s' hquiet, Bool.or_false, ← (ih hall.1).1]
      exact Bool.eq_false_iff.mpr fun hregistered => hnew (hsettled.2.1.mp hregistered)

end

/-- What an agent hands on of the samples it was given: some of them, in order, each behind an
encapsulation header. -/
structure Relays (given handed : List Bytes) : Prop where
  encapsulated : ∀ sample ∈ handed, 4 ≤ sample.length
  inOrder : (handed.map (List.drop 4)).Sublist given

/-- The slots of a program by the message types of `ros2::msg`. -/
class Topics (σ : Type) where
  decEq : DecidableEq σ
  kind : σ → Ros2Msg
  depth : σ → Nat

instance [Target] (σ : Type) [Topics σ] : Statics σ where
  decEq := Topics.decEq
  Msg s := (Topics.kind s).Sample
  depth := Topics.depth
  message _ := inferInstance

/-- The fields that a body is decoded to. -/
def fieldsIn [Target] (k : Ros2Msg) (body : Bytes) : Option (List Cdr.Item) :=
  match ((Message.deserialize : ReadCdr k.Sample).run (CdrReader.fromBody body)).1 with
  | .ok v => some (k.fields v)
  | _ => none

theorem new_of_encapsulated {sample : Bytes} (h : 4 ≤ sample.length) :
    CdrReader.new sample = CdrReader.fromBody (sample.drop 4) := by
  have hencap : (sample.take 4).length = 4 := List.length_take_of_le h
  have hnew := new_append hencap (sample.drop 4)
  rwa [List.take_append_drop] at hnew

section
variable [Target]

/-- A subscriber looks behind the encapsulation header only. -/
theorem fields_decoded (k : Ros2Msg) {handed : List Bytes}
    (h : ∀ sample ∈ handed, 4 ≤ sample.length) :
    (handed.filterMap (decoded k.Sample)).map k.fields =
      (handed.map (List.drop 4)).filterMap (fieldsIn k) := by
  rw [List.map_filterMap, List.filterMap_map]
  apply List.filterMap_congr
  intro sample hsample
  simp only [decoded, fieldsIn, Subscription.decode, Function.comp_apply,
    new_of_encapsulated (h sample hsample)]
  split <;> simp_all

theorem fieldsIn_sublist {k k' : Ros2Msg}
    (hname : Message.typeName k.Sample = Message.typeName k'.Sample) {kept : List k.Sample}
    {given : List Bytes} (hm : ∀ m ∈ kept, k.Encodable m)
    (h : List.Forall₂ (fun m body => body <+: bodyBytes m ∧ body.length ≤ txBufSize) kept given) :
    (given.filterMap (fieldsIn k')).Sublist (kept.map k.fields) := by
  induction h with
  | nil => exact List.Sublist.refl _
  | @cons m body kept given hbody _ ih =>
    rw [List.forall_mem_cons] at hm
    rw [List.map_cons, List.filterMap_cons]
    cases hdecode : fieldsIn k' body with
    | none => exact (ih hm.2).cons _
    | some fields =>
      unfold fieldsIn at hdecode
      split at hdecode
      · next v hv =>
        cases hdecode
        rw [decoded_fields hname hm.1 hbody.1 hbody.2 hv]
        exact (ih hm.2).cons_cons _
      · cases hdecode

/-- A whole body is decoded if the type of the slot has a value for it. -/
theorem fieldsIn_whole {k k' : Ros2Msg} (hk : k' ≠ .string) {m : k.Sample}
    (hlen : (bodyBytes m).length ≤ txBufSize) {v : k'.Sample} (hv : k'.fields v = k.fields m) :
    fieldsIn k' (bodyBytes m) = some (k.fields m) := by
  have h32 := two_pow_32_le (t := ‹Target›)
  have hbody : bodyBytes m = Cdr.encode 0 (k'.fields v) := by
    rw [bodyBytes, serialize_reference, hv]
    rfl
  have hencodable : k'.Encodable v := by
    cases k' with
    | stringOwned N =>
      rw [hbody,
        show Ros2Msg.fields (.stringOwned N) v = [.text (utf8 (StringOwned.data v))] from rfl,
        Cdr.length_text] at hlen
      change (utf8 (StringOwned.data v)).length < 2 ^ 32 - 1
      simp only [txBufSize] at hlen
      omega
    | string => exact absurd rfl hk
    | _ => trivial
  rw [hbody] at hlen ⊢
  simp only [txBufSize] at hlen
  obtain ⟨r', hrun⟩ := (parses_reference hk .zero hencodable).run_body
    (show (Cdr.encode 0 (k'.fields v)).length + 16 ≤ 2 ^ _ by omega)
  have hrun' : (Message.deserialize : ReadCdr k'.Sample).run
      (CdrReader.fromBody (Cdr.encode 0 (k'.fields v))) = (.ok v, r') := hrun
  rw [fieldsIn, hrun']
  exact congrArg some hv

end

section
variable [Target] {T T' σ σ' : Type} [Statics σ] [ReadWrite T] [Topics σ'] [ReadWrite T']
  {transport : T} {sessionId : UInt8} {key : ClientKey} {tasks : List (List σ)}
  {calls : List (Made T σ)} {w : World T σ}
  {transport' : T'} {sessionId' : UInt8} {key' : ClientKey} {tasks' : List (List σ')}
  {calls' : List (Made T' σ')} {w' : World T' σ'} {k : Ros2Msg} {dwId : UInt16}
  {ms : List k.Sample} {s : σ'}

/-- What a slot has handed out and still holds. -/
def World.got (w : World T' σ') (sessionId : UInt8) (s : σ') : List (Topics.kind s).Sample :=
  (accountOf sessionId s w.history).ledger.taken ++ (w.slots s).inbox.items

/-- The samples of a DataWriter that have been sent. -/
def World.given (w : World T σ) (dwId : UInt16) : List Bytes :=
  (sentFrames w.history).filterMap (writtenSample dwId)

/-- The samples for a slot that have been read since it was registered. -/
def World.handed (w : World T' σ') (sessionId : UInt8) (s : σ') : List Bytes :=
  (framesSince s w.history).filterMap (readSample sessionId (w.slots s).drId)

theorem Runs.got (h : Runs (start transport' sessionId' key' tasks') calls' w')
    (honce : ∀ s, registrations s w'.history ≤ 1) (hfew : allocations .datareader w'.history < 4096)
    (s : σ') :
    (w'.got sessionId' s).Sublist
        ((w'.handed sessionId' s).filterMap (decoded (Topics.kind s).Sample)) ∧
      (((w'.handed sessionId' s).filterMap (decoded (Topics.kind s).Sample)).length ≤
          Topics.depth s → w'.got sessionId' s =
        (w'.handed sessionId' s).filterMap (decoded (Topics.kind s).Sample)) := by
  have hfresh := (h.entersFresh (h.registersNewSlot honce) hfew).2
  obtain ⟨hid, -, hbalance⟩ := h.settled hfresh s
  obtain ⟨-, hheard⟩ := h.listens hfresh s
  have hgot : w'.got sessionId' s = (accountOf sessionId' s w'.history).ledger.accepted := hbalance
  have hvalues : valuesOf (Statics.Msg s) sessionId' (accountOf sessionId' s w'.history).drId
      (framesSince s w'.history) =
        (w'.handed sessionId' s).filterMap (decoded (Topics.kind s).Sample) := by
    rw [valuesOf, hid]
    rfl
  rw [hgot, ← hvalues]
  exact ⟨hheard.inOrder, hheard.complete⟩

/-- However the two sessions run, their transports behave and the agent chooses, the subscriber
gets nothing but messages that were published, in the order of publishing and each at most
once, with the fields they were published with. -/
theorem subscriber_hears_publisher (hpublisher : Runs (start transport sessionId key tasks) calls w)
    (hpublished : Published k.Sample dwId calls ms) (hencodable : ∀ m ∈ ms, k.Encodable m)
    (hsubscriber : Runs (start transport' sessionId' key' tasks') calls' w')
    (honce : ∀ s, registrations s w'.history ≤ 1)
    (hfew : allocations .datareader w'.history < 4096)
    (hname : Message.typeName k.Sample = Message.typeName (Topics.kind s).Sample)
    (hrelays : Relays (w.given dwId) (w'.handed sessionId' s)) :
    ((w'.got sessionId' s).map (Topics.kind s).fields).Sublist (ms.map k.fields) := by
  obtain ⟨kept, hkept, hbodies⟩ := hpublished.written
  rw [← hpublisher.sent] at hbodies
  have hgot := ((hsubscriber.got honce hfew s).1).map (Topics.kind s).fields
  rw [fields_decoded _ hrelays.encapsulated] at hgot
  have hgiven := hrelays.inOrder.filterMap (fieldsIn (Topics.kind s))
  have hfields := fieldsIn_sublist hname (fun m hm => hencodable m (hkept.subset hm)) hbodies
  exact hgot.trans (hgiven.trans (hfields.trans (hkept.map k.fields)))

/-- If every message fits the publisher's buffer and the type of the slot, the agent hands them
all on and the slot has room for them all, the subscriber gets them all. -/
theorem subscriber_hears_everything (hpublisher : Runs (start transport sessionId key tasks) calls w)
    (hpublished : Published k.Sample dwId calls ms)
    (hfit : ∀ m ∈ ms, writeDataPrefix sessionId + (bodyBytes m).length ≤ txBufSize)
    (hsubscriber : Runs (start transport' sessionId' key' tasks') calls' w')
    (honce : ∀ s, registrations s w'.history ≤ 1)
    (hfew : allocations .datareader w'.history < 4096)
    (howned : Topics.kind s ≠ .string)
    (hvalue : ∀ m ∈ ms, ∃ v, (Topics.kind s).fields v = k.fields m)
    (hencapsulated : ∀ sample ∈ w'.handed sessionId' s, 4 ≤ sample.length)
    (hall : (w'.handed sessionId' s).map (List.drop 4) = w.given dwId)
    (hroom : ms.length ≤ Topics.depth s) :
    (w'.got sessionId' s).map (Topics.kind s).fields = ms.map k.fields := by
  have hgiven : w.given dwId = ms.map bodyBytes := by
    rw [World.given, hpublisher.sent]
    exact hpublished.whole hpublisher.one_session hfit
  have hdecoded : ((w'.handed sessionId' s).filterMap (decoded (Topics.kind s).Sample)).map
      (Topics.kind s).fields = ms.map k.fields := by
    rw [fields_decoded _ hencapsulated, hall, hgiven, List.filterMap_map, ← List.filterMap_eq_map]
    apply List.filterMap_congr
    intro m hm
    obtain ⟨v, hv⟩ := hvalue m hm
    have hlen := hfit m hm
    exact fieldsIn_whole howned (by omega) hv
  have hlength := congrArg List.length hdecoded
  rw [List.length_map, List.length_map] at hlength
  rw [(hsubscriber.got honce hfew s).2 (by omega), hdecoded]

end

/-- A program with one slot, for short strings. -/
inductive Chatter where
  | inbox
  deriving DecidableEq

instance : Topics Chatter := ⟨inferInstance, fun _ => .stringOwned 8, fun _ => 3⟩

section
variable [Target]

/-- What is said over `/chatter`. -/
def utterances : List StdString := [⟨"hello"⟩, ⟨"there"⟩, ⟨"again"⟩]

def utter (m : StdString) : Op Empty × Nat := (.publish Ros2Msg.string.Sample ⟨0x15⟩ m, 0)

def quietRoom : World Wire Empty := start ⟨[], [], []⟩ 0x81 ⟨0, 0, 0, 0⟩ []

def spoken : World Wire Empty := behindRow quietRoom (utterances.map utter)

/-- The agent answers the three requests and hands these texts on. -/
def chatting (texts : List Bytes) : World Wire Chatter :=
  start ⟨stream ((List.range' 1 3).map (fun r => statusFrame (.ofNat r) 0) ++
    texts.map fun text => dataFrame 0x0016 ([0, 1, 0, 0] ++ cdrText text)), [], []⟩
    0x82 ⟨0, 0, 0, 0⟩ []

/-- The subscriber takes a turn for each of them. -/
def chatterCalls : List (Op Chatter × Nat) :=
  (.createSubscription ⟨1, 1, 1⟩ (ascii "/chatter") .inbox, 4) :: List.replicate 3 (.spinOnce, 1)

def heardOf (texts : List Bytes) : World Wire Chatter := behindRow (chatting texts) chatterCalls

theorem published_row {calls : List (Made Wire Empty)} {ms : List StdString}
    (h : Published Ros2Msg.string.Sample 0x15 calls ms) (w : World Wire Empty)
    (more : List StdString) :
    Published Ros2Msg.string.Sample 0x15 (calls ++ inRow w (more.map utter)) (ms ++ more) := by
  induction more generalizing calls ms w with
  | nil =>
    rw [List.map_nil, inRow, List.append_nil, List.append_nil]
    exact h
  | cons m more ih =>
    rw [List.map_cons, inRow, List.append_cons, List.append_cons ms]
    exact ih (.sample _ m h (.intro ⟨0x15⟩ m rfl)) _

end

/-- Everything that is said, and all but the second of it. -/
def relayed : List (List Bytes) :=
  [[ascii "hello", ascii "again"], [ascii "hello", ascii "there", ascii "again"]]

/-- What is on the two wires, and how the subscription went. -/
theorem chatter_exchange : letI := rp2040 true
    (∀ c ∈ (inRow quietRoom (utterances.map utter)).dropLast, c.outcome ≠ .panic) ∧
      spoken.given 0x15 = utterances.map (fun m => cdrText (utf8 m.data)) ∧
      ∀ texts ∈ relayed, (∀ c ∈ (inRow (chatting texts) chatterCalls).dropLast, c.outcome ≠ .panic) ∧
        (heardOf texts).handed 0x82 .inbox = texts.map (fun text => [0, 1, 0, 0] ++ cdrText text) ∧
        ((heardOf texts).got 0x82 .inbox).length = texts.length ∧
        registrations .inbox (heardOf texts).history ≤ 1 ∧
        allocations .datareader (heardOf texts).history < 4096 := by
  decide +kernel

section
variable [Target]

theorem published_utterances : Published Ros2Msg.string.Sample 0x15
    (inRow quietRoom (utterances.map utter)) utterances := published_row .nil quietRoom utterances

theorem runs_chatter {texts : List Bytes}
    (hlive : ∀ c ∈ (inRow (chatting texts) chatterCalls).dropLast, c.outcome ≠ .panic) :
    Runs (chatting texts) (inRow (chatting texts) chatterCalls) (heardOf texts) := by
  rw [heardOf]
  exact runs_inRow hlive

end

/-- The agent drops the second string, and the others are heard in their order. -/
theorem hello_heard_as_published : letI := rp2040 true
    ((heardOf [ascii "hello", ascii "again"]).got 0x82 .inbox).length = 2 ∧
      (((heardOf [ascii "hello", ascii "again"]).got 0x82 .inbox).map
        (Ros2Msg.stringOwned 8).fields).Sublist (utterances.map Ros2Msg.string.fields) := by
  obtain ⟨hsaid, hgiven, hrelayed⟩ := chatter_exchange
  obtain ⟨hlive, hhanded, hgot, honce, hfew⟩ := hrelayed _ List.mem_cons_self
  generalize rp2040 true = target at hsaid hgiven hlive hhanded hgot honce hfew ⊢
  have hencodable : ∀ m ∈ utterances, Ros2Msg.string.Encodable m := by
    change ∀ m ∈ utterances, (utf8 m.data).length < 2 ^ 32 - 1
    decide
  have hname : Message.typeName Ros2Msg.string.Sample =
      Message.typeName (Topics.kind Chatter.inbox).Sample := rfl
  have hpublisher : Runs quietRoom (inRow quietRoom (utterances.map utter)) spoken :=
    runs_inRow hsaid
  have hsubscriber := runs_chatter hlive
  have hrelays : Relays (spoken.given 0x15)
      ((heardOf [ascii "hello", ascii "again"]).handed 0x82 .inbox) := by
    rw [hhanded, hgiven]
    exact ⟨by decide, .cons_cons _ (.cons _ (.refl _))⟩
  generalize heardOf [ascii "hello", ascii "again"] = w' at hsubscriber hgot honce hfew hrelays ⊢
  have honce' : ∀ s, registrations s w'.history ≤ 1 := fun | .inbox => honce
  exact ⟨hgot, subscriber_hears_publisher hpublisher published_utterances hencodable hsubscriber
    honce' hfew hname hrelays⟩

/-- The strings that are published arrive in a slot for owned strings. -/
theorem hello_arrives : letI := rp2040 true
    ((heardOf [ascii "hello", ascii "there", ascii "again"]).got 0x82 .inbox).map
      (Ros2Msg.stringOwned 8).fields = utterances.map Ros2Msg.string.fields := by
  obtain ⟨hsaid, hgiven, hrelayed⟩ := chatter_exchange
  obtain ⟨hlive, hhanded, -, honce, hfew⟩ := hrelayed _ (List.mem_cons_of_mem _ List.mem_cons_self)
  generalize rp2040 true = target at hsaid hgiven hlive hhanded honce hfew ⊢
  have hfit : ∀ m ∈ utterances, writeDataPrefix 0x81 + (bodyBytes m).length ≤ txBufSize := by
    change ∀ m ∈ utterances, writeDataPrefix 0x81 + (cdrText (utf8 m.data)).length ≤ txBufSize
    decide
  have howned : Topics.kind Chatter.inbox ≠ .string := nofun
  have hvalue : ∀ m ∈ utterances,
      ∃ v, (Topics.kind Chatter.inbox).fields v = Ros2Msg.string.fields m := by
    have hshort : ∀ m ∈ utterances, (utf8 m.data).length ≤ 8 := by decide
    exact fun m hm => ⟨(⟨m.data, hshort m hm⟩ : StringOwned 8), rfl⟩
  have hpublisher : Runs quietRoom (inRow quietRoom (utterances.map utter)) spoken :=
    runs_inRow hsaid
  have hsubscriber := runs_chatter hlive
  generalize heardOf [ascii "hello", _, _] = w' at hsubscriber honce hfew hhanded ⊢
  have honce' : ∀ s, registrations s w'.history ≤ 1 := fun | .inbox => honce
  have hencapsulated : ∀ sample ∈ w'.handed 0x82 .inbox, 4 ≤ sample.length := by
    rw [hhanded]
    decide
  have hall : (w'.handed 0x82 .inbox).map (List.drop 4) = spoken.given 0x15 := by
    rw [hhanded, hgiven]
    decide
  have hroom : utterances.length ≤ Topics.depth Chatter.inbox := by decide
  exact subscriber_hears_everything hpublisher published_utterances hfit hsubscriber honce' hfew
    howned hvalue hencapsulated hall hroom

end MicroXrceDds
