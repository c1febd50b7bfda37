import MicroXrceDds.ClientWaits
import MicroXrceDds.Composition
import MicroXrceDds.Connect
import MicroXrceDds.FrameBounds
import MicroXrceDds.Relay
import MicroXrceDds.Republish

/-!
# When a call panics

Over a transport that keeps to its contract a call can panic in three ways: a message that
does not fit is published, an id counter overflows, or a received sample takes the reader
past the address space. A run in which none of these happens has no panic in it, whatever
else comes in and whatever the calls are.
-/
namespace MicroXrceDds

open Prog Session LittleEndian
open CdrReader (Poisoned span alignedPos)

/-- The contract of `embedded_io_async`: nothing panics, no more is read than there is room
for, and no more is accepted than is offered. -/
structure KeepsContract (S : Type) [ReadWrite S] : Prop where
  read : ∀ len (s : S), ((ReadWrite.read len).run s).1 ≠ .panic ∧
    ∀ bs, ((ReadWrite.read len).run s).1 = .ok bs → bs.length ≤ len
  write : ∀ buf (s : S), ((ReadWrite.write buf).run s).1 ≠ .panic ∧
    ∀ n, ((ReadWrite.write buf).run s).1 = .ok n → n ≤ buf.length
  flush : ∀ s : S, ((ReadWrite.flush : Prog Unit S Unit).run s).1 ≠ .panic

theorem Wire.keepsContract : KeepsContract Wire where
  read len w := by
    change (if w.incoming = [] then ((.pending : Outcome Unit Bytes), w)
      else (.ok (w.incoming.take (w.chunk len)), w.took (w.chunk len))).1 ≠ .panic ∧
        ∀ bs, (if w.incoming = [] then ((.pending : Outcome Unit Bytes), w)
          else (.ok (w.incoming.take (w.chunk len)), w.took (w.chunk len))).1 = .ok bs →
            bs.length ≤ len
    have hchunk : w.chunk len ≤ len := by
      unfold Wire.chunk
      split <;> omega
    split
    · exact ⟨nofun, nofun⟩
    · refine ⟨nofun, ?_⟩
      rintro bs ⟨⟩
      rw [List.length_take]
      omega
  write buf w := by
    refine ⟨nofun, ?_⟩
    rintro n ⟨⟩
    exact List.length_take_le' _ _
  flush w := nofun

variable {T σ : Type}

theorem outcome_mapIo {S α : Type} (p : Prog Unit S α) (s : S) :
    ((mapIo p).run s).1 = .panic ↔ (p.run s).1 = .panic := by
  simp only [mapIo]
  cases p.run s with
  | mk o s' => cases o <;> simp

/-- An operation of the session ends as the operation of its transport. -/
theorem outcome_onTransport [Statics σ] {α : Type} (p : Prog Unit T α) (w : World T σ) :
    ((World.onTransport p : Prog Unit (World T σ) α).run w).1 = (p.run w.session.transport).1 := by
  rw [onTransport_run (Prod.eta _).symm]

theorem mapIo_eq_ok {S α : Type} {p : Prog Unit S α} {s s' : S} {a : α}
    (h : (mapIo p).run s = (.ok a, s')) : p.run s = (.ok a, s') := by
  simp only [mapIo] at h
  cases hrun : p.run s with
  | mk o s₁ =>
    rw [hrun] at h
    cases o with
    | ok b =>
      cases h
      rfl
    | _ => cases h

namespace KeepsContract

theorem world [Statics σ] [ReadWrite T] (h : KeepsContract T) : KeepsContract (World T σ) where
  read len w := by
    have houtcome : ((ReadWrite.read len).run w).1 = _ := outcome_onTransport (ReadWrite.read len) w
    rw [houtcome]
    exact h.read len w.session.transport
  write buf w := by
    have houtcome : ((ReadWrite.write buf).run w).1 = _ :=
      outcome_onTransport (ReadWrite.write buf) w
    rw [houtcome]
    exact h.write buf w.session.transport
  flush w := by
    have houtcome : ((ReadWrite.flush : Prog Unit (World T σ) Unit).run w).1 = _ :=
      outcome_onTransport ReadWrite.flush w
    rw [houtcome]
    exact h.flush w.session.transport

variable {S : Type} [ReadWrite S] {E : S → Prop}

theorem writeLoop (h : KeepsContract S) (fuel : Nat) (buf : Bytes) :
    PanicsIn E (Framing.writeLoop fuel buf : Prog Error S Unit) := by
  induction fuel generalizing buf with
  | zero =>
    cases buf with
    | nil => exact .pure ()
    | cons b buf => exact .pending
  | succ fuel ih =>
    cases buf with
    | nil => exact .pure ()
    | cons b buf =>
      have hwrite : PanicsIn E (Framing.write (b :: buf) : Prog Error S Nat) := by
        intro s hpanic
        exact absurd ((outcome_mapIo _ s).mp hpanic) (h.write (b :: buf) s).1
      refine hwrite.bind_of fun s accepted s' hrun hpanic => ?_
      cases accepted with
      | zero => cases hpanic
      | succ k =>
        have haccepted : k + 1 ≤ (b :: buf).length := by
          apply (h.write (b :: buf) s).2
          exact congrArg Prod.fst (mapIo_eq_ok hrun)
        rw [List.length_cons] at haccepted
        simp only [if_pos (Nat.le_of_succ_le_succ haccepted)] at hpanic ⊢
        exact ih _ s' hpanic

theorem writeFramed (h : KeepsContract S) (payload : Bytes) :
    PanicsIn E (Framing.writeFramed payload : Prog Error S Unit) := by
  refine .bind (h.writeLoop _ _) fun _ => .bind (h.writeLoop _ _) fun _ => ?_
  intro s hpanic
  exact absurd ((outcome_mapIo _ s).mp hpanic) (h.flush s)

theorem readLoop (h : KeepsContract S) (fuel left : Nat) :
    PanicsIn E (Framing.readLoop fuel left : Prog Error S Bytes) := by
  induction fuel generalizing left with
  | zero =>
    cases left with
    | zero => exact .pure []
    | succ left => exact .pending
  | succ fuel ih =>
    cases left with
    | zero => exact .pure []
    | succ left =>
      have hread : PanicsIn E (Framing.read (left + 1) : Prog Error S Bytes) := by
        intro s hpanic
        exact absurd ((outcome_mapIo _ s).mp hpanic) (h.read (left + 1) s).1
      refine hread.bind_of fun s got s' hrun hpanic => ?_
      cases got with
      | nil => cases hpanic
      | cons b bs =>
        have hgot : (b :: bs).length ≤ left + 1 := by
          apply (h.read (left + 1) s).2
          exact congrArg Prod.fst (mapIo_eq_ok hrun)
        rw [List.length_cons] at hgot
        simp only [if_pos (Nat.le_of_succ_le_succ hgot)] at hpanic ⊢
        exact ((ih _).bind fun rest => .pure _) s' hpanic

theorem readFramed (h : KeepsContract S) (bufLen : Nat) :
    PanicsIn E (Framing.readFramed bufLen : Prog Error S Bytes) := by
  refine .bind (h.readLoop _ _) fun lenBuf => ?_
  simp only
  split
  · exact .throw _
  · exact h.readLoop _ _

end KeepsContract

section
variable [Statics σ]

/-- A received frame that panics when it is dispatched. -/
def World.Spoiled (w : World T σ) : Prop :=
  ∃ frame ∈ receivedFrames w.history, frame.length ≤ rxBufSize ∧
    (w.client []).offered frame = .panic

/-- Every world is mirrored by its client, whatever its transport. -/
theorem mirrors_client (w : World T σ) :
    Mirrors (fun _ _ _ => True) [] w.session.sessionId w (w.client []) := ⟨rfl, trivial, rfl⟩

/-- A frame that has been read is spoiled if dispatching it panics. -/
theorem spoiled_of_offered {w w' : World T σ} {frame : Bytes} (hfit : frame.length ≤ rxBufSize)
    (hend : Mirrors (fun _ _ _ => True) [] w.session.sessionId w' ((w.holding frame).client []))
    (h : ((w.holding frame).client []).offered frame = .panic) : w'.Spoiled := by
  have hview : w'.client [] = (w.holding frame).client [] := hend.view
  have hheard : receivedFrames w'.history = receivedFrames (w.holding frame).history :=
    congrArg Client.heard hview
  refine ⟨frame, ?_, hfit, by rw [hview, h]⟩
  rw [hheard]
  change frame ∈ receivedFrames (w.history ++ [.received frame])
  rw [receivedFrames_append]
  exact List.mem_append_right _ (List.mem_singleton.mpr rfl)

theorem verdict_ne_panic (payload : Bytes) (req : UInt16) : verdict payload req ≠ .panic := by
  intro h
  unfold verdict at h
  split at h
  · split at h
    · cases h
    · split at h <;> cases h
  · cases h

/-- A wait only panics where dispatching the frame does. -/
theorem heed_panics {c : Client σ} {frame : Bytes} {req : UInt16}
    (h : ((Client.heed req frame).run c).1 = .panic) :
    (Client.heed req frame).run c = (.panic, c) ∧ c.offered frame = .panic := by
  cases hsub : submessageOf c.sessionId frame with
  | none =>
    rw [Client.heed, run_get_bind, hsub] at h
    cases h
  | some sub =>
    obtain ⟨id, payload⟩ := sub
    by_cases hid : id = submsgStatus
    · subst hid
      rw [Client.heed_status hsub] at h
      cases hv : verdict payload req with
      | panic => exact absurd hv (verdict_ne_panic payload req)
      | _ =>
        rw [hv] at h
        cases h
    · have hheed : (Client.heed req frame).run c =
          (Client.offer frame >>= fun _ => pure false : Prog Error (Client σ) Bool).run c := by
        rw [Client.heed, run_get_bind, hsub]
        simp only [if_neg hid]
      rw [hheed, run_bind, Client.offer_run] at h ⊢
      cases ho : c.offered frame with
      | panic => exact ⟨rfl, rfl⟩
      | _ =>
        rw [ho] at h
        cases h

section
variable [ReadWrite T]

theorem withFrame_panics (hT : KeepsContract T) {α : Type} {k : World T σ → Bytes → Call T σ α}
    {E : World T σ → Prop} (hk : ∀ (w : World T σ) frame, frame.length ≤ rxBufSize →
      ((k (w.holding frame) frame).run (w.holding frame)).1 = .panic →
        E ((k (w.holding frame) frame).run (w.holding frame)).2) :
    PanicsIn E (withFrame k) := by
  intro w h
  rcases bind_cases (Framing.readFramed rxBufSize) (fun bytes => (do
      modify (World.holding bytes)
      pure bytes.length : Call T σ Nat)) w with ⟨frame, w₁, hrun, hbind⟩ | ⟨o, w₁, hrun, ho, hbind⟩
  · have hframe : (readOneFrame : Call T σ Nat).run w = (.ok frame.length, w₁.holding frame) := by
      rw [readOneFrame_eq, hbind]
      rfl
    have hfit := Framing.readFramed_length hrun
    rw [withFrame_of_read k hfit hframe] at h ⊢
    exact hk w₁ frame hfit h
  · have hfail : (readOneFrame : Call T σ Nat).run w = (o.abort, w₁) := by
      rw [readOneFrame_eq, hbind]
    have hread := hT.world.readFramed (E := fun _ : World T σ => False) rxBufSize w
    rw [hrun] at hread
    rw [withFrame, bind_abort hfail (not_isOk_abort ho)] at h
    cases o with
    | panic => exact (hread rfl).elim
    | ok a => cases ho
    | _ => cases h

theorem spinOnce_panics (hT : KeepsContract T) :
    PanicsIn World.Spoiled (spinOnce : Call T σ Unit) := by
  rw [spinOnce_eq]
  refine withFrame_panics hT fun w frame hfit h => ?_
  obtain ⟨houtcome, hend⟩ := (mirrors_client (w.holding frame)).dispatch frame
  rw [Client.offer_run] at houtcome hend
  exact spoiled_of_offered hfit hend (houtcome.symm.trans h)

variable [Target]

theorem waitTurn_panics (hT : KeepsContract T) (req : UInt16) :
    PanicsIn World.Spoiled (waitTurn req : Call T σ Bool) := by
  rw [waitTurn_eq]
  refine withFrame_panics hT fun w frame hfit h => ?_
  obtain ⟨houtcome, hend⟩ := (mirrors_client (w.holding frame)).wait req frame
  rw [houtcome] at h
  obtain ⟨hheed, hoffered⟩ := heed_panics h
  rw [hheed] at hend
  exact spoiled_of_offered hfit hend hoffered

theorem waitStatusFor_panics (hT : KeepsContract T) (fuel : Nat) (req : UInt16) :
    PanicsIn World.Spoiled (waitStatusFor fuel req : Call T σ Unit) := by
  induction fuel with
  | zero => exact .pending
  | succ fuel ih =>
    refine .bind (waitTurn_panics hT req) fun done => ?_
    cases done with
    | true => exact .pure ()
    | false => exact ih

end

end

section
variable [Statics σ]

theorem enter_panics {E : World T σ → Prop} (s : σ) (drOid : UInt16) :
    PanicsIn E (enter s drOid : Call T σ σ) := by
  refine .bind (.modify _) fun _ => .bind (.bind .get fun w => ?_) fun _ => .pure s
  split
  · exact .throw _
  · exact .modify _

variable [t : Target]

/-- An id counter is at its end, and with overflow checks the next step panics. -/
def World.Exhausted (w : World T σ) : Prop :=
  t.overflowChecks = true ∧ ∃ kind, w.session.nextIdx kind = 65535

def World.Faulty (w : World T σ) : Prop := w.Exhausted ∨ w.Spoiled

theorem alloc_panics (kind : EntityKind) :
    PanicsIn World.Faulty (alloc kind : Call T σ UInt16) := by
  intro w h
  rcases alloc_cases kind w with hok | ⟨hpanic, hend⟩
  · rw [hok] at h
    cases h
  · rw [hpanic]
    have hlast : w.session.nextIdx kind = 65535 := UInt16.toNat_inj.mp hend
    refine .inl ⟨?_, kind, hlast⟩
    by_contra hchecks
    rw [alloc, run_get_bind, hlast] at h
    have hwrap : (addIn 16 (65535 : UInt16).toNat 1 : Call T σ Nat) = pure 0 := by
      rw [addIn, if_neg (by decide), if_neg hchecks]
      rfl
    simp only [hwrap, run_pure_bind] at h
    cases h

variable [ReadWrite T]

theorem sendRequest_panics (hT : KeepsContract T) (fuel : Nat) {enc : Encoder} {id flags : UInt8}
    {oid : UInt16} {payload : UInt16 → Bytes} (henc : enc.Requests id flags oid payload) :
    PanicsIn World.Faulty (sendRequest fuel enc : Call T σ Unit) := by
  intro w h
  obtain ⟨buf, -, hrun⟩ := sendRequest_run w fuel henc.writes
  rw [hrun] at h ⊢
  refine PanicsIn.bind (hT.world.writeFramed _) (fun _ => ?_) _ h
  exact (waitStatusFor_panics hT fuel w.session.reqId).mono fun _ h => .inr h

theorem composes_panics (hT : KeepsContract T) :
    Composes (T := T) (σ := σ) fun _ p => PanicsIn World.Faulty p where
  pure := .pure
  bind := .bind
  alloc := alloc_panics
  topicName topic := by
    rw [ros2TopicName_eq]
    split
    · exact .pure _
    · exact .throw _
  participant fuel idx xml hxml := by
    rw [createParticipantEntity_eq]
    exact sendRequest_panics hT fuel (requests_createParticipant _ hxml)
  child fuel oid kind xml parent hxml := by
    rw [createWithParentEntity_eq]
    exact sendRequest_panics hT fuel (requests_createWithParent oid kind parent hxml)
  readData fuel oid := by
    rw [sendReadData_eq]
    exact sendRequest_panics hT fuel (requests_readData oid)

/-- A message that fits the buffer is serialized without a panic. -/
theorem publish_panics (hT : KeepsContract T) {M : Type} [Message M] (pub : Publisher M) (m : M)
    (w : World T σ)
    (hfit : writeDataPrefix w.session.sessionId + (bodyBytes m).length ≤ txBufSize) :
    ((publish pub m).run w).1 ≠ .panic := by
  rcases publish_run w pub m with ⟨buf, hrun⟩ | ⟨hlong, -⟩
  · rw [hrun]
    exact hT.world.writeFramed (E := fun _ : World T σ => False) _ _
  · exact absurd hfit (Nat.not_le_of_lt hlong)

/-- What a call that panics leaves: a counter at its end, or a frame behind that no slot
could take. -/
theorem call_panics (hT : KeepsContract T) (fuel : Nat) (op : Op σ) (w : World T σ)
    (hfits : op.Fits w.session.sessionId)
    (h : (((op.call fuel : Call T σ (Reply σ))).run w).1 = .panic) :
    ((op.call fuel : Call T σ (Reply σ)).run w).2.Faulty := by
  have hreply {α : Type} {p : Call T σ α} (hp : PanicsIn World.Faulty p) (f : α → Reply σ) :
      PanicsIn World.Faulty (p >>= fun a => pure (f a)) := .bind hp fun a => .pure (f a)
  cases op with
  | createNode name => exact hreply ((composes_panics hT).createNode fuel name) _ w h
  | createPublisher M node topic =>
    exact hreply ((composes_panics hT).createPublisher M fuel node topic) _ w h
  | createSubscription node topic s =>
    exact hreply ((composes_panics hT).createSubscription .get (.throw _) enter_panics fuel node
      topic s) _ w h
  | publish M pub m =>
    have hdone : ((publish pub m >>= fun _ => pure .done : Call T σ (Reply σ)).run w).1 ≠ .panic :=
      run_map_ne_panic _ (publish_panics hT pub m w hfits)
    exact absurd h hdone
  | spinOnce => exact hreply ((spinOnce_panics hT).mono fun _ h => .inr h) _ w h
  | tryRecv s => exact hreply (.modify _) _ w h

end

theorem connect_returns [Target] [ReadWrite T] (hT : KeepsContract T) (sessionId : UInt8)
    (key : ClientKey) (transport : T) :
    ((connect sessionId key : Prog Error T (Session T σ)).run transport).1 ≠ .panic := by
  have hconnect : PanicsIn (fun _ => False)
      (connect sessionId key : Prog Error T (Session T σ)) := by
    rw [connect_eq]
    refine .bind (hT.writeFramed _) fun _ => .bind (hT.readFramed _) fun reply => ?_
    refine .bind ?_ fun _ => .bind .get fun t => .pure _
    intro t h
    exact absurd h (parseStatusAgent_run reply sessionId t)
  exact hconnect transport

/-- A sample that no slot is taken past 32 bits by. -/
def CleanFor (σ : Type) [Topics σ] (sample : Bytes) : Prop :=
  ∀ (s : σ) p, (Topics.kind s).stringAt = some p → ¬ Poisoned 32 (CdrReader.new sample).buf p

/-- Only a target of 32 bits has an address space that a received string can go past. -/
theorem not_poisoned_of_wide {bits : Nat} (hbits : 32 < bits) {buf : Bytes}
    (hlen : buf.length ≤ rxBufSize) (p : Nat) : ¬ Poisoned bits buf p := by
  rintro ⟨hfield, hpast⟩
  have hword : leNat (span buf (alignedPos 4 p) 4) < 2 ^ 32 := by
    have hlt := leNat_lt (span buf (alignedPos 4 p) 4)
    have hspan : (span buf (alignedPos 4 p) 4).length ≤ 4 := List.length_take_le _ _
    exact hlt.trans_le (Nat.pow_le_pow_right (by decide : 0 < 256) hspan)
  have hwide : 2 ^ 33 ≤ 2 ^ bits := Nat.pow_le_pow_right (by decide) hbits
  rw [rxBufSize] at hlen
  omega

theorem logged_panic {α : Type} {o : Outcome Error α} (h : logged o = .panic) : o = .panic := by
  cases o with
  | panic => rfl
  | _ => cases h

section
variable [t : Target] [Topics σ] {sessionId : UInt8}

/-- What panics when it is dispatched is a sample with a string that some slot cannot take. -/
theorem poisoned_of_offered {c : Client σ} {frame : Bytes} (hfit : frame.length ≤ rxBufSize)
    (h : c.offered frame = .panic) : ∃ id sample, dataOf c.sessionId frame = some (id, sample) ∧
      ∃ (s : σ) (p : Nat), (Topics.kind s).stringAt = some p ∧
        Poisoned t.usizeBits (CdrReader.new sample).buf p := by
  have hbits := two_pow_32_le (t := t)
  rw [Client.offered] at h
  cases hdata : dataOf c.sessionId frame with
  | none =>
    rw [hdata] at h
    cases h
  | some data =>
    obtain ⟨id, sample⟩ := data
    refine ⟨id, sample, rfl, ?_⟩
    cases howner : c.owner id with
    | none =>
      simp only [hdata, howner] at h
      cases h
    | some s =>
      simp only [hdata, howner] at h
      have hlen := dataOf_length hdata
      have hdecode := (decode_cases (Topics.kind s) sample (by
        rw [rxBufSize] at hfit
        omega)).1
      by_contra hclean
      have hsafe := hdecode fun p hp hpoisoned => hclean ⟨s, p, hp, hpoisoned⟩
      have hpanic : Subscription.decode (Topics.kind s).Sample sample = .panic := logged_panic h
      rw [hpanic] at hsafe
      rcases hsafe with ⟨v, hv⟩ | herr
      · cases hv
      · cases herr

variable [ReadWrite T]

/-- Over a transport that keeps to its contract no call panics, whatever comes in, whatever the
other tasks do and however the calls end, as long as the messages fit, the counters have room
where overflow is checked, and on 32 bits no string claims to go round the address space. -/
theorem session_never_panics (hT : KeepsContract T) {transport : T} {key : ClientKey}
    {tasks : List (List σ)} {calls : List (Made T σ)} {w : World T σ}
    (h : Runs (start transport sessionId key tasks) calls w)
    (hfits : ∀ call ∈ calls, call.op.Fits sessionId)
    (hroom : t.overflowChecks = true → ∀ kind, allocations kind w.history < 65534)
    (hclean : t.usizeBits = 32 → ∀ frame ∈ receivedFrames w.history, ∀ id sample,
      dataOf sessionId frame = some (id, sample) → CleanFor σ sample) :
    (∀ transport : T,
        ((connect sessionId key : Prog Error T (Session T σ)).run transport).1 ≠ .panic) ∧
      ∀ call ∈ calls, call.outcome ≠ .panic := by
  refine ⟨connect_returns hT sessionId key, ?_⟩
  intro c hc hpanic
  obtain ⟨front, back, -, hfront, hback⟩ := h.cut hc
  obtain ⟨es, hback⟩ := hback.trail
  obtain ⟨es₁, hfront⟩ := hfront.trail
  obtain ⟨es₂, hmade⟩ := c.trail
  have hbefore : c.before.session.sessionId = sessionId := h.one_session c hc
  have hafter : c.after.session.sessionId = sessionId := hmade.router.sessionId.trans hbefore
  rcases call_panics hT c.fuel c.op c.before (hbefore ▸ hfits c hc) hpanic with
    ⟨hchecks, kind, hlast⟩ | ⟨frame, hframe, hfit, hoffered⟩
  · -- The counter has only counted the allocations of the run.
    have htrail := hfront.trans hmade
    have hle : allocations kind (es₁ ++ es₂) < 65534 := by
      have hroom := hroom hchecks kind
      rw [hback.history, htrail.history, allocations_append, allocations_append] at hroom
      omega
    have hend : (c.after.session.nextIdx kind).toNat = 1 + allocations kind (es₁ ++ es₂) :=
      htrail.router.nextIdx kind (show 1 + allocations kind (es₁ ++ es₂) < 2 ^ 16 by omega)
    have hlast' : c.after.session.nextIdx kind = 65535 := hlast
    rw [hlast'] at hend
    change 65535 = _ at hend
    omega
  · obtain ⟨id, sample, hdata, s, p, hp, hpoisoned⟩ := poisoned_of_offered hfit hoffered
    have hheard : frame ∈ receivedFrames w.history := by
      rw [hback.history, receivedFrames_append]
      exact List.mem_append_left _ hframe
    by_cases hbits : t.usizeBits = 32
    · rw [hbits] at hpoisoned
      exact hclean hbits frame hheard id sample (hafter ▸ hdata) s p hp hpoisoned
    · have hlen := dataOf_length hdata
      have hnew := length_new sample
      refine not_poisoned_of_wide (Nat.lt_of_le_of_ne t.atLeast32 (Ne.symm hbits)) ?_ p hpoisoned
      omega

end

/-- On the firmware's own target: the strings that come in are short ones. -/
theorem chatter_never_panics : letI := rp2040 true
    .panic ∉ (inRow (chatting [ascii "hello", ascii "again"]) chatterCalls).map Made.outcome := by
  have hexchange : letI := rp2040 true
      (∀ kind ∈ [EntityKind.participant, .topic, .publisher, .subscriber, .datawriter,
          .datareader], allocations kind (heardOf [ascii "hello", ascii "again"]).history < 65534) ∧
        (receivedFrames (heardOf [ascii "hello", ascii "again"]).history).filterMap
            (dataOf 0x82) =
          [(0x0016, [0, 1, 0, 0] ++ cdrText (ascii "hello")),
            (0x0016, [0, 1, 0, 0] ++ cdrText (ascii "again"))] := by
    decide +kernel
  obtain ⟨-, -, hrelayed⟩ := chatter_exchange
  obtain ⟨hlive, -⟩ := hrelayed _ List.mem_cons_self
  generalize rp2040 true = target at hexchange hlive ⊢
  obtain ⟨hroom, hheard⟩ := hexchange
  have hruns := runs_chatter hlive
  have hfits : ∀ call ∈ inRow (chatting [ascii "hello", ascii "again"]) chatterCalls,
      call.op.Fits 0x82 := by
    intro call hcall
    rcases List.mem_cons.mp (mem_of_mem_inRow hcall) with heq | hspin
    · rw [(Prod.mk.inj heq).1]
      trivial
    · rw [(Prod.mk.inj (List.eq_of_mem_replicate hspin)).1]
      trivial
  have hroom' (kind : EntityKind) :
      allocations kind (heardOf [ascii "hello", ascii "again"]).history < 65534 :=
    hroom kind (by cases kind <;> decide)
  have hclean : ∀ frame ∈ receivedFrames (heardOf [ascii "hello", ascii "again"]).history,
      ∀ id sample, dataOf 0x82 frame = some (id, sample) → CleanFor Chatter sample := by
    intro frame hframe id sample hdata s p hp
    have hsample := List.mem_filterMap.mpr ⟨frame, hframe, hdata⟩
    rw [hheard] at hsample
    rcases List.mem_pair.mp hsample with heq | heq
    · cases heq
      cases hp
      unfold Poisoned
      decide
    · cases heq
      cases hp
      unfold Poisoned
      decide
  intro hpanic
  obtain ⟨call, hcall, hpanics⟩ := List.mem_map.mp hpanic
  exact (session_never_panics Wire.keepsContract hruns hfits (fun _ => hroom')
    fun _ => hclean).2 call hcall hpanics

end MicroXrceDds
