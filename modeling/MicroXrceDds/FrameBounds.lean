import MicroXrceDds.ReaderSafety
import MicroXrceDds.Registration

/-!
# Taking received frames apart

No index or slice of a received frame is out of bounds, whatever the frame claims about
its own lengths, and a slot only ever gets bytes of its own submessage.
-/
namespace MicroXrceDds

open Prog Session

variable {T σ : Type} [Statics σ]

/-- The length field of the first submessage. -/
def declaredLen (sessionId : UInt8) (frame : Bytes) : Nat :=
  (u16FromLe (frame.getD (msgHeaderLen sessionId + 2) 0)
    (frame.getD (msgHeaderLen sessionId + 3) 0)).toNat

/-- Where the first submessage ends: where its length field says, or with the frame. -/
def submessageEnd (sessionId : UInt8) (frame : Bytes) : Nat :=
  min (msgHeaderLen sessionId + 4 + declaredLen sessionId frame) frame.length

/-- The bytes of the frame behind the object id, up to the end of the submessage. -/
def sampleBytes (sessionId : UInt8) (frame : Bytes) : Bytes :=
  (frame.take (submessageEnd sessionId frame)).drop (msgHeaderLen sessionId + 8)

/-- From the one world to the other at most one slot of the list has been handed data, and
that is the sample of this frame. -/
def HandsOver (sessionId : UInt8) (frame : Bytes) (subs : List σ) (w w' : World T σ) : Prop :=
  w' = w ∨ ∃ s ∈ subs, msgHeaderLen sessionId + 8 ≤ submessageEnd sessionId frame ∧
    w' = w.setSlot s
      ((Subscription.tryDeliver (sampleBytes sessionId frame)).run (w.slots s)).2

/-- No slot panics on what it is handed. -/
def SlotsReturn (σ : Type) [Statics σ] : Prop :=
  ∀ (s : σ) (data : Bytes) (sub : Subscription (Statics.Msg s) (Statics.depth s)),
    ((Subscription.tryDeliver data).run sub).1 ≠ .panic

theorem run_ignoreErr {ε S : Type} {p : Prog ε S Unit} {s : S} (h : (p.run s).1 ≠ .panic) :
    ((ignoreErr p).run s).1 ≠ .panic ∧ ((ignoreErr p).run s).2 = (p.run s).2 := by
  unfold ignoreErr
  cases hrun : p.run s with
  | mk o s' =>
    rw [hrun] at h
    simp only [hrun]
    cases o with
    | panic => exact absurd rfl h
    | _ => exact ⟨by simp, rfl⟩

theorem run_map_ne_panic {ε S α β : Type} {p : Prog ε S α} {s : S} (f : α → β)
    (h : (p.run s).1 ≠ .panic) : ((p >>= fun a => pure (f a)).run s).1 ≠ .panic := by
  rcases bind_cases p (fun a => (pure (f a) : Prog ε S β)) s with
    ⟨a, s', -, hbind⟩ | ⟨o, s', hrun, ho, hbind⟩
  · rw [hbind, run_pure]
    simp
  · rw [hrun] at h
    rw [hbind]
    cases o <;> simp_all

/-- The loop over the table calls at most one slot. -/
theorem deliverFirst_run (hslots : SlotsReturn σ) (id : UInt16) (data : Bytes) (subs : List σ)
    (w : World T σ) : ((deliverFirst id data subs).run w).1 ≠ .panic ∧
      (((deliverFirst id data subs).run w).2 = w ∨ ∃ s ∈ subs,
        ((deliverFirst id data subs).run w).2 =
          w.setSlot s ((Subscription.tryDeliver data).run (w.slots s)).2) := by
  induction subs with
  | nil => exact ⟨by simp [deliverFirst], .inl rfl⟩
  | cons s subs ih =>
    rw [deliverFirst, run_get_bind]
    by_cases hid : (w.slots s).drId = id
    · rw [if_pos hid, deliverTo, run_zoom]
      obtain ⟨hreturn, hstate⟩ := run_ignoreErr (hslots s data (w.slots s))
      rw [hstate]
      exact ⟨hreturn, .inr ⟨s, List.mem_cons_self, rfl⟩⟩
    · rw [if_neg hid]
      refine ⟨ih.1, ih.2.imp_right ?_⟩
      rintro ⟨s', hs', h⟩
      exact ⟨s', List.mem_cons_of_mem s hs', h⟩

theorem dispatchDataPayload_run (hslots : SlotsReturn σ) (payload : Bytes) (subs : List σ)
    (w : World T σ) : ((dispatchDataPayload payload subs).run w).1 ≠ .panic ∧
      (((dispatchDataPayload payload subs).run w).2 = w ∨ ∃ s ∈ subs, 4 ≤ payload.length ∧
        ((dispatchDataPayload payload subs).run w).2 =
          w.setSlot s ((Subscription.tryDeliver (payload.drop 4)).run (w.slots s)).2) := by
  rw [dispatchDataPayload_eq]
  rcases payload with _ | ⟨a, _ | ⟨b, _ | ⟨hi, _ | ⟨lo, body⟩⟩⟩⟩
  · exact ⟨by simp [sampleOf], .inl rfl⟩
  · exact ⟨by simp [sampleOf], .inl rfl⟩
  · exact ⟨by simp [sampleOf], .inl rfl⟩
  · exact ⟨by simp [sampleOf], .inl rfl⟩
  · obtain ⟨hreturn, hstate⟩ := deliverFirst_run hslots (u16FromBe hi lo) body subs w
    refine ⟨hreturn, hstate.imp_right ?_⟩
    rintro ⟨s, hs, h⟩
    exact ⟨s, hs, Nat.le_add_left 4 body.length, h⟩

/-- The payload of the submessage is the frame between its header and its end. -/
theorem payload_drop {sessionId id : UInt8} {frame payload : Bytes}
    (h : submessageOf sessionId frame = some (id, payload)) :
    payload.drop 4 = sampleBytes sessionId frame ∧
      (4 ≤ payload.length → msgHeaderLen sessionId + 8 ≤ submessageEnd sessionId frame) := by
  by_cases hshort : frame.length < msgHeaderLen sessionId + 4
  · rw [submessageOf_short hshort] at h
    cases h
  · have hlong : msgHeaderLen sessionId + 4 ≤ frame.length := Nat.le_of_not_lt hshort
    have hlo : frame.getD (msgHeaderLen sessionId + 2) 0 = frame[msgHeaderLen sessionId + 2] := by
      rw [List.getD_eq_getElem?_getD, List.getElem?_eq_getElem (by omega), Option.getD_some]
    have hhi : frame.getD (msgHeaderLen sessionId + 3) 0 = frame[msgHeaderLen sessionId + 3] := by
      rw [List.getD_eq_getElem?_getD, List.getElem?_eq_getElem (by omega), Option.getD_some]
    rw [submessageOf_long hlong, Option.some.injEq, Prod.mk.injEq, ← hlo, ← hhi] at h
    obtain ⟨-, rfl⟩ := h
    constructor
    · rw [sampleBytes, submessageEnd, declaredLen, List.drop_take, List.drop_take, List.drop_drop,
        List.take_eq_take_iff, List.length_drop]
      omega
    · intro h4
      rw [List.length_take, List.length_drop] at h4
      rw [submessageEnd, declaredLen]
      omega

theorem dispatchFrame_run (hslots : SlotsReturn σ) (frame : Bytes) (sessionId : UInt8)
    (subs : List σ) (w : World T σ) : ((dispatchFrame frame sessionId subs).run w).1 ≠ .panic ∧
      HandsOver sessionId frame subs w ((dispatchFrame frame sessionId subs).run w).2 := by
  rw [dispatchFrame_eq]
  cases hsub : submessageOf sessionId frame with
  | none => exact ⟨by simp, .inl rfl⟩
  | some sub =>
    obtain ⟨id, payload⟩ := sub
    by_cases hdata : id = submsgData
    · simp only [if_pos hdata]
      obtain ⟨hsample, hroom⟩ := payload_drop hsub
      obtain ⟨hreturn, hstate⟩ := dispatchDataPayload_run hslots payload subs w
      rw [hsample] at hstate
      refine ⟨hreturn, hstate.imp_right ?_⟩
      rintro ⟨s, hs, h4, h⟩
      exact ⟨s, hs, hroom h4, h⟩
    · simp only [if_neg hdata]
      exact ⟨by simp, .inl rfl⟩

theorem parseStatusPayload_run (payload : Bytes) (req : UInt16) (w : World T σ) :
    ((parseStatusPayload payload req).run w).1 ≠ .panic := by
  rw [parseStatusPayload_eq]
  cases statusOf payload with
  | none => simp
  | some st =>
    simp only
    split
    · simp
    · split <;> simp

theorem waitFrame_run (hslots : SlotsReturn σ) (frame : Bytes) (req : UInt16) (w : World T σ) :
    ((waitFrame w req frame).run w).1 ≠ .panic ∧ HandsOver w.session.sessionId frame
      w.session.subscriptions.items w ((waitFrame w req frame).run w).2 := by
  rw [waitFrame]
  cases hsub : submessageOf w.session.sessionId frame with
  | none => exact ⟨by simp, .inl rfl⟩
  | some sub =>
    obtain ⟨id, payload⟩ := sub
    by_cases hstatus : id = submsgStatus
    · simp only [if_pos hstatus]
      refine ⟨run_map_ne_panic _ (parseStatusPayload_run payload req w), .inl ?_⟩
      rw [state_map, parseStatusPayload_state]
    · by_cases hdata : id = submsgData
      · simp only [if_neg hstatus, if_pos hdata]
        obtain ⟨hsample, hroom⟩ := payload_drop hsub
        obtain ⟨hreturn, hstate⟩ :=
          dispatchDataPayload_run hslots payload w.session.subscriptions.items w
        rw [hsample] at hstate
        refine ⟨run_map_ne_panic _ hreturn, ?_⟩
        rw [state_map]
        refine hstate.imp_right ?_
        rintro ⟨s, hs, h4, h⟩
        exact ⟨s, hs, hroom h4, h⟩
      · simp only [if_neg hstatus, if_neg hdata]
        exact ⟨by simp, .inl rfl⟩

theorem parseStatusAgent_run {S : Type} (msg : Bytes) (sessionId : UInt8) (s : S) :
    ((parseStatusAgent msg sessionId).run s).1 ≠ .panic := by
  unfold parseStatusAgent
  by_cases hshort : msg.length < msgHeaderLen sessionId + 4 + 2
  · simp [hshort]
  · simp only [if_neg hshort]
    rw [index_of_lt (by omega), pure_bind]
    split
    · simp
    · rw [slice_of_le (by omega) (Nat.le_refl _), pure_bind, index_of_lt (by
        rw [List.length_take, List.length_drop]
        omega), pure_bind]
      split <;> simp

/-- What a call does behind a frame it has read: it does not panic, and no slot gets
anything but the sample of that frame. -/
def HandlesFrame [ReadWrite T] {α : Type} (p : Call T σ α) (w : World T σ) : Prop :=
  (∀ len w', (readOneFrame : Call T σ Nat).run w = (.ok len, w') → ∃ frame, ∃ w₁ : World T σ,
    w' = w₁.holding frame ∧ len = frame.length ∧ (p.run w).1 ≠ .panic ∧
    HandsOver w'.session.sessionId frame w'.session.subscriptions.items w' (p.run w).2) ∧
  ∀ o w', (readOneFrame : Call T σ Nat).run w = (o, w') → o.isOk = false → p.run w = (o.abort, w')

section
variable [ReadWrite T]

theorem handlesFrame_withFrame {α : Type} {k : World T σ → Bytes → Call T σ α}
    (hk : ∀ w frame, ((k w frame).run w).1 ≠ .panic ∧ HandsOver w.session.sessionId frame
      w.session.subscriptions.items w ((k w frame).run w).2) (w : World T σ) :
    HandlesFrame (withFrame k) w := by
  constructor
  · intro len w' hread
    have hframed := hread
    rw [readOneFrame_eq] at hframed
    obtain ⟨frame, w₁, hrun, hlast⟩ := bind_eq_ok hframed
    cases hlast
    refine ⟨frame, w₁, rfl, rfl, ?_⟩
    rw [withFrame_of_read k (Framing.readFramed_length hrun) hread]
    exact hk (w₁.holding frame) frame
  · intro o w' hread ho
    exact bind_abort hread ho _

/-- Every index and slice is in bounds on every input, no subtraction underflows, and a slot
is only ever handed the sample of the frame that has just been read. -/
theorem parsing_stays_in_bounds [Target] (hslots : SlotsReturn σ) :
    (∀ msg sessionId (t : T), ((parseStatusAgent msg sessionId).run t).1 ≠ .panic) ∧
    (∀ payload req (w : World T σ), ((parseStatusPayload payload req).run w).1 ≠ .panic) ∧
    (∀ payload subs (w : World T σ), ((dispatchDataPayload payload subs).run w).1 ≠ .panic) ∧
    (∀ frame sessionId subs (w : World T σ),
      ((dispatchFrame frame sessionId subs).run w).1 ≠ .panic ∧
      HandsOver sessionId frame subs w ((dispatchFrame frame sessionId subs).run w).2) ∧
    ∀ w : World T σ, HandlesFrame spinOnce w ∧ ∀ req, HandlesFrame (waitTurn req) w := by
  refine ⟨?_, parseStatusPayload_run, ?_, dispatchFrame_run hslots, ?_⟩
  · intro msg sessionId t
    exact parseStatusAgent_run msg sessionId t
  · intro payload subs w
    exact (dispatchDataPayload_run hslots payload subs w).1
  · intro w
    rw [spinOnce_eq]
    refine ⟨handlesFrame_withFrame ?_ w, ?_⟩
    · intro w frame
      exact dispatchFrame_run hslots frame w.session.sessionId w.session.subscriptions.items w
    · intro req
      rw [waitTurn_eq]
      apply handlesFrame_withFrame
      intro w frame
      exact waitFrame_run hslots frame req w

end

/-- A sample of `Float32` is decoded at the front of the buffer, where nothing overflows. -/
theorem slotsReturn_unit [t : Target] : SlotsReturn Unit := by
  intro s data sub
  have hbits := two_pow_32_le (t := t)
  have hword : CdrReader.Does CdrReader.f32Val (CdrReader.new data) _ :=
    CdrReader.does_u32Val (show 4 < 2 ^ t.usizeBits by omega)
  have hdecode : Safe (Subscription.decode Float32 data) := by
    change Safe (((CdrReader.f32Val >>= fun v => pure ⟨v⟩ : ReadCdr Float32)).run _).1
    generalize CdrReader.Reading.map UInt32.ofNat _ = x at hword
    rw [CdrReader.Does] at hword
    rcases Reading.safe x with ⟨v, hv⟩ | herr
    · rw [hv] at hword
      rw [bind_ok hword]
      exact .inl ⟨_, rfl⟩
    · rw [herr] at hword
      rw [bind_abort hword rfl]
      exact .inr rfl
  have hreturn := (tryDeliver_returned_iff (P := True) sub (fun _ => hdecode) (absurd trivial)).mpr
    trivial
  intro hpanic
  rw [hpanic] at hreturn
  exact hreturn

/-- A DATA frame with a sample of 1.0, whose length field promises more than the frame has. -/
def overlongData : Bytes :=
  [0x81, 0, 0, 0, submsgData, 1, 0xFF, 0xFF, 0, 0, 0, 0x16] ++ [0, 1, 0, 0] ++ [0, 0, 0x80, 0x3F]

/-- It comes in behind the subscription that it is for. -/
def overlongNext [Target] : World Wire Unit :=
  (subscribing (ascii "/a") (answering [statusFrame 1 0, statusFrame 2 0, statusFrame 3 0,
    overlongData])).after

/-- The slot gets the bytes that are there, and no others. -/
theorem overlong_data_in_bounds : letI := rp2040 true
    HandlesFrame spinOnce overlongNext ∧
      (((spinOnce : Call Wire Unit Unit).run overlongNext).2.slots ()).inbox.items.map
        Float32.data = [0x3F800000] := by
  have hinbox : letI := rp2040 true
      (((spinOnce : Call Wire Unit Unit).run overlongNext).2.slots ()).inbox.items.map
        Float32.data = [0x3F800000] := by decide +kernel
  generalize rp2040 true = target at hinbox ⊢
  exact ⟨((parsing_stays_in_bounds slotsReturn_unit).2.2.2.2 overlongNext).1, hinbox⟩

end MicroXrceDds
