import MicroXrceDds.Delivery
import MicroXrceDds.Wire

/-!
# The stream of incoming frames

Over a connection that splits the stream in any way, each frame that fits is read from
one boundary to the next. A frame that does not fit is refused after its length prefix
only, so the next read starts inside it.
-/
namespace MicroXrceDds

open Prog Session LittleEndian

variable {σ : Type} [Statics σ]

/-- What has not been read yet. -/
def World.incoming (w : World Wire σ) : Bytes := w.session.transport.incoming

theorem read_wire (w : World Wire σ) {len : Nat} (hpos : 0 < len) (h : len ≤ w.incoming.length) :
    ∃ c w', 0 < c ∧ c ≤ len ∧
      (Framing.read len : Call Wire σ Bytes).run w = (.ok (w.incoming.take c), w') ∧
      w'.incoming = w.incoming.drop c := by
  have hne : w.session.transport.incoming ≠ [] := by
    intro hnil
    rw [World.incoming, hnil, List.length_nil] at h
    omega
  have hchunk : 0 < w.session.transport.chunk len ∧ w.session.transport.chunk len ≤ len := by
    unfold Wire.chunk
    split <;> omega
  have hread : (ReadWrite.read len : Prog Unit Wire Bytes).run w.session.transport =
      (.ok (w.incoming.take (w.session.transport.chunk len)),
        w.session.transport.took (w.session.transport.chunk len)) := by
    change (if _ then _ else _) = _
    rw [if_neg hne]
    rfl
  exact ⟨_, _, hchunk.1, hchunk.2, mapIo_onTransport_ok hread, rfl⟩

/-- The stream moves on as it is read. -/
theorem delivers_wire : Delivers fun bs (w : World Wire σ) => w.incoming = bs := by
  intro len bs w hpos hle h
  rw [← h] at hle ⊢
  obtain ⟨c, w', hcpos, hcle, hread, hin⟩ := read_wire w hpos hle
  exact ⟨c, w', hread, hcpos, hcle, hin⟩

theorem readOneFrame_fits (w : World Wire σ) {f rest : Bytes} (hf : f.length ≤ rxBufSize)
    (h : w.incoming = framed f ++ rest) :
    ∃ w', (readOneFrame : Call Wire σ Nat).run w = (.ok f.length, w') ∧ w'.incoming = rest ∧
      w'.session.rxBuf.cells.take f.length = f := by
  obtain ⟨w', hrun, hin⟩ := readOneFrame_run delivers_wire hf h
  exact ⟨w'.holding f, hrun, hin, take_overwrite _ hf⟩

/-- A frame that does not fit is refused, and its payload stays in the stream. -/
theorem readOneFrame_oversized (w : World Wire σ) {f rest : Bytes} (hf : rxBufSize < f.length)
    (hlen : f.length ≤ 65535) (h : w.incoming = framed f ++ rest) :
    ∃ w', (readOneFrame : Call Wire σ Nat).run w = (.err .bufferTooSmall, w') ∧
      w'.incoming = f ++ rest := by
  rw [framed, List.append_assoc] at h
  obtain ⟨w₁, hrun, hin⟩ := readExact_run delivers_wire h
  refine ⟨w₁, ?_, hin⟩
  rw [length_u16LeBytes] at hrun
  rw [readOneFrame, bind_ok hrun]
  simp only [frameLen_bytes hlen]
  rw [if_pos hf]
  rfl

theorem accepting_wire (bs : Bytes) :
    Accepting fun _ (w : World Wire σ) => w.incoming = bs := by
  intro buf w hne h
  have hchunk : 0 < w.session.transport.chunk buf.length ∧
      w.session.transport.chunk buf.length ≤ buf.length := by
    have hpos : 0 < buf.length := List.length_pos_iff.mpr hne
    unfold Wire.chunk
    split <;> omega
  have hlen : (buf.take (w.session.transport.chunk buf.length)).length =
      w.session.transport.chunk buf.length := by
    rw [List.length_take]
    omega
  refine ⟨_, _, mapIo_onTransport_ok (p := ReadWrite.write buf) rfl, ?_, ?_, h⟩
  · rw [hlen]
    exact hchunk.1
  · rw [hlen]
    exact hchunk.2

theorem writeFramed_wire {R : World Wire σ → World Wire σ → Prop} (hR : Stable R) (payload : Bytes)
    (w : World Wire σ) : ∃ w', (Framing.writeFramed payload : Call Wire σ Unit).run w = (.ok (), w') ∧
      w'.incoming = w.incoming ∧ R w w' := by
  have hwrite := (accepting_wire (σ := σ) w.incoming).within hR.write hR.trans w
  obtain ⟨w₁, hrun, h⟩ := writeAll_run hwrite (u16LeBytes (UInt16.ofNat payload.length))
    ⟨rfl, hR.refl w⟩
  obtain ⟨w₂, hrun₂, h₂⟩ := writeAll_run hwrite payload h
  refine ⟨w₂.suspend.setTransport w₂.session.transport, ?_, h₂.1, ?_⟩
  · rw [Framing.writeFramed, bind_ok hrun, bind_ok hrun₂]
    exact mapIo_onTransport_ok rfl
  · exact hR.trans _ _ _ h₂.2 (hR.trans _ _ _ (hR.suspend w₂) (hR.transport w₂.suspend _))

/-- The two callers of `read_one_frame`. -/
inductive FrameCall where
  | spinOnce
  | waitStatusFor : UInt16 → FrameCall

def FrameCall.run [Target] : FrameCall → Call Wire σ Unit
  | .spinOnce => Session.spinOnce
  | .waitStatusFor req => waitTurn req >>= fun _ => pure ()

/-- What is done with a frame after it has been read does not touch the transport. -/
theorem transport_withFrame {T α : Type} [ReadWrite T] {k : World T σ → Bytes → Call T σ α}
    (hk : ∀ w msg, ((k w msg).run w).2.session = w.session) (w : World T σ) :
    ((withFrame k).run w).2.session.transport =
      ((readOneFrame : Call T σ Nat).run w).2.session.transport := by
  rcases bind_cases (readOneFrame : Call T σ Nat) (fun len => do
      let w ← get
      let msg ← slice w.session.rxBuf.cells 0 len
      k w msg) w with ⟨len, w₁, hread, hrun⟩ | ⟨o, w₁, hread, -, hrun⟩
  · have hrest : ((withFrame k).run w).2 = ((do
        let w ← get
        let msg ← slice w.session.rxBuf.cells 0 len
        k w msg : Call T σ α).run w₁).2 := congrArg Prod.snd hrun
    rw [hrest, hread, run_get_bind, slice]
    split
    · rw [run_pure_bind, hk]
    · rfl
  · have hrest : ((withFrame k).run w).2 = w₁ := congrArg Prod.snd hrun
    rw [hrest, hread]

section
variable {T : Type} [ReadWrite T]

theorem transport_spinOnce (w : World T σ) : ((spinOnce : Call T σ Unit).run w).2.session.transport =
    ((readOneFrame : Call T σ Nat).run w).2.session.transport := by
  refine transport_withFrame (fun w msg => ?_) w
  rw [dispatchFrame_state]
  rfl

theorem transport_waitTurn [Target] (req : UInt16) (w : World T σ) :
    ((waitTurn req : Call T σ Bool).run w).2.session.transport =
      ((readOneFrame : Call T σ Nat).run w).2.session.transport := by
  rw [waitTurn_eq]
  refine transport_withFrame (fun w msg => ?_) w
  rw [waitFrame_state]
  rfl

end

theorem incoming_frameCall [Target] (c : FrameCall) (w : World Wire σ) :
    (c.run.run w).2.incoming = ((readOneFrame : Call Wire σ Nat).run w).2.incoming := by
  cases c with
  | spinOnce => exact congrArg Wire.incoming (transport_spinOnce w)
  | waitStatusFor req =>
    rw [FrameCall.run, state_map]
    exact congrArg Wire.incoming (transport_waitTurn req w)

/-- `starts k` is the world in which the read number `k` begins: a later read begins
where the one before has left the stream, whatever else has happened in between. -/
structure FrameRun [Target] (frames : List Bytes) (starts : Nat → World Wire σ) : Prop where
  first : (starts 0).incoming = stream frames
  next : ∀ k, ∃ c : FrameCall, (starts (k + 1)).incoming = (c.run.run (starts k)).2.incoming

/-- The read number `k` starts at the frame number `k` and gives back its payload, or
refuses it if it does not fit. -/
def ReadsFrame (frames : List Bytes) (k : Nat) (w : World Wire σ) : Prop :=
  w.incoming = stream (frames.drop k) ∧ ∀ f, frames[k]? = some f →
    if f.length ≤ rxBufSize then
      ∃ w', (readOneFrame : Call Wire σ Nat).run w = (.ok f.length, w') ∧
        w'.session.rxBuf.cells.take f.length = f
    else ∃ w', (readOneFrame : Call Wire σ Nat).run w = (.err .bufferTooSmall, w')

theorem stream_drop {frames : List Bytes} {k : Nat} {f : Bytes} (h : frames[k]? = some f) :
    stream (frames.drop k) = framed f ++ stream (frames.drop (k + 1)) := by
  obtain ⟨hlt, hf⟩ := List.getElem?_eq_some_iff.mp h
  rw [List.drop_eq_getElem_cons hlt, hf]
  rfl

/-- At its boundary a read does what it should. -/
theorem readsFrame_of_incoming {frames : List Bytes} (hlen : ∀ f ∈ frames, f.length ≤ 65535)
    {k : Nat} {w : World Wire σ} (h : w.incoming = stream (frames.drop k)) :
    ReadsFrame frames k w := by
  refine ⟨h, fun f hf => ?_⟩
  rw [stream_drop hf] at h
  split
  · next hfit =>
    obtain ⟨w', hrun, -, hbuf⟩ := readOneFrame_fits w hfit h
    exact ⟨w', hrun, hbuf⟩
  · next hbig =>
    obtain ⟨w', hrun, -⟩ := readOneFrame_oversized w (Nat.lt_of_not_le hbig)
      (hlen f (List.mem_of_getElem? hf)) h
    exact ⟨w', hrun⟩

section
variable [Target] {frames : List Bytes} {starts : Nat → World Wire σ}

/-- One step: from a frame that fits to the next boundary. -/
theorem FrameRun.step (hrun : FrameRun frames starts) {k : Nat} {f : Bytes}
    (hf : frames[k]? = some f) (hfit : f.length ≤ rxBufSize)
    (h : (starts k).incoming = stream (frames.drop k)) :
    (starts (k + 1)).incoming = stream (frames.drop (k + 1)) := by
  obtain ⟨c, hnext⟩ := hrun.next k
  rw [stream_drop hf] at h
  obtain ⟨w', hread, hin, -⟩ := readOneFrame_fits (starts k) hfit h
  rw [hnext, incoming_frameCall, hread, hin]

/-- After a frame that does not fit the stream is no longer at a boundary. -/
theorem FrameRun.misaligned (hrun : FrameRun frames starts) (hlen : ∀ f ∈ frames, f.length ≤ 65535)
    {k : Nat} {f : Bytes} (hf : frames[k]? = some f) (hbig : rxBufSize < f.length)
    (h : (starts k).incoming = stream (frames.drop k)) :
    (starts (k + 1)).incoming ≠ stream (frames.drop (k + 1)) := by
  obtain ⟨c, hnext⟩ := hrun.next k
  rw [stream_drop hf] at h
  obtain ⟨w', hread, hin⟩ := readOneFrame_oversized (starts k) hbig
    (hlen f (List.mem_of_getElem? hf)) h
  rw [hnext, incoming_frameCall, hread, hin]
  intro heq
  have hl := congrArg List.length heq
  rw [List.length_append] at hl
  omega

/-- Every read starts at its frame and does what it should exactly when every frame but
the last fits. -/
theorem frames_read_iff (hlen : ∀ f ∈ frames, f.length ≤ 65535) (hrun : FrameRun frames starts) :
    (∀ k < frames.length, ReadsFrame frames k (starts k)) ↔
      ∀ f ∈ frames.dropLast, f.length ≤ rxBufSize := by
  constructor
  · intro h f hmem
    obtain ⟨k, hk⟩ := List.getElem?_of_mem hmem
    by_contra hbig
    have hlt : k < frames.dropLast.length := (List.getElem?_eq_some_iff.mp hk).1
    rw [List.length_dropLast] at hlt
    have hf : frames[k]? = some f := by
      rw [List.dropLast_eq_take, List.getElem?_take_of_lt hlt] at hk
      exact hk
    exact hrun.misaligned hlen hf (Nat.lt_of_not_le hbig) (h k (by omega)).1 (h (k + 1) (by omega)).1
  · intro h k
    induction k with
    | zero =>
      intro _
      exact readsFrame_of_incoming hlen hrun.first
    | succ k ih =>
      intro hk
      have hf : frames[k]? = some frames[k] := List.getElem?_eq_getElem _
      have hfit : frames[k].length ≤ rxBufSize := by
        apply h
        apply List.mem_of_getElem? (i := k)
        rw [List.dropLast_eq_take, List.getElem?_take_of_lt (by omega), hf]
      exact readsFrame_of_incoming hlen (hrun.step hf hfit (ih (by omega)).1)

end

def spinning (w : World Wire σ) : Nat → World Wire σ
  | 0 => w
  | k + 1 => ((spinOnce : Call Wire σ Unit).run (spinning w k)).2

theorem frameRun_spinning [Target] {frames : List Bytes} {w : World Wire σ}
    (h : w.incoming = stream frames) : FrameRun frames (spinning w) :=
  ⟨h, fun _ => ⟨.spinOnce, rfl⟩⟩

/-- A session whose connection delivers the frames one byte at a time. -/
def receiving (frames : List Bytes) : World Wire Empty :=
  start ⟨stream frames, [], List.replicate (stream frames).length 0⟩ 0x81 ⟨0, 0, 0, 0⟩ []

theorem frames_read_three :
    let frames : List Bytes := [[1, 2, 3], [], [4]]
    (∀ k < frames.length, ReadsFrame frames k (spinning (receiving frames) k)) ↔
      ∀ f ∈ frames.dropLast, f.length ≤ rxBufSize := by
  let target := rp2040 true
  intro frames
  have hrun : FrameRun frames (spinning (receiving frames)) := frameRun_spinning rfl
  exact frames_read_iff (by decide) hrun

/-- One byte too many, and the frame behind it is lost. -/
theorem oversized_frame_desynchronises :
    let frames : List Bytes := [List.replicate 769 0, [7]]
    ¬ ∀ k < 2, ReadsFrame frames k (spinning (receiving frames) k) := by
  let target := rp2040 true
  intro frames h
  have hrun : FrameRun frames (spinning (receiving frames)) := frameRun_spinning rfl
  refine hrun.misaligned (k := 0) ?_ rfl ?_ (h 0 (by decide)).1 (h 1 (by decide)).1
  · intro f hf
    rcases List.mem_cons.mp hf with rfl | hf
    · rw [List.length_replicate]
      decide
    · rw [List.mem_singleton.mp hf]
      decide
  · rw [List.length_replicate]
    decide

end MicroXrceDds
