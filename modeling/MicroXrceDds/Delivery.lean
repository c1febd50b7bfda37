import MicroXrceDds.Refinement

/-!
# Transports that deliver

A transport that always moves at least one byte gets every loop of the framing functions
to its end. `I bs w` says that the bytes `bs` are still to be moved in the world `w`.
-/
namespace MicroXrceDds

open Prog Session LittleEndian

/-- A length-prefixed frame. -/
def framed (f : Bytes) : Bytes := u16LeBytes (UInt16.ofNat f.length) ++ f

def stream (frames : List Bytes) : Bytes := frames.flatMap framed

@[simp] theorem length_framed (f : Bytes) : (framed f).length = f.length + 2 := by
  rw [framed, List.length_append, length_u16LeBytes, Nat.add_comm]

@[simp] theorem stream_nil : stream [] = [] := rfl

theorem stream_append (xs ys : List Bytes) : stream (xs ++ ys) = stream xs ++ stream ys :=
  List.flatMap_append

theorem stream_cons (f : Bytes) (frames : List Bytes) :
    stream (f :: frames) = framed f ++ stream frames := rfl

theorem frameLen_bytes {f : Bytes} (h : f.length ≤ 65535) :
    Framing.frameLen (u16LeBytes (UInt16.ofNat f.length)) = f.length := by
  rw [Framing.frameLen, u16LeBytes, UInt16.toNat_ofNat', leNat_leBytes]
  omega

section
variable {S : Type} [ReadWrite S]

/-- Every write accepts something, and the rest is still to be written. -/
def Accepting (I : Bytes → S → Prop) : Prop :=
  ∀ buf s, buf ≠ [] → I buf s → ∃ n s', (Framing.write buf).run s = (.ok n, s') ∧
    0 < n ∧ n ≤ buf.length ∧ I (buf.drop n) s'

/-- Whatever holds across waiting may be remembered on the way. -/
theorem Accepting.within {R : S → S → Prop} {I : Bytes → S → Prop} (hwrite : Accepting I)
    (hR : ∀ buf, Within R (Framing.write buf : Prog Error S Nat))
    (htrans : ∀ a b c, R a b → R b c → R a c) (s₀ : S) :
    Accepting fun buf s => I buf s ∧ R s₀ s := by
  intro buf s hne h
  obtain ⟨n, s', hrun, hpos, hle, hnext⟩ := hwrite buf s hne h.1
  exact ⟨n, s', hrun, hpos, hle, hnext, htrans _ _ _ h.2 ((hR buf).of_run hrun)⟩

theorem writeLoop_run {I : Bytes → S → Prop} (hwrite : Accepting I) {fuel : Nat} {buf : Bytes}
    {s : S} (hfuel : buf.length ≤ fuel) (h : I buf s) :
    ∃ s', (Framing.writeLoop fuel buf).run s = (.ok (), s') ∧ I [] s' := by
  induction fuel generalizing buf s with
  | zero =>
    obtain rfl : buf = [] := List.length_eq_zero_iff.mp (Nat.le_zero.mp hfuel)
    exact ⟨s, rfl, h⟩
  | succ fuel ih =>
    cases buf with
    | nil => exact ⟨s, rfl, h⟩
    | cons b buf =>
      obtain ⟨n, s₁, hrun, hpos, hle, hnext⟩ := hwrite (b :: buf) s (List.cons_ne_nil b buf) h
      rw [Framing.writeLoop, bind_ok hrun]
      cases n with
      | zero => exact absurd hpos (Nat.lt_irrefl 0)
      | succ k =>
        rw [List.length_cons] at hle hfuel
        simp only [if_pos (Nat.le_of_succ_le_succ hle)]
        refine ih ?_ hnext
        rw [List.length_drop]
        omega

theorem writeAll_run {I : Bytes → S → Prop} (hwrite : Accepting I) (buf : Bytes) {s : S}
    (h : I buf s) : ∃ s', (Framing.writeAll buf).run s = (.ok (), s') ∧ I [] s' :=
  writeLoop_run hwrite (Nat.le_refl _) h

/-- Writes and flushes succeed: `I bs s` says that the bytes `bs` have been written. -/
structure Sink (I : Bytes → S → Prop) : Prop where
  write : ∀ buf bs s, buf ≠ [] → I bs s → ∃ n s', (ReadWrite.write buf).run s = (.ok n, s') ∧
    0 < n ∧ n ≤ buf.length ∧ I (bs ++ buf.take n) s'
  flush : ∀ bs s, I bs s → ∃ s', (ReadWrite.flush : Prog Unit S Unit).run s = (.ok (), s') ∧ I bs s'

namespace Sink

variable {I : Bytes → S → Prop}

/-- What is still to be written, of `buf`, and what has been written go together. -/
theorem accepting (hsink : Sink I) (total : Bytes) :
    Accepting fun buf s => ∃ bs, I bs s ∧ bs ++ buf = total := by
  rintro buf s hne ⟨bs, h, htotal⟩
  obtain ⟨n, s', hrun, hpos, hle, hnext⟩ := hsink.write buf bs s hne h
  refine ⟨n, s', mapIo_ok hrun, hpos, hle, _, hnext, ?_⟩
  rw [List.append_assoc, List.take_append_drop, htotal]

theorem writeAll (hsink : Sink I) (buf : Bytes) {bs : Bytes} {s : S} (h : I bs s) :
    ∃ s', (Framing.writeAll buf).run s = (.ok (), s') ∧ I (bs ++ buf) s' := by
  obtain ⟨s', hrun, bs', hnext, htotal⟩ := writeAll_run (hsink.accepting (bs ++ buf)) buf ⟨bs, h, rfl⟩
  rw [List.append_nil] at htotal
  exact ⟨s', hrun, htotal ▸ hnext⟩

theorem writeFramed (hsink : Sink I) (payload : Bytes) {bs : Bytes} {s : S} (h : I bs s) :
    ∃ s', (Framing.writeFramed payload).run s = (.ok (), s') ∧ I (bs ++ framed payload) s' := by
  obtain ⟨s₁, hrun, h₁⟩ := hsink.writeAll (u16LeBytes (UInt16.ofNat payload.length)) h
  obtain ⟨s₂, hrun₂, h₂⟩ := hsink.writeAll payload h₁
  obtain ⟨s₃, hrun₃, h₃⟩ := hsink.flush _ s₂ h₂
  refine ⟨s₃, ?_, ?_⟩
  · rw [Framing.writeFramed, bind_ok hrun, bind_ok hrun₂]
    exact mapIo_ok hrun₃
  · rw [List.append_assoc] at h₃
    exact h₃

end Sink

/-- Every read gives something, and the rest is still to be read. -/
def Giving (I : Bytes → S → Prop) : Prop :=
  ∀ len bs s, 0 < len → len ≤ bs.length → I bs s →
    ∃ n s', (Framing.read len).run s = (.ok (bs.take n), s') ∧ 0 < n ∧ n ≤ len ∧ I (bs.drop n) s'

namespace Framing

theorem readLoop_run {I : Bytes → S → Prop} (hread : Giving I) {fuel left : Nat} {bs : Bytes}
    {s : S} (hfuel : left ≤ fuel) (hleft : left ≤ bs.length) (h : I bs s) :
    ∃ s', (readLoop fuel left).run s = (.ok (bs.take left), s') ∧ I (bs.drop left) s' := by
  induction fuel generalizing left bs s with
  | zero =>
    obtain rfl : left = 0 := Nat.le_zero.mp hfuel
    exact ⟨s, rfl, h⟩
  | succ fuel ih =>
    cases left with
    | zero => exact ⟨s, rfl, h⟩
    | succ left =>
      obtain ⟨n, s₁, hrun, hpos, hle, hnext⟩ := hread (left + 1) bs s (Nat.succ_pos left) hleft h
      rw [readLoop, bind_ok hrun]
      cases hgot : bs.take n with
      | nil =>
        have hlen := congrArg List.length hgot
        rw [List.length_take, List.length_nil] at hlen
        omega
      | cons b got =>
        have hlen := congrArg List.length hgot
        rw [List.length_take, List.length_cons] at hlen
        obtain ⟨s₂, hrest, hlast⟩ := ih (show left - got.length ≤ fuel by omega)
          (by rw [List.length_drop]; omega) hnext
        have hsum : left + 1 = n + (left - got.length) := by omega
        refine ⟨s₂, ?_, ?_⟩
        · have htake : bs.take (left + 1) =
              bs.take n ++ (bs.drop n).take (left - got.length) := by rw [hsum, List.take_add]
          simp only
          rw [if_pos (by omega), bind_ok hrest, run_pure, htake, hgot]
        · rw [List.drop_drop, ← hsum] at hlast
          exact hlast

theorem readExact_run {I : Bytes → S → Prop} (hread : Giving I) {bs rest : Bytes} {s : S}
    (h : I (bs ++ rest) s) : ∃ s', (readExact bs.length).run s = (.ok bs, s') ∧ I rest s' := by
  obtain ⟨s', hrun, hnext⟩ := readLoop_run hread (Nat.le_refl bs.length)
    (by rw [List.length_append]; omega) h
  rw [List.take_left] at hrun
  rw [List.drop_left] at hnext
  exact ⟨s', hrun, hnext⟩

/-- A frame that fits is read whole. -/
theorem readFramed_run {I : Bytes → S → Prop} (hread : Giving I) {bufLen : Nat} {f rest : Bytes}
    {s : S} (hlen : f.length ≤ 65535) (hfit : f.length ≤ bufLen) (h : I (framed f ++ rest) s) :
    ∃ s', (readFramed bufLen).run s = (.ok f, s') ∧ I rest s' := by
  rw [framed, List.append_assoc] at h
  obtain ⟨s₁, hrun, hnext⟩ := readExact_run hread h
  obtain ⟨s₂, hbody, hlast⟩ := readExact_run hread hnext
  refine ⟨s₂, ?_, hlast⟩
  rw [length_u16LeBytes] at hrun
  rw [readFramed, bind_ok hrun]
  simp only [frameLen_bytes hlen]
  rw [if_neg (by omega)]
  exact hbody

end Framing

end

variable {T σ : Type} [Statics σ] [ReadWrite T]

/-- Every read gives something, and the rest is still to be read. -/
def Delivers (I : Bytes → World T σ → Prop) : Prop :=
  ∀ len bs w, 0 < len → len ≤ bs.length → I bs w →
    ∃ n w', (Framing.read len : Call T σ Bytes).run w = (.ok (bs.take n), w') ∧
      0 < n ∧ n ≤ len ∧ I (bs.drop n) w'

variable {I : Bytes → World T σ → Prop}

theorem Delivers.within {R : World T σ → World T σ → Prop} (hread : Delivers I) (hR : Stable R)
    (w₀ : World T σ) : Delivers fun bs w => I bs w ∧ R w₀ w := by
  intro len bs w hpos hle h
  obtain ⟨n, w', hrun, hn, hnle, hnext⟩ := hread len bs w hpos hle h.1
  exact ⟨n, w', hrun, hn, hnle, hnext, hR.trans _ _ _ h.2 ((hR.read len).of_run hrun)⟩

/-- Reading a frame is `read_framed` over the world of the session, into `rx_buf`. -/
theorem readOneFrame_eq : (readOneFrame : Call T σ Nat) = (do
    let bytes ← Framing.readFramed rxBufSize
    modify (World.holding bytes)
    pure bytes.length) := by
  rw [readOneFrame, Framing.readFramed, bind_assoc, readExact_eq]
  congr 1
  funext lenBuf
  by_cases hbig : rxBufSize < Framing.frameLen lenBuf
  · simp only [if_pos hbig]
    rfl
  · simp only [if_neg hbig]
    ext w : 1
    rcases bind_cases (readExact (Framing.frameLen lenBuf)) (fun bytes => (do
        modify (World.holding bytes)
        pure bytes.length : Call T σ Nat)) w with ⟨bytes, w₁, hrun, hbind⟩ | ⟨o, w₁, hrun, ho, hbind⟩
    · have hlen := hrun
      rw [readExact_eq] at hlen
      rw [bind_ok hrun, ← readExact_eq, hbind, ← Framing.readLoop_length _ _ hlen]
      rfl
    · rw [bind_abort hrun ho, ← readExact_eq, hbind]

theorem readExact_run (hread : Delivers I) {bs rest : Bytes} {w : World T σ}
    (h : I (bs ++ rest) w) :
    ∃ w', (readExact bs.length : Call T σ Bytes).run w = (.ok bs, w') ∧ I rest w' := by
  rw [readExact_eq]
  exact Framing.readExact_run hread h

/-- A frame that fits is read whole. -/
theorem readOneFrame_run (hread : Delivers I) {f rest : Bytes} {w : World T σ}
    (hf : f.length ≤ rxBufSize) (h : I (framed f ++ rest) w) :
    ∃ w', (readOneFrame : Call T σ Nat).run w = (.ok f.length, w'.holding f) ∧ I rest w' := by
  have hmax : rxBufSize = 768 := rfl
  obtain ⟨w', hrun, hlast⟩ := Framing.readFramed_run hread (show f.length ≤ 65535 by omega) hf h
  refine ⟨w', ?_, hlast⟩
  rw [readOneFrame_eq, bind_ok hrun]
  rfl

/-- And then the caller goes on with it. -/
theorem withFrame_run (hread : Delivers I) {α : Type} (k : World T σ → Bytes → Call T σ α)
    {f rest : Bytes} {w : World T σ} (hf : f.length ≤ rxBufSize) (h : I (framed f ++ rest) w) :
    ∃ w', (withFrame k).run w = (k (w'.holding f) f).run (w'.holding f) ∧ I rest w' := by
  obtain ⟨w', hrun, hnext⟩ := readOneFrame_run hread hf h
  exact ⟨w', withFrame_of_read k hf hrun, hnext⟩

/-- A relation that holds across every read, and across what is made of a frame. -/
structure Hears (R : World T σ → World T σ → Prop) : Prop where
  refl : ∀ w, R w w
  trans : ∀ a b c, R a b → R b c → R a c
  read : ∀ len, Within R (Framing.read len : Call T σ Bytes)
  holding : ∀ w frame, R w (w.holding frame)
  slots : ∀ w slots, R w (w.withSlots slots)

namespace Hears

variable {R : World T σ → World T σ → Prop}

theorem withFrame (hR : Hears R) {α : Type} {k : World T σ → Bytes → Call T σ α}
    (hk : ∀ w frame, ∃ slots, ((k w frame).run w).2 = w.withSlots slots) :
    Within R (MicroXrceDds.withFrame k) := by
  intro w
  have hread := Framing.within_readFramed hR.refl hR.trans hR.read rxBufSize w
  rcases bind_cases (Framing.readFramed rxBufSize) (fun bytes => (do
      modify (World.holding bytes)
      pure bytes.length : Call T σ Nat)) w with ⟨frame, w₁, hrun, hbind⟩ | ⟨o, w₁, hrun, ho, hbind⟩
  · rw [hrun] at hread
    have hframe : (readOneFrame : Call T σ Nat).run w = (.ok frame.length, w₁.holding frame) := by
      rw [readOneFrame_eq, hbind]
      rfl
    rw [withFrame_of_read k (Framing.readFramed_length hrun) hframe]
    obtain ⟨slots, hslots⟩ := hk (w₁.holding frame) frame
    rw [hslots]
    exact hR.trans _ _ _ hread (hR.trans _ _ _ (hR.holding w₁ frame) (hR.slots _ slots))
  · rw [hrun] at hread
    have hfail : (readOneFrame : Call T σ Nat).run w = (o.abort, w₁) := by rw [readOneFrame_eq, hbind]
    rw [MicroXrceDds.withFrame, bind_abort hfail (not_isOk_abort ho)]
    exact hread

theorem spinOnce (hR : Hears R) : Within R (Session.spinOnce : Call T σ Unit) := by
  rw [spinOnce_eq]
  exact hR.withFrame fun w frame => ⟨_, dispatchFrame_state frame w⟩

variable [Target]

theorem waitStatusFor (hR : Hears R) (fuel : Nat) (req : UInt16) :
    Within R (Session.waitStatusFor fuel req : Call T σ Unit) := by
  induction fuel with
  | zero => exact fun w => hR.refl w
  | succ fuel ih =>
    rw [Session.waitStatusFor, waitTurn_eq]
    refine Within.bind hR.trans (hR.withFrame fun w frame => ⟨_, waitFrame_state frame w req⟩)
      fun done => ?_
    cases done with
    | true => exact fun w => hR.refl w
    | false => exact ih

end Hears

end MicroXrceDds
