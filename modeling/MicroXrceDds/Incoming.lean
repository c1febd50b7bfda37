import MicroXrceDds.Delivery
import MicroXrceDds.Wire

/-!
# Reading whatever comes in

A connection gives what its far end has sent, in pieces of any length, and once all of it
has been read every further read ends in the same way. Any bytes at all may come in: the
next frame is there as a whole, or it is longer than the buffer, or it never gets complete.
-/
namespace MicroXrceDds

open Prog Session LittleEndian

/-- How a read ends when nothing more comes in. -/
inductive Ending where
  | closed
  | failed
  | silent
  deriving DecidableEq, Repr

namespace Ending

def read : Ending → Outcome Unit Bytes
  | closed => .ok []
  | failed => .err ()
  | silent => .pending

/-- What it makes of a call that waits for more bytes. -/
def outcome {α : Type} : Ending → Outcome Error α
  | closed => .err .disconnected
  | failed => .err .io
  | silent => .pending

theorem isOk_outcome {α : Type} (e : Ending) : (e.outcome : Outcome Error α).isOk = false := by
  cases e <;> rfl

theorem abort_outcome {α β : Type} (e : Ending) :
    (e.outcome : Outcome Error α).abort = (e.outcome : Outcome Error β) := by
  cases e <;> rfl

end Ending

/-- What a reader with a buffer of this length finds at the start of a stream. -/
inductive Next where
  | frame : Bytes → Bytes → Next
  | oversized : Bytes → Next
  | cut
  deriving DecidableEq, Repr

def nextFrame (bufLen : Nat) : Bytes → Next
  | lo :: hi :: rest =>
    let len := Framing.frameLen [lo, hi]
    if bufLen < len then .oversized rest
    else if len ≤ rest.length then .frame (rest.take len) (rest.drop len)
    else .cut
  | _ => .cut

theorem nextFrame_framed {bufLen : Nat} {f : Bytes} (hlen : f.length ≤ 65535)
    (hfit : f.length ≤ bufLen) (rest : Bytes) :
    nextFrame bufLen (framed f ++ rest) = .frame f rest := by
  have hlenBuf := frameLen_bytes hlen
  rw [u16LeBytes_eq] at hlenBuf
  rw [framed, u16LeBytes_eq]
  simp only [List.cons_append, List.nil_append, nextFrame, hlenBuf]
  rw [if_neg (by omega), if_pos (by rw [List.length_append]; omega), List.take_left, List.drop_left]

theorem frameLen_eq (lo hi : UInt8) : Framing.frameLen [lo, hi] = lo.toNat + 256 * hi.toNat := by
  simp [Framing.frameLen]

/-- A length prefix is the one that `write_framed` writes. -/
theorem bytes_frameLen (lo hi : UInt8) :
    u16LeBytes (UInt16.ofNat (Framing.frameLen [lo, hi])) = [lo, hi] := by
  have hlo := lo.toNat_lt
  have hhi := hi.toNat_lt
  have hsmall : lo.toNat + 256 * hi.toNat < 2 ^ 16 := by omega
  rw [u16LeBytes_eq, frameLen_eq, UInt16.toNat_ofNat', Nat.mod_eq_of_lt hsmall]
  congr 1
  · apply UInt8.toNat_inj.mp
    rw [UInt8.toNat_ofNat']
    omega
  · congr 1
    apply UInt8.toNat_inj.mp
    rw [UInt8.toNat_ofNat']
    omega

theorem nextFrame_eq_frame {bufLen : Nat} {bs f rest : Bytes}
    (h : nextFrame bufLen bs = .frame f rest) :
    bs = framed f ++ rest ∧ f.length ≤ bufLen ∧ f.length ≤ 65535 := by
  unfold nextFrame at h
  split at h
  · next lo hi tail =>
    simp only at h
    split at h
    · cases h
    · next hfit =>
      split at h
      · next hlen =>
        cases h
        have htake : (tail.take (Framing.frameLen [lo, hi])).length = Framing.frameLen [lo, hi] := by
          rw [List.length_take]
          omega
        have hlenBuf := frameLen_eq lo hi
        have hlo := lo.toNat_lt
        have hhi := hi.toNat_lt
        refine ⟨?_, ?_, ?_⟩
        · rw [framed, htake, bytes_frameLen, List.append_assoc, List.take_append_drop]
          rfl
        · rw [htake]
          omega
        · rw [htake]
          omega
      · cases h
  · cases h

/-- Every frame uses up its prefix at least. -/
theorem length_of_frame {bufLen : Nat} {bs f rest : Bytes} (h : nextFrame bufLen bs = .frame f rest) :
    rest.length + 2 ≤ bs.length := by
  rw [(nextFrame_eq_frame h).1, List.length_append, length_framed]
  omega

section
variable {S : Type} [ReadWrite S]

/-- `I bs s` says that the bytes `bs` are still to come in. -/
structure Feed (ending : Ending) (I : Bytes → S → Prop) : Prop where
  read : ∀ len bs s, 0 < len → bs ≠ [] → I bs s → ∃ n s',
    (ReadWrite.read len).run s = (.ok (bs.take n), s') ∧ 0 < n ∧ n ≤ len ∧ n ≤ bs.length ∧
      I (bs.drop n) s'
  ends : ∀ len s, 0 < len → I [] s → ∃ s', (ReadWrite.read len).run s = (ending.read, s') ∧ I [] s'

namespace Feed

variable {ending : Ending} {I : Bytes → S → Prop}

theorem giving (h : Feed ending I) : Giving I := by
  intro len bs s hpos hle hs
  have hne : bs ≠ [] := by
    rintro rfl
    exact absurd (Nat.lt_of_lt_of_le hpos hle) (Nat.lt_irrefl 0)
  obtain ⟨n, s', hrun, hn, hnle, -, hnext⟩ := h.read len bs s hpos hne hs
  exact ⟨n, s', mapIo_ok hrun, hn, hnle, hnext⟩

/-- With nothing left the call that reads ends. -/
theorem readLoop_end (h : Feed ending I) (fuel left : Nat) {s : S} (hs : I [] s) :
    ∃ s', (Framing.readLoop (fuel + 1) (left + 1)).run s = (ending.outcome, s') ∧ I [] s' := by
  obtain ⟨s', hrun, hnext⟩ := h.ends (left + 1) s (Nat.succ_pos left) hs
  refine ⟨s', ?_, hnext⟩
  cases ending with
  | closed =>
    have hread : (Framing.read (left + 1)).run s = (.ok [], s') := mapIo_ok hrun
    rw [Framing.readLoop, bind_ok hread]
    rfl
  | failed =>
    have hread : (Framing.read (left + 1)).run s = (.err .io, s') := by
      simp only [Framing.read, mapIo, hrun, Ending.read]
    exact bind_abort hread rfl _
  | silent =>
    have hread : (Framing.read (left + 1)).run s = (.pending, s') := by
      simp only [Framing.read, mapIo, hrun, Ending.read]
    exact bind_abort hread rfl _

/-- A slice longer than what is left is not filled, and all that is left is used up. -/
theorem readLoop_short (h : Feed ending I) {fuel left : Nat} {bs : Bytes} {s : S}
    (hfuel : left ≤ fuel) (hshort : bs.length < left) (hs : I bs s) :
    ∃ s', (Framing.readLoop fuel left).run s = (ending.outcome, s') ∧ I [] s' := by
  induction fuel generalizing left bs s with
  | zero => omega
  | succ fuel ih =>
    cases left with
    | zero => omega
    | succ left =>
      by_cases hnil : bs = []
      · subst hnil
        exact h.readLoop_end fuel left hs
      · obtain ⟨n, s₁, hrun, hpos, hle, hlen, hnext⟩ := h.read (left + 1) bs s (by omega) hnil hs
        have hread : (Framing.read (left + 1)).run s = (.ok (bs.take n), s₁) := mapIo_ok hrun
        rw [Framing.readLoop, bind_ok hread]
        cases hgot : bs.take n with
        | nil =>
          have hzero := congrArg List.length hgot
          rw [List.length_take, List.length_nil] at hzero
          omega
        | cons b got =>
          have hsum := congrArg List.length hgot
          rw [List.length_take, List.length_cons] at hsum
          obtain ⟨s₂, hrest, hlast⟩ := @ih (left - got.length) (bs.drop n) s₁ (by omega)
            (by rw [List.length_drop]; omega) hnext
          refine ⟨s₂, ?_, hlast⟩
          simp only
          rw [if_pos (by omega), bind_abort hrest ending.isOk_outcome, Ending.abort_outcome]

/-- Reading a frame, from any stream. -/
theorem readFramed_run (h : Feed ending I) (bufLen : Nat) {bs : Bytes} {s : S} (hs : I bs s) :
    match nextFrame bufLen bs with
    | .frame f rest => ∃ s', (Framing.readFramed bufLen).run s = (.ok f, s') ∧ I rest s'
    | .oversized rest =>
      ∃ s', (Framing.readFramed bufLen).run s = (.err .bufferTooSmall, s') ∧ I rest s'
    | .cut => ∃ s', (Framing.readFramed bufLen).run s = (ending.outcome, s') ∧ I [] s' := by
  have hcut (bs : Bytes) (hs : I bs s) (hshort : bs.length < 2) :
      ∃ s', (Framing.readFramed bufLen).run s = (ending.outcome, s') ∧ I [] s' := by
    obtain ⟨s', hrun, hnext⟩ := h.readLoop_short (Nat.le_refl 2) hshort hs
    refine ⟨s', ?_, hnext⟩
    have hread : (Framing.readExact 2).run s = (ending.outcome, s') := hrun
    rw [Framing.readFramed, bind_abort hread ending.isOk_outcome, Ending.abort_outcome]
  rcases bs with _ | ⟨lo, _ | ⟨hi, rest⟩⟩
  · exact hcut [] hs (by decide)
  · exact hcut [lo] hs (by simp)
  · have hs' : I ([lo, hi] ++ rest) s := hs
    obtain ⟨s₁, hlenBuf, hnext⟩ := Framing.readExact_run h.giving hs'
    have hread : (Framing.readExact 2).run s = (.ok [lo, hi], s₁) := hlenBuf
    by_cases hbig : bufLen < Framing.frameLen [lo, hi]
    · have hnextFrame : nextFrame bufLen (lo :: hi :: rest) = .oversized rest := if_pos hbig
      rw [hnextFrame]
      refine ⟨s₁, ?_, hnext⟩
      rw [Framing.readFramed, bind_ok hread]
      simp only [if_pos hbig]
      rfl
    · by_cases hlen : Framing.frameLen [lo, hi] ≤ rest.length
      · have hnextFrame : nextFrame bufLen (lo :: hi :: rest) =
            .frame (rest.take (Framing.frameLen [lo, hi]))
              (rest.drop (Framing.frameLen [lo, hi])) := by
          simp only [nextFrame, if_neg hbig, if_pos hlen]
        obtain ⟨s₂, hbody, hlast⟩ := Framing.readLoop_run h.giving (Nat.le_refl _) hlen hnext
        rw [hnextFrame]
        refine ⟨s₂, ?_, hlast⟩
        rw [Framing.readFramed, bind_ok hread]
        simp only [if_neg hbig]
        exact hbody
      · have hnextFrame : nextFrame bufLen (lo :: hi :: rest) = .cut := by
          simp only [nextFrame, if_neg hbig, if_neg hlen]
        obtain ⟨s₂, hbody, hlast⟩ :=
          h.readLoop_short (Nat.le_refl _) (Nat.lt_of_not_le hlen) hnext
        rw [hnextFrame]
        refine ⟨s₂, ?_, hlast⟩
        rw [Framing.readFramed, bind_ok hread]
        simp only [if_neg hbig]
        exact hbody

end Feed

end

section
variable {T σ : Type} [Statics σ] [ReadWrite T] {ending : Ending} {I : Bytes → T → Prop}

/-- What a connection feeds to its session, and what the session keeps while it waits. -/
theorem Feed.world (h : Feed ending I) {R : World T σ → World T σ → Prop} (hR : Stable R)
    (w₀ : World T σ) : Feed ending fun bs (w : World T σ) => I bs w.session.transport ∧ R w₀ w where
  read len bs w hpos hne hw := by
    obtain ⟨n, t, hrun, hn, hle, hlen, hnext⟩ := h.read len bs w.session.transport hpos hne hw.1
    exact ⟨n, _, onTransport_run hrun, hn, hle, hlen, hnext, hR.trans _ _ _ hw.2
      (hR.trans _ _ _ (hR.suspend w) (hR.transport w.suspend t))⟩
  ends len w hpos hw := by
    obtain ⟨t, hrun, hnext⟩ := h.ends len w.session.transport hpos hw.1
    exact ⟨_, onTransport_run hrun, hnext, hR.trans _ _ _ hw.2
      (hR.trans _ _ _ (hR.suspend w) (hR.transport w.suspend t))⟩

/-- What a session writes to its connection. -/
theorem Sink.world {I : Bytes → T → Prop} (h : Sink I) {R : World T σ → World T σ → Prop}
    (hR : Stable R) (w₀ : World T σ) :
    Sink fun bs (w : World T σ) => I bs w.session.transport ∧ R w₀ w where
  write buf bs w hne hw := by
    obtain ⟨n, t, hrun, hpos, hle, hnext⟩ := h.write buf bs w.session.transport hne hw.1
    exact ⟨n, _, onTransport_run hrun, hpos, hle, hnext, hR.trans _ _ _ hw.2
      (hR.trans _ _ _ (hR.suspend w) (hR.transport w.suspend t))⟩
  flush bs w hw := by
    obtain ⟨t, hrun, hnext⟩ := h.flush bs w.session.transport hw.1
    exact ⟨_, onTransport_run hrun, hnext, hR.trans _ _ _ hw.2
      (hR.trans _ _ _ (hR.suspend w) (hR.transport w.suspend t))⟩

/-- A call goes on with the next frame if it comes in as a whole. -/
theorem Feed.withFrame_run (h : Feed ending I) {R : World T σ → World T σ → Prop} (hR : Stable R)
    {α : Type} (k : World T σ → Bytes → Call T σ α) {bs : Bytes} {w : World T σ}
    (hw : I bs w.session.transport) :
    match nextFrame rxBufSize bs with
    | .frame f rest => ∃ w₁, (withFrame k).run w = (k (w₁.holding f) f).run (w₁.holding f) ∧
        I rest w₁.session.transport ∧ R w w₁
    | .oversized rest => ∃ w₁, (withFrame k).run w = (.err .bufferTooSmall, w₁) ∧
        I rest w₁.session.transport ∧ R w w₁
    | .cut => ∃ w₁, (withFrame k).run w = (ending.outcome, w₁) ∧
        I [] w₁.session.transport ∧ R w w₁ := by
  have hread := (h.world hR w).readFramed_run rxBufSize ⟨hw, hR.refl w⟩
  split at hread
  · next f rest hnext =>
    obtain ⟨w₁, hrun, hin, hstable⟩ := hread
    refine ⟨w₁, withFrame_of_read k (nextFrame_eq_frame hnext).2.1 ?_, hin, hstable⟩
    rw [readOneFrame_eq, bind_ok hrun]
    rfl
  · obtain ⟨w₁, hrun, hin, hstable⟩ := hread
    have hone : (readOneFrame : Call T σ Nat).run w = (.err .bufferTooSmall, w₁) := by
      rw [readOneFrame_eq, bind_abort hrun rfl]
      rfl
    exact ⟨w₁, bind_abort hone rfl _, hin, hstable⟩
  · obtain ⟨w₁, hrun, hin, hstable⟩ := hread
    have hone : (readOneFrame : Call T σ Nat).run w = (ending.outcome, w₁) := by
      rw [readOneFrame_eq, bind_abort hrun ending.isOk_outcome, Ending.abort_outcome]
    refine ⟨w₁, ?_, hin, hstable⟩
    rw [withFrame, bind_abort hone ending.isOk_outcome, Ending.abort_outcome]

end

section
variable {S : Type} [ReadWrite S]

/-- `I bs out s` says that the bytes `bs` are still to come in and `out` has been written. -/
structure Peer (ending : Ending) (I : Bytes → Bytes → S → Prop) : Prop where
  feed : ∀ out, Feed ending fun bs s => I bs out s
  sink : ∀ bs, Sink fun out s => I bs out s

end

/-- A wire blocks once all of it has been read. -/
theorem Wire.peer : Peer .silent fun bs out (w : Wire) => w.incoming = bs ∧ w.outgoing = out := by
  have hchunk (len : Nat) (w : Wire) (h : 0 < len) : 0 < w.chunk len ∧ w.chunk len ≤ len := by
    unfold Wire.chunk
    split <;> omega
  constructor
  · intro out
    constructor
    · rintro len bs w hpos hne ⟨rfl, rfl⟩
      have hc := hchunk len w hpos
      have hlen := List.length_pos_iff.mpr hne
      refine ⟨min (w.chunk len) w.incoming.length, w.took (w.chunk len), ?_, by omega, by omega,
        by omega, ?_, rfl⟩
      · rw [← List.take_eq_take_min]
        exact if_neg hne
      · change w.incoming.drop (w.chunk len) = _
        rw [← List.drop_eq_drop_min]
    · rintro len w hpos ⟨hin, hout⟩
      exact ⟨w, if_pos hin, hin, hout⟩
  · intro bs
    constructor
    · rintro buf out w hne ⟨rfl, rfl⟩
      have hc := hchunk buf.length w (List.length_pos_iff.mpr hne)
      have htake : (buf.take (w.chunk buf.length)).length = w.chunk buf.length := by
        rw [List.length_take]
        omega
      refine ⟨w.chunk buf.length, w.gave (buf.take (w.chunk buf.length)), ?_, hc.1, hc.2, rfl, rfl⟩
      rw [← htake]
      change (Outcome.ok _, _) = _
      rw [htake]
    · rintro out w h
      exact ⟨w, rfl, h⟩

end MicroXrceDds
