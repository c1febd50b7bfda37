import MicroXrceDds.FrameStream

/-!
# Receiving calls that are dropped

A future that waits for bytes may be dropped by the program that polls it. What it has
read until then is gone from the transport, and nothing of it is kept in the session.
-/
namespace MicroXrceDds

open Prog Session

/-- A connection whose far end sends in bursts. A read takes what is there of the first
burst, in pieces of any length but zero. Once the burst is used up the future that waits is
dropped, and the next burst has arrived when the next call is made. -/
structure Line where
  bursts : List Bytes
  chunks : List Nat

namespace Line

def chunk (len : Nat) (l : Line) : Nat := min len (l.chunks.headD len + 1)

/-- The connection after `k` bytes of the first burst have been read. -/
def took (k : Nat) (l : Line) : Line :=
  ⟨(l.bursts.headD []).drop k :: l.bursts.tail, l.chunks.tail⟩

/-- The connection after a future has been dropped. -/
def dropped (l : Line) : Line := ⟨l.bursts.tail, l.chunks⟩

def read (len : Nat) : Prog Unit Line Bytes where
  run l :=
    if l.bursts.headD [] = [] then (.pending, l.dropped)
    else (.ok ((l.bursts.headD []).take (l.chunk len)), l.took (l.chunk len))

instance : ReadWrite Line where
  read := Line.read
  write buf := pure buf.length
  flush := pure ()

end Line

variable {σ : Type} [Statics σ]

/-- What the far end has sent and nobody has read. -/
def World.bursts (w : World Line σ) : List Bytes := w.session.transport.bursts

theorem read_line (w : World Line σ) {b : Bytes} {later : List Bytes}
    (hbursts : w.bursts = b :: later)
    (hb : b ≠ []) {len : Nat} (hpos : 0 < len) :
    ∃ n w', (Framing.read len : Call Line σ Bytes).run w = (.ok (b.take n), w') ∧ 0 < n ∧ n ≤ len ∧
      w'.bursts = b.drop n :: later := by
  have hhead : w.session.transport.bursts = b :: later := hbursts
  have hchunk : 0 < w.session.transport.chunk len ∧ w.session.transport.chunk len ≤ len := by
    simp only [Line.chunk]
    omega
  have hread : (ReadWrite.read len : Prog Unit Line Bytes).run w.session.transport =
      (.ok (b.take (w.session.transport.chunk len)),
        w.session.transport.took (w.session.transport.chunk len)) := by
    change (if w.session.transport.bursts.headD [] = [] then _ else _) = _
    rw [hhead, List.headD_cons, if_neg hb]
  refine ⟨_, _, mapIo_onTransport_ok hread, hchunk.1, hchunk.2, ?_⟩
  change (w.session.transport.bursts.headD []).drop _ :: w.session.transport.bursts.tail = _
  rw [hhead]
  rfl

/-- With nothing there the future waits until it is dropped. -/
theorem read_line_dry (w : World Line σ) (hdry : w.bursts.headD [] = []) (len : Nat) :
    ∃ w', (Framing.read len : Call Line σ Bytes).run w = (.pending, w') ∧
      w'.bursts = w.bursts.tail := by
  have hhead : w.session.transport.bursts.headD [] = [] := hdry
  have hread : (ReadWrite.read len : Prog Unit Line Bytes).run w.session.transport =
      (.pending, w.session.transport.dropped) := by
    change (if w.session.transport.bursts.headD [] = [] then _ else _) = _
    rw [if_pos hhead]
  refine ⟨w.suspend.setTransport w.session.transport.dropped, ?_, rfl⟩
  change (mapIo (World.onTransport (ReadWrite.read len))).run w = _
  simp only [mapIo, onTransport_run hread]

theorem giving_line (later : List Bytes) :
    Giving fun bs (w : World Line σ) => w.bursts = bs :: later := by
  intro len bs w hpos hle h
  have hne : bs ≠ [] := by
    rintro rfl
    rw [List.length_nil] at hle
    omega
  obtain ⟨n, w', hrun, hn, hnle, hnext⟩ := read_line w h hne hpos
  exact ⟨n, w', hrun, hn, hnle, hnext⟩

/-- A slice longer than what is left of the burst is not filled. -/
theorem readLoop_dry {fuel left : Nat} {w : World Line σ} (hfuel : left ≤ fuel)
    (hshort : (w.bursts.headD []).length < left) :
    ∃ w', (Framing.readLoop fuel left : Call Line σ Bytes).run w = (.pending, w') ∧
      w'.bursts = w.bursts.tail := by
  induction fuel generalizing left w with
  | zero => omega
  | succ fuel ih =>
    cases left with
    | zero => omega
    | succ left =>
      rw [Framing.readLoop]
      by_cases hdry : w.bursts.headD [] = []
      · obtain ⟨w', hrun, hnext⟩ := read_line_dry w hdry (left + 1)
        exact ⟨w', bind_abort hrun rfl _, hnext⟩
      · cases hbursts : w.bursts with
        | nil =>
          rw [hbursts] at hdry
          exact absurd rfl hdry
        | cons b later =>
          rw [hbursts, List.headD_cons] at hdry hshort
          obtain ⟨n, w₁, hrun, hpos, hle, hnext⟩ := read_line w hbursts hdry (Nat.succ_pos left)
          rw [bind_ok hrun]
          cases hgot : b.take n with
          | nil =>
            have hlen := congrArg List.length hgot
            rw [List.length_take, List.length_nil] at hlen
            have hpos' := List.length_pos_iff.mpr hdry
            omega
          | cons x got =>
            have hlen := congrArg List.length hgot
            rw [List.length_take, List.length_cons] at hlen
            obtain ⟨w₂, hrest, hlast⟩ := ih (w := w₁) (show left - got.length ≤ fuel by omega)
              (by rw [hnext, List.headD_cons, List.length_drop]; omega)
            refine ⟨w₂, ?_, ?_⟩
            · simp only
              rw [if_pos (by omega), bind_abort hrest rfl]
              rfl
            · rw [hlast, hnext]
              rfl

/-- From the start of a frame: it is read if the burst holds all of it, and otherwise the
call is dropped with the burst used up. -/
theorem readOneFrame_line (w : World Line σ) {b f rest : Bytes} {later : List Bytes}
    (hbursts : w.bursts = b :: later) (hsent : b ++ later.flatten = framed f ++ rest)
    (hfit : f.length ≤ rxBufSize) :
    (∃ b', ∃ w' : World Line σ, b = framed f ++ b' ∧
      (readOneFrame : Call Line σ Nat).run w = (.ok f.length, w'.holding f) ∧
      w'.bursts = b' :: later) ∨
    (∃ w' : World Line σ, b.length < (framed f).length ∧
      (readOneFrame : Call Line σ Nat).run w = (.pending, w') ∧ w'.bursts = later) := by
  have hmax : rxBufSize = 768 := rfl
  by_cases hwhole : (framed f).length ≤ b.length
  · left
    obtain ⟨b', hb⟩ : framed f <+: b :=
      List.prefix_of_prefix_length_le (List.prefix_append _ _)
        (hsent ▸ List.prefix_append b later.flatten) hwhole
    obtain ⟨w', hrun, hnext⟩ := readOneFrame_run (giving_line later) hfit
      (show w.bursts = (framed f ++ b') :: later by rw [hb, hbursts])
    exact ⟨b', w', hb.symm, hrun, hnext⟩
  · right
    by_cases hprefix : 2 ≤ b.length
    · obtain ⟨body, hb⟩ : u16LeBytes (UInt16.ofNat f.length) <+: b := by
        have hfront : u16LeBytes (UInt16.ofNat f.length) <+: b ++ later.flatten := by
          rw [hsent, framed, List.append_assoc]
          exact List.prefix_append _ _
        exact List.prefix_of_prefix_length_le hfront (List.prefix_append _ _) hprefix
      have hlen := congrArg List.length hb
      rw [List.length_append, length_u16LeBytes] at hlen
      rw [length_framed] at hwhole
      obtain ⟨w₁, hrun, hnext⟩ := Framing.readExact_run (giving_line later)
        (show w.bursts = (u16LeBytes (UInt16.ofNat f.length) ++ body) :: later by rw [hb, hbursts])
      rw [length_u16LeBytes] at hrun
      obtain ⟨w₂, hbody, hlast⟩ := readLoop_dry (w := w₁) (Nat.le_refl f.length)
        (by rw [hnext, List.headD_cons]; omega)
      have hdropped : (Framing.readFramed rxBufSize : Call Line σ Bytes).run w = (.pending, w₂) := by
        rw [Framing.readFramed, bind_ok hrun]
        simp only [frameLen_bytes (show f.length ≤ 65535 by omega)]
        rw [if_neg (by omega)]
        exact hbody
      refine ⟨w₂, ?_, ?_, ?_⟩
      · rw [length_framed]
        omega
      · rw [readOneFrame_eq, bind_abort hdropped rfl]
        rfl
      · rw [hlast, hnext]
        rfl
    · obtain ⟨w', hrun, hnext⟩ := readLoop_dry (w := w) (Nat.le_refl 2)
        (by rw [hbursts, List.headD_cons]; omega)
      have hdropped : (Framing.readFramed rxBufSize : Call Line σ Bytes).run w = (.pending, w') :=
        bind_abort hrun rfl _
      refine ⟨w', Nat.lt_of_not_le hwhole, ?_, ?_⟩
      · rw [readOneFrame_eq, bind_abort hdropped rfl]
        rfl
      · rw [hnext, hbursts]
        rfl

/-- With nothing there at all the call is dropped where it starts. -/
theorem readOneFrame_dry (w : World Line σ) (h : w.bursts.headD [] = []) :
    ∃ w' : World Line σ, (readOneFrame : Call Line σ Nat).run w = (.pending, w') ∧
      w'.bursts = w.bursts.tail := by
  obtain ⟨w', hrun, hnext⟩ := readLoop_dry (w := w) (Nat.le_refl 2)
    (by rw [h, List.length_nil]; omega)
  have hdropped : (Framing.readFramed rxBufSize : Call Line σ Bytes).run w = (.pending, w') :=
    bind_abort hrun rfl _
  refine ⟨w', ?_, hnext⟩
  rw [readOneFrame_eq, bind_abort hdropped rfl]
  rfl

/-- Every burst is one frame after the other. -/
def WholeFrames (frames bursts : List Bytes) : Prop :=
  ∃ groups : List (List Bytes), groups.flatten = frames ∧ groups.map stream = bursts

/-- What is left to do before the far end has nothing more to send. -/
def remaining (bursts : List Bytes) : Nat := bursts.flatten.length + bursts.length

theorem eq_nil_of_stream {frames : List Bytes} (h : stream frames = []) : frames = [] := by
  cases frames with
  | nil => rfl
  | cons f frames =>
    have hlen := congrArg List.length h
    rw [stream_cons, List.length_append, length_framed, List.length_nil] at hlen
    omega

theorem stream_flatten (groups : List (List Bytes)) :
    stream groups.flatten = (groups.map stream).flatten := by
  induction groups with
  | nil => rfl
  | cons group groups ih =>
    rw [List.flatten_cons, List.map_cons, List.flatten_cons, ← ih]
    exact List.flatMap_append

theorem length_stream_drop_le (frames : List Bytes) {i j : Nat} (h : i ≤ j) :
    (stream (frames.drop j)).length ≤ (stream (frames.drop i)).length := by
  have hsplit : frames.drop i = (frames.drop i).take (j - i) ++ frames.drop j := by
    have hdrop : frames.drop j = (frames.drop i).drop (j - i) := by
      rw [List.drop_drop]
      congr 1
      omega
    rw [hdrop, List.take_append_drop]
  rw [hsplit, stream, stream, List.flatMap_append, List.length_append]
  exact Nat.le_add_left _ _

/-- Behind a part of a frame no frame starts. -/
theorem not_boundary {frames fs : List Bytes} {f part rest : Bytes} {i : Nat} (j : Nat)
    (hdrop : frames.drop i = f :: fs) (hpos : 0 < part.length)
    (hshort : part.length < (framed f).length) (h : part ++ rest = stream (frames.drop i)) :
    rest ≠ stream (frames.drop j) := by
  intro hrest
  have hlen := congrArg List.length h
  rw [List.length_append, hrest] at hlen
  rcases Nat.lt_or_ge i j with hlt | hle
  · have hafter := length_stream_drop_le frames (Nat.succ_le_of_lt hlt)
    have hnext : frames.drop (i + 1) = fs := by
      rw [← List.drop_drop, hdrop]
      rfl
    rw [Nat.succ_eq_add_one, hnext] at hafter
    rw [hdrop, stream_cons, List.length_append] at hlen
    omega
  · have hbefore := length_stream_drop_le frames hle
    omega

namespace WholeFrames

variable {frames bursts : List Bytes}

theorem flatten (h : WholeFrames frames bursts) : bursts.flatten = stream frames := by
  obtain ⟨groups, rfl, rfl⟩ := h
  rw [stream_flatten]

theorem of_nil (h : WholeFrames frames []) : frames = [] := by
  obtain ⟨groups, rfl, hgroups⟩ := h
  rw [List.map_eq_nil_iff.mp hgroups]
  rfl

/-- The frames of the first burst, and those of the others. -/
theorem cons_iff {b : Bytes} : WholeFrames frames (b :: bursts) ↔
    ∃ group rest, frames = group ++ rest ∧ stream group = b ∧ WholeFrames rest bursts := by
  constructor
  · rintro ⟨groups, rfl, hgroups⟩
    cases groups with
    | nil => cases hgroups
    | cons group groups =>
      rw [List.map_cons, List.cons.injEq] at hgroups
      exact ⟨group, groups.flatten, rfl, hgroups.1, groups, rfl, hgroups.2⟩
  · rintro ⟨group, rest, rfl, rfl, groups, rfl, rfl⟩
    exact ⟨group :: groups, rfl, rfl⟩

/-- A burst without bytes is a burst without frames. -/
theorem nil_cons : WholeFrames frames ([] :: bursts) ↔ WholeFrames frames bursts := by
  rw [cons_iff]
  constructor
  · rintro ⟨group, rest, rfl, hgroup, hrest⟩
    rwa [eq_nil_of_stream hgroup, List.nil_append]
  · intro h
    exact ⟨[], frames, rfl, rfl, h⟩

/-- The first frame of a burst. -/
theorem frame_cons {f b : Bytes} : WholeFrames (f :: frames) ((framed f ++ b) :: bursts) ↔
    WholeFrames frames (b :: bursts) := by
  rw [cons_iff, cons_iff]
  constructor
  · rintro ⟨group, rest, hframes, hgroup, hrest⟩
    cases group with
    | nil =>
      have hlen := congrArg List.length hgroup
      rw [List.length_append, length_framed, stream_nil, List.length_nil] at hlen
      omega
    | cons g group =>
      rw [List.cons_append, List.cons.injEq] at hframes
      obtain ⟨rfl, hframes⟩ := hframes
      rw [stream_cons] at hgroup
      exact ⟨group, rest, hframes, List.append_cancel_left hgroup, hrest⟩
  · rintro ⟨group, rest, rfl, rfl, hrest⟩
    exact ⟨f :: group, rest, rfl, stream_cons f group, hrest⟩

theorem frame_le {f b : Bytes} (h : WholeFrames (f :: frames) (b :: bursts)) (hb : 0 < b.length) :
    (framed f).length ≤ b.length := by
  obtain ⟨group, rest, hframes, rfl, -⟩ := cons_iff.mp h
  cases group with
  | nil => exact absurd hb (Nat.lt_irrefl 0)
  | cons g group =>
    rw [List.cons_append, List.cons.injEq] at hframes
    rw [stream_cons, List.length_append, hframes.1]
    exact Nat.le_add_right _ _

end WholeFrames

/-- One call of `spin_once`, or one turn of the loop that waits for a STATUS. -/
inductive Receives [Target] (w : World Line σ) : World Line σ → Prop
  | spinOnce : Receives w ((spinOnce : Call Line σ Unit).run w).2
  | waitTurn (req : UInt16) : Receives w ((waitTurn req : Call Line σ Bool).run w).2

/-- `starts k` is the world in which the call number `k` starts. What the program does
between two calls leaves alone what the far end has sent. -/
structure DroppingRun [Target] (bursts : List Bytes) (starts : Nat → World Line σ) : Prop where
  first : (starts 0).bursts = bursts
  next : ∀ k, ∃ w', Receives (starts k) w' ∧ (starts (k + 1)).bursts = w'.bursts

/-- The frame that a call parses, if it is not dropped before. -/
def frameRead (w : World Line σ) : Option Bytes :=
  match (readOneFrame : Call Line σ Nat).run w with
  | (.ok len, w') => some (w'.session.rxBuf.cells.take len)
  | _ => none

/-- The frames parsed by the calls before the call number `k`. -/
def framesRead (starts : Nat → World Line σ) (k : Nat) : List Bytes :=
  (List.range k).filterMap fun i => frameRead (starts i)

/-- Every call starts where a frame starts, right behind the frames parsed so far, and all
the frames are parsed in the end. -/
structure Intact (frames : List Bytes) (starts : Nat → World Line σ) : Prop where
  boundary : ∀ k, ∃ j, (starts k).bursts.flatten = stream (frames.drop j) ∧
    framesRead starts k = frames.take j
  complete : ∃ k, framesRead starts k = frames

theorem framesRead_succ (starts : Nat → World Line σ) (k : Nat) :
    framesRead starts (k + 1) = framesRead starts k ++ (frameRead (starts k)).toList := by
  rw [framesRead, List.range_succ, List.filterMap_append]
  cases h : frameRead (starts k) <;> simp [framesRead, h]

/-- A call that starts at the start of a frame, with the frames `fs` still to come: the far
end has sent all it has, the burst is used up, the next frame is read, or the burst ends
within it. -/
theorem call_cases (w : World Line σ) {fs : List Bytes} (hfit : ∀ f ∈ fs, f.length ≤ rxBufSize)
    (h : w.bursts.flatten = stream fs) :
    let next := ((readOneFrame : Call Line σ Nat).run w).2.bursts
    (w.bursts = [] ∧ frameRead w = none ∧ next = []) ∨
    (w.bursts = [] :: next ∧ frameRead w = none) ∨
    (∃ f fs' b later, fs = f :: fs' ∧ w.bursts = (framed f ++ b) :: later ∧
      frameRead w = some f ∧ next = b :: later) ∨
    (∃ f fs' b, fs = f :: fs' ∧ w.bursts = b :: next ∧ 0 < b.length ∧
      b.length < (framed f).length) := by
  intro next
  cases hbursts : w.bursts with
  | nil =>
    left
    obtain ⟨w', hrun, hnext⟩ := readOneFrame_dry w (by rw [hbursts]; rfl)
    refine ⟨rfl, ?_, ?_⟩
    · rw [frameRead, hrun]
    · change ((readOneFrame : Call Line σ Nat).run w).2.bursts = []
      rw [hrun, hnext, hbursts]
      rfl
  | cons b later =>
    right
    by_cases hb : b = []
    · left
      obtain ⟨w', hrun, hnext⟩ := readOneFrame_dry w (by rw [hbursts, hb]; rfl)
      constructor
      · change b :: later = [] :: ((readOneFrame : Call Line σ Nat).run w).2.bursts
        rw [hrun, hnext, hbursts, hb]
        rfl
      · rw [frameRead, hrun]
    · right
      have hpos : 0 < b.length := List.length_pos_iff.mpr hb
      cases fs with
      | nil =>
        rw [hbursts, List.flatten_cons, stream_nil] at h
        exact absurd (List.append_eq_nil_iff.mp h).1 hb
      | cons f fs =>
        rw [hbursts, List.flatten_cons, stream_cons] at h
        have hf := hfit f List.mem_cons_self
        rcases readOneFrame_line w hbursts h hf with
          ⟨b', w', rfl, hrun, hnext⟩ | ⟨w', hshort, hrun, hnext⟩
        · left
          refine ⟨f, fs, b', later, rfl, rfl, ?_, ?_⟩
          · rw [frameRead, hrun]
            exact congrArg some (take_overwrite _ hf)
          · change ((readOneFrame : Call Line σ Nat).run w).2.bursts = b' :: later
            rw [hrun]
            exact hnext
        · right
          refine ⟨f, fs, b, rfl, ?_, hpos, hshort⟩
          change b :: later = b :: ((readOneFrame : Call Line σ Nat).run w).2.bursts
          rw [hrun, hnext]

section
variable [Target] {frames bursts : List Bytes} {starts : Nat → World Line σ}

theorem DroppingRun.step (hrun : DroppingRun bursts starts) (k : Nat) :
    (starts (k + 1)).bursts = ((readOneFrame : Call Line σ Nat).run (starts k)).2.bursts := by
  obtain ⟨w', hcall, hnext⟩ := hrun.next k
  rw [hnext]
  cases hcall with
  | spinOnce => exact congrArg Line.bursts (transport_spinOnce _)
  | waitTurn req => exact congrArg Line.bursts (transport_waitTurn req _)

/-- One call keeps the bursts whole, and moves the frame it parses out of them. -/
theorem DroppingRun.whole_step (hrun : DroppingRun bursts starts) {k : Nat} {fs : List Bytes}
    (hfit : ∀ f ∈ fs, f.length ≤ rxBufSize) (h : WholeFrames fs (starts k).bursts) :
    ∃ fs', WholeFrames fs' (starts (k + 1)).bursts ∧
      (frameRead (starts k)).toList ++ fs' = fs := by
  rcases call_cases (starts k) hfit h.flatten with ⟨hnow, hread, hnext⟩ | ⟨hnow, hread⟩ |
    ⟨f, fs', b, later, rfl, hnow, hread, hnext⟩ | ⟨f, fs', b, rfl, hnow, hpos, hshort⟩
  · refine ⟨fs, ?_, by rw [hread]; rfl⟩
    rw [hrun.step, hnext, ← hnow]
    exact h
  · refine ⟨fs, ?_, by rw [hread]; rfl⟩
    rw [hnow] at h
    rw [hrun.step]
    exact WholeFrames.nil_cons.mp h
  · refine ⟨fs', ?_, by rw [hread]; rfl⟩
    rw [hnow] at h
    rw [hrun.step, hnext]
    exact WholeFrames.frame_cons.mp h
  · -- A burst that starts with part of a frame is none.
    rw [hnow] at h
    exact absurd hshort (Nat.not_lt.mpr (h.frame_le hpos))

theorem DroppingRun.whole (hrun : DroppingRun bursts starts)
    (hfit : ∀ f ∈ frames, f.length ≤ rxBufSize) (h : WholeFrames frames bursts) (k : Nat) :
    ∃ fs, WholeFrames fs (starts k).bursts ∧ framesRead starts k ++ fs = frames := by
  induction k with
  | zero => exact ⟨frames, hrun.first ▸ h, rfl⟩
  | succ k ih =>
    obtain ⟨fs, hwhole, hread⟩ := ih
    have hsub : ∀ f ∈ fs, f.length ≤ rxBufSize := fun f hf =>
      hfit f (hread ▸ List.mem_append_right _ hf)
    obtain ⟨fs', hwhole', hfs⟩ := hrun.whole_step hsub hwhole
    refine ⟨fs', hwhole', ?_⟩
    rw [framesRead_succ, List.append_assoc, hfs, hread]

/-- A call that starts at the start of a frame uses up a burst or parses a frame. -/
theorem DroppingRun.remaining_lt (hrun : DroppingRun bursts starts) {k : Nat} {fs : List Bytes}
    (hfit : ∀ f ∈ fs, f.length ≤ rxBufSize) (h : (starts k).bursts.flatten = stream fs)
    (hmore : (starts k).bursts ≠ []) :
    remaining (starts (k + 1)).bursts < remaining (starts k).bursts := by
  rw [hrun.step]
  rcases call_cases (starts k) hfit h with ⟨hnow, -, -⟩ | ⟨hnow, -⟩ |
    ⟨f, fs', b, later, -, hnow, -, hnext⟩ | ⟨f, fs', b, -, hnow, hpos, -⟩
  · exact absurd hnow hmore
  · rw [hnow]
    simp [remaining]
  · rw [hnow, hnext]
    simp [remaining]
  · rw [hnow]
    simp only [remaining, List.flatten_cons, List.length_append, List.length_cons]
    omega

/-- As long as every call starts at the start of a frame the calls get through everything. -/
theorem DroppingRun.drains (hrun : DroppingRun bursts starts)
    (h : ∀ k, ∃ fs, (∀ f ∈ fs, f.length ≤ rxBufSize) ∧ (starts k).bursts.flatten = stream fs) :
    ∃ k, (starts k).bursts = [] := by
  have hfrom (n k : Nat) (hn : remaining (starts k).bursts ≤ n) : ∃ k, (starts k).bursts = [] := by
    induction n generalizing k with
    | zero =>
      refine ⟨k, List.length_eq_zero_iff.mp ?_⟩
      simp only [remaining] at hn
      omega
    | succ n ih =>
      by_cases hmore : (starts k).bursts = []
      · exact ⟨k, hmore⟩
      · obtain ⟨fs, hfit, hfs⟩ := h k
        have hlt := hrun.remaining_lt hfit hfs hmore
        exact ih (k + 1) (by omega)
  exact hfrom _ 0 (Nat.le_refl _)

theorem intact_of_whole (hrun : DroppingRun bursts starts)
    (hfit : ∀ f ∈ frames, f.length ≤ rxBufSize) (h : WholeFrames frames bursts) :
    Intact frames starts := by
  have hwhole := hrun.whole hfit h
  constructor
  · intro k
    obtain ⟨fs, hfs, hread⟩ := hwhole k
    refine ⟨(framesRead starts k).length, ?_, ?_⟩
    · rw [← hread, List.drop_left]
      exact hfs.flatten
    · rw [← hread, List.take_left]
  · have hbound (k : Nat) : ∃ fs, (∀ f ∈ fs, f.length ≤ rxBufSize) ∧
        (starts k).bursts.flatten = stream fs := by
      obtain ⟨fs, hfs, hread⟩ := hwhole k
      exact ⟨fs, fun f hf => hfit f (hread ▸ List.mem_append_right _ hf), hfs.flatten⟩
    obtain ⟨k, hk⟩ := hrun.drains hbound
    obtain ⟨fs, hfs, hread⟩ := hwhole k
    rw [hk] at hfs
    refine ⟨k, ?_⟩
    rw [← hread, hfs.of_nil, List.append_nil]

/-- If every call starts at the start of a frame, no drop has come within one. -/
theorem whole_of_boundary (hrun : DroppingRun bursts starts)
    (hfit : ∀ f ∈ frames, f.length ≤ rxBufSize)
    (h : ∀ k, ∃ j, (starts k).bursts.flatten = stream (frames.drop j)) {n k j : Nat}
    (hn : remaining (starts k).bursts ≤ n)
    (hnow : (starts k).bursts.flatten = stream (frames.drop j)) :
    WholeFrames (frames.drop j) (starts k).bursts := by
  have hsub : ∀ f ∈ frames.drop j, f.length ≤ rxBufSize := fun f hf =>
    hfit f (List.mem_of_mem_drop hf)
  induction n generalizing k j with
  | zero =>
    have hb : (starts k).bursts = [] := by
      apply List.length_eq_zero_iff.mp
      simp only [remaining] at hn
      omega
    rw [hb] at hnow ⊢
    rw [eq_nil_of_stream hnow.symm]
    exact ⟨[], rfl, rfl⟩
  | succ n ih =>
    by_cases hmore : (starts k).bursts = []
    · rw [hmore] at hnow ⊢
      rw [eq_nil_of_stream hnow.symm]
      exact ⟨[], rfl, rfl⟩
    · have hlt := hrun.remaining_lt hsub hnow hmore
      have hnext := hrun.step k
      rcases call_cases (starts k) hsub hnow with ⟨hb, -, -⟩ | ⟨hb, -⟩ |
        ⟨f, fs, b, later, hfs, hb, -, hlater⟩ | ⟨f, fs, b, hfs, hb, hpos, hshort⟩
      · exact absurd hb hmore
      · rw [← hnext] at hb
        rw [hb] at hnow ⊢
        exact WholeFrames.nil_cons.mpr (ih (by omega) hnow hsub)
      · have hfs' : frames.drop (j + 1) = fs := by
          rw [← List.drop_drop, hfs]
          rfl
        rw [hb, List.flatten_cons, hfs, stream_cons, List.append_assoc] at hnow
        rw [hlater] at hnext
        have hrest := ih (k := k + 1) (j := j + 1) (by omega)
          (by rw [hnext, hfs']; exact List.append_cancel_left hnow)
          (fun f hf => hfit f (List.mem_of_mem_drop hf))
        rw [hnext, hfs'] at hrest
        rw [hfs, hb]
        exact WholeFrames.frame_cons.mpr hrest
      · rw [← hnext] at hb
        obtain ⟨j', hj'⟩ := h (k + 1)
        rw [hb, List.flatten_cons] at hnow
        exact absurd hj' (not_boundary j' hfs hpos hshort hnow)

theorem intact_iff (hrun : DroppingRun bursts starts)
    (hfit : ∀ f ∈ frames, f.length ≤ rxBufSize) (hstream : bursts.flatten = stream frames) :
    Intact frames starts ↔ WholeFrames frames bursts := by
  constructor
  · intro h
    have hbound : ∀ k, ∃ j, (starts k).bursts.flatten = stream (frames.drop j) := by
      intro k
      obtain ⟨j, hj, -⟩ := h.boundary k
      exact ⟨j, hj⟩
    have hfirst : (starts 0).bursts.flatten = stream (frames.drop 0) := by
      rw [hrun.first, List.drop_zero, hstream]
    have hwhole := whole_of_boundary hrun hfit hbound (Nat.le_refl _) hfirst
    rw [hrun.first, List.drop_zero] at hwhole
    exact hwhole
  · exact intact_of_whole hrun hfit

end

/-- A program that only spins, again and again. -/
def spinningOn (w : World Line σ) : Nat → World Line σ
  | 0 => w
  | k + 1 => ((spinOnce : Call Line σ Unit).run (spinningOn w k)).2

theorem droppingRun_spinningOn [Target] (w : World Line σ) :
    DroppingRun w.bursts (spinningOn w) := ⟨rfl, fun _ => ⟨_, .spinOnce, rfl⟩⟩

/-- A session whose far end sends these bursts, one byte at a time. -/
def listening (bursts : List Bytes) : World Line Empty :=
  start ⟨bursts, List.replicate bursts.flatten.length 0⟩ 0x81 ⟨0, 0, 0, 0⟩ []

/-- Two drops between the frames, one of them before any byte has come. -/
theorem intact_two_frames :
    Intact [[7, 8], [9]] (spinningOn (listening [framed [7, 8], [], framed [9]])) ↔
      WholeFrames [[7, 8], [9]] [framed [7, 8], [], framed [9]] := by
  let target := rp2040 true
  exact intact_iff (droppingRun_spinningOn (listening [framed [7, 8], [], framed [9]]))
    (by decide) (by decide)

/-- One byte of the length prefix has been read when the call is dropped, and the next call
takes the other byte for the start of a frame. -/
theorem drop_splits_frame : ¬ Intact [[7, 8]] (spinningOn (listening [[2], [0, 7, 8]])) := by
  intro h
  obtain ⟨j, hj, -⟩ := h.boundary 1
  have hnow : (spinningOn (listening [[2], [0, 7, 8]]) 1).bursts = [[0, 7, 8]] := by decide
  rw [hnow] at hj
  have hdrop : ([[7, 8]] : List Bytes).drop 0 = [7, 8] :: [] := rfl
  have hpart : ([2] : Bytes).length < (framed [7, 8]).length := by decide
  have hstream : [2] ++ [0, 7, 8] = stream (([[7, 8]] : List Bytes).drop 0) := rfl
  exact not_boundary j hdrop (by decide) hpart hstream hj

end MicroXrceDds
