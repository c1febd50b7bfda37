import MicroXrceDds.ClientRefinement

/-!
# Spinning

`spin` reads frame after frame and stops at the first error, which is one of the three that
reading a frame can end with.
-/
namespace MicroXrceDds

open Prog Session

/-- What a connection's end is to a loop that stops at errors. -/
def Ending.reported : Ending → Outcome Error Error
  | .closed => .ok .disconnected
  | .failed => .ok .io
  | .silent => .pending

/-- A stream cut into whole frames that fit the buffer, up to something that does not start with
one. -/
structure CutsInto (bufLen : Nat) (bs : Bytes) (frames : List Bytes) (tail : Bytes) : Prop where
  whole : bs = stream frames ++ tail
  fits : ∀ f ∈ frames, f.length ≤ bufLen
  stops : ∀ f rest, nextFrame bufLen tail ≠ .frame f rest

/-- Any bytes can be cut so. -/
theorem exists_cut (bufLen : Nat) (bs : Bytes) : ∃ frames tail, CutsInto bufLen bs frames tail := by
  generalize hlen : bs.length = len
  induction len using Nat.strong_induction_on generalizing bs with
  | _ len ih =>
    cases hnext : nextFrame bufLen bs with
    | frame f rest =>
      obtain ⟨hbs, hfit, -⟩ := nextFrame_eq_frame hnext
      have hless := length_of_frame hnext
      obtain ⟨frames, tail, rfl, hfits, htail⟩ := ih rest.length (by omega) rest rfl
      refine ⟨f :: frames, tail, ?_, ?_, htail⟩
      · rw [hbs, stream_cons, List.append_assoc]
      · intro f' hf'
        rcases List.mem_cons.mp hf' with rfl | hf'
        · exact hfit
        · exact hfits f' hf'
    | oversized rest =>
      refine ⟨[], bs, rfl, nofun, fun f rest' h => ?_⟩
      rw [hnext] at h
      cases h
    | cut =>
      refine ⟨[], bs, rfl, nofun, fun f rest' h => ?_⟩
      rw [hnext] at h
      cases h

namespace Client

variable {σ : Type} [Statics σ]

def spin (ending : Ending) : Nat → Prog Error (Client σ) Error
  | 0 => Prog.pending
  | fuel + 1 => do
    let result ← attempt (spinOnce ending)
    match result with
    | .ok _ => spin ending fuel
    | .error e => pure e

/-- What stops the loop, and what is left to come in then. -/
def stop (ending : Ending) (tail : Bytes) : Outcome Error Error × Bytes :=
  match nextFrame rxBufSize tail with
  | .oversized rest => (.ok .bufferTooSmall, rest)
  | _ => (ending.reported, [])

/-- The turn that ends the loop. -/
theorem spin_stop (ending : Ending) (fuel : Nat) {c : Client σ}
    (htail : ∀ f rest, nextFrame rxBufSize c.incoming ≠ .frame f rest) :
    (spin ending (fuel + 1)).run c =
      ((stop ending c.incoming).1, c.leaving (stop ending c.incoming).2) := by
  rw [spin, stop]
  cases hnext : nextFrame rxBufSize c.incoming with
  | frame f rest => exact absurd hnext (htail f rest)
  | oversized rest =>
    have hspin : (spinOnce ending).run c = (.err .bufferTooSmall, c.leaving rest) :=
      bind_abort (hear_oversized ending hnext) rfl _
    have hattempt : (attempt (spinOnce ending)).run c =
        (.ok (.error .bufferTooSmall), c.leaving rest) := by
      simp only [attempt, hspin]
    rw [bind_ok hattempt]
    rfl
  | cut =>
    have hspin : (spinOnce ending).run c = (ending.outcome, c.leaving []) := by
      rw [spinOnce, bind_abort (hear_cut ending hnext) ending.isOk_outcome, Ending.abort_outcome]
    rw [run_bind]
    simp only [attempt, hspin]
    cases ending <;> rfl

theorem spinOnce_run (ending : Ending) {c : Client σ} {f rest : Bytes}
    (hin : c.incoming = framed f ++ rest) (hfit : f.length ≤ rxBufSize)
    (hdecode : c.offered f = .ok ()) : (spinOnce ending).run c = (.ok (), c.took f rest) := by
  have hoffer : (offer f).run (c.took f rest) = (.ok (), c.took f rest) := by
    rw [offer_run]
    exact congrArg (·, c.took f rest) hdecode
  rw [spinOnce, bind_ok (hear_framed ending hin hfit), hoffer]

/-- A turn that does not. -/
theorem spin_turn (ending : Ending) (fuel : Nat) {c : Client σ} {f rest : Bytes}
    (hin : c.incoming = framed f ++ rest) (hfit : f.length ≤ rxBufSize)
    (hdecode : c.offered f = .ok ()) :
    (spin ending (fuel + 1)).run c = (spin ending fuel).run (c.took f rest) := by
  have hattempt : (attempt (spinOnce ending)).run c = (.ok (.ok ()), c.took f rest) := by
    simp only [attempt, spinOnce_run ending hin hfit hdecode]
  rw [spin, bind_ok hattempt]

theorem spin_run (ending : Ending) {frames : List Bytes} {tail : Bytes} {fuel : Nat}
    {c : Client σ} (hcut : CutsInto rxBufSize c.incoming frames tail)
    (hdecode : ∀ f ∈ frames, c.offered f = .ok ()) (hfuel : frames.length < fuel) :
    (spin ending fuel).run c = ((stop ending tail).1, c.tookAll frames (stop ending tail).2) := by
  obtain ⟨hin, hfits, htail⟩ := hcut
  obtain ⟨fuel, rfl⟩ : ∃ n, fuel = n + 1 := ⟨fuel - 1, by omega⟩
  induction frames generalizing c fuel with
  | nil =>
    rw [stream_nil, List.nil_append] at hin
    rw [← hin] at htail ⊢
    rw [spin_stop ending fuel htail, tookAll, List.append_nil]
    rfl
  | cons f frames ih =>
    rw [stream_cons, List.append_assoc] at hin
    rw [List.length_cons] at hfuel
    obtain ⟨fuel, rfl⟩ : ∃ n, fuel = n + 1 := ⟨fuel - 1, by omega⟩
    rw [spin_turn ending _ hin (hfits f List.mem_cons_self) (hdecode f List.mem_cons_self),
      ← tookAll_cons f frames (stream frames ++ tail)]
    have hdecode' (f' : Bytes) (hf' : f' ∈ frames) : c.offered f' = .ok () :=
      hdecode f' (List.mem_cons_of_mem f hf')
    have hfits' (f' : Bytes) (hf' : f' ∈ frames) : f'.length ≤ rxBufSize :=
      hfits f' (List.mem_cons_of_mem f hf')
    exact ih (c := c.took f (stream frames ++ tail)) hdecode' rfl hfits' fuel (by omega)

end Client

section
variable {T σ : Type} [Statics σ] [ReadWrite T] {ending : Ending}

theorem simulates_spin {I : Bytes → Bytes → T → Prop} {prior : Bytes} {sid : UInt8}
    (hfeed : ∀ out, Feed ending fun bs s => I bs out s) (fuel : Nat) :
    Simulates (Mirrors I prior sid) (spin fuel : Call T σ Error) (Client.spin ending fuel) := by
  induction fuel with
  | zero => exact Simulates.pending
  | succ fuel ih =>
    refine (simulates_spinOnce hfeed).attempt.bind fun result => ?_
    cases result with
    | ok _ => exact ih
    | error e => exact Simulates.pure e

/-- Over any stream of bytes, `spin` reads exactly the frames up to the first that is longer
than the buffer or does not come in as a whole, and returns the error that says which. What
has been written can be part of `I`, as nothing is written. -/
theorem spin_reads_to_first_failure {I : Bytes → T → Prop} (hfeed : Feed ending I)
    {w : World T σ} {bs : Bytes} (hwire : I bs w.session.transport) :
    (∃ frames tail, CutsInto rxBufSize bs frames tail) ∧
      ∀ frames tail, CutsInto rxBufSize bs frames tail →
        (∀ f ∈ frames, (w.client bs).offered f = .ok ()) → ∀ fuel, frames.length < fuel →
          ∃ w', (spin fuel).run w = ((Client.stop ending tail).1, w') ∧
            receivedFrames w'.history = receivedFrames w.history ++ frames ∧
            sentFrames w'.history = sentFrames w.history ∧
            I (Client.stop ending tail).2 w'.session.transport := by
  refine ⟨exists_cut rxBufSize bs, fun frames tail hcut hdecode fuel hfuel => ?_⟩
  have hstart : Mirrors (fun bs _ t => I bs t) [] w.session.sessionId w (w.client bs) :=
    ⟨rfl, hwire, rfl⟩
  obtain ⟨houtcome, hend⟩ := simulates_spin (fun _ => hfeed) fuel w _ hstart
  rw [Client.spin_run ending (c := w.client bs) hcut hdecode hfuel] at houtcome hend
  exact ⟨_, Prod.ext houtcome rfl, congrArg Client.heard hend.view, congrArg Client.said hend.view,
    hend.wire⟩

end

/-- A frame, and a length prefix of 65535. -/
def oversizedNext [Target] : World Wire Unit :=
  start ⟨framed (statusFrame 9 0) ++ [255, 255, 0], [], [1, 0]⟩ 0x81 ⟨0, 0, 0, 0⟩ []

/-- The frame is read, and the prefix of the next; then `spin` gives up with a byte unread. -/
theorem spin_over_wire : letI := rp2040 true
    ∃ w', (spin 2).run oversizedNext = (.ok .bufferTooSmall, w') ∧
      receivedFrames w'.history = [statusFrame 9 0] ∧ sentFrames w'.history = [] ∧
      w'.session.transport.incoming = [0] ∧ w'.session.transport.outgoing = [] := by
  generalize rp2040 true = target
  have hcut : CutsInto rxBufSize (framed (statusFrame 9 0) ++ [255, 255, 0]) [statusFrame 9 0]
      [255, 255, 0] := by
    refine ⟨rfl, ?_, fun f rest h => ?_⟩
    · decide
    · cases h
  have hdecode : ∀ f ∈ [statusFrame 9 0], (oversizedNext.client (framed (statusFrame 9 0) ++
      [255, 255, 0])).offered f = .ok () := by
    intro f hf
    rw [List.mem_singleton.mp hf]
    exact Client.offered_of_none (show dataOf 0x81 (statusFrame 9 0) = none by decide)
  obtain ⟨w', hrun, hheard, hsaid, hin, hout⟩ := (spin_reads_to_first_failure (Wire.peer.feed [])
    (w := oversizedNext) ⟨rfl, rfl⟩).2 _ _ hcut hdecode 2 (by decide)
  exact ⟨w', hrun, hheard, hsaid, hin, hout⟩

end MicroXrceDds
