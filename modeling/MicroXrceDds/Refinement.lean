import MicroXrceDds.Dispatch
import MicroXrceDds.Publish

/-!
# The session refines the router

Whatever a call does to the counters, the slots and the dispatch table, the events it
adds to the history do to the router.
-/
namespace MicroXrceDds

open Prog Session

variable {T σ : Type} [Statics σ]

/-- The world after a frame has been read into `rx_buf`. -/
def World.holding (frame : Bytes) (w : World T σ) : World T σ :=
  (w.setRxBuf (w.session.rxBuf.overwrite 0 frame)).log (.received frame)

section
variable [ReadWrite T]

theorem readExact_cases {R : World T σ → World T σ → Prop} (hR : Stable R) (len : Nat)
    (w : World T σ) :
    (∃ bs w₁, R w w₁ ∧ bs.length = len ∧ (readExact len : Call T σ Bytes).run w = (.ok bs, w₁)) ∨
    (∃ o w₁, R w w₁ ∧ o.isOk = false ∧ (readExact len : Call T σ Bytes).run w = (o, w₁)) := by
  have hwithin := hR.readExact len w
  cases hrun : (readExact len : Call T σ Bytes).run w with
  | mk o w₁ =>
    rw [hrun] at hwithin
    cases o with
    | ok bs =>
      have hlen := hrun
      rw [readExact_eq] at hlen
      exact .inl ⟨bs, w₁, hwithin, Framing.readLoop_length len len hlen, rfl⟩
    | _ => exact .inr ⟨_, w₁, hwithin, rfl, rfl⟩

theorem not_isOk_abort {ε α β : Type} {o : Outcome ε α} (h : o.isOk = false) :
    (o.abort : Outcome ε β).isOk = false := by
  cases o <;> simp_all

theorem take_overwrite {n : Nat} (buf : Buffer UInt8 n) {bs : Bytes} (h : bs.length ≤ n) :
    (buf.overwrite 0 bs).cells.take bs.length = bs := by
  rw [Buffer.cells_overwrite (by omega), List.take_zero, List.nil_append, List.take_left]

/-- Behind a frame that has been read the call goes on with its bytes. -/
theorem withFrame_of_read {α : Type} (k : World T σ → Bytes → Call T σ α) {w w₁ : World T σ}
    {frame : Bytes} (hfit : frame.length ≤ rxBufSize)
    (hread : (readOneFrame : Call T σ Nat).run w = (.ok frame.length, w₁.holding frame)) :
    (withFrame k).run w = (k (w₁.holding frame) frame).run (w₁.holding frame) := by
  have hcells : (slice (w₁.holding frame).session.rxBuf.cells 0 frame.length :
      Call T σ Bytes) = pure frame := by
    rw [slice_of_le (Nat.zero_le _) (by rw [Buffer.size]; exact hfit), List.drop_zero, Nat.sub_zero]
    exact congrArg pure (take_overwrite w₁.session.rxBuf hfit)
  rw [withFrame, bind_ok hread, run_get_bind, hcells, run_pure_bind]

/-- Either a whole frame of at most 768 bytes is in the buffer and the call goes on with
it, or the call ends before; until then it only waits. -/
theorem withFrame_cases {R : World T σ → World T σ → Prop} (hR : Stable R) {α : Type}
    (k : World T σ → Bytes → Call T σ α) (w : World T σ) :
    (∃ frame w₁, R w w₁ ∧ frame.length ≤ rxBufSize ∧
      (withFrame k).run w = (k (w₁.holding frame) frame).run (w₁.holding frame)) ∨
    (∃ o w₁, R w w₁ ∧ o.isOk = false ∧ (withFrame k).run w = (o, w₁)) := by
  rcases readExact_cases hR 2 w with ⟨lenBuf, w₁, hw₁, -, hrun⟩ | ⟨o, w₁, hw₁, ho, hrun⟩
  · by_cases hbig : rxBufSize < Framing.frameLen lenBuf
    · right
      have hread : (readOneFrame : Call T σ Nat).run w = (.err .bufferTooSmall, w₁) := by
        rw [readOneFrame, bind_ok hrun]
        simp only [if_pos hbig, run_throw]
      exact ⟨.err .bufferTooSmall, w₁, hw₁, rfl, bind_abort hread rfl _⟩
    · rcases readExact_cases hR (Framing.frameLen lenBuf) w₁ with
        ⟨frame, w₂, hw₂, hlen, hrun₂⟩ | ⟨o, w₂, hw₂, ho, hrun₂⟩
      · left
        have hread : (readOneFrame : Call T σ Nat).run w =
            (.ok frame.length, w₂.holding frame) := by
          rw [readOneFrame, bind_ok hrun]
          simp only [if_neg hbig]
          rw [bind_ok hrun₂, hlen]
          rfl
        have hfit : frame.length ≤ rxBufSize := by omega
        exact ⟨frame, w₂, hR.trans _ _ _ hw₁ hw₂, hfit, withFrame_of_read k hfit hread⟩
      · right
        have hread : (readOneFrame : Call T σ Nat).run w = (o.abort, w₂) := by
          rw [readOneFrame, bind_ok hrun]
          simp only [if_neg hbig]
          exact bind_abort hrun₂ ho _
        exact ⟨_, w₂, hR.trans _ _ _ hw₁ hw₂, not_isOk_abort (not_isOk_abort ho),
          bind_abort hread (not_isOk_abort ho) _⟩
  · right
    have hread : (readOneFrame : Call T σ Nat).run w = (o.abort, w₁) := bind_abort hrun ho _
    exact ⟨_, w₁, hw₁, not_isOk_abort (not_isOk_abort ho), bind_abort hread (not_isOk_abort ho) _⟩

end

/-- From one world to the next these events were added to the history, and the routing
state moved as they say. -/
structure Trail (w : World T σ) (es : List (Event σ)) (w' : World T σ) : Prop where
  history : w'.history = w.history ++ es
  router : w.router.Steps es w'.router

namespace Trail

/-- Nothing that the history or the router sees. -/
theorem same {w w' : World T σ} (hhist : w'.history = w.history) (hrouter : w'.router = w.router) :
    Trail w [] w' := by
  constructor
  · rw [hhist, List.append_nil]
  · rw [hrouter]
    exact .nil _

theorem refl (w : World T σ) : Trail w [] w := same rfl rfl

theorem event {w w' : World T σ} {e : Event σ} (hhist : w'.history = w.history ++ [e])
    (hstep : w.router.Step e w'.router) : Trail w [e] w' := ⟨hhist, .single hstep⟩

theorem trans {w w₁ w₂ : World T σ} {xs ys : List (Event σ)} (h : Trail w xs w₁)
    (h' : Trail w₁ ys w₂) : Trail w (xs ++ ys) w₂ := by
  refine ⟨?_, h.router.append h'.router⟩
  rw [h'.history, h.history, List.append_assoc]

end Trail

/-- A trail of events of one kind. -/
def Follows (P : Event σ → Prop) (w w' : World T σ) : Prop :=
  ∃ es, (∀ e ∈ es, P e) ∧ Trail w es w'

namespace Follows

variable {P Q : Event σ → Prop}

theorem refl (w : World T σ) : Follows P w w :=
  ⟨[], List.forall_mem_nil _, .refl w⟩

theorem trans {w w₁ w₂ : World T σ} (h : Follows P w w₁) (h' : Follows P w₁ w₂) :
    Follows P w w₂ := by
  obtain ⟨xs, hxs, ht⟩ := h
  obtain ⟨ys, hys, ht'⟩ := h'
  exact ⟨xs ++ ys, List.forall_mem_append.mpr ⟨hxs, hys⟩, ht.trans ht'⟩

theorem of_trail {w w' : World T σ} {e : Event σ} (h : Trail w [e] w') (he : P e) :
    Follows P w w' := ⟨[e], List.forall_mem_singleton.mpr he, h⟩

theorem of_same {w w' : World T σ} (hhist : w'.history = w.history)
    (hrouter : w'.router = w.router) : Follows P w w' :=
  ⟨[], List.forall_mem_nil _, .same hhist hrouter⟩

theorem mono {w w' : World T σ} (h : Follows P w w') (hPQ : ∀ e, P e → Q e) : Follows Q w w' := by
  obtain ⟨es, hes, ht⟩ := h
  exact ⟨es, fun e he => hPQ e (hes e he), ht⟩

end Follows

theorem World.takeFrom_trail (w : World T σ) (s : σ) :
    Follows (fun e => ∃ s v, e = .taken s v) w (w.takeFrom s) := by
  unfold World.takeFrom
  split
  · exact .refl w
  · next v sub hrecv => exact .of_trail (.event rfl (.taken _ s v sub hrecv)) ⟨s, v, rfl⟩

theorem World.suspend_trail (w : World T σ) :
    Follows (fun e => ∃ s v, e = .taken s v) w w.suspend := by
  have h (turn : List σ) (w : World T σ) :
      Follows (fun e => ∃ s v, e = .taken s v) w (turn.foldl World.takeFrom w) := by
    induction turn generalizing w with
    | nil => exact .refl w
    | cons s turn ih => exact (w.takeFrom_trail s).trans (ih (w.takeFrom s))
  unfold World.suspend
  split
  · exact .refl w
  · next turn rest _ =>
    have hturn : Follows (fun e => ∃ s v, e = .taken s v) w { w with tasks := rest } :=
      .of_same rfl rfl
    exact hturn.trans (h turn { w with tasks := rest })

/-- While the session waits, other tasks take samples and nothing else happens. -/
theorem stable_follows {P : Event σ → Prop} (hP : ∀ s v, P (.taken s v)) :
    Stable (T := T) (Follows P) where
  refl := .refl
  trans _ _ _ := .trans
  suspend w := by
    refine w.suspend_trail.mono ?_
    rintro e ⟨s, v, rfl⟩
    exact hP s v
  transport _ _ := .of_same rfl rfl

/-- What happens in a call that has no request left to send. -/
def Event.Inbound : Event σ → Prop
  | .received _ => True
  | .taken _ _ => True
  | _ => False

theorem stable_inbound : Stable (T := T) (Follows (σ := σ) Event.Inbound) :=
  stable_follows fun _ _ => trivial

/-- A frame in the buffer, and then routed. -/
theorem holding_trail (w : World T σ) (frame : Bytes) :
    Trail w [.received frame]
      ((w.holding frame).withSlots ((w.holding frame).router.route frame).slots) := by
  refine .event rfl ?_
  have h := Router.Step.received w.router frame
  have hroute : ((w.holding frame).withSlots
      ((w.holding frame).router.route frame).slots).router = w.router.route frame := by
    change { w.router with slots := (w.router.route frame).slots } = w.router.route frame
    unfold Router.route
    cases dataOf w.router.sessionId frame with
    | none => rfl
    | some data =>
      simp only [Router.deliver]
      cases w.router.target data.1 <;> rfl
  rw [hroute]
  exact h

section
variable [ReadWrite T]

/-- Reading a frame and routing it, whatever else is made of it. -/
theorem within_withFrame {α : Type} {k : World T σ → Bytes → Call T σ α}
    (hk : ∀ w msg, ((k w msg).run w).2 = w.withSlots (w.router.route msg).slots) :
    Within (Follows Event.Inbound) (withFrame k) := by
  intro w
  rcases withFrame_cases stable_inbound k w with ⟨frame, w₁, hw₁, -, hrun⟩ | ⟨o, w₁, hw₁, -, hrun⟩
  · rw [hrun, hk]
    exact hw₁.trans (.of_trail (holding_trail w₁ frame) trivial)
  · rw [hrun]
    exact hw₁

theorem spinOnce_follows : Within (Follows Event.Inbound) (spinOnce : Call T σ Unit) := by
  rw [spinOnce_eq]
  apply within_withFrame
  intro w msg
  exact dispatchFrame_state msg w

variable [Target]

theorem waitTurn_follows (req : UInt16) :
    Within (Follows Event.Inbound) (waitTurn req : Call T σ Bool) := by
  rw [waitTurn_eq]
  apply within_withFrame
  intro w msg
  exact waitFrame_state msg w req

theorem waitStatusFor_follows (fuel : Nat) (req : UInt16) :
    Within (Follows Event.Inbound) (waitStatusFor fuel req : Call T σ Unit) := by
  induction fuel with
  | zero => exact stable_inbound.pending
  | succ fuel ih =>
    refine stable_inbound.bind (waitTurn_follows req) fun done => ?_
    cases done with
    | true => exact stable_inbound.pure ()
    | false => exact ih

end

end MicroXrceDds
