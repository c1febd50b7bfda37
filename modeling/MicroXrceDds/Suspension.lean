import MicroXrceDds.Session

/-!
# What can happen while a call waits

Every operation of the transport is a suspension point. A relation that holds across
one suspension and across any change of the transport alone holds across all the
framing functions, however the transport behaves.
-/
namespace MicroXrceDds

open Prog

variable {T σ : Type} [Statics σ]

theorem within_mapIo {S α : Type} {R : S → S → Prop} {p : Prog Unit S α} (h : Within R p) :
    Within R (mapIo p) := by
  intro s
  rw [state_mapIo]
  exact h s

namespace Framing

variable {S : Type} [ReadWrite S] {R : S → S → Prop}

/-- What every write stays within, the loop of writes stays within. -/
theorem within_writeLoop (refl : ∀ s, R s s) (trans : ∀ a b c, R a b → R b c → R a c)
    (hwrite : ∀ b buf, Within R (write (b :: buf) : Prog Error S Nat)) (fuel : Nat) (buf : Bytes) :
    Within R (writeLoop fuel buf : Prog Error S Unit) := by
  induction fuel generalizing buf with
  | zero => cases buf <;> exact fun s => refl s
  | succ fuel ih =>
    cases buf with
    | nil => exact fun s => refl s
    | cons b buf =>
      refine Within.bind trans (hwrite b buf) fun accepted => ?_
      cases accepted with
      | zero => exact fun s => refl s
      | succ k =>
        simp only
        split
        · exact ih _
        · exact fun s => refl s

theorem within_writeFramed (refl : ∀ s, R s s) (trans : ∀ a b c, R a b → R b c → R a c)
    (hwrite : ∀ b buf, Within R (write (b :: buf) : Prog Error S Nat))
    (hflush : Within R (flush : Prog Error S Unit)) (payload : Bytes) :
    Within R (writeFramed payload : Prog Error S Unit) := by
  refine Within.bind trans (within_writeLoop refl trans hwrite _ _) fun _ => ?_
  exact Within.bind trans (within_writeLoop refl trans hwrite _ _) fun _ => hflush

/-- And what every read stays within, reading a frame stays within. -/
theorem within_readLoop (refl : ∀ s, R s s) (trans : ∀ a b c, R a b → R b c → R a c)
    (hread : ∀ len, Within R (read len : Prog Error S Bytes)) (fuel left : Nat) :
    Within R (readLoop fuel left : Prog Error S Bytes) := by
  induction fuel generalizing left with
  | zero => cases left <;> exact fun s => refl s
  | succ fuel ih =>
    cases left with
    | zero => exact fun s => refl s
    | succ left =>
      refine Within.bind trans (hread (left + 1)) fun got => ?_
      cases got with
      | nil => exact fun s => refl s
      | cons b bs =>
        simp only
        split
        · exact Within.bind trans (ih _) fun rest => Within.pure refl _
        · exact fun s => refl s

theorem within_readFramed (refl : ∀ s, R s s) (trans : ∀ a b c, R a b → R b c → R a c)
    (hread : ∀ len, Within R (read len : Prog Error S Bytes)) (bufLen : Nat) :
    Within R (readFramed bufLen : Prog Error S Bytes) := by
  refine Within.bind trans (within_readLoop refl trans hread _ _) fun lenBuf => ?_
  simp only
  split
  · exact fun s => refl s
  · exact within_readLoop refl trans hread _ _

end Framing

namespace Session

variable [ReadWrite T]

/-- The session's own `read_exact` is the one of `framing.rs`. -/
theorem readLoop_eq (fuel left : Nat) :
    (readLoop fuel left : Call T σ Bytes) = Framing.readLoop fuel left := by
  induction fuel generalizing left with
  | zero => cases left <;> rfl
  | succ fuel ih =>
    cases left with
    | zero => rfl
    | succ left =>
      rw [readLoop, Framing.readLoop]
      congr 1
      funext got
      cases got with
      | nil => rfl
      | cons b bs => simp only [ih]

theorem readExact_eq (len : Nat) : (readExact len : Call T σ Bytes) = Framing.readExact len :=
  readLoop_eq len len

end Session

/-- A relation that waiting on the transport stays within. -/
structure Stable (R : World T σ → World T σ → Prop) : Prop where
  refl : ∀ w, R w w
  trans : ∀ a b c, R a b → R b c → R a c
  suspend : ∀ w, R w w.suspend
  transport : ∀ w t, R w (w.setTransport t)

namespace Stable

variable {R : World T σ → World T σ → Prop}

theorem pure {ε α : Type} (hR : Stable R) (a : α) : Within R (Pure.pure a : Prog ε (World T σ) α) :=
  Within.pure hR.refl a

theorem bind {ε α β : Type} (hR : Stable R) {p : Prog ε (World T σ) α}
    {f : α → Prog ε (World T σ) β} (hp : Within R p) (hf : ∀ a, Within R (f a)) :
    Within R (p >>= f) := Within.bind hR.trans hp hf

theorem throw {ε α : Type} (hR : Stable R) (e : ε) :
    Within R (Prog.throw e : Prog ε (World T σ) α) := fun w => hR.refl w

theorem panic {ε α : Type} (hR : Stable R) : Within R (Prog.panic : Prog ε (World T σ) α) :=
  fun w => hR.refl w

theorem pending {ε α : Type} (hR : Stable R) : Within R (Prog.pending : Prog ε (World T σ) α) :=
  fun w => hR.refl w

theorem onTransport {α : Type} (hR : Stable R) (p : Prog Unit T α) :
    Within R (World.onTransport p : Prog Unit (World T σ) α) := by
  intro w
  rw [World.onTransport, run_modify_bind]
  exact hR.trans _ _ _ (hR.suspend w) (hR.transport w.suspend _)

section
variable [ReadWrite T]

theorem read (hR : Stable R) (len : Nat) :
    Within R (Framing.read len : Prog Error (World T σ) Bytes) :=
  within_mapIo (hR.onTransport _)

theorem write (hR : Stable R) (buf : Bytes) :
    Within R (Framing.write buf : Prog Error (World T σ) Nat) :=
  within_mapIo (hR.onTransport _)

theorem flush (hR : Stable R) : Within R (Framing.flush : Prog Error (World T σ) Unit) :=
  within_mapIo (hR.onTransport _)

theorem writeFramed (hR : Stable R) (payload : Bytes) :
    Within R (Framing.writeFramed payload : Prog Error (World T σ) Unit) :=
  Framing.within_writeFramed hR.refl hR.trans (fun b buf => hR.write (b :: buf)) hR.flush payload

theorem readExact (hR : Stable R) (len : Nat) :
    Within R (Session.readExact len : Call T σ Bytes) := by
  rw [Session.readExact_eq]
  exact Framing.within_readLoop hR.refl hR.trans hR.read len len

end

end Stable

@[simp] theorem World.takeFrom_session (w : World T σ) (s : σ) :
    (w.takeFrom s).session = w.session := by
  unfold World.takeFrom
  split <;> rfl

@[simp] theorem World.suspend_session (w : World T σ) : w.suspend.session = w.session := by
  have h (turn : List σ) (w : World T σ) : (turn.foldl World.takeFrom w).session = w.session := by
    induction turn generalizing w with
    | nil => rfl
    | cons s turn ih => rw [List.foldl_cons, ih, World.takeFrom_session]
  unfold World.suspend
  split
  · rfl
  · rw [h]

theorem onTransport_run {α : Type} {p : Prog Unit T α} {w : World T σ} {o : Outcome Unit α} {t : T}
    (h : p.run w.session.transport = (o, t)) :
    (World.onTransport p : Prog Unit (World T σ) α).run w = (o, w.suspend.setTransport t) := by
  rw [World.onTransport, run_modify_bind, run_zoom, World.suspend_session, h]

/-- An operation that succeeds, seen by the framing functions. -/
theorem mapIo_onTransport_ok {α : Type} {p : Prog Unit T α} {w : World T σ} {a : α} {t : T}
    (h : p.run w.session.transport = (.ok a, t)) :
    (mapIo (World.onTransport p : Prog Unit (World T σ) α)).run w =
      (.ok a, w.suspend.setTransport t) := mapIo_ok (onTransport_run h)

/-- Nothing of the session moves while it waits, except its transport. -/
theorem stable_session {A : Type} (f : Session T σ → A)
    (hf : ∀ s t, f { s with transport := t } = f s) :
    Stable fun w w' : World T σ => f w'.session = f w.session where
  refl _ := rfl
  trans _ _ _ h h' := h'.trans h
  suspend w := by rw [World.suspend_session]
  transport w t := hf w.session t

end MicroXrceDds
