import MicroXrceDds.Link

/-!
# Talking to the agent over a link

What the session writes over a link and reads from it, as a conversation. With one
request pending the loop of `wait_status_for` reads up to the answer to that request and
stops there.
-/
namespace MicroXrceDds

open Prog Session Conversation

variable {σ : Type} [Statics σ] {sessionId : UInt8}

/-- The link of a session. -/
def World.link (w : World (Link sessionId) σ) : Link sessionId := w.session.transport

/-- The session has read the answers `past` and waits for those to `pending`; apart from
that the part `p` of a frame has been written and the part `t` of one is left to read. -/
def Conversing (past : List (UInt16 × UInt8)) (pending : List UInt16) (p t : Bytes)
    (w : World (Link sessionId) σ) : Prop :=
  w.session.sessionId = sessionId ∧
    ∃ k, w.link.Carries p t k ∧ Stands (requestIn sessionId) Letter.tells past pending k

variable {past : List (UInt16 × UInt8)} {pending : List UInt16}

theorem chunk_pos (l : Link sessionId) {len : Nat} (h : 0 < len) :
    0 < l.chunk len ∧ l.chunk len ≤ len := by
  unfold Link.chunk
  split <;> omega

/-- The world after the agent has had its turn and the client has moved some bytes. -/
def World.linked (l : Link sessionId) (w : World (Link sessionId) σ) : World (Link sessionId) σ :=
  w.suspend.setTransport l

theorem Conversing.turned {p t : Bytes} {w : World (Link sessionId) σ}
    (h : Conversing past pending p t w) (hp : takeFrame p = none) :
    Conversing past pending p t (w.linked w.link.turned) := by
  obtain ⟨hid, k, hcarries, hstands⟩ := h
  obtain ⟨k', hsteps, hcarries'⟩ := hcarries.turned hp
  exact ⟨(congrArg Session.sessionId w.suspend_session).trans hid, k', hcarries',
    hstands.steps hsteps⟩

theorem write_link (buf : Bytes) (w : World (Link sessionId) σ) :
    (Framing.write buf : Call (Link sessionId) σ Nat).run w =
      (.ok (buf.take (w.link.chunk buf.length)).length,
        w.linked (w.link.turned.gave (buf.take (w.link.chunk buf.length)))) :=
  mapIo_onTransport_ok (p := ReadWrite.write buf) rfl

/-- A frame on its way out: the first part has been written, and `rest` comes after what
is being written. -/
def Writing (past : List (UInt16 × UInt8)) (frame rest buf : Bytes)
    (w : World (Link sessionId) σ) : Prop :=
  ∃ p, p ++ buf ++ rest = framed frame ∧ Conversing past [] p [] w

theorem accepting_link (past : List (UInt16 × UInt8)) {frame : Bytes}
    (hframe : frame.length ≤ 65535) (rest : Bytes) :
    Accepting (S := World (Link sessionId) σ) (Writing past frame rest) := by
  rintro buf w hne ⟨p, hp, htalk⟩
  have hchunk := chunk_pos w.link (List.length_pos_iff.mpr hne)
  have hpart : takeFrame p = none := by
    rw [List.append_assoc] at hp
    exact takeFrame_partial hframe hp (by simp [hne])
  have hlen : (buf.take (w.link.chunk buf.length)).length = w.link.chunk buf.length := by
    rw [List.length_take]
    omega
  obtain ⟨hid, k, hcarries, hstands⟩ := htalk.turned hpart
  refine ⟨_, _, write_link buf w, ?_⟩
  rw [hlen]
  refine ⟨hchunk.1, hchunk.2, p ++ buf.take (w.link.chunk buf.length), ?_, hid, k, ?_, hstands⟩
  · rw [List.append_assoc p, List.take_append_drop, hp]
  · refine ⟨?_, hcarries.owed, hcarries.answered, hcarries.toClient, hcarries.short⟩
    have h : w.link.turned.toAgent = stream k.inbox ++ p := hcarries.toAgent
    change w.link.turned.toAgent ++ _ = _
    rw [h, List.append_assoc]

/-- A frame is written whole, and then it is up to the agent. -/
theorem writeFramed_link {frame : Bytes} (hframe : frame.length ≤ 65535)
    {w : World (Link sessionId) σ} (h : Conversing past [] [] [] w) :
    ∃ w', (Framing.writeFramed frame : Call (Link sessionId) σ Unit).run w = (.ok (), w') ∧
      Conversing past (requestIn sessionId frame).toList [] [] w' := by
  obtain ⟨w₁, hrun, p, hp, h₁⟩ := writeAll_run (accepting_link past hframe frame)
    (u16LeBytes (UInt16.ofNat frame.length)) ⟨[], rfl, h⟩
  rw [List.append_nil] at hp
  obtain ⟨w₂, hrun₂, p₂, hp₂, hid, k, hcarries, hstands⟩ := writeAll_run
    (accepting_link past hframe []) frame ⟨p, by rw [List.append_nil, hp], h₁⟩
  rw [List.append_nil, List.append_nil] at hp₂
  have hsent : Conversing past (requestIn sessionId frame).toList [] [] w₂ := by
    refine ⟨hid, k.send frame, ⟨?_, hcarries.owed, hcarries.answered, hcarries.toClient, ?_⟩,
      hstands.send frame⟩
    · rw [hcarries.toAgent, hp₂, List.append_nil]
      exact ((stream_append _ _).trans (congrArg _ (stream_singleton frame))).symm
    · intro f hf
      rcases List.mem_append.mp hf with hf | hf
      · exact hcarries.short f hf
      · rw [List.mem_singleton.mp hf]
        exact hframe
  refine ⟨w₂.linked w₂.link.turned, ?_, hsent.turned rfl⟩
  rw [Framing.writeFramed, bind_ok hrun, bind_ok hrun₂]
  exact mapIo_onTransport_ok rfl

theorem read_link (len : Nat) {w : World (Link sessionId) σ} (h : w.link.turned.toClient ≠ []) :
    (Framing.read len : Call (Link sessionId) σ Bytes).run w =
      (.ok (w.link.turned.toClient.take (w.link.chunk len)),
        w.linked (w.link.turned.took (w.link.chunk len))) := by
  refine mapIo_onTransport_ok (p := ReadWrite.read len) ?_
  change (if _ then _ else _) = _
  exact if_neg h

/-- A frame on its way in: `t` is left of it, either before or after the agent's turn. -/
def Reading (past : List (UInt16 × UInt8)) (pending : List UInt16) (t : Bytes)
    (w : World (Link sessionId) σ) : Prop :=
  Conversing past pending [] t w ∨
    (t ≠ [] ∧ Conversing past pending [] t (w.linked w.link.turned))

theorem delivers_link (past : List (UInt16 × UInt8)) (pending : List UInt16) :
    Delivers (T := Link sessionId) (σ := σ) (Reading past pending) := by
  intro len t w hpos hle h
  have ht : t ≠ [] := by
    rintro rfl
    exact absurd (Nat.lt_of_lt_of_le hpos hle) (Nat.lt_irrefl 0)
  have hturned : Conversing past pending [] t (w.linked w.link.turned) := by
    rcases h with h | ⟨-, h⟩
    · exact h.turned rfl
    · exact h
  obtain ⟨hid, k, hcarries, hstands⟩ := hturned
  have hin : w.link.turned.toClient = t ++ stream (k.flight.map Letter.frame) := hcarries.toClient
  have hchunk := chunk_pos w.link hpos
  refine ⟨w.link.chunk len, w.linked (w.link.turned.took (w.link.chunk len)), ?_, hchunk.1,
    hchunk.2, .inl ⟨hid, k, ⟨hcarries.toAgent, hcarries.owed, hcarries.answered, ?_,
      hcarries.short⟩, hstands⟩⟩
  · rw [read_link len (by rw [hin]; simp [ht]), hin, List.take_append_of_le_length (by omega)]
  · change w.link.turned.toClient.drop _ = _
    rw [hin, List.drop_append_of_le_length (by omega)]

theorem read_link_blocked (len : Nat) {w : World (Link sessionId) σ}
    (h : w.link.turned.toClient = []) :
    (Framing.read len : Call (Link sessionId) σ Bytes).run w =
      (.pending, w.linked w.link.turned) := by
  have hread : (ReadWrite.read len : Prog Unit (Link sessionId) Bytes).run w.link =
      (.pending, w.link.turned) := if_pos h
  change (mapIo (World.onTransport (ReadWrite.read len))).run w = _
  simp only [mapIo, onTransport_run hread]
  rfl

/-- A letter at the head of the stream is the next frame. -/
theorem withFrame_letter {α : Type} (f : World (Link sessionId) σ → Bytes →
      Call (Link sessionId) σ α) {w : World (Link sessionId) σ} {m : Letter sessionId}
    (h : Conversing past pending [] (framed m.frame) (w.linked w.link.turned)) :
    ∃ w', (withFrame f).run w = (f (w'.holding m.frame) m.frame).run (w'.holding m.frame) ∧
      Conversing past pending [] [] w' := by
  have hne : framed m.frame ++ [] ≠ [] := by
    rw [framed, u16LeBytes_eq]
    exact List.cons_ne_nil _ _
  obtain ⟨w', hrun, h' | h'⟩ := withFrame_run (delivers_link past pending) f
    m.length_frame (.inr ⟨hne, by rw [List.append_nil]; exact h⟩)
  · exact ⟨w', hrun, h'⟩
  · exact absurd rfl h'.1

/-- The next frame is one of the agent's own, or an answer to something pending; or there
is none. -/
theorem withFrame_link {α : Type} (f : World (Link sessionId) σ → Bytes →
      Call (Link sessionId) σ α) {w : World (Link sessionId) σ}
    (h : Conversing past pending [] [] w) :
    (∃ w', (withFrame f).run w = (.pending, w')) ∨
    (∃ (o : OtherFrame sessionId) (w' : World (Link sessionId) σ),
      (withFrame f).run w = (f (w'.holding o.frame) o.frame).run (w'.holding o.frame) ∧
      Conversing past pending [] [] w') ∨
    (∃ (req : UInt16) (a : StatusFrame sessionId) (rest : List UInt16)
        (w' : World (Link sessionId) σ), pending.Perm (req :: rest) ∧
      (withFrame f).run w = (f (w'.holding (a.frame req)) (a.frame req)).run
        (w'.holding (a.frame req)) ∧
      Conversing (past ++ [(req, a.status)]) rest [] [] w') := by
  obtain ⟨hid, k, hcarries, hstands⟩ := h.turned rfl
  have hin : w.link.turned.toClient = stream (k.flight.map Letter.frame) := hcarries.toClient
  cases hflight : k.flight with
  | nil =>
    left
    rw [hflight] at hin
    have hblocked : (withFrame f).run w = (.pending, w.linked w.link.turned) := by
      have hread : (readOneFrame : Call (Link sessionId) σ Nat).run w =
          (.pending, w.linked w.link.turned) :=
        bind_abort (bind_abort (read_link_blocked 2 hin) rfl _) rfl _
      exact bind_abort hread rfl _
    exact ⟨_, hblocked⟩
  | cons m ms =>
    right
    rw [hflight] at hin
    have hnext : (w.linked w.link.turned).link.Carries [] (framed m.frame) (k.leaving ms) :=
      ⟨hcarries.toAgent, hcarries.owed, hcarries.answered, hin, hcarries.short⟩
    cases m with
    | other o =>
      left
      have hstands' := hstands.read_other hflight rfl
      obtain ⟨w', hrun, h'⟩ := withFrame_letter f ⟨hid, _, hnext, hstands'⟩
      exact ⟨o, w', hrun, h'⟩
    | status req a =>
      right
      obtain ⟨rest, hperm, hstands'⟩ := hstands.read_answer hflight rfl
      obtain ⟨w', hrun, h'⟩ := withFrame_letter f ⟨hid, _, hnext, hstands'⟩
      exact ⟨req, a, rest, w', hperm, hrun, h'⟩

/-- What the answer to a request makes of the call that waits for it. -/
def Judged (past : List (UInt16 × UInt8)) (req : UInt16) :
    Outcome Error Unit → World (Link sessionId) σ → Prop
  | .ok _, w => ∃ status, Grants status ∧ Conversing (past ++ [(req, status)]) [] [] [] w
  | .err e, w => ∃ status, ¬ Grants status ∧ e = .agentRejected status ∧
      Conversing (past ++ [(req, status)]) [] [] [] w
  | _, _ => True

/-- Only a STATUS ends the wait. -/
theorem waitFrame_other {w : World (Link sessionId) σ} (hid : w.session.sessionId = sessionId)
    (o : OtherFrame sessionId) (req : UInt16) :
    ((waitFrame w req o.frame).run w).1 ≠ .ok true ∧
      ∀ e, ((waitFrame w req o.frame).run w).1 ≠ .err e := by
  obtain ⟨id, payload, hsub, hne⟩ := Letter.submessageOf_other o
  rw [waitFrame, hid, hsub]
  simp only [if_neg hne]
  split
  · rcases bind_cases (dispatchDataPayload payload w.session.subscriptions.items)
      (fun _ => (pure false : Call (Link sessionId) σ Bool)) w with
      ⟨a, w', -, hrun⟩ | ⟨out, w', hdispatch, hout, hrun⟩
    · rw [hrun]
      constructor <;> simp
    · rw [hrun]
      have hne := dispatchDataPayload_ne_err payload w.session.subscriptions.items w
      rw [hdispatch] at hne
      cases out <;> simp_all
  · constructor <;> simp

section
variable [Target]

theorem waitTurn_judged (req : UInt16) :
    Spec (Conversing past [req] [] []) (waitTurn req : Call (Link sessionId) σ Bool)
      (Midway (fun done w => if done then Judged past req (.ok ()) w
        else Conversing past [req] [] [] w) (Judged past req)) := by
  intro w h
  rw [waitTurn_eq]
  rcases withFrame_link (fun w => waitFrame w req) h with
    ⟨w', hrun⟩ | ⟨o, w', hrun, h'⟩ | ⟨req', a, rest, w', hperm, hrun, h'⟩
  · rw [hrun]
    trivial
  · rw [hrun]
    have hstate := waitFrame_state o.frame (w'.holding o.frame) req
    obtain ⟨hnot, hnoerr⟩ := waitFrame_other (w := w'.holding o.frame) h'.1 o req
    have hkept : Conversing past [req] [] []
        ((waitFrame (w'.holding o.frame) req o.frame).run (w'.holding o.frame)).2 := by
      rw [hstate]
      exact h'
    cases hout : ((waitFrame (w'.holding o.frame) req o.frame).run (w'.holding o.frame)).1 with
    | ok done =>
      cases done with
      | true => exact absurd hout hnot
      | false => exact hkept
    | err e => exact absurd hout (hnoerr e)
    | panic => trivial
    | pending => trivial
  · obtain ⟨rfl, rfl⟩ := List.cons.inj (List.perm_singleton.mp hperm.symm)
    have hmsg : submessageOf (w'.holding (a.frame req')).session.sessionId (a.frame req') =
        some (submsgStatus, a.payload req') := by
      change submessageOf w'.session.sessionId _ = _
      rw [h'.1, a.submessageOf_frame]
    rw [hrun, waitFrame_status hmsg (a.statusOf_payload req')]
    split
    · next hbad => exact ⟨a.status, not_or.mpr hbad, rfl, h'⟩
    · next hgood =>
      refine ⟨a.status, ?_, h'⟩
      by_contra hbad
      exact hgood (not_or.mp hbad)

/-- The loop reads up to the answer to its own request. -/
theorem waitStatusFor_judged (fuel : Nat) (req : UInt16) :
    Spec (Conversing past [req] [] []) (waitStatusFor fuel req : Call (Link sessionId) σ Unit)
      (Judged past req) := by
  induction fuel with
  | zero => exact fun w _ => trivial
  | succ fuel ih =>
    refine Spec.bind (waitTurn_judged req) fun done => ?_
    cases done with
    | true => exact fun w h => h
    | false => exact ih

end

end MicroXrceDds
