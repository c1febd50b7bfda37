import MicroXrceDds.ClientWaits
import MicroXrceDds.Spin

/-!
# Answers that come late

When a call stops waiting before its STATUS has come in, the next one finds that STATUS and
takes it for a wrong answer to its own request, and so on: over an agent that answers every
request in turn, the session stays behind, and only `spin_once` lets it catch up.
-/
namespace MicroXrceDds

open Prog

theorem nextReqId_ne_zero (req : UInt16) : nextReqId req ≠ 0 := by
  intro h
  have hnat := toNat_next req
  rw [nextReqId] at h
  rw [h] at hnat
  change 0 = _ at hnat
  split at hnat <;> omega

theorem toNat_iterate_nextReqId {req : UInt16} (hreq : req ≠ 0) (n : Nat) :
    (nextReqId^[n] req).toNat = 1 + (req.toNat - 1 + n) % 65535 := by
  have hpos : req.toNat ≠ 0 := fun h => hreq (UInt16.toNat_inj.mp h)
  have hlt := req.toNat_lt
  induction n with
  | zero =>
    rw [Function.iterate_zero_apply]
    omega
  | succ n ih =>
    rw [Function.iterate_succ_apply', nextReqId, toNat_next, ih]
    split <;> omega

/-- An id comes back only after all the others. -/
theorem iterate_nextReqId_ne {req : UInt16} (hreq : req ≠ 0) {n : Nat} (hpos : 0 < n)
    (hlt : n < 65535) : nextReqId^[n] req ≠ req := by
  intro h
  have hnat := toNat_iterate_nextReqId hreq n
  rw [h] at hnat
  have hreq' : req.toNat ≠ 0 := fun h => hreq (UInt16.toNat_inj.mp h)
  have hbound := req.toNat_lt
  omega

namespace Client

variable {σ : Type} [Statics σ]

/-- Each STATUS among the frames answers one request, in turn from `req` on. -/
inductive InTurn (id : UInt8) (P : Bytes → Prop) : UInt16 → List Bytes → Prop
  | nil (req : UInt16) : InTurn id P req []
  | status {req : UInt16} {f payload : Bytes} {frames : List Bytes} {code : UInt8}
      (fits : f.length ≤ rxBufSize) (sub : submessageOf id f = some (submsgStatus, payload))
      (tells : statusOf payload = some (req, code)) (rest : InTurn id P (nextReqId req) frames) :
      InTurn id P req (f :: frames)
  | other {req : UInt16} {f : Bytes} {frames : List Bytes} (fits : f.length ≤ rxBufSize)
      (passes : P f) (rest : InTurn id P req frames) : InTurn id P req (f :: frames)

/-- The first STATUS to come in answers the request made `n` requests ago. -/
def Behind (n : Nat) (c : Client σ) : Prop :=
  ∃ req frames, req ≠ 0 ∧ InTurn c.sessionId c.Passes req frames ∧ c.incoming = stream frames ∧
    c.numbers.reqId = nextReqId^[n] req

/-- It is behind by at least `lo` and at most `hi` requests, or nothing comes in any more. -/
def Lags (lo hi : Nat) (c : Client σ) : Prop :=
  c.incoming = [] ∨ ∃ n, lo ≤ n ∧ n ≤ hi ∧ Behind n c

theorem Lags.mono {lo lo' hi hi' : Nat} {c : Client σ} (h : Lags lo hi c) (hlo : lo' ≤ lo)
    (hhi : hi ≤ hi') : Lags lo' hi' c := by
  rcases h with hnil | ⟨n, hn, hn', hbehind⟩
  · exact .inl hnil
  · exact .inr ⟨n, hlo.trans hn, hn'.trans hhi, hbehind⟩

/-- A wait for another request than the one answered next fails, or is given up, and has
heard one answer at most. -/
theorem listen_stale (ending : Ending) (fuel : Nat) {req req' : UInt16} {frames : List Bytes}
    {c : Client σ} (hturn : InTurn c.sessionId c.Passes req frames)
    (hin : c.incoming = stream frames) (hne : req ≠ req') :
    ∃ o heard rest, (listen ending fuel req').run c = (o, c.tookAll heard (stream rest)) ∧
      o.isOk = false ∧ (InTurn c.sessionId c.Passes req rest ∨
        InTurn c.sessionId c.Passes (nextReqId req) rest) := by
  induction fuel generalizing c frames with
  | zero =>
    refine ⟨.pending, [], frames, ?_, rfl, .inl hturn⟩
    rw [listen, tookAll, ← hin, List.append_nil]
    rfl
  | succ fuel ih =>
    cases hturn with
    | nil =>
      refine ⟨ending.outcome, [], [], ?_, ending.isOk_outcome, .inl (.nil req)⟩
      rw [listen, bind_abort (hear_nil ending hin) ending.isOk_outcome, Ending.abort_outcome,
        tookAll, ← hin, List.append_nil]
    | @status _ f payload rest code hfit hsub htells hrest =>
      refine ⟨.err .statusReqMismatch, [f], rest, ?_, rfl, .inr hrest⟩
      rw [stream_cons] at hin
      have hverdict : verdict payload req' = .err .statusReqMismatch := by
        rw [verdict, htells]
        exact if_pos hne
      have hheed : (heed req' f).run (c.took f (stream rest)) =
          (.err .statusReqMismatch, c.took f (stream rest)) := by
        rw [heed_status (c := c.took f (stream rest)) hsub, hverdict]
        rfl
      rw [listen, bind_ok (hear_framed ending hin hfit), bind_abort hheed rfl]
      rfl
    | @other _ f rest hfit hpasses hrest =>
      rw [stream_cons] at hin
      obtain ⟨o, heard, rest', hrun, ho, hturn'⟩ := ih (c := c.took f (stream rest)) hrest rfl
      refine ⟨o, f :: heard, rest', ?_, ho, hturn'⟩
      rw [listen, bind_ok (hear_framed ending hin hfit),
        bind_ok (heed_passes (c := c.took f (stream rest)) hpasses req')]
      rw [← tookAll_cons f heard (stream rest)]
      exact hrun

/-- The next request is one too many already: its wait fails, or is given up. -/
theorem Lags.listen (ending : Ending) (fuel : Nat) {lo hi : Nat} {c : Client σ}
    (h : c.Lags lo hi) (hlo : 0 < lo) (hhi : hi < 65535) (frame : Bytes) :
    ∃ o c', (Client.listen ending fuel c.numbers.reqId).run
        (c.saying frame c.numbers.afterRequest) = (o, c') ∧ o.isOk = false ∧
      c'.Lags lo (hi + 1) := by
  rcases h with hnil | ⟨n, hn, hn', req, frames, hreq, hturn, hin, hlag⟩
  · cases fuel with
    | zero => exact ⟨.pending, _, rfl, rfl, .inl hnil⟩
    | succ fuel =>
      have hhear := hear_nil ending (c := c.saying frame c.numbers.afterRequest) hnil
      refine ⟨_, _, bind_abort hhear ending.isOk_outcome _, ?_, .inl hnil⟩
      rw [Ending.abort_outcome]
      exact ending.isOk_outcome
  · have hne : req ≠ c.numbers.reqId := by
      rw [hlag]
      exact (iterate_nextReqId_ne hreq (by omega) (by omega)).symm
    obtain ⟨o, heard, rest, hrun, ho, hrest⟩ := listen_stale ending fuel
      (c := c.saying frame c.numbers.afterRequest) hturn hin hne
    have hnext : nextReqId c.numbers.reqId = nextReqId^[n + 1] req := by
      rw [hlag, Function.iterate_succ_apply']
    refine ⟨o, _, hrun, ho, .inr ?_⟩
    rcases hrest with hrest | hrest
    · exact ⟨n + 1, by omega, by omega, req, rest, hreq, hrest, rfl, hnext⟩
    · refine ⟨n, hn, by omega, nextReqId req, rest, nextReqId_ne_zero req, hrest, rfl, ?_⟩
      rw [← Function.iterate_succ_apply]
      exact hnext

/-- And so does a client that has not even come to wait for it. -/
theorem Lags.asked {lo hi : Nat} {c : Client σ} (h : c.Lags lo hi) (frame : Bytes) :
    (c.saying frame c.numbers.afterRequest).Lags lo (hi + 1) := by
  rcases h with hnil | ⟨n, hn, hn', req, frames, hreq, hturn, hin, hlag⟩
  · exact .inl hnil
  · have hnext : nextReqId c.numbers.reqId = nextReqId^[n + 1] req := by
      rw [hlag, Function.iterate_succ_apply']
    exact .inr ⟨n + 1, by omega, by omega, req, frames, hreq, hturn, hin, hnext⟩

/-- Drawing an index is nothing to it. -/
theorem Lags.alloc [Target] {lo hi : Nat} {c : Client σ} (h : c.Lags lo hi) (kind : EntityKind) :
    ((Client.alloc kind).run c).2.Lags lo hi := by
  rw [Client.alloc, run_get_bind]
  rcases addIn_cases (ε := Error) (S := Client σ) 16 (c.nextIdx kind).toNat 1 with
    ⟨-, hpanic⟩ | ⟨next, hnext, -⟩
  · rw [hpanic]
    exact h
  · rw [hnext]
    exact h

/-- One `spin_once` catches up by one answer at most. -/
theorem Lags.spin {ending : Ending} {lo hi : Nat} {c : Client σ}
    (h : c.Lags (lo + 1) hi) : ((spinOnce ending).run c).2.Lags lo hi := by
  rcases h with hnil | ⟨n, hn, hn', req, frames, hreq, hturn, hin, hlag⟩
  · rw [spinOnce, bind_abort (hear_nil ending hnil) ending.isOk_outcome]
    exact .inl hnil
  · cases hturn with
    | nil =>
      rw [spinOnce, bind_abort (hear_nil ending hin) ending.isOk_outcome]
      exact .inl hin
    | @status _ f payload rest code hfit hsub htells hrest =>
      rw [stream_cons] at hin
      rw [spinOnce, bind_ok (hear_framed ending hin hfit), offer_run]
      obtain ⟨m, rfl⟩ : ∃ m, n = m + 1 := ⟨n - 1, by omega⟩
      rw [Function.iterate_succ_apply] at hlag
      exact .inr ⟨m, by omega, by omega, nextReqId req, rest, nextReqId_ne_zero req, hrest, rfl,
        hlag⟩
    | @other _ f rest hfit hpasses hrest =>
      rw [stream_cons] at hin
      rw [spinOnce, bind_ok (hear_framed ending hin hfit), offer_run]
      exact .inr ⟨n, by omega, hn', req, rest, hreq, hrest, rfl, hlag⟩

end Client

section
open Session

variable {T σ : Type} [Statics σ] {J : Bytes → T → Prop}

/-- From one world to the next nothing was read. -/
def Unread (J : Bytes → T → Prop) (w w' : World T σ) : Prop :=
  SameClient w w' ∧ ∀ bs, J bs w.session.transport → J bs w'.session.transport

theorem unread_refl (w : World T σ) : Unread J w w := ⟨stable_client.refl w, fun _ h => h⟩

theorem unread_trans (a b c : World T σ) (h : Unread J a b) (h' : Unread J b c) : Unread J a c :=
  ⟨stable_client.trans a b c h.1 h'.1, fun bs hbs => h'.2 bs (h.2 bs hbs)⟩

theorem unread_onTransport {α : Type} {p : Prog Unit T α} (hp : ∀ bs t, J bs t → J bs (p.run t).2) :
    Within (Unread J) (mapIo (World.onTransport p) : Call T σ α) := by
  refine within_mapIo fun w => ⟨stable_client.onTransport p w, fun bs hbs => ?_⟩
  have hrun : (World.onTransport p : Prog Unit (World T σ) α).run w =
      ((p.run w.session.transport).1, w.suspend.setTransport (p.run w.session.transport).2) :=
    onTransport_run rfl
  rw [hrun]
  exact hp bs _ hbs

/-- The session is behind as its client is, with the bytes that are still to come in. -/
def World.Lags (J : Bytes → T → Prop) (lo hi : Nat) (w : World T σ) : Prop :=
  ∃ bs, J bs w.session.transport ∧ (w.client bs).Lags lo hi

namespace World.Lags

variable {lo lo' hi hi' : Nat} {w w' : World T σ}

theorem mono (h : w.Lags J lo hi) (hlo : lo' ≤ lo) (hhi : hi ≤ hi') : w.Lags J lo' hi' := by
  obtain ⟨bs, hbs, hlags⟩ := h
  exact ⟨bs, hbs, hlags.mono hlo hhi⟩

/-- What the client makes of a call, the session makes of it. -/
theorem simulates {α : Type} {p : Call T σ α} {q : Prog Error (Client σ) α} (h : w.Lags J lo hi)
    (hpq : Simulates (Mirrors (fun bs _ t => J bs t) [] w.session.sessionId) p q)
    (hq : ∀ c : Client σ, c.Lags lo hi → (q.run c).2.Lags lo' hi') :
    (p.run w).2.Lags J lo' hi' := by
  obtain ⟨bs, hbs, hlags⟩ := h
  obtain ⟨-, hend⟩ := hpq w (w.client bs) ⟨rfl, hbs, rfl⟩
  refine ⟨_, hend.wire, ?_⟩
  rw [hend.view]
  exact hq _ hlags

end World.Lags

/-- The call fails, panics or is given up as long as the session is behind, and has made one
request at most. -/
def Refused {α : Type} (J : Bytes → T → Prop) (p : Call T σ α) : Prop :=
  ∀ lo hi w, 0 < lo → hi < 65535 → w.Lags J lo hi →
    (p.run w).1.isOk = false ∧ (p.run w).2.Lags J lo (hi + 1)

namespace Refused

variable {α β : Type}

theorem throw (e : Error) : Refused (σ := σ) J (Prog.throw e : Call T σ α) :=
  fun _ hi _ _ _ h => ⟨rfl, h.mono (Nat.le_refl _) (Nat.le_succ hi)⟩

/-- What comes after a refusal does not matter. -/
theorem bind {p : Call T σ α} (hp : Refused J p) (f : α → Call T σ β) : Refused J (p >>= f) := by
  intro lo hi w hlo hhi h
  obtain ⟨ho, hlags⟩ := hp lo hi w hlo hhi h
  rw [bind_abort (Prod.ext rfl rfl : p.run w = ((p.run w).1, (p.run w).2)) ho]
  exact ⟨not_isOk_abort ho, hlags⟩

theorem draw [Target] (kind : EntityKind) {f : UInt16 → Call T σ α} (hf : ∀ idx, Refused J (f idx)) :
    Refused J (alloc kind >>= f) := by
  intro lo hi w hlo hhi h
  have hdrawn : ((alloc kind : Call T σ UInt16).run w).2.Lags J lo hi :=
    h.simulates (simulates_alloc kind) fun c hc => hc.alloc kind
  rcases bind_cases (alloc kind) f w with ⟨idx, w₁, hrun, hbind⟩ | ⟨o, w₁, hrun, ho, hbind⟩
  · rw [hrun] at hdrawn
    rw [hbind]
    exact hf idx lo hi w₁ hlo hhi hdrawn
  · rw [hrun] at hdrawn
    rw [hbind]
    exact ⟨not_isOk_abort ho, hdrawn.mono (Nat.le_refl lo) (Nat.le_succ hi)⟩

/-- The local check on a topic name may refuse the call as well. -/
theorem named {topic : Bytes} {f : Bytes → Call T σ α} (hf : ∀ ddsTopic, Refused J (f ddsTopic)) :
    Refused J (ros2TopicName topicNameMax topic >>= f) := by
  rw [ros2TopicName_eq]
  split
  · rw [pure_bind]
    exact hf _
  · exact (throw _).bind f

end Refused

section
variable [ReadWrite T]

/-- Writes and flushes leave what is still to come in as it is, whether they succeed or not. -/
structure LeavesInput (J : Bytes → T → Prop) : Prop where
  write : ∀ buf bs t, buf ≠ [] → J bs t → J bs ((ReadWrite.write buf).run t).2
  flush : ∀ bs t, J bs t → J bs ((ReadWrite.flush : Prog Unit T Unit).run t).2

theorem LeavesInput.writeFramed (h : LeavesInput J) (frame : Bytes) :
    Within (Unread J) (Framing.writeFramed frame : Call T σ Unit) := by
  refine Framing.within_writeFramed unread_refl unread_trans (fun b buf => ?_) ?_ frame
  · exact unread_onTransport fun bs t ht => h.write (b :: buf) bs t (List.cons_ne_nil b buf) ht
  · exact unread_onTransport h.flush

variable [Target] {ending : Ending}

/-- A request is not answered, even where the agent has got all of it. -/
theorem Refused.request (hfeed : Feed ending J) (hleaves : LeavesInput J)
    (fuel : Nat) {enc : Encoder} {id flags : UInt8} {payload : UInt16 → Bytes}
    (henc : enc.Writes id flags payload) : Refused J (sendRequest fuel enc : Call T σ Unit) := by
  rintro lo hi w hlo hhi ⟨bs, hbs, hlags⟩
  obtain ⟨buf, -, hrun⟩ := sendRequest_run w fuel henc
  have hview : (w.requesting (w.request id flags payload) buf).client bs =
      (w.client bs).saying (w.request id flags payload) w.numbers.afterRequest :=
    client_requesting w _ buf bs
  have hwritten := hleaves.writeFramed (w.request id flags payload)
    (w.requesting (w.request id flags payload) buf)
  rw [hrun]
  rcases bind_cases (Framing.writeFramed (w.request id flags payload))
      (fun _ => waitStatusFor fuel w.session.reqId)
      (w.requesting (w.request id flags payload) buf) with
    ⟨_, w₁, hwrite, hbind⟩ | ⟨o, w₁, hwrite, ho, hbind⟩
  · rw [hwrite] at hwritten
    rw [hbind]
    have hmirrors : Mirrors (fun bs _ t => J bs t) [] w.session.sessionId w₁
        ((w.client bs).saying (w.request id flags payload) w.numbers.afterRequest) :=
      ⟨(hwritten.1 bs).trans hview, hwritten.2 bs hbs, rfl⟩
    obtain ⟨houtcome, hend⟩ := simulates_waitStatusFor (fun _ => hfeed) fuel w.session.reqId w₁ _
      hmirrors
    obtain ⟨o, c', hlisten, ho, hlags'⟩ : ∃ o c', (Client.listen ending fuel w.session.reqId).run
        ((w.client bs).saying (w.request id flags payload) w.numbers.afterRequest) = (o, c') ∧
        o.isOk = false ∧ c'.Lags lo (hi + 1) := hlags.listen ending fuel hlo hhi _
    rw [hlisten] at houtcome hend
    rw [houtcome]
    refine ⟨ho, c'.incoming, hend.wire, ?_⟩
    rw [hend.view]
    exact hlags'
  · rw [hwrite] at hwritten
    rw [hbind]
    refine ⟨not_isOk_abort ho, bs, hwritten.2 bs hbs, ?_⟩
    rw [hwritten.1 bs, hview]
    exact hlags.asked _

def Op.Creates : Op σ → Prop
  | .createNode _ => True
  | @Op.createPublisher _ _ _ _ _ _ => True
  | .createSubscription _ _ _ => True
  | _ => False

theorem Refused.child (hfeed : Feed ending J) (hleaves : LeavesInput J) (fuel : Nat) (oid : UInt16)
    (kind : UInt8) {xml : Bytes} (parent : UInt16) (hxml : xml.length ≤ 320) :
    Refused J (createWithParentEntity fuel oid kind xml parent : Call T σ Unit) := by
  rw [createWithParentEntity_eq]
  exact Refused.request hfeed hleaves fuel (requests_createWithParent oid kind parent hxml).writes

variable {I : Bytes → Bytes → T → Prop}

/-- Each turn takes one frame, whatever is in it. -/
theorem Client.spinning_run (ending : Ending) {stale : List Bytes} {rest : Bytes} {c : Client σ}
    (hin : c.incoming = stream stale ++ rest)
    (hstale : ∀ f ∈ stale, f.length ≤ rxBufSize ∧ c.offered f = .ok ()) :
    runAll (List.replicate stale.length (Op.act ending 0 .spinOnce)) c =
      (List.replicate stale.length (.ok .done), c.tookAll stale rest) := by
  induction stale generalizing c with
  | nil =>
    rw [stream_nil, List.nil_append] at hin
    rw [Client.tookAll, List.append_nil, ← hin]
    rfl
  | cons f stale ih =>
    rw [stream_cons, List.append_assoc] at hin
    obtain ⟨hfit, hdecode⟩ := hstale f List.mem_cons_self
    have hturn : (Op.act ending 0 (.spinOnce : Op σ)).run c =
        (.ok .done, c.took f (stream stale ++ rest)) :=
      bind_ok (Client.spinOnce_run ending hin hfit hdecode) _
    have hrest := ih (c := c.took f (stream stale ++ rest)) rfl fun f' hf' =>
      hstale f' (List.mem_cons_of_mem f hf')
    rw [Client.tookAll_cons] at hrest
    rw [List.length_cons, List.replicate_succ, runAll, hturn, hrest]
    rfl

/-- After a turn for each frame that is left of earlier requests, whatever these frames are, a
create call succeeds on the answers to its own. -/
theorem spinning_catches_up {prior rest : Bytes} {w₀ : World T σ} {spinning : List (Made T σ)}
    {call : Made T σ} {stale frames : List Bytes} {n : Nat} (hpeer : Peer ending I)
    (hruns : Runs w₀ spinning call.before) (hspin : ∀ c ∈ spinning, c.op = .spinOnce)
    (hlen : spinning.length = stale.length)
    (hwire : I (stream stale ++ (stream frames ++ rest))
      (prior ++ stream (sentFrames w₀.history)) w₀.session.transport)
    (hstale : ∀ f ∈ stale, f.length ≤ rxBufSize ∧ (w₀.client []).offered f = .ok ())
    (hasks : call.op.Asks w₀.session.subscriptions n)
    (hfuel : (stream frames ++ rest).length < call.fuel)
    (hroom : ∀ kind, w₀.session.nextIdx kind ≠ 65535)
    (hgranted : Client.AllGranted w₀.session.sessionId (w₀.client []).Passes n w₀.session.reqId
      frames) :
    (∀ c ∈ spinning, c.outcome = .ok .done) ∧ call.outcome.isOk = true ∧
      receivedFrames call.after.history = receivedFrames w₀.history ++ (stale ++ frames) := by
  have hstart : Mirrors I prior w₀.session.sessionId w₀
      (w₀.client (stream stale ++ (stream frames ++ rest))) := ⟨rfl, hwire, rfl⟩
  have hspinFits (c : Made T σ) (hc : c ∈ spinning) : c.op.Fits w₀.session.sessionId := by
    rw [hspin c hc]
    trivial
  have hacts : acts ending spinning =
      List.replicate stale.length (Op.act ending 0 .spinOnce) := by
    rw [List.eq_replicate_iff, acts, List.length_map, hlen]
    refine ⟨rfl, fun p hp => ?_⟩
    obtain ⟨c, hc, rfl⟩ := List.mem_map.mp hp
    rw [hspin c hc]
    rfl
  have hturns := Client.spinning_run ending
    (c := w₀.client (stream stale ++ (stream frames ++ rest))) rfl hstale
  obtain ⟨houtcomes, hcaught⟩ := hstart.run hpeer hruns hspinFits
  rw [hacts, hturns] at houtcomes hcaught
  -- The client has only heard the old frames; the requests start where they would have.
  obtain ⟨r, c', hact, -, hheard⟩ : ∃ r c', (call.op.act ending call.fuel).run
      ((w₀.client (stream stale ++ (stream frames ++ rest))).tookAll stale
        (stream frames ++ rest)) = (.ok r, c') ∧ c'.incoming = rest ∧
      c'.heard = receivedFrames w₀.history ++ stale ++ frames :=
    act_granted ending hasks rfl hfuel hroom hgranted
  have hfits : call.op.Fits w₀.session.sessionId := by
    cases hop : call.op with
    | publish M pub m =>
      rw [hop] at hasks
      cases hasks
    | _ => trivial
  obtain ⟨houtcome, hend⟩ := simulates_call hpeer call.fuel hfits _ _ hcaught
  rw [hact] at houtcome hend
  refine ⟨fun c hc => ?_, ?_, ?_⟩
  · have hmem : c.outcome ∈ spinning.map Made.outcome := List.mem_map_of_mem hc
    rw [houtcomes] at hmem
    exact List.eq_of_mem_replicate hmem
  · change call.outcome = _ at houtcome
    rw [houtcome]
    rfl
  · have hframes := congrArg Client.heard hend.view
    rw [hheard] at hframes
    exact hframes.trans (List.append_assoc _ _ _)

end

end

/-- A call that is dropped before its answer is there, and the agent's answers in full. -/
def answers : List Bytes := [statusFrame 1 0, statusFrame 2 0, statusFrame 3 0, statusFrame 4 0]

def droppedNode [Target] : Made Wire Unit := ⟨.createNode (ascii "n"), 0, answering answers⟩

def turnAfterDrop [Target] : Made Wire Unit := ⟨.spinOnce, 0, droppedNode.after⟩

def nodeAfterTurn [Target] : Made Wire Unit := ⟨.createNode (ascii "n"), 50, turnAfterDrop.after⟩

theorem node_created_after_turn : letI := rp2040 true
    droppedNode.outcome = .pending ∧ nodeAfterTurn.outcome.isOk = true := by
  have hdropped : letI := rp2040 true
      droppedNode.outcome = .pending ∧
        droppedNode.after.session.transport.incoming =
          stream [statusFrame 1 0] ++ (stream answers.tail ++ []) ∧
        droppedNode.after.session.transport.outgoing =
          [] ++ stream (sentFrames droppedNode.after.history) ∧
        droppedNode.after.session.reqId = 2 ∧ droppedNode.after.session.sessionId = 0x81 ∧
        ∀ kind ∈ [EntityKind.participant, .topic, .publisher, .subscriber, .datawriter, .datareader],
          droppedNode.after.session.nextIdx kind ≠ 65535 := by
    decide +kernel
  generalize rp2040 true = target at hdropped ⊢
  obtain ⟨houtcome, hin, hout, hreq, hid, hroom⟩ := hdropped
  refine ⟨houtcome, ?_⟩
  have hbefore : turnAfterDrop.before = droppedNode.after := by rw [turnAfterDrop]
  have hruns : Runs droppedNode.after [turnAfterDrop] nodeAfterTurn.before := by
    have hnext : nodeAfterTurn.before = turnAfterDrop.after := by rw [nodeAfterTurn]
    rw [hnext, ← hbefore]
    exact Runs.single turnAfterDrop
  generalize droppedNode.after = w at hin hout hreq hid hroom hruns
  have hspin : ∀ c ∈ [turnAfterDrop], c.op = .spinOnce := by
    intro c hc
    rw [List.mem_singleton.mp hc]
    rfl
  have hstale : ∀ f ∈ [statusFrame 1 0], f.length ≤ rxBufSize ∧ (w.client []).offered f = .ok () := by
    intro f hf
    rw [List.mem_singleton.mp hf]
    refine ⟨show 14 ≤ 768 by decide, ?_⟩
    have hdata : dataOf w.session.sessionId (statusFrame 1 0) = none := by
      rw [hid]
      decide
    exact Client.offered_of_none hdata
  have hgranted : Client.AllGranted w.session.sessionId (w.client []).Passes 3 w.session.reqId
      answers.tail := by
    have hanswer (req : UInt16) : Client.Granted w.session.sessionId (w.client []).Passes req
        [statusFrame req 0] := by
      rw [hid]
      exact .answer (show 14 ≤ 768 by decide) (grants_statusFrame req (.inl rfl))
    rw [hreq]
    exact ⟨_, _, rfl, hanswer 2, _, _, rfl, hanswer 3, _, _, rfl, hanswer 4, rfl⟩
  have hroom' (kind : EntityKind) : w.session.nextIdx kind ≠ 65535 :=
    hroom kind (by cases kind <;> decide)
  exact (spinning_catches_up Wire.peer hruns hspin rfl ⟨hin, hout⟩ hstale
    (show nodeAfterTurn.op.Asks _ 3 from rfl)
    (show (stream answers.tail ++ []).length < 50 by decide) hroom' hgranted).2.1

end MicroXrceDds
