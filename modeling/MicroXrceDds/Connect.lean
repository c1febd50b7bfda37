import MicroXrceDds.ClientRefinement

/-!
# Connecting

One CREATE_CLIENT goes out, one frame comes in, and it decides. What comes behind that frame
is left to the session, which starts with it.
-/
namespace MicroXrceDds

open Prog Session

/-- The session after a good answer. -/
def welcomed {T σ : Type} (sessionId : UInt8) (key : ClientKey) (t : T) :
    Outcome Error Unit → Outcome Error (Session T σ)
  | .ok _ => .ok (connected t sessionId key)
  | o => o.abort

section
variable {T σ : Type} [Target] [ReadWrite T] {ending : Ending} {I : Bytes → Bytes → T → Prop}

theorem connect_run (hpeer : Peer ending I) (sessionId : UInt8) (key : ClientKey) {bs out : Bytes}
    {t : T} (ht : I bs out t) :
    match nextFrame 128 bs with
    | .frame reply rest => ∃ t', (connect sessionId key : Prog Error T (Session T σ)).run t =
        (welcomed sessionId key t' (agentVerdict sessionId reply), t') ∧
      I rest (out ++ framed (createClientMessage sessionId key 512)) t'
    | .oversized rest => ∃ t', (connect sessionId key : Prog Error T (Session T σ)).run t =
        (.err .bufferTooSmall, t') ∧
      I rest (out ++ framed (createClientMessage sessionId key 512)) t'
    | .cut => ∃ t', (connect sessionId key : Prog Error T (Session T σ)).run t =
        (ending.outcome, t') ∧
      I [] (out ++ framed (createClientMessage sessionId key 512)) t' := by
  obtain ⟨t₁, hwrite, hout⟩ := (hpeer.sink bs).writeFramed (createClientMessage sessionId key 512) ht
  have hread := (hpeer.feed _).readFramed_run 128 hout
  rw [connect_eq, bind_ok hwrite]
  cases hnext : nextFrame 128 bs with
  | frame reply rest =>
    rw [hnext] at hread
    obtain ⟨t₂, hrun, hin⟩ := hread
    refine ⟨t₂, ?_, hin⟩
    rw [bind_ok hrun, run_bind, parseStatusAgent_verdict]
    cases agentVerdict sessionId reply <;> rfl
  | oversized rest =>
    rw [hnext] at hread
    obtain ⟨t₂, hrun, hin⟩ := hread
    exact ⟨t₂, bind_abort hrun rfl _, hin⟩
  | cut =>
    rw [hnext] at hread
    obtain ⟨t₂, hrun, hin⟩ := hread
    refine ⟨t₂, ?_, hin⟩
    rw [bind_abort hrun ending.isOk_outcome, Ending.abort_outcome]

/-- Whatever comes in and however it ends: CREATE_CLIENT is written, whole and alone, and there
is a session exactly if what comes in starts with a frame of at most 128 bytes that is a good
answer. Such a frame, good or not, is read whole, and nothing behind it. -/
theorem connect_succeeds_iff (hpeer : Peer ending I) (sessionId : UInt8) (key : ClientKey)
    {bs out : Bytes} {t : T} (ht : I bs out t) :
    ∃ o rest t', (connect sessionId key : Prog Error T (Session T σ)).run t = (o, t') ∧
      I rest (out ++ framed (createClientMessage sessionId key 512)) t' ∧
      (o.isOk = true ↔ ∃ reply rest', bs = framed reply ++ rest' ∧ reply.length ≤ 128 ∧
        agentVerdict sessionId reply = .ok ()) ∧
      ∀ reply rest', bs = framed reply ++ rest' → reply.length ≤ 128 →
        rest = rest' ∧ o = welcomed sessionId key t' (agentVerdict sessionId reply) := by
  have hrun := connect_run (σ := σ) hpeer sessionId key ht
  have hwhole {reply rest : Bytes} (hbs : bs = framed reply ++ rest) (hfit : reply.length ≤ 128) :
      nextFrame 128 bs = .frame reply rest := by
    rw [hbs]
    exact nextFrame_framed (by omega) hfit rest
  have hnone (hother : ∀ f rest, nextFrame 128 bs ≠ .frame f rest) {reply rest : Bytes}
      (hbs : bs = framed reply ++ rest) : ¬ reply.length ≤ 128 :=
    fun hfit => hother reply rest (hwhole hbs hfit)
  cases hnext : nextFrame 128 bs with
  | frame reply rest =>
    rw [hnext] at hrun
    obtain ⟨t₁, hrun, hin⟩ := hrun
    obtain ⟨hbs, hfit, -⟩ := nextFrame_eq_frame hnext
    have hfirst {reply' rest' : Bytes} (hbs' : bs = framed reply' ++ rest')
        (hfit' : reply'.length ≤ 128) : reply = reply' ∧ rest = rest' := by
      have hsame := hnext.symm.trans (hwhole hbs' hfit')
      cases hsame
      exact ⟨rfl, rfl⟩
    refine ⟨_, rest, t₁, hrun, hin, ⟨fun hok => ?_, ?_⟩, fun reply' rest' hbs' hfit' => ?_⟩
    · refine ⟨reply, rest, hbs, hfit, ?_⟩
      cases hverdict : agentVerdict sessionId reply with
      | ok _ => rfl
      | _ =>
        rw [hverdict] at hok
        cases hok
    · rintro ⟨reply', rest', hbs', hfit', hverdict⟩
      rw [(hfirst hbs' hfit').1, hverdict]
      rfl
    · obtain ⟨rfl, rfl⟩ := hfirst hbs' hfit'
      exact ⟨rfl, rfl⟩
  | oversized rest =>
    rw [hnext] at hrun
    obtain ⟨t₁, hrun, hin⟩ := hrun
    have hnone := @hnone fun f rest h => by cases hnext.symm.trans h
    refine ⟨_, rest, t₁, hrun, hin, ⟨nofun, ?_⟩, fun reply rest' hbs hfit => ?_⟩
    · rintro ⟨reply, rest', hbs, hfit, -⟩
      exact absurd hfit (hnone hbs)
    · exact absurd hfit (hnone hbs)
  | cut =>
    rw [hnext] at hrun
    obtain ⟨t₁, hrun, hin⟩ := hrun
    have hnone := @hnone fun f rest h => by cases hnext.symm.trans h
    refine ⟨_, [], t₁, hrun, hin, ⟨fun hok => ?_, ?_⟩, fun reply rest' hbs hfit => ?_⟩
    · rw [ending.isOk_outcome] at hok
      cases hok
    · rintro ⟨reply, rest', hbs, hfit, -⟩
      exact absurd hfit (hnone hbs)
    · exact absurd hfit (hnone hbs)

end

/-- A good answer, and the first byte of something else. -/
def welcome : Bytes := [0x81, 0, 0, 0, submsgStatusAgent, flagLe, 2, 0, statusOk, 0]

def welcoming : Wire := ⟨framed welcome ++ [7], [], [0, 3, 1]⟩

theorem wire_connects : letI := rp2040 true
    ∃ t', (connect 0x81 ⟨1, 2, 3, 4⟩ : Prog Error Wire (Session Wire Unit)).run welcoming =
        (.ok (connected t' 0x81 ⟨1, 2, 3, 4⟩), t') ∧
      t'.incoming = [7] ∧ t'.outgoing = framed (createClientMessage 0x81 ⟨1, 2, 3, 4⟩ 512) := by
  generalize rp2040 true = target
  obtain ⟨o, rest, t', hrun, ⟨hin, hout⟩, -, hfirst⟩ := connect_succeeds_iff (σ := Unit) Wire.peer
    0x81 ⟨1, 2, 3, 4⟩ (show welcoming.incoming = _ ∧ welcoming.outgoing = _ from ⟨rfl, rfl⟩)
  obtain ⟨hrest, houtcome⟩ := hfirst welcome [7] rfl (by decide)
  have hverdict : agentVerdict 0x81 welcome = .ok () := by decide
  rw [houtcome, hverdict] at hrun
  exact ⟨t', hrun, hin.trans hrest, hout⟩

section
variable {T σ : Type} [Target] [ReadWrite T] {ending : Ending} {I : Bytes → Bytes → T → Prop}

/-- The client that a good answer leaves, with these bytes still to come in. -/
def Client.fresh (sessionId : UInt8) (key : ClientKey) (incoming : Bytes) : Client σ where
  sessionId := sessionId
  clientKey := key
  numbers := ⟨0, 1⟩
  nextIdx _ := 1
  drIds _ := 0
  table := Bounded.empty
  incoming := incoming
  heard := []
  said := []

theorem connect_ok (hpeer : Peer ending I) {sessionId : UInt8} {key : ClientKey} {bs out : Bytes}
    {t t' : T} (ht : I bs out t) {session : Session T σ}
    (h : (connect sessionId key).run t = (.ok session, t')) :
    ∃ reply rest, nextFrame 128 bs = .frame reply rest ∧ agentVerdict sessionId reply = .ok () ∧
      session = connected t' sessionId key ∧
      I rest (out ++ framed (createClientMessage sessionId key 512)) t' := by
  have hrun := connect_run (σ := σ) hpeer sessionId key ht
  cases hnext : nextFrame 128 bs with
  | frame reply rest =>
    rw [hnext] at hrun
    obtain ⟨t₁, hrun, hin⟩ := hrun
    rw [h] at hrun
    refine ⟨reply, rest, rfl, ?_⟩
    cases hverdict : agentVerdict sessionId reply with
    | ok _ =>
      rw [hverdict] at hrun
      cases hrun
      exact ⟨rfl, rfl, hin⟩
    | _ =>
      rw [hverdict] at hrun
      cases hrun
  | oversized rest =>
    rw [hnext] at hrun
    obtain ⟨t₁, hrun, -⟩ := hrun
    rw [h] at hrun
    cases hrun
  | cut =>
    rw [hnext] at hrun
    obtain ⟨t₁, hrun, -⟩ := hrun
    rw [h] at hrun
    cases ending <;> cases hrun

variable [Statics σ]

/-- From the connection to the last call: the session is the client that the answer to
CREATE_CLIENT has made, fed with what comes in behind that answer. -/
theorem lifetime_refines_client (hpeer : Peer ending I) {sessionId : UInt8} {key : ClientKey}
    {bs out : Bytes} {t t' : T} (ht : I bs out t) {session : Session T σ}
    (hconnect : (connect sessionId key).run t = (.ok session, t')) {tasks : List (List σ)}
    {calls : List (Made T σ)} {w : World T σ}
    (hruns : Runs ⟨session, fun _ => Subscription.new, tasks, []⟩ calls w)
    (hfits : ∀ call ∈ calls, call.op.Fits sessionId) :
    ∃ reply rest c, nextFrame 128 bs = .frame reply rest ∧
      agentVerdict sessionId reply = .ok () ∧
      runAll (acts ending calls) (Client.fresh sessionId key rest) =
        (calls.map Made.outcome, c) ∧
      w.client c.incoming = c ∧
      I c.incoming (out ++ stream (createClientMessage sessionId key 512 :: c.said))
        w.session.transport := by
  obtain ⟨reply, rest, hnext, hverdict, rfl, hin⟩ := connect_ok hpeer ht hconnect
  have hstart : Mirrors I (out ++ framed (createClientMessage sessionId key 512)) sessionId
      (start t' sessionId key tasks) (Client.fresh sessionId key rest) := by
    refine ⟨rfl, ?_, rfl⟩
    change I rest (out ++ framed (createClientMessage sessionId key 512) ++ []) t'
    rw [List.append_nil]
    exact hin
  obtain ⟨houtcomes, hend⟩ := hstart.run hpeer hruns hfits
  refine ⟨reply, rest, _, hnext, hverdict, Prod.ext houtcomes.symm rfl, hend.view, ?_⟩
  rw [stream_cons, ← List.append_assoc]
  exact hend.wire

end

/-- A connection made, and a sample published over it. -/
def publishedFirst [Target] (session : Session Wire Unit) : Made Wire Unit :=
  ⟨.publish Float32 ⟨0x15⟩ ⟨0⟩, 0, ⟨session, fun _ => Subscription.new, [], []⟩⟩

theorem published_over_new_connection : letI := rp2040 true
    ∃ session t', (connect 0x81 ⟨1, 2, 3, 4⟩).run welcoming = (.ok session, t') ∧
      ∃ c, runAll (acts .silent [publishedFirst session]) (Client.fresh 0x81 ⟨1, 2, 3, 4⟩ [7]) =
          ([(publishedFirst session).outcome], c) ∧
        (publishedFirst session).after.session.transport.outgoing =
          stream (createClientMessage 0x81 ⟨1, 2, 3, 4⟩ 512 :: c.said) := by
  have hconnect : letI := rp2040 true
      ∃ session t', (connect 0x81 ⟨1, 2, 3, 4⟩ : Prog Error Wire (Session Wire Unit)).run
        welcoming = (.ok session, t') := ⟨_, _, rfl⟩
  have hroom : letI := rp2040 true
      writeDataPrefix 0x81 + (bodyBytes (⟨0⟩ : Float32)).length ≤ txBufSize := by decide +kernel
  generalize rp2040 true = target at hconnect hroom ⊢
  obtain ⟨session, t', hrun⟩ := hconnect
  refine ⟨session, t', hrun, ?_⟩
  have hfits : ∀ call ∈ [publishedFirst session], call.op.Fits 0x81 := by
    intro call hcall
    rw [List.mem_singleton.mp hcall]
    exact hroom
  obtain ⟨reply, rest, c, hnext, -, hacts, -, -, hout⟩ := lifetime_refines_client Wire.peer
    (show welcoming.incoming = _ ∧ welcoming.outgoing = _ from ⟨rfl, rfl⟩) hrun
    (Runs.single (publishedFirst session)) hfits
  cases hnext
  exact ⟨c, hacts, hout⟩

end MicroXrceDds
