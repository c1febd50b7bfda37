import MicroXrceDds.ClientRefinement
import MicroXrceDds.ObjectIds

/-!
# What a create call waits for

A create call makes its requests one after the other, and each has to be granted before the
next. It succeeds on those streams that grant all of them in turn, and on no others.
-/
namespace MicroXrceDds

open Prog

/-- Request ids go round without zero. -/
def nextReqId (req : UInt16) : UInt16 := max (req + 1) 1

namespace Client

variable {σ : Type} [Statics σ]

/-- A frame that the wait for a STATUS passes over. -/
def Passes (c : Client σ) (f : Bytes) : Prop :=
  (∃ id payload, submessageOf c.sessionId f = some (id, payload) ∧ id ≠ submsgStatus) ∧
    c.offered f = .ok ()

theorem heed_passes {c : Client σ} {f : Bytes} (h : c.Passes f) (req : UInt16) :
    (heed req f).run c = (.ok false, c) := by
  obtain ⟨⟨id, payload, hsub, hid⟩, hoffered⟩ := h
  have hoffer : (offer f).run c = (.ok (), c) := by rw [offer_run, hoffered]
  rw [heed, run_get_bind, hsub]
  simp only [if_neg hid]
  rw [bind_ok hoffer]
  rfl

theorem verdict_ok_iff {payload : Bytes} {req : UInt16} :
    verdict payload req = .ok () ↔
      ∃ status, statusOf payload = some (req, status) ∧ Grants status := by
  unfold verdict
  cases statusOf payload with
  | none => simp
  | some pair =>
    obtain ⟨req', status⟩ := pair
    by_cases hreq : req' = req
    · subst hreq
      by_cases hgrants : Grants status
      · simp [hgrants]
      · simp [hgrants]
    · simp [hreq]

theorem heed_status {c : Client σ} {f payload : Bytes}
    (h : submessageOf c.sessionId f = some (submsgStatus, payload)) (req : UInt16) :
    (heed req f).run c = match verdict payload req with
      | .ok _ => (.ok true, c)
      | o => (o.abort, c) := by
  rw [heed, run_get_bind, h]
  simp only [↓reduceIte]
  rw [run_bind, run_ofOutcome]
  cases verdict payload req <;> rfl

theorem heed_grants {c : Client σ} {f : Bytes} {req : UInt16}
    (h : GrantsRequest c.sessionId req f) : (heed req f).run c = (.ok true, c) := by
  obtain ⟨payload, status, hsub, hstatus, hgrants⟩ := h
  rw [heed_status hsub, verdict_ok_iff.mpr ⟨status, hstatus, hgrants⟩]

/-- A frame grants the request, or it is passed over, or the wait fails at it. -/
theorem heed_cases (c : Client σ) (f : Bytes) (req : UInt16) :
    GrantsRequest c.sessionId req f ∨ c.Passes f ∨
      ∃ o, o.isOk = false ∧ (heed req f).run c = (o, c) := by
  cases hsub : submessageOf c.sessionId f with
  | none =>
    refine .inr (.inr ⟨.err .unexpectedReply, rfl, ?_⟩)
    rw [heed, run_get_bind, hsub]
    rfl
  | some sub =>
    obtain ⟨id, payload⟩ := sub
    by_cases hid : id = submsgStatus
    · subst hid
      cases hverdict : verdict payload req with
      | ok _ =>
        obtain ⟨status, hstatus, hgrants⟩ := verdict_ok_iff.mp hverdict
        exact .inl ⟨payload, status, hsub, hstatus, hgrants⟩
      | _ => exact .inr (.inr ⟨_, rfl, by rw [heed_status hsub, hverdict]⟩)
    · by_cases hok : c.offered f = .ok ()
      · exact .inr (.inl ⟨⟨id, payload, hsub, hid⟩, hok⟩)
      · have ho : (c.offered f).isOk = false := by
          cases hoffered : c.offered f with
          | ok _ => exact absurd hoffered hok
          | _ => rfl
        refine .inr (.inr ⟨(c.offered f).abort, not_isOk_abort ho, ?_⟩)
        rw [heed, run_get_bind, hsub]
        simp only [if_neg hid]
        exact bind_abort (offer_run f c) ho _

/-- Frames up to the first that grants the request, with none before it that matters. -/
inductive Granted (id : UInt8) (P : Bytes → Prop) (req : UInt16) : List Bytes → Prop
  | answer {f : Bytes} (fits : f.length ≤ rxBufSize) (grants : GrantsRequest id req f) :
      Granted id P req [f]
  | pass {f : Bytes} {frames : List Bytes} (fits : f.length ≤ rxBufSize) (passes : P f)
      (rest : Granted id P req frames) : Granted id P req (f :: frames)

theorem listen_granted (ending : Ending) {req : UInt16} {frames : List Bytes} {fuel : Nat}
    {rest : Bytes} {c : Client σ} (h : Granted c.sessionId c.Passes req frames)
    (hin : c.incoming = stream frames ++ rest) (hfuel : frames.length ≤ fuel) :
    (listen ending fuel req).run c = (.ok (), c.tookAll frames rest) := by
  generalize hid : c.sessionId = id at h
  generalize hpass : c.Passes = P at h
  induction h generalizing c fuel with
  | @answer f hfit hgrants =>
    cases fuel with
    | zero => cases hfuel
    | succ fuel =>
      rw [stream_cons, List.append_assoc] at hin
      rw [listen, bind_ok (hear_framed ending hin hfit),
        bind_ok (heed_grants (c := c.took f _) (hid.symm ▸ hgrants))]
      rfl
  | @pass f frames hfit hpasses _ ih =>
    cases fuel with
    | zero => cases hfuel
    | succ fuel =>
      rw [stream_cons, List.append_assoc] at hin
      rw [listen, bind_ok (hear_framed ending hin hfit),
        bind_ok (heed_passes (c := c.took f _) ?_ req)]
      · rw [← tookAll_cons f frames (stream frames ++ rest)]
        exact ih rfl (Nat.le_of_succ_le_succ hfuel) hid hpass
      · change c.Passes f
        rw [hpass]
        exact hpasses

/-- And a wait that succeeds has heard such frames. -/
theorem granted_of_listen {ending : Ending} {fuel : Nat} {req : UInt16} {c c' : Client σ}
    (h : (listen ending fuel req).run c = (.ok (), c')) :
    ∃ frames rest, Granted c.sessionId c.Passes req frames ∧
      c.incoming = stream frames ++ rest ∧ c' = c.tookAll frames rest := by
  induction fuel generalizing c with
  | zero => cases h
  | succ fuel ih =>
    obtain ⟨f, c₁, hhear, h⟩ := bind_eq_ok h
    cases hnext : nextFrame rxBufSize c.incoming with
    | frame f' bs =>
      rw [hear_frame ending hnext] at hhear
      cases hhear
      obtain ⟨hin, hfit, -⟩ := nextFrame_eq_frame hnext
      rcases heed_cases (c.took f bs) f req with hgrants | hpasses | ⟨o, ho, hheed⟩
      · rw [bind_ok (heed_grants hgrants)] at h
        cases h
        refine ⟨[f], bs, .answer hfit hgrants, ?_, rfl⟩
        rw [stream_cons, stream_nil, List.append_nil]
        exact hin
      · rw [bind_ok (heed_passes hpasses req)] at h
        obtain ⟨frames, rest, hgranted, hbs, rfl⟩ := ih h
        refine ⟨f :: frames, rest, .pass hfit hpasses hgranted, ?_, tookAll_cons f frames bs rest c⟩
        rw [hin, stream_cons, List.append_assoc]
        exact congrArg (framed f ++ ·) hbs
      · rw [bind_abort hheed ho] at h
        cases o <;> cases h
    | oversized bs =>
      rw [hear_oversized ending hnext] at hhear
      cases hhear
    | cut =>
      rw [hear_cut ending hnext] at hhear
      cases ending <;> cases hhear

theorem length_le_stream (frames : List Bytes) : frames.length ≤ (stream frames).length := by
  induction frames with
  | nil => exact Nat.le_refl 0
  | cons f frames ih =>
    rw [stream_cons, List.length_append, length_framed, List.length_cons]
    omega

/-- The frames grant this many requests in turn, from `req` on. -/
def AllGranted (id : UInt8) (P : Bytes → Prop) : Nat → UInt16 → List Bytes → Prop
  | 0, _, frames => frames = []
  | n + 1, req, frames => ∃ first rest, frames = first ++ rest ∧ Granted id P req first ∧
      AllGranted id P n (nextReqId req) rest

theorem AllGranted.append {id : UInt8} {P : Bytes → Prop} {m n : Nat} {req : UInt16}
    {xs ys : List Bytes} (h : AllGranted id P m req xs)
    (h' : AllGranted id P n (nextReqId^[m] req) ys) :
    AllGranted id P (m + n) req (xs ++ ys) := by
  induction m generalizing req xs with
  | zero =>
    cases h
    rw [Nat.zero_add]
    exact h'
  | succ m ih =>
    obtain ⟨first, rest, rfl, hfirst, hrest⟩ := h
    rw [Nat.succ_add]
    exact ⟨first, rest ++ ys, List.append_assoc _ _ _, hfirst, ih hrest h'⟩

theorem AllGranted.split {id : UInt8} {P : Bytes → Prop} {m n : Nat} {req : UInt16}
    {frames : List Bytes} (h : AllGranted id P (m + n) req frames) :
    ∃ xs ys, frames = xs ++ ys ∧ AllGranted id P m req xs ∧
      AllGranted id P n (nextReqId^[m] req) ys := by
  induction m generalizing req frames with
  | zero =>
    rw [Nat.zero_add] at h
    exact ⟨[], frames, rfl, rfl, h⟩
  | succ m ih =>
    rw [Nat.succ_add] at h
    obtain ⟨first, rest, rfl, hfirst, hrest⟩ := h
    obtain ⟨xs, ys, rfl, hxs, hys⟩ := ih hrest
    exact ⟨first ++ xs, ys, (List.append_assoc _ _ _).symm, ⟨first, xs, rfl, hfirst, hxs⟩, hys⟩

/-- From the one client to the other `n` requests were made, these frames were heard, and
only these kinds of indices were drawn. -/
structure Progress (n : Nat) (kinds : List EntityKind) (frames : List Bytes) (c c' : Client σ) :
    Prop where
  incoming : c.incoming = stream frames ++ c'.incoming
  heard : c'.heard = c.heard ++ frames
  reqId : c'.numbers.reqId = nextReqId^[n] c.numbers.reqId
  sessionId : c'.sessionId = c.sessionId
  table : c'.table = c.table
  passes : c'.Passes = c.Passes
  others : ∀ kind ∉ kinds, c'.nextIdx kind = c.nextIdx kind

theorem Progress.trans {m n : Nat} {ks ls : List EntityKind} {xs ys : List Bytes}
    {c₁ c₂ c₃ : Client σ} (h : Progress m ks xs c₁ c₂) (h' : Progress n ls ys c₂ c₃) :
    Progress (m + n) (ks ++ ls) (xs ++ ys) c₁ c₃ where
  incoming := by rw [h.incoming, h'.incoming, stream_append, List.append_assoc]
  heard := by rw [h'.heard, h.heard, List.append_assoc]
  reqId := by rw [h'.reqId, h.reqId, ← Function.iterate_add_apply, Nat.add_comm]
  sessionId := h'.sessionId.trans h.sessionId
  table := h'.table.trans h.table
  passes := h'.passes.trans h.passes
  others kind hkind := by
    rw [List.mem_append, not_or] at hkind
    exact (h'.others kind hkind.2).trans (h.others kind hkind.1)

/-- A program that makes `n` requests and draws an index of each of these kinds: it
succeeds if its requests are granted, and only then. -/
structure Needs {α : Type} (n : Nat) (kinds : List EntityKind) (fuel : Nat)
    (p : Prog Error (Client σ) α) : Prop where
  granted : ∀ c frames rest, c.incoming = stream frames ++ rest → c.incoming.length < fuel →
    (∀ kind ∈ kinds, c.nextIdx kind ≠ 65535) →
    AllGranted c.sessionId c.Passes n c.numbers.reqId frames →
    ∃ a c', p.run c = (.ok a, c') ∧ c'.incoming = rest ∧ Progress n kinds frames c c'
  only : ∀ c a c', p.run c = (.ok a, c') →
    ∃ frames, AllGranted c.sessionId c.Passes n c.numbers.reqId frames ∧
      Progress n kinds frames c c'

namespace Needs

variable {α β : Type} {fuel : Nat}

theorem pure (a : α) : Needs (σ := σ) 0 [] fuel (Pure.pure a) := by
  have hself (c : Client σ) : Progress 0 [] [] c c :=
    ⟨rfl, (List.append_nil _).symm, rfl, rfl, rfl, rfl, fun _ _ => rfl⟩
  constructor
  · rintro c frames rest hin - - rfl
    exact ⟨a, c, rfl, hin, hself c⟩
  · rintro c _ c' ⟨⟩
    exact ⟨[], rfl, hself c⟩

theorem bind {m n : Nat} {ks ls : List EntityKind} {p : Prog Error (Client σ) α}
    {f : α → Prog Error (Client σ) β} (hp : Needs m ks fuel p) (hf : ∀ a, Needs n ls fuel (f a))
    (hdisjoint : ∀ kind ∈ ls, kind ∉ ks) : Needs (m + n) (ks ++ ls) fuel (p >>= f) := by
  constructor
  · intro c frames rest hin hfuel hroom hgranted
    obtain ⟨xs, ys, rfl, hxs, hys⟩ := hgranted.split
    rw [stream_append, List.append_assoc] at hin
    obtain ⟨a, c₁, hrun, hin₁, hfirst⟩ := hp.granted c xs (stream ys ++ rest) hin hfuel
      (fun kind hkind => hroom kind (List.mem_append_left _ hkind)) hxs
    have hfuel₁ : c₁.incoming.length < fuel := by
      rw [hfirst.incoming, List.length_append] at hfuel
      omega
    have hroom₁ : ∀ kind ∈ ls, c₁.nextIdx kind ≠ 65535 := by
      intro kind hkind
      rw [hfirst.others kind (hdisjoint kind hkind)]
      exact hroom kind (List.mem_append_right _ hkind)
    have hys₁ : AllGranted c₁.sessionId c₁.Passes n c₁.numbers.reqId ys := by
      rw [hfirst.sessionId, hfirst.passes, hfirst.reqId]
      exact hys
    obtain ⟨b, c₂, hrest, hin₂, hsecond⟩ := (hf a).granted c₁ ys rest hin₁ hfuel₁ hroom₁ hys₁
    exact ⟨b, c₂, by rw [bind_ok hrun, hrest], hin₂, hfirst.trans hsecond⟩
  · intro c b c₂ h
    obtain ⟨a, c₁, hrun, hrest⟩ := bind_eq_ok h
    obtain ⟨xs, hxs, hfirst⟩ := hp.only c a c₁ hrun
    obtain ⟨ys, hys, hsecond⟩ := (hf a).only c₁ b c₂ hrest
    rw [hfirst.sessionId, hfirst.passes, hfirst.reqId] at hys
    exact ⟨xs ++ ys, hxs.append hys, hfirst.trans hsecond⟩

theorem ask (ending : Ending) (id flags : UInt8) (payload : UInt16 → Bytes) :
    Needs (σ := σ) 1 [] fuel (Client.ask ending fuel id flags payload) := by
  have hheard (c : Client σ) (frames : List Bytes) (rest : Bytes)
      (hin : c.incoming = stream frames ++ rest) : Progress 1 [] frames c
        ((c.saying (c.request id flags payload) c.numbers.afterRequest).tookAll frames rest) :=
    ⟨hin, rfl, rfl, rfl, rfl, rfl, fun _ _ => rfl⟩
  constructor
  · rintro c frames rest hin hfuel - ⟨first, last, rfl, hgranted, rfl⟩
    rw [List.append_nil] at hin ⊢
    refine ⟨(), _, ?_, rfl, hheard c first rest hin⟩
    have hshort : first.length ≤ fuel := by
      have hstream := length_le_stream first
      rw [hin, List.length_append] at hfuel
      omega
    rw [Client.ask, run_get_bind, run_modify_bind]
    exact listen_granted ending (c := c.saying _ _) hgranted hin hshort
  · intro c _ c' h
    rw [Client.ask, run_get_bind, run_modify_bind] at h
    obtain ⟨frames, rest, hgranted, hin, rfl⟩ := granted_of_listen h
    exact ⟨frames, ⟨frames, [], (List.append_nil _).symm, hgranted, rfl⟩, hheard c frames rest hin⟩

/-- A request is made, and then the rest. -/
theorem request {ending : Ending} {id flags : UInt8} {payload : UInt16 → Bytes} {n : Nat}
    {ls : List EntityKind} {f : Unit → Prog Error (Client σ) α}
    (hf : ∀ u, Needs n ls fuel (f u)) :
    Needs (n + 1) ls fuel (Client.ask ending fuel id flags payload >>= f) := by
  rw [Nat.add_comm]
  exact (ask ending id flags payload).bind hf fun _ _ => List.not_mem_nil

variable [Target]

theorem alloc (kind : EntityKind) : Needs (σ := σ) 0 [kind] fuel (Client.alloc kind) := by
  have hset (c : Client σ) (idx : UInt16) : Progress 0 [kind] [] c (c.setNextIdx kind idx) := by
    refine ⟨rfl, (List.append_nil _).symm, rfl, rfl, rfl, rfl, fun k hk => ?_⟩
    exact Function.update_of_ne (List.ne_of_not_mem_cons hk) _ _
  constructor
  · rintro c frames rest hin - hroom rfl
    have hlt : (c.nextIdx kind).toNat + 1 < 2 ^ 16 := by
      have hne := hroom kind List.mem_cons_self
      have hbound := (c.nextIdx kind).toNat_lt
      have : (c.nextIdx kind).toNat ≠ 65535 := fun h => hne (UInt16.toNat_inj.mp h)
      omega
    refine ⟨c.nextIdx kind, c.setNextIdx kind (UInt16.ofNat ((c.nextIdx kind).toNat + 1)), ?_,
      hin, hset c _⟩
    rw [Client.alloc, run_get_bind, addIn_of_lt hlt]
    rfl
  · intro c a c' h
    obtain ⟨_, _, ⟨⟩, h⟩ := bind_eq_ok h
    obtain ⟨next, c₁, hadd, h⟩ := bind_eq_ok h
    cases h
    refine ⟨[], rfl, ?_⟩
    rcases addIn_cases (ε := Error) (S := Client σ) 16 (c.nextIdx kind).toNat 1 with
      ⟨-, hpanic⟩ | ⟨v, hv, -⟩
    · rw [hpanic] at hadd
      cases hadd
    · rw [hv] at hadd
      cases hadd
      exact hset c _

/-- An index is drawn, and then the rest. -/
theorem draw {kind : EntityKind} {n : Nat} {ls : List EntityKind}
    {f : UInt16 → Prog Error (Client σ) α} (hf : ∀ idx, Needs n ls fuel (f idx))
    (hnew : kind ∉ ls) : Needs n (kind :: ls) fuel (Client.alloc kind >>= f) := by
  have hfirst : Needs (σ := σ) 0 [kind] fuel (Client.alloc kind) := alloc kind
  have hboth := hfirst.bind hf fun k hk hkind => by
    rw [List.mem_singleton] at hkind
    exact hnew (hkind ▸ hk)
  rw [Nat.zero_add] at hboth
  exact hboth

end Needs

section
variable [Target] (ending : Ending) {fuel : Nat}

theorem needs_createNode (name : Bytes) :
    Needs (σ := σ) 3 [.participant, .publisher, .subscriber] fuel
      (createNode ending fuel name) := by
  refine Needs.draw (fun participantIdx => ?_) (by decide)
  refine Needs.draw (fun publisherIdx => ?_) (by decide)
  refine Needs.draw (fun subscriberIdx => ?_) (by decide)
  refine Needs.request fun _ => ?_
  refine Needs.request fun _ => ?_
  exact Needs.request fun _ => Needs.pure _

theorem needs_createPublisher (M : Type) [Message M] (node : Node) {topic : Bytes}
    (hfits : TopicFits topic) :
    Needs (σ := σ) 2 [.topic, .datawriter] fuel (createPublisher ending fuel M node topic) := by
  rw [createPublisher, if_pos hfits]
  refine Needs.draw (fun topicIdx => ?_) (by decide)
  refine Needs.request fun _ => ?_
  refine Needs.draw (fun dwIdx => ?_) (by decide)
  exact Needs.request fun _ => Needs.pure _

theorem needs_prepareSubscription (node : Node) {topic : Bytes} (s : σ)
    (hfits : TopicFits topic) :
    Needs (σ := σ) 3 [.topic, .datareader] fuel
      (prepareSubscription ending fuel node topic s) := by
  rw [prepareSubscription, if_pos hfits]
  refine Needs.draw (fun topicIdx => ?_) (by decide)
  refine Needs.request fun _ => ?_
  refine Needs.draw (fun drIdx => ?_) (by decide)
  refine Needs.request fun _ => ?_
  exact Needs.request fun _ => Needs.pure _

end

/-- Entering a slot in a table with room goes on with the frames as they are. -/
theorem enter_run (s : σ) (drOid : UInt16) {c : Client σ} (hroom : c.table.isFull = false) :
    ∃ c', (enter s drOid).run c = (.ok s, c') ∧ c'.incoming = c.incoming ∧ c'.heard = c.heard := by
  obtain ⟨table, hpush⟩ : ∃ table, c.table.push s = some table := by
    cases hpush : c.table.push s with
    | some table => exact ⟨table, rfl⟩
    | none =>
      have hfull := Bounded.push_eq_none.mp hpush
      exact absurd hfull (Nat.ne_of_lt (Bounded.isFull_eq_false.mp hroom))
  refine ⟨(c.setDrId s drOid).setTable table, ?_, rfl, rfl⟩
  rw [enter, run_modify_bind, run_get_bind]
  have hpush' : (c.setDrId s drOid).table.push s = some table := hpush
  rw [hpush']
  rfl

end Client

section
variable {T σ : Type} [Statics σ] [Target] {ending : Ending}

/-- A create call that passes its local checks, and the number of its requests. -/
def Op.Asks (table : Bounded σ maxSubscriptions) (n : Nat) : Op σ → Prop
  | .createNode _ => n = 3
  | @Op.createPublisher _ _ _ _ _ topic => MicroXrceDds.TopicFits topic ∧ n = 2
  | .createSubscription _ topic _ =>
    MicroXrceDds.TopicFits topic ∧ table.isFull = false ∧ n = 3
  | _ => False

theorem act_granted (ending : Ending) {op : Op σ} {n fuel : Nat} {c : Client σ}
    (hop : op.Asks c.table n)
    {frames : List Bytes} {rest : Bytes} (hin : c.incoming = stream frames ++ rest)
    (hfuel : c.incoming.length < fuel) (hroom : ∀ kind, c.nextIdx kind ≠ 65535)
    (hgranted : Client.AllGranted c.sessionId c.Passes n c.numbers.reqId frames) :
    ∃ r c', (op.act ending fuel).run c = (.ok r, c') ∧ c'.incoming = rest ∧
      c'.heard = c.heard ++ frames := by
  cases op with
  | createNode name =>
    cases hop
    obtain ⟨node, c', hrun, hrest, hprogress⟩ := (Client.needs_createNode ending name).granted c
      frames rest hin hfuel (fun kind _ => hroom kind) hgranted
    exact ⟨_, c', bind_ok hrun _, hrest, hprogress.heard⟩
  | createPublisher M node topic =>
    obtain ⟨hfits, rfl⟩ := hop
    obtain ⟨pub, c', hrun, hrest, hprogress⟩ := (Client.needs_createPublisher ending M node
      hfits).granted c frames rest hin hfuel (fun kind _ => hroom kind) hgranted
    exact ⟨_, c', bind_ok hrun _, hrest, hprogress.heard⟩
  | createSubscription node topic s =>
    obtain ⟨hfits, hfull, rfl⟩ := hop
    obtain ⟨drOid, c₁, hrun, hrest, hprogress⟩ := (Client.needs_prepareSubscription ending node s
      hfits).granted c frames rest hin hfuel (fun kind _ => hroom kind) hgranted
    obtain ⟨c', henter, hrest', hheard⟩ := Client.enter_run s drOid (hprogress.table ▸ hfull)
    refine ⟨.subscription s, c', ?_, hrest'.trans hrest, hheard.trans hprogress.heard⟩
    have hcall : (Client.createSubscription ending fuel node topic s).run c = (.ok s, c') := by
      rw [Client.createSubscription, run_get_bind, if_neg (by rw [hfull]; decide), bind_ok hrun,
        henter]
    exact bind_ok hcall _
  | publish | spinOnce | tryRecv => cases hop

theorem granted_of_act {op : Op σ} {n fuel : Nat} {c c' : Client σ} {r : Reply σ}
    (hop : op.Asks c.table n) (h : (op.act ending fuel).run c = (.ok r, c')) :
    ∃ frames, Client.AllGranted c.sessionId c.Passes n c.numbers.reqId frames ∧
      c.incoming = stream frames ++ c'.incoming ∧ c'.heard = c.heard ++ frames := by
  cases op with
  | createNode name =>
    cases hop
    obtain ⟨node, c₁, hrun, ⟨⟩⟩ := bind_eq_ok h
    obtain ⟨frames, hgranted, hprogress⟩ := (Client.needs_createNode ending name).only c _ _ hrun
    exact ⟨frames, hgranted, hprogress.incoming, hprogress.heard⟩
  | createPublisher M node topic =>
    obtain ⟨hfits, rfl⟩ := hop
    obtain ⟨pub, c₁, hrun, ⟨⟩⟩ := bind_eq_ok h
    obtain ⟨frames, hgranted, hprogress⟩ :=
      (Client.needs_createPublisher ending M node hfits).only c _ _ hrun
    exact ⟨frames, hgranted, hprogress.incoming, hprogress.heard⟩
  | createSubscription node topic s =>
    obtain ⟨hfits, hfull, rfl⟩ := hop
    obtain ⟨slot, c₁, hcall, ⟨⟩⟩ := bind_eq_ok h
    rw [Client.createSubscription, run_get_bind, if_neg (by rw [hfull]; decide)] at hcall
    obtain ⟨drOid, c₂, hrun, hrest⟩ := bind_eq_ok hcall
    obtain ⟨frames, hgranted, hprogress⟩ :=
      (Client.needs_prepareSubscription ending node s hfits).only c _ _ hrun
    obtain ⟨c₃, henter, hin, hheard⟩ := Client.enter_run s drOid (hprogress.table ▸ hfull)
    rw [henter] at hrest
    cases hrest
    exact ⟨frames, hgranted, hin ▸ hprogress.incoming, hheard.trans hprogress.heard⟩
  | publish | spinOnce | tryRecv => cases hop

variable [ReadWrite T] {I : Bytes → Bytes → T → Prop}

/-- A create call succeeds if its requests are granted in turn, whatever comes in between,
and then it has read up to the last grant and no further; on any other stream it does not
succeed. -/
theorem create_succeeds_exactly (hpeer : Peer ending I) {call : Made T σ} {n : Nat}
    {bs prior : Bytes}
    (hwire : I bs (prior ++ stream (sentFrames call.before.history)) call.before.session.transport)
    (hasks : call.op.Asks call.before.session.subscriptions n) (hfuel : bs.length < call.fuel)
    (hroom : ∀ kind, call.before.session.nextIdx kind ≠ 65535) :
    (∀ frames rest, bs = stream frames ++ rest →
      Client.AllGranted call.before.session.sessionId (call.before.client bs).Passes n
        call.before.session.reqId frames →
      call.outcome.isOk = true ∧
        receivedFrames call.after.history = receivedFrames call.before.history ++ frames ∧
        I rest (prior ++ stream (sentFrames call.after.history)) call.after.session.transport) ∧
    (call.outcome.isOk = true → ∃ frames rest, bs = stream frames ++ rest ∧
      Client.AllGranted call.before.session.sessionId (call.before.client bs).Passes n
        call.before.session.reqId frames) := by
  have hfits : call.op.Fits call.before.session.sessionId := by
    cases hop : call.op with
    | publish M pub m =>
      rw [hop] at hasks
      cases hasks
    | _ => trivial
  have hstart : Mirrors I prior call.before.session.sessionId call.before (call.before.client bs) :=
    ⟨rfl, hwire, rfl⟩
  obtain ⟨houtcome, hend⟩ := simulates_call hpeer call.fuel hfits _ _ hstart
  change call.outcome = _ at houtcome
  constructor
  · intro frames rest hin hgranted
    obtain ⟨r, c', hrun, hrest, htook⟩ := act_granted ending (c := call.before.client bs) hasks hin
      hfuel hroom hgranted
    rw [hrun] at houtcome hend
    have hheard : receivedFrames call.after.history = c'.heard := congrArg Client.heard hend.view
    have hsaid : sentFrames call.after.history = c'.said := congrArg Client.said hend.view
    rw [houtcome, hheard, hsaid]
    exact ⟨rfl, htook, hrest ▸ hend.wire⟩
  · intro hok
    rcases hrun : (call.op.act ending call.fuel).run (call.before.client bs) with ⟨o, c'⟩
    rw [houtcome, hrun] at hok
    cases o with
    | ok r =>
      obtain ⟨frames, hgranted, hin, -⟩ := granted_of_act hasks hrun
      exact ⟨frames, c'.incoming, hin, hgranted⟩
    | _ => cases hok

end

theorem grants_statusFrame {status : UInt8} (req : UInt16) (h : Grants status) :
    GrantsRequest 0x81 req (statusFrame req status) :=
  ⟨_, status, submessageOf_statusFrame req status, statusOf_bytes req status, h⟩

/-- A heartbeat, three grants, and an answer that is left in the stream. -/
theorem node_created_past_heartbeat : letI := rp2040 true
    let frames : List Bytes :=
      [[0x81, 0, 0, 0, 11, 1, 0, 0], statusFrame 1 0, statusFrame 2 0, statusFrame 3 1]
    let call : Made Wire Unit :=
      ⟨.createNode (ascii "n"), 100, answering (frames ++ [statusFrame 9 0])⟩
    call.outcome.isOk = true ∧ receivedFrames call.after.history = frames ∧
      call.after.session.transport.incoming = stream [statusFrame 9 0] := by
  generalize rp2040 true = target
  intro frames call
  have hwire : call.before.session.transport.incoming = stream frames ++ stream [statusFrame 9 0] ∧
      call.before.session.transport.outgoing = [] ++ stream [] := ⟨rfl, rfl⟩
  have hfuel : (stream frames ++ stream [statusFrame 9 0]).length < 100 := by decide
  have hexact := create_succeeds_exactly Wire.peer hwire (show call.op.Asks _ 3 from rfl)
    hfuel (fun _ => show (1 : UInt16) ≠ 65535 by decide)
  have hgranted : Client.AllGranted 0x81 (call.before.client
      (stream frames ++ stream [statusFrame 9 0])).Passes 3 1 frames := by
    refine ⟨[[0x81, 0, 0, 0, 11, 1, 0, 0], statusFrame 1 0], _, rfl,
      .pass (by decide) ⟨⟨11, [], rfl, by decide⟩, rfl⟩
        (.answer (by decide) (grants_statusFrame 1 (.inl rfl))), ?_⟩
    refine ⟨[statusFrame 2 0], _, rfl, .answer (by decide) (grants_statusFrame 2 (.inl rfl)), ?_⟩
    exact ⟨[statusFrame 3 1], [], rfl, .answer (by decide) (grants_statusFrame 3 (.inr rfl)), rfl⟩
  obtain ⟨hok, hreceived, hrest, -⟩ := hexact.1 frames _ rfl hgranted
  exact ⟨hok, hreceived, hrest⟩

end MicroXrceDds
