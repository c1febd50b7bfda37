import MicroXrceDds.FrameStream
import MicroXrceDds.Registration

/-!
# Object ids

Every CREATE is about an entity whose index was just allocated, so the ids on the wire are
as fresh as the indices. An index is packed into twelve bits: the ids of one kind are
different up to the 4096th, and the next one is the first again.
-/
namespace MicroXrceDds

open Prog Session

variable {T σ : Type} [Statics σ]

/-- The kind that a kind is only ever allocated behind. -/
def EntityKind.leader : EntityKind → EntityKind
  | .participant => .participant
  | .topic => .topic
  | .publisher => .participant
  | .subscriber => .participant
  | .datawriter => .topic
  | .datareader => .topic

theorem leader_of_node {kind : EntityKind}
    (h : kind.leader ∈ [EntityKind.participant, .publisher, .subscriber]) :
    kind.leader = .participant := by
  cases kind <;> first | rfl | exact absurd h (by decide)

theorem leader_of_publisher {kind : EntityKind}
    (h : kind.leader ∈ [EntityKind.topic, .datawriter]) : kind.leader = .topic := by
  cases kind <;> first | rfl | exact absurd h (by decide)

theorem leader_of_subscription {kind : EntityKind}
    (h : kind.leader ∈ [EntityKind.topic, .datareader]) : kind.leader = .topic := by
  cases kind <;> first | rfl | exact absurd h (by decide)

def Event.allocatedKind : Event σ → Option EntityKind
  | .allocated kind _ => some kind
  | _ => none

def Event.allocatedId : Event σ → Option UInt16
  | .allocated kind idx => some (objectId idx kind.code)
  | _ => none

def allocatedKinds (es : List (Event σ)) : List EntityKind := es.filterMap Event.allocatedKind

/-- The packed ids given out, in order. -/
def allocatedIds (es : List (Event σ)) : List UInt16 := es.filterMap Event.allocatedId

/-- The object ids of the CREATE messages, in order. -/
def createdIds (sessionId : UInt8) (es : List (Event σ)) : List UInt16 :=
  es.filterMap (Event.asks sessionId submsgCreate)

theorem allocations_cons (kind : EntityKind) (e : Event σ) (es : List (Event σ)) :
    allocations kind (e :: es) = allocations kind es + if e.allocates kind then 1 else 0 :=
  List.countP_cons

theorem allocations_eq (kind : EntityKind) (es : List (Event σ)) :
    allocations kind es = (allocatedKinds es).count kind := by
  induction es with
  | nil => rfl
  | cons e es ih =>
    rw [allocations_cons, ih]
    cases e with
    | allocated k idx =>
      have hcons : allocatedKinds (.allocated k idx :: es) = k :: allocatedKinds es := rfl
      rw [hcons, List.count_cons]
      simp [Event.allocates]
    | _ => rfl

/-- A counter that is not used up moves by one with every allocation of its kind. -/
theorem Router.Step.nextIdx_toNat {r r' : Router σ} {e : Event σ} (h : r.Step e r')
    (kind : EntityKind) (hlt : (r.nextIdx kind).toNat < 4097) :
    (r'.nextIdx kind).toNat = (r.nextIdx kind).toNat + if e.allocates kind then 1 else 0 := by
  have hone : (1 : UInt16).toNat = 1 := rfl
  rw [h.nextIdx kind]
  split
  · rw [UInt16.toNat_add, hone]
    omega
  · rfl

/-- Indices that have not gone round pack to different ids. -/
theorem Router.Steps.allocatedIds_nodup {r r' : Router σ} {es : List (Event σ)}
    (h : r.Steps es r') (hpos : ∀ kind, 1 ≤ (r.nextIdx kind).toNat)
    (hfew : ∀ kind, (r.nextIdx kind).toNat + allocations kind es ≤ 4097) :
    (allocatedIds es).Nodup ∧ ∀ id ∈ allocatedIds es, ∃ (kind : EntityKind) (idx : UInt16),
      id = objectId idx kind.code ∧ (r.nextIdx kind).toNat ≤ idx.toNat ∧ idx.toNat ≤ 4096 := by
  induction h with
  | nil => exact ⟨List.nodup_nil, List.forall_mem_nil _⟩
  | @cons r r₁ r' e es first _ ih =>
    have hnext (kind : EntityKind) : (r₁.nextIdx kind).toNat =
        (r.nextIdx kind).toNat + if e.allocates kind then 1 else 0 := by
      by_cases hlt : (r.nextIdx kind).toNat < 4097
      · exact first.nextIdx_toNat kind hlt
      · have hk := hfew kind
        rw [allocations_cons] at hk
        have hnone : e.allocates kind = false := by
          by_contra hsome
          rw [Bool.not_eq_false] at hsome
          rw [if_pos hsome] at hk
          omega
        rw [first.nextIdx kind, hnone]
        rfl
    obtain ⟨hnodup, hids⟩ := ih (fun kind => by rw [hnext]; have := hpos kind; omega)
      (fun kind => by have hk := hfew kind; rw [allocations_cons] at hk; rw [hnext]; omega)
    have hlater : ∀ id ∈ allocatedIds es, ∃ (kind : EntityKind) (idx : UInt16),
        id = objectId idx kind.code ∧ (r.nextIdx kind).toNat ≤ idx.toNat ∧ idx.toNat ≤ 4096 := by
      intro id hid
      obtain ⟨kind, idx, heq, hle, hmax⟩ := hids id hid
      rw [hnext] at hle
      exact ⟨kind, idx, heq, Nat.le_of_add_right_le hle, hmax⟩
    cases first with
    | allocated k =>
      have hcons : allocatedIds (.allocated k (r.nextIdx k) :: es) =
          objectId (r.nextIdx k) k.code :: allocatedIds es := rfl
      have hmax : (r.nextIdx k).toNat ≤ 4096 := by
        have hk := hfew k
        rw [allocations_cons, if_pos (by simp [Event.allocates])] at hk
        omega
      rw [hcons, List.nodup_cons, List.forall_mem_cons]
      refine ⟨⟨?_, hnodup⟩, ⟨k, _, rfl, Nat.le_refl _, hmax⟩, hlater⟩
      -- A later id of the same kind has a larger index, and both are below 4097.
      intro hmem
      obtain ⟨kind, idx, heq, hle, hidx⟩ := hids _ hmem
      obtain rfl := objectId_kind heq
      have hmod := objectId_inj.mp heq
      rw [hnext, if_pos (by simp [Event.allocates])] at hle
      have hk := hpos k
      omega
    | _ => exact ⟨hnodup, hlater⟩

/-- The kinds of entity that a call allocates, in order. -/
def Op.allocates : Op σ → List EntityKind
  | createNode _ => [.participant, .publisher, .subscriber]
  | createPublisher _ _ _ => [.topic, .datawriter]
  | createSubscription _ _ _ => [.topic, .datareader]
  | _ => []

/-- A prefix of what a call allocates has no kind twice, and none without its leader. -/
theorem allocates_counts {op : Op σ} {ks : List EntityKind} (h : ks <+: op.allocates)
    (kind : EntityKind) : ks.count kind ≤ ks.count kind.leader ∧ ks.count kind ≤ 1 := by
  have hop : op.allocates ∈ [[.participant, .publisher, .subscriber], [.topic, .datawriter],
      [.topic, .datareader], []] := by
    cases op <;> simp [Op.allocates]
  have hshort : ∀ all ∈ [[.participant, .publisher, .subscriber], [.topic, .datawriter],
      [.topic, .datareader], []], all.length ≤ 3 ∧ ∀ n ≤ 3,
        (all.take n).count kind ≤ (all.take n).count kind.leader ∧ (all.take n).count kind ≤ 1 := by
    cases kind <;> decide
  obtain ⟨hlen, hcounts⟩ := hshort op.allocates hop
  rw [List.prefix_iff_eq_take.mp h]
  exact hcounts ks.length (h.length_le.trans hlen)

/-- Since `w₀` these kinds have been allocated, and of their ids all but the last few,
`ids`, have been used in a CREATE, in order. -/
def Progress (w₀ : World T σ) (kinds : List EntityKind) (ids : List UInt16) (w : World T σ) :
    Prop :=
  ∃ es, Trail w₀ es w ∧ allocatedKinds es = kinds ∧
    createdIds w₀.session.sessionId es ++ ids = allocatedIds es

/-- A call stops somewhere on its way through these allocations. -/
def StopsWithin (kinds : List EntityKind) (w₀ w : World T σ) : Prop :=
  ∃ ks ids, ks <+: kinds ∧ Progress w₀ ks ids w

theorem Progress.stops {w₀ w : World T σ} {ks kinds : List EntityKind} {ids : List UInt16}
    (h : Progress w₀ ks ids w) (hks : ks <+: kinds) : StopsWithin kinds w₀ w :=
  ⟨ks, ids, hks, h⟩

theorem progress_refl (w : World T σ) : Progress w [] [] w := ⟨[], .refl w, rfl, rfl⟩

/-- Events that neither allocate nor create. -/
theorem Progress.follows {P : Event σ → Prop} {w₀ w w' : World T σ} {ks : List EntityKind}
    {ids : List UInt16} (h : Progress w₀ ks ids w) (h' : Follows P w w')
    (hP : ∀ e, P e → e.allocatedKind = none ∧ e.allocatedId = none ∧
      e.asks w.session.sessionId submsgCreate = none) : Progress w₀ ks ids w' := by
  obtain ⟨es, htrail, hkinds, hids⟩ := h
  obtain ⟨es', hes', htrail'⟩ := h'
  have hid : w.session.sessionId = w₀.session.sessionId := htrail.router.sessionId
  rw [hid] at hP
  have hkinds' : allocatedKinds es' = [] :=
    List.filterMap_eq_nil_iff.mpr fun e he => (hP e (hes' e he)).1
  have halloc' : allocatedIds es' = [] :=
    List.filterMap_eq_nil_iff.mpr fun e he => (hP e (hes' e he)).2.1
  have hcreated' : createdIds w₀.session.sessionId es' = [] :=
    List.filterMap_eq_nil_iff.mpr fun e he => (hP e (hes' e he)).2.2
  have hk : allocatedKinds (es ++ es') = allocatedKinds es ++ allocatedKinds es' :=
    List.filterMap_append
  have ha : allocatedIds (es ++ es') = allocatedIds es ++ allocatedIds es' :=
    List.filterMap_append
  have hc : createdIds w₀.session.sessionId (es ++ es') =
      createdIds w₀.session.sessionId es ++ createdIds w₀.session.sessionId es' :=
    List.filterMap_append
  refine ⟨es ++ es', htrail.trans htrail', ?_, ?_⟩
  · rw [hk, hkinds', List.append_nil, hkinds]
  · rw [ha, hc, halloc', hcreated', List.append_nil, List.append_nil, hids]

theorem Event.Inbound.makes_nothing {e : Event σ} (h : e.Inbound) (sessionId : UInt8) :
    e.allocatedKind = none ∧ e.allocatedId = none ∧ e.asks sessionId submsgCreate = none := by
  cases e <;> first | exact h.elim | exact ⟨rfl, rfl, rfl⟩

/-- A CREATE uses the first id that is left. -/
theorem Progress.create {w₀ w w' : World T σ} {ks : List EntityKind} {oid : UInt16}
    {ids : List UInt16} (h : Progress w₀ ks (oid :: ids) w) (h' : Asks submsgCreate oid w w') :
    Progress w₀ ks ids w' := by
  obtain ⟨es, htrail, hkinds, hids⟩ := h
  obtain ⟨frame, w₁, hreq, hsend, hwait⟩ := h'
  have hid : w.session.sessionId = w₀.session.sessionId := htrail.router.sessionId
  rw [hid] at hreq
  have hsent : Progress w₀ ks ids w₁ := by
    refine ⟨es ++ [.sent frame], htrail.trans hsend, ?_, ?_⟩
    · have hk : allocatedKinds (es ++ [Event.sent frame]) = allocatedKinds es ++ [] :=
        List.filterMap_append
      rw [hk, List.append_nil, hkinds]
    · have ha : allocatedIds (es ++ [Event.sent frame]) = allocatedIds es ++ [] :=
        List.filterMap_append
      have hframe : (Event.sent frame : Event σ).asks w₀.session.sessionId submsgCreate =
          some oid := by
        simp only [Event.asks, hreq, if_pos]
      rw [createdIds, List.filterMap_append, List.filterMap_cons_some hframe, ha, List.append_nil,
        ← hids, List.append_assoc]
      rfl
  exact hsent.follows hwait fun e he => he.makes_nothing _

/-- A READ_DATA creates nothing. -/
theorem Progress.readData {w₀ w w' : World T σ} {ks : List EntityKind} {oid : UInt16}
    {ids : List UInt16} (h : Progress w₀ ks ids w) (h' : Asks submsgReadData oid w w') :
    Progress w₀ ks ids w' := by
  refine h.follows (h'.follows (P := fun e => e.allocatedKind = none ∧ e.allocatedId = none ∧
    e.asks w.session.sessionId submsgCreate = none) (fun e he => he.makes_nothing _) ?_)
    fun _ he => he
  intro frame hreq
  refine ⟨rfl, rfl, ?_⟩
  simp only [Event.asks, hreq]
  exact if_neg (by decide)

theorem Event.Entering.makes_nothing {e : Event σ} (h : e.Entering) (sessionId : UInt8) :
    e.allocatedKind = none ∧ e.allocatedId = none ∧ e.asks sessionId submsgCreate = none := by
  cases e <;> first | exact h.elim | exact ⟨rfl, rfl, rfl⟩

/-- The postcondition of a call: it stops somewhere on its way. -/
abbrev Stopping (kinds : List EntityKind) (w₀ : World T σ) {α : Type} :
    Outcome Error α → World T σ → Prop := fun _ => StopsWithin kinds w₀

variable {w₀ : World T σ} {kinds ks : List EntityKind} {ids : List UInt16}

theorem Progress.alloc {w w' : World T σ} {kind : EntityKind} {idx : UInt16}
    (h : Progress w₀ ks ids w) (h' : Trail w [.allocated kind idx] w') :
    Progress w₀ (ks ++ [kind]) (ids ++ [objectId idx kind.code]) w' := by
  obtain ⟨es, htrail, rfl, hids⟩ := h
  refine ⟨es ++ [.allocated kind idx], htrail.trans h', ?_, ?_⟩
  · have hk : allocatedKinds (es ++ [Event.allocated kind idx]) = allocatedKinds es ++ [kind] :=
      List.filterMap_append
    exact hk
  · have ha : allocatedIds (es ++ [Event.allocated kind idx]) =
        allocatedIds es ++ [objectId idx kind.code] := List.filterMap_append
    have hc : createdIds w₀.session.sessionId (es ++ [Event.allocated kind idx]) =
        createdIds w₀.session.sessionId es ++ [] := List.filterMap_append
    rw [ha, hc, List.append_nil, ← hids, List.append_assoc]

theorem spec_pure {α : Type} (a : α) (hks : ks <+: kinds) :
    Spec (Progress w₀ ks ids) (pure a : Call T σ α) (Stopping kinds w₀) := by
  intro w hw
  exact hw.stops hks

/-- A step that, however it ends, makes this progress. -/
theorem spec_step {α β : Type} {p : Call T σ α} {ids' : List UInt16} (hks : ks <+: kinds)
    (h : ∀ w, Progress w₀ ks ids w → Progress w₀ ks ids' (p.run w).2) :
    Spec (Progress w₀ ks ids) p (Midway (fun _ => Progress w₀ ks ids')
      (Stopping kinds w₀ (α := β))) := by
  intro w hw
  have hnext := h w hw
  cases (p.run w).1 with
  | ok a => exact hnext
  | _ => exact hnext.stops hks

theorem spec_topicName {α : Type} (topic : Bytes) (hks : ks <+: kinds) :
    Spec (Progress w₀ ks ids) (ros2TopicName topicNameMax topic : Call T σ Bytes)
      (Midway (fun _ => Progress w₀ ks ids) (Stopping kinds w₀ (α := α))) :=
  spec_step hks fun w hw => hw.follows (ros2TopicName_within stable_inbound.refl topic w)
    fun _ he => he.makes_nothing _

theorem inbound_stops {α : Type} {p : Call T σ α} (h : Within (Follows Event.Inbound) p) :
    Within (StopsWithin []) p := by
  intro w
  exact ((progress_refl w).follows (h w) fun e he => he.makes_nothing _).stops
    (List.prefix_refl [])

section
variable [Target]

theorem spec_alloc {kind : EntityKind} {α : Type} (hks : ks ++ [kind] <+: kinds) :
    Spec (Progress w₀ ks ids) (alloc kind : Call T σ UInt16)
      (Midway (fun idx => Progress w₀ (ks ++ [kind]) (ids ++ [objectId idx kind.code]))
        (Stopping kinds w₀ (α := α))) := by
  intro w hw
  rcases alloc_cases kind w with hrun | ⟨hrun, -⟩
  · rw [hrun]
    exact hw.alloc (w.allocating_trail kind)
  · rw [hrun]
    exact hw.stops ((List.prefix_append ks [kind]).trans hks)

variable [ReadWrite T]

theorem spec_create {α : Type} {fuel : Nat} {oid : UInt16} {kind : UInt8} {xml : Bytes}
    {parent : UInt16} (hxml : xml.length ≤ 320) (hks : ks <+: kinds) :
    Spec (Progress w₀ ks (oid :: ids))
      (createWithParentEntity fuel oid kind xml parent : Call T σ Unit)
      (Midway (fun _ => Progress w₀ ks ids) (Stopping kinds w₀ (α := α))) :=
  spec_step hks fun w hw => hw.create (createWithParentEntity_asks fuel oid kind parent hxml w)

theorem createNode_stops (fuel : Nat) (name : Bytes) :
    Within (StopsWithin [.participant, .publisher, .subscriber])
      (createNode fuel name : Call T σ Node) := by
  intro w
  have h : Spec (Progress w [] []) (createNode fuel name : Call T σ Node)
      (Stopping [.participant, .publisher, .subscriber] w) := by
    refine Spec.bind (spec_alloc (by decide)) fun participantIdx => ?_
    refine Spec.bind (spec_alloc (by decide)) fun publisherIdx => ?_
    refine Spec.bind (spec_alloc (by decide)) fun subscriberIdx => ?_
    refine Spec.bind (spec_step (by decide) fun w hw =>
      hw.create (createParticipantEntity_asks fuel participantIdx (length_participantXml_le name) w))
      fun _ => ?_
    refine Spec.bind (spec_create (by decide) (by decide)) fun _ => ?_
    refine Spec.bind (spec_create (by decide) (by decide)) fun _ => ?_
    exact spec_pure _ (by decide)
  exact h w (progress_refl w)

theorem createPublisher_stops (M : Type) [Message M] (fuel : Nat) (node : Node) (topic : Bytes) :
    Within (StopsWithin [.topic, .datawriter])
      (createPublisher M fuel node topic : Call T σ (Publisher M)) := by
  intro w
  have h : Spec (Progress w [] []) (createPublisher M fuel node topic : Call T σ (Publisher M))
      (Stopping [.topic, .datawriter] w) := by
    refine Spec.bind (spec_topicName topic (by decide)) fun ddsTopic => ?_
    refine Spec.bind (spec_alloc (by decide)) fun topicIdx => ?_
    refine Spec.bind (spec_create (length_topicXml_le _ _) (by decide)) fun _ => ?_
    refine Spec.bind (spec_alloc (by decide)) fun dwIdx => ?_
    refine Spec.bind (spec_create (length_dataWriterXml_le _ _) (by decide)) fun _ => ?_
    exact spec_pure _ (by decide)
  exact h w (progress_refl w)

theorem createSubscription_stops (fuel : Nat) (node : Node) (topic : Bytes) (s : σ) :
    Within (StopsWithin [.topic, .datareader])
      (createSubscription fuel node topic s : Call T σ σ) := by
  intro w
  rw [createSubscription_eq, run_get_bind]
  split
  · exact (progress_refl w).stops (by decide)
  · have h : Spec (Progress w [] []) (prepareSubscription fuel node topic s >>= enter s)
        (Stopping [.topic, .datareader] w) := by
      simp only [prepareSubscription, bind_assoc, pure_bind]
      refine Spec.bind (spec_topicName topic (by decide)) fun ddsTopic => ?_
      refine Spec.bind (spec_alloc (by decide)) fun topicIdx => ?_
      refine Spec.bind (spec_create (length_topicXml_le _ _) (by decide)) fun _ => ?_
      refine Spec.bind (spec_alloc (by decide)) fun drIdx => ?_
      refine Spec.bind (spec_create (length_dataReaderXml_le _ _) (by decide)) fun _ => ?_
      refine Spec.bind (spec_step (by decide) fun w hw =>
        hw.readData (sendReadData_asks fuel _ w)) fun _ => ?_
      intro w hw
      exact (hw.follows (enter_follows s _ w) fun e he => he.makes_nothing _).stops (by decide)
    exact h w (progress_refl w)

theorem publish_stops {M : Type} [Message M] (pub : Publisher M) (m : M) :
    Within (StopsWithin []) (publish pub m : Call T σ Unit) := by
  intro w
  refine ((progress_refl w).follows (publish_follows pub m w) ?_).stops (List.prefix_refl [])
  rintro e (he | ⟨frame, req, oid, rfl, hreq⟩)
  · exact he.makes_nothing _
  · refine ⟨rfl, rfl, ?_⟩
    simp only [Event.asks, hreq]
    exact if_neg (by decide)

theorem made_stops (c : Made T σ) : StopsWithin c.op.allocates c.before c.after := by
  obtain ⟨op, fuel, w⟩ := c
  have hmap {α : Type} {p : Call T σ α} {f : α → Reply σ} {kinds : List EntityKind}
      (hp : Within (StopsWithin kinds) p) :
      StopsWithin kinds w ((p >>= fun a => pure (f a)).run w).2 := by
    rw [state_map]
    exact hp w
  cases op with
  | createNode name => exact hmap (createNode_stops fuel name)
  | createPublisher M node topic => exact hmap (createPublisher_stops M fuel node topic)
  | createSubscription node topic s => exact hmap (createSubscription_stops fuel node topic s)
  | publish M pub msg => exact hmap (publish_stops pub msg)
  | spinOnce => exact hmap (inbound_stops spinOnce_follows)
  | tryRecv s => exact hmap (inbound_stops (tryRecv_follows s))

/-- No counter that the call is going to use has given out 4096 indices. -/
def Made.InRange (c : Made T σ) : Prop :=
  match c.op with
  | .createNode _ => (c.before.session.nextIdx .participant).toNat ≤ 4096
  | @Op.createPublisher _ _ _ _ _ topic =>
    TopicFits topic → (c.before.session.nextIdx .topic).toNat ≤ 4096
  | .createSubscription _ topic _ =>
    c.before.session.subscriptions.isFull = false → TopicFits topic →
      (c.before.session.nextIdx .topic).toNat ≤ 4096
  | _ => True

/-- Where the numbering stands: every counter counts, no kind has more than 4096 indices,
and none has more than its leader. -/
structure InOrder (w : World T σ) : Prop where
  counted : ∀ kind, (w.session.nextIdx kind).toNat = 1 + allocations kind w.history
  led : ∀ kind, allocations kind w.history ≤ allocations kind.leader w.history
  few : ∀ kind, allocations kind w.history ≤ 4096

/-- A call that allocates anything has room for it. -/
theorem Made.InRange.cases {c : Made T σ} (h : c.InRange) : c.after = c.before ∨
    ∀ kind : EntityKind, kind.leader ∈ c.op.allocates →
      (c.before.session.nextIdx kind.leader).toNat ≤ 4096 := by
  obtain ⟨op, fuel, w⟩ := c
  cases op with
  | createNode name =>
    right
    intro kind hkind
    rw [leader_of_node hkind]
    exact h
  | createPublisher M node topic =>
    by_cases hfits : TopicFits topic
    · right
      intro kind hkind
      rw [leader_of_publisher hkind]
      exact h hfits
    · left
      change ((createPublisher M fuel node topic >>= fun pub => pure (Reply.publisher pub.dwId) :
        Call T σ (Reply σ)).run w).2 = w
      rw [state_map, createPublisher_refused M fuel node hfits w]
  | createSubscription node topic s =>
    by_cases hpass : w.session.subscriptions.isFull = false ∧ TopicFits topic
    · right
      intro kind hkind
      rw [leader_of_subscription hkind]
      exact h hpass.1 hpass.2
    · left
      change ((createSubscription fuel node topic s >>= fun slot =>
        pure (Reply.subscription slot) : Call T σ (Reply σ)).run w).2 = w
      obtain ⟨e, -, hrun⟩ := createSubscription_refused fuel node s
        (refused_of_not_passed hpass)
      rw [state_map, hrun]
  | _ => exact .inr fun kind hkind => by cases hkind

/-- One call keeps the numbering in order. -/
theorem InOrder.call {c : Made T σ} (h : InOrder c.before) (hrange : c.InRange) :
    InOrder c.after := by
  rcases hrange.cases with hsame | hroom
  · rw [hsame]
    exact h
  · obtain ⟨ks, ids, hks, es, htrail, hkinds, -⟩ := made_stops c
    have hdelta (kind : EntityKind) : allocations kind c.after.history =
        allocations kind c.before.history + ks.count kind := by
      rw [htrail.history, allocations_append, allocations_eq kind es, hkinds]
    have hroom' (kind : EntityKind) (hpos : 0 < ks.count kind.leader) :
        allocations kind.leader c.before.history + 1 ≤ 4096 := by
      have hle := hroom kind (hks.subset (List.count_pos_iff.mp hpos))
      rw [h.counted] at hle
      omega
    refine ⟨?_, ?_, ?_⟩
    · intro kind
      have hcount := hdelta kind
      have hone := (allocates_counts hks kind).2
      have hfew := h.few kind
      have hcounted := h.counted kind
      have hsteps := htrail.router.nextIdx kind (by
        change (c.before.session.nextIdx kind).toNat + _ < _
        rw [allocations_eq kind es, hkinds]
        omega)
      change (c.after.router.nextIdx kind).toNat = _
      rw [hsteps, allocations_eq kind es, hkinds, hcount]
      change (c.before.session.nextIdx kind).toNat + _ = _
      omega
    · intro kind
      have hled := h.led kind
      have hcounts := (allocates_counts hks kind).1
      rw [hdelta, hdelta]
      omega
    · intro kind
      have hled := h.led kind
      have hcounts := allocates_counts hks kind
      have hfew := h.few kind
      rw [hdelta]
      by_cases hpos : 0 < ks.count kind.leader
      · have hleader := hroom' kind hpos
        omega
      · omega

end

/-- What a request leaves alone on its way, its request id apart. -/
def SameNumbers (w w' : World Wire σ) : Prop :=
  (w'.session.sessionId, w'.session.nextIdx) = (w.session.sessionId, w.session.nextIdx) ∧
    w'.session.reqId = w.session.reqId

theorem stable_sameNumbers : Stable (SameNumbers (σ := σ)) where
  refl _ := ⟨rfl, rfl⟩
  trans _ _ _ h h' := ⟨h'.1.trans h.1, h'.2.trans h.2⟩
  suspend w := by rw [SameNumbers, World.suspend_session]; exact ⟨rfl, rfl⟩
  transport _ _ := ⟨rfl, rfl⟩

theorem submessageOf_statusFrame (req : UInt16) (status : UInt8) :
    submessageOf 0x81 (statusFrame req status) =
      some (submsgStatus, requestIdBeBytes req ++ [0, 0, status, 0]) := rfl

theorem statusOf_bytes (req : UInt16) (status : UInt8) :
    statusOf (requestIdBeBytes req ++ [0, 0, status, 0]) = some (req, status) := by
  simp only [requestIdBeBytes, List.cons_append, List.nil_append, statusOf, u16FromBe_bytes]

theorem ofNat_succ (n : Nat) : UInt16.ofNat n + 1 = UInt16.ofNat (n + 1) := by
  rw [UInt16.ofNat_add]
  rfl

theorem max_succ_ofNat {n : Nat} (h : n + 1 < 2 ^ 16) :
    max (UInt16.ofNat n + 1) 1 = UInt16.ofNat (n + 1) := by
  apply UInt16.toNat_inj.mp
  rw [toNat_next, UInt16.toNat_ofNat', UInt16.toNat_ofNat']
  split <;> omega

section
variable [Target]

/-- A request whose answer is the next frame. -/
theorem sendRequest_answered (fuel : Nat) {enc : Encoder} {id flags : UInt8}
    {payload : UInt16 → Bytes} {oid : UInt16} (henc : enc.Requests id flags oid payload)
    {w : World Wire σ}
    (hid : w.session.sessionId = 0x81) {rest : Bytes}
    (h : w.incoming = framed (statusFrame w.session.reqId 0) ++ rest) :
    ∃ w', (sendRequest (fuel + 1) enc).run w = (.ok (), w') ∧ w'.incoming = rest ∧
      w'.session.sessionId = w.session.sessionId ∧ w'.session.nextIdx = w.session.nextIdx ∧
      w'.session.reqId = max (w.session.reqId + 1) 1 := by
  obtain ⟨buf, -, hrun⟩ := sendRequest_run w (fuel + 1) henc.writes
  obtain ⟨w₁, hwrite, hin, hsame⟩ := writeFramed_wire stable_sameNumbers
    (w.request id flags payload) (w.requesting (w.request id flags payload) buf)
  have hhead : (w.requesting (w.request id flags payload) buf).incoming =
      framed (statusFrame w.session.reqId 0) ++ rest := h
  rw [hhead] at hin
  obtain ⟨w₂, hframe, hrest, hsame₂⟩ := withFrame_run (delivers_wire.within stable_sameNumbers w₁)
    (fun w₂ => waitFrame w₂ w.session.reqId) (f := statusFrame w.session.reqId 0)
    (show 14 ≤ 768 by decide) ⟨hin, stable_sameNumbers.refl w₁⟩
  obtain ⟨hnums, hreq⟩ := stable_sameNumbers.trans _ _ _ hsame hsame₂
  obtain ⟨hsid, hidx⟩ := Prod.mk.inj hnums
  have hmsg : submessageOf (w₂.holding (statusFrame w.session.reqId 0)).session.sessionId
      (statusFrame w.session.reqId 0) =
        some (submsgStatus, requestIdBeBytes w.session.reqId ++ [0, 0, 0, 0]) := by
    change submessageOf w₂.session.sessionId _ = _
    rw [hsid]
    change submessageOf w.session.sessionId _ = _
    rw [hid, submessageOf_statusFrame]
  have hturn : (waitTurn w.session.reqId : Call Wire σ Bool).run w₁ =
      (.ok true, w₂.holding (statusFrame w.session.reqId 0)) := by
    rw [waitTurn_eq, hframe, waitFrame_status hmsg (statusOf_bytes _ _), if_neg (by decide)]
    rfl
  refine ⟨w₂.holding (statusFrame w.session.reqId 0), ?_, hrest, hsid, hidx, hreq⟩
  rw [hrun, bind_ok hwrite, waitStatusFor, bind_ok hturn]
  rfl

/-- A program that creates one publisher after the other. -/
def publishing (w : World Wire Unit) : Made Wire Unit :=
  ⟨.createPublisher Float32 ⟨1, 1, 1⟩ (ascii "/a"), 1, w⟩

/-- The world after `n` such calls, with an agent that grants every request. -/
def manyTopics : Nat → World Wire Unit
  | 0 => answering ((List.range' 1 8194).map fun r => statusFrame (.ofNat r) 0)
  | n + 1 => (publishing (manyTopics n)).after

def publishers (n : Nat) : List (Made Wire Unit) :=
  (List.range n).map fun i => publishing (manyTopics i)

/-- Where the session stands after `n` calls. -/
structure Ready (n : Nat) (w : World Wire Unit) : Prop where
  sessionId : w.session.sessionId = 0x81
  reqId : w.session.reqId = .ofNat (2 * n + 1)
  topic : w.session.nextIdx .topic = .ofNat (n + 1)
  datawriter : w.session.nextIdx .datawriter = .ofNat (n + 1)
  incoming : w.incoming =
    stream ((List.range' (2 * n + 1) (8194 - 2 * n)).map fun r => statusFrame (.ofNat r) 0)

theorem createPublisher_creates {M : Type} [Message M] {fuel : Nat} {node : Node} {topic : Bytes}
    {pub : Publisher M} {w w' : World Wire σ}
    (h : (createPublisher M fuel node topic).run w = (.ok pub, w')) :
    ∃ es, Trail w es w' ∧
      objectId (w.session.nextIdx .topic) entityTopic ∈ createdIds w.session.sessionId es := by
  obtain ⟨ddsTopic, w₀, hname, h⟩ := bind_eq_ok h
  obtain ⟨topicIdx, w₁, htopic, h⟩ := bind_eq_ok h
  obtain ⟨_, w₂, hcreate, h⟩ := bind_eq_ok h
  obtain ⟨dwIdx, w₃, hdw, h⟩ := bind_eq_ok h
  obtain ⟨_, w₄, hcreate', h⟩ := bind_eq_ok h
  cases h
  rw [ros2TopicName_eq] at hname
  split at hname
  · cases hname
    rcases alloc_cases .topic w with hrun | ⟨hrun, -⟩
    · cases htopic.symm.trans hrun
      obtain ⟨frame, w₂', hreq, hsend, hwait⟩ := (createWithParentEntity_asks fuel _ _ _
        (length_topicXml_le _ _)).of_run hcreate
      obtain ⟨es, -, hrest⟩ := ((hwait.mono fun _ he => he.quiet).trans
        ((alloc_quiet .datawriter).of_run hdw)).trans
        ((createWithParentEntity_quiet fuel _ _ _ (length_dataWriterXml_le _ _)).of_run hcreate')
      have hcreated : (Event.sent frame : Event σ).asks w.session.sessionId submsgCreate =
          some (objectId (w.session.nextIdx .topic) entityTopic) := by
        have hid : (w.allocating .topic).session.sessionId = w.session.sessionId := rfl
        rw [hid] at hreq
        simp only [Event.asks, hreq, if_pos]
      refine ⟨_, ((w.allocating_trail .topic).trans hsend).trans hrest, ?_⟩
      exact List.mem_filterMap.mpr ⟨.sent frame, by simp, hcreated⟩
    · cases htopic.symm.trans hrun
  · cases hname

theorem ready_succ {n : Nat} (hn : n < 4097) {w : World Wire Unit} (h : Ready n w) :
    (publishing w).outcome.isOk = true ∧ Ready (n + 1) (publishing w).after ∧
      ∃ es, Trail w es (publishing w).after ∧
        objectId (.ofNat (n + 1)) entityTopic ∈ createdIds 0x81 es := by
  have hroom : (UInt16.ofNat (n + 1)).toNat ≠ 2 ^ 16 - 1 := by
    rw [UInt16.toNat_ofNat']
    omega
  have htopic := (alloc_cases .topic w).resolve_right (by rw [h.topic]; exact fun h => hroom h.2)
  have hframes : (w.allocating .topic).incoming =
      framed (statusFrame w.session.reqId 0) ++ (framed (statusFrame (.ofNat (2 * n + 2)) 0) ++
        stream ((List.range' (2 * n + 3) (8194 - 2 * (n + 1))).map fun r =>
          statusFrame (.ofNat r) 0)) := by
    change w.incoming = _
    have hlen : 8194 - 2 * n = 8194 - 2 * (n + 1) + 1 + 1 := by omega
    rw [h.incoming, hlen, List.range'_succ, List.range'_succ, h.reqId]
    rfl
  have hname : (ros2TopicName topicNameMax (ascii "/a") : Call Wire Unit Bytes) =
      pure (ascii "rt/" ++ stripSlash (ascii "/a")) := by
    rw [ros2TopicName_eq, if_pos (by decide)]
  obtain ⟨w₁, hrun₁, hin₁, hsid₁, hidx₁, hreq₁⟩ := sendRequest_answered 0
    (requests_createWithParent (objectId (w.session.nextIdx .topic) entityTopic) entityTopic
      (objectId 1 entityParticipant) (length_topicXml_le (ascii "rt/" ++ stripSlash (ascii "/a"))
        (Message.typeName Float32))) (w := w.allocating .topic) h.sessionId hframes
  have hdw := (alloc_cases .datawriter w₁).resolve_right (by
    rw [hidx₁]
    change ¬ (_ ∧ (w.session.nextIdx .datawriter).toNat = _)
    rw [h.datawriter]
    exact fun h => hroom h.2)
  have hnext : w₁.session.reqId = .ofNat (2 * n + 2) := by
    rw [hreq₁]
    change max (w.session.reqId + 1) 1 = _
    rw [h.reqId, max_succ_ofNat (by omega)]
  obtain ⟨w₂, hrun₂, hin₂, hsid₂, hidx₂, hreq₂⟩ := sendRequest_answered 0
    (requests_createWithParent (objectId (w₁.session.nextIdx .datawriter) entityDatawriter)
      entityDatawriter (objectId 1 entityPublisher)
      (length_dataWriterXml_le (ascii "rt/" ++ stripSlash (ascii "/a")) (Message.typeName Float32)))
    (w := w₁.allocating .datawriter) (hsid₁.trans h.sessionId) (hin₁.trans (by rw [← hnext]; rfl))
  have hcreate : (createPublisher Float32 1 ⟨1, 1, 1⟩ (ascii "/a")).run w =
      (.ok ⟨objectId (w₁.session.nextIdx .datawriter) entityDatawriter⟩, w₂) := by
    rw [createPublisher, hname, pure_bind, allocTopic, bind_ok htopic, createWithParentEntity_eq,
      bind_ok hrun₁, allocDw, bind_ok hdw]
    simp only [createWithParentEntity_eq, bind_ok hrun₂, run_pure]
  have hcall : ((publishing w).op.call (publishing w).fuel).run w =
      (.ok (.publisher (objectId (w₁.session.nextIdx .datawriter) entityDatawriter)), w₂) :=
    bind_ok hcreate _
  have hafter : (publishing w).after = w₂ := congrArg Prod.snd hcall
  obtain ⟨es, htrail, hcreated⟩ := createPublisher_creates hcreate
  rw [h.topic, h.sessionId] at hcreated
  rw [hafter]
  refine ⟨?_, ⟨?_, ?_, ?_, ?_, ?_⟩, es, htrail, hcreated⟩
  · rw [Made.outcome]
    exact congrArg (fun r => r.1.isOk) hcall
  · exact (hsid₂.trans hsid₁).trans h.sessionId
  · rw [hreq₂]
    change max (w₁.session.reqId + 1) 1 = _
    rw [hnext, max_succ_ofNat (by omega)]
    rfl
  · rw [hidx₂]
    change w₁.session.nextIdx .topic = _
    rw [hidx₁]
    change w.session.nextIdx .topic + 1 = _
    rw [h.topic, ofNat_succ]
  · rw [hidx₂]
    change w₁.session.nextIdx .datawriter + 1 = _
    rw [hidx₁]
    change w.session.nextIdx .datawriter + 1 = _
    rw [h.datawriter, ofNat_succ]
  · exact hin₂

theorem ready_manyTopics {n : Nat} (hn : n ≤ 4097) : Ready n (manyTopics n) := by
  induction n with
  | zero => exact ⟨rfl, rfl, rfl, rfl, rfl⟩
  | succ n ih => exact (ready_succ (by omega) (ih (by omega))).2.1

theorem publishers_run {n : Nat} (hn : n ≤ 4097) :
    Runs (manyTopics 0) (publishers n) (manyTopics n) ∧
      ∀ c ∈ publishers n, c.outcome.isOk = true := by
  induction n with
  | zero => exact ⟨.nil, List.forall_mem_nil _⟩
  | succ n ih =>
    obtain ⟨hruns, hok⟩ := ih (by omega)
    have hlast : publishers (n + 1) = publishers n ++ [publishing (manyTopics n)] := by
      rw [publishers, List.range_succ, List.map_append]
      rfl
    rw [hlast, List.forall_mem_append, List.forall_mem_singleton]
    refine ⟨.snoc (publishing (manyTopics n)) hruns ?_, hok,
      (ready_succ (by omega) (ready_manyTopics (by omega))).1⟩
    intro c hc hpanic
    have hcok := hok c hc
    rw [hpanic] at hcok
    cases hcok

theorem first_topic_created {n : Nat} (hn : n < 4097) :
    objectId 1 entityTopic ∈ createdIds 0x81 (manyTopics (n + 1)).history := by
  induction n with
  | zero =>
    obtain ⟨es, htrail, hmem⟩ := (ready_succ hn (ready_manyTopics (Nat.zero_le _))).2.2
    rw [manyTopics, htrail.history, createdIds, List.filterMap_append]
    exact List.mem_append_right _ hmem
  | succ n ih =>
    obtain ⟨es, htrail⟩ := (publishing (manyTopics (n + 1))).trail
    rw [manyTopics, htrail.history, createdIds, List.filterMap_append]
    exact List.mem_append_left _ (ih (by omega))

theorem publishers_inRange {n : Nat} (hn : n ≤ 4096) : ∀ c ∈ publishers n, c.InRange := by
  intro c hc
  obtain ⟨i, hi, rfl⟩ := List.mem_map.mp hc
  rw [List.mem_range] at hi
  intro _
  change ((manyTopics i).session.nextIdx .topic).toNat ≤ 4096
  rw [(ready_manyTopics (by omega)).topic, UInt16.toNat_ofNat']
  omega

variable [ReadWrite T]

/-- As long as no counter that a call uses has given out 4096 indices, no object id is used
twice: not in a CREATE, and not in an allocation either. No counter overflows. -/
theorem object_ids_never_reused {transport : T} {sessionId : UInt8} {key : ClientKey}
    {tasks : List (List σ)} {calls : List (Made T σ)} {w : World T σ}
    (h : Runs (start transport sessionId key tasks) calls w) (hrange : ∀ c ∈ calls, c.InRange) :
    (createdIds sessionId w.history).Nodup ∧ (allocatedIds w.history).Nodup ∧
      ∀ kind, (w.session.nextIdx kind).toNat = 1 + allocations kind w.history ∧
        allocations kind w.history ≤ 4096 := by
  have horder : InOrder w ∧ (createdIds sessionId w.history).Sublist (allocatedIds w.history) := by
    induction h with
    | nil =>
      refine ⟨⟨fun _ => rfl, fun _ => Nat.le_refl _, fun _ => Nat.zero_le _⟩, ?_⟩
      exact List.Sublist.refl []
    | @snoc calls c hbefore _ ih =>
      rw [List.forall_mem_append, List.forall_mem_singleton] at hrange
      obtain ⟨hin, hsub⟩ := ih hrange.1
      obtain ⟨xs, hxs⟩ := hbefore.trail
      have hid : c.before.session.sessionId = sessionId := hxs.router.sessionId
      refine ⟨hin.call hrange.2, ?_⟩
      obtain ⟨ks, ids, -, es, htrail, -, hids⟩ := made_stops c
      rw [hid] at hids
      rw [htrail.history, createdIds, allocatedIds, List.filterMap_append, List.filterMap_append]
      refine hsub.append ?_
      change (createdIds sessionId es).Sublist (allocatedIds es)
      rw [← hids]
      exact List.sublist_append_left _ _
  obtain ⟨hin, hsub⟩ := horder
  obtain ⟨es, htrail⟩ := h.trail
  have hhist : w.history = es := htrail.history
  have hnodup : (allocatedIds w.history).Nodup := by
    rw [hhist]
    refine (htrail.router.allocatedIds_nodup (fun _ => Nat.le_refl 1) ?_).1
    intro kind
    have hfew := hin.few kind
    rw [hhist] at hfew
    change 1 + allocations kind es ≤ 4097
    omega
  exact ⟨hsub.nodup hnodup, hnodup, fun kind => ⟨hin.counted kind, hin.few kind⟩⟩

end

/-- As many topics as there are ids. -/
theorem topic_ids_distinct :
    letI := rp2040 true
    (∀ c ∈ publishers 4096, c.outcome.isOk = true) ∧
      (createdIds 0x81 (manyTopics 4096).history).Nodup := by
  generalize rp2040 true = target
  have hruns := publishers_run (show 4096 ≤ 4097 by decide)
  have hrange := publishers_inRange (Nat.le_refl 4096)
  exact ⟨hruns.2, (object_ids_never_reused hruns.1 hrange).1⟩

/-- The 4097th topic of a session gets the id of the first. -/
theorem topic_id_reused :
    letI := rp2040 true
    Runs (manyTopics 0) (publishers 4097) (manyTopics 4097) ∧
      (∀ c ∈ publishers 4097, c.outcome.isOk = true) ∧
      ¬ (createdIds 0x81 (manyTopics 4097).history).Nodup := by
  generalize rp2040 true = target
  have hruns := publishers_run (Nat.le_refl 4097)
  refine ⟨hruns.1, hruns.2, ?_⟩
  have hfirst : objectId 1 entityTopic ∈ createdIds 0x81 (manyTopics 4096).history :=
    first_topic_created (n := 4095) (by decide)
  obtain ⟨es, htrail, hlast⟩ := (ready_succ (by decide)
    (ready_manyTopics (show 4096 ≤ 4097 by decide))).2.2
  have hsame : objectId (.ofNat (4096 + 1)) entityTopic = objectId 1 entityTopic :=
    objectId_inj.mpr (by decide)
  rw [hsame] at hlast
  rw [manyTopics, htrail.history, createdIds, List.filterMap_append]
  intro hnodup
  exact List.disjoint_of_nodup_append hnodup hfirst hlast

end MicroXrceDds
