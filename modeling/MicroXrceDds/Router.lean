import MicroXrceDds.Session

/-!
# Routing, as it is meant

The abstract router: the id counters, the slots and the dispatch table, and what each
event of a history does to them. A frame goes to the first registered slot that has
the object id of its DATA submessage, and to no other.
-/
namespace MicroXrceDds

variable {σ : Type} [Statics σ]

/-- The id and the payload of the first submessage; the payload ends where its length
field or the frame says. -/
def submessageOf (sessionId : UInt8) (frame : Bytes) : Option (UInt8 × Bytes) :=
  match frame.drop (msgHeaderLen sessionId) with
  | id :: _ :: lo :: hi :: rest => some (id, rest.take (u16FromLe lo hi).toNat)
  | _ => none

/-- The object id and the sample of a DATA payload. -/
def sampleOf : Bytes → Option (UInt16 × Bytes)
  | _ :: _ :: hi :: lo :: body => some (u16FromBe hi lo, body)
  | _ => none

/-- What a frame carries if its first submessage is DATA. -/
def dataOf (sessionId : UInt8) (frame : Bytes) : Option (UInt16 × Bytes) :=
  match submessageOf sessionId frame with
  | some (id, payload) => if id = submsgData then sampleOf payload else none
  | none => none

/-- A sample that decodes is queued unless the inbox is full. -/
def Subscription.deliver {M : Type} [Message M] {N : Nat} (body : Bytes)
    (sub : Subscription M N) : Subscription M N :=
  match Subscription.decode M body with
  | .ok v =>
    match sub.inbox.push v with
    | some inbox => { sub with inbox := inbox }
    | none => sub
  | _ => sub

@[simp] theorem Subscription.deliver_drId {M : Type} [Message M] {N : Nat} (body : Bytes)
    (sub : Subscription M N) : (sub.deliver body).drId = sub.drId := by
  unfold Subscription.deliver
  split
  · split <;> rfl
  · rfl

theorem Subscription.tryRecv_eq_some {M : Type} {N : Nat} {sub sub' : Subscription M N} {v : M}
    (h : sub.tryRecv = some (v, sub')) :
    sub.inbox.pop = some (v, sub'.inbox) ∧ sub'.drId = sub.drId := by
  simp only [Subscription.tryRecv, Option.map_eq_some_iff, Prod.exists, Prod.mk.injEq] at h
  obtain ⟨_, _, hpop, rfl, rfl⟩ := h
  exact ⟨hpop, rfl⟩

structure Router (σ : Type) [Statics σ] where
  sessionId : UInt8
  nextIdx : EntityKind → UInt16
  slots : Slots σ
  table : Bounded σ maxSubscriptions

namespace Router

def setSlot (s : σ) (sub : Subscription (Statics.Msg s) (Statics.depth s)) (r : Router σ) :
    Router σ := { r with slots := Function.update r.slots s sub }

/-- The slot that a DATA submessage with this object id belongs to. -/
def target (r : Router σ) (id : UInt16) : Option σ :=
  r.table.items.find? fun s => (r.slots s).drId == id

def deliver (id : UInt16) (body : Bytes) (r : Router σ) : Router σ :=
  match r.target id with
  | some s => r.setSlot s ((r.slots s).deliver body)
  | none => r

def route (frame : Bytes) (r : Router σ) : Router σ :=
  match dataOf r.sessionId frame with
  | some (id, body) => r.deliver id body
  | none => r

/-- What one event does. -/
inductive Step : Router σ → Event σ → Router σ → Prop
  | allocated (r : Router σ) (kind : EntityKind) :
    Step r (.allocated kind (r.nextIdx kind))
      { r with nextIdx := Function.update r.nextIdx kind (r.nextIdx kind + 1) }
  | sent (r : Router σ) (frame : Bytes) : Step r (.sent frame) r
  | received (r : Router σ) (frame : Bytes) : Step r (.received frame) (r.route frame)
  | assigned (r : Router σ) (s : σ) (id : UInt16) :
    Step r (.assigned s id) (r.setSlot s ((r.slots s).setDrId id))
  | registered (r : Router σ) (s : σ) (table : Bounded σ maxSubscriptions)
      (h : r.table.push s = some table) : Step r (.registered s) { r with table := table }
  | taken (r : Router σ) (s : σ) (v : Statics.Msg s)
      (sub : Subscription (Statics.Msg s) (Statics.depth s))
      (h : (r.slots s).tryRecv = some (v, sub)) : Step r (.taken s v) (r.setSlot s sub)

/-- What a history does. -/
inductive Steps : Router σ → List (Event σ) → Router σ → Prop
  | nil (r : Router σ) : Steps r [] r
  | cons {r r' r'' : Router σ} {e : Event σ} {es : List (Event σ)}
      (first : Step r e r') (rest : Steps r' es r'') : Steps r (e :: es) r''

theorem Steps.single {r r' : Router σ} {e : Event σ} (h : Step r e r') : Steps r [e] r' :=
  .cons h (.nil r')

theorem Steps.append {r r' r'' : Router σ} {xs ys : List (Event σ)} (h : Steps r xs r')
    (h' : Steps r' ys r'') : Steps r (xs ++ ys) r'' := by
  induction h with
  | nil => exact h'
  | cons first _ ih => exact .cons first (ih h')

theorem Steps.pair {r r'' : Router σ} {e e' : Event σ} (h : Steps r [e, e'] r'') :
    ∃ r', Step r e r' ∧ Step r' e' r'' := by
  cases h with
  | cons first rest =>
    cases rest with
    | cons second rest =>
      cases rest
      exact ⟨_, first, second⟩

/-- A history can be cut anywhere. -/
theorem Steps.split {r r'' : Router σ} {xs ys : List (Event σ)} (h : Steps r (xs ++ ys) r'') :
    ∃ r', Steps r xs r' ∧ Steps r' ys r'' := by
  induction xs generalizing r with
  | nil => exact ⟨r, .nil r, h⟩
  | cons x xs ih =>
    cases h with
    | cons first rest =>
      obtain ⟨r', hxs, hys⟩ := ih rest
      exact ⟨r', .cons first hxs, hys⟩

end Router

/-- The event changes neither the id of a slot nor the table. -/
def Event.Quiet : Event σ → Prop
  | .assigned _ _ => False
  | .registered _ => False
  | _ => True

def Event.allocates (kind : EntityKind) : Event σ → Bool
  | .allocated k _ => k = kind
  | _ => false

/-- How many indices of a kind have been given out. -/
def allocations (kind : EntityKind) (es : List (Event σ)) : Nat :=
  es.countP (Event.allocates kind)

def Event.registers (s : σ) : Event σ → Bool
  | .registered s' => s' = s
  | _ => false

/-- How often a slot has been entered in the table. -/
def registrations (s : σ) (es : List (Event σ)) : Nat := es.countP (Event.registers s)

theorem allocations_append (kind : EntityKind) (xs ys : List (Event σ)) :
    allocations kind (xs ++ ys) = allocations kind xs + allocations kind ys := List.countP_append

theorem registrations_append (s : σ) (xs ys : List (Event σ)) :
    registrations s (xs ++ ys) = registrations s xs + registrations s ys := List.countP_append

namespace Router

@[simp] theorem setSlot_table (r : Router σ) (s : σ)
    (sub : Subscription (Statics.Msg s) (Statics.depth s)) : (r.setSlot s sub).table = r.table := rfl
@[simp] theorem setSlot_nextIdx (r : Router σ) (s : σ)
    (sub : Subscription (Statics.Msg s) (Statics.depth s)) :
    (r.setSlot s sub).nextIdx = r.nextIdx := rfl
@[simp] theorem setSlot_sessionId (r : Router σ) (s : σ)
    (sub : Subscription (Statics.Msg s) (Statics.depth s)) :
    (r.setSlot s sub).sessionId = r.sessionId := rfl

theorem setSlot_self (r : Router σ) (s : σ) (sub : Subscription (Statics.Msg s) (Statics.depth s)) :
    (r.setSlot s sub).slots s = sub := by
  simp only [setSlot, Function.update_self]

theorem setSlot_of_ne (r : Router σ) {s s' : σ} (h : s' ≠ s)
    (sub : Subscription (Statics.Msg s) (Statics.depth s)) :
    (r.setSlot s sub).slots s' = r.slots s' := by
  simp only [setSlot, Function.update_of_ne h]

/-- A slot put in place of one with the same id. -/
theorem setSlot_drId {r : Router σ} {s : σ} {sub : Subscription (Statics.Msg s) (Statics.depth s)}
    (h : sub.drId = (r.slots s).drId) (s' : σ) :
    ((r.setSlot s sub).slots s').drId = (r.slots s').drId := by
  by_cases hs : s' = s
  · subst hs
    rw [setSlot_self, h]
  · rw [setSlot_of_ne r hs]

/-- Routing changes inboxes only. -/
theorem route_frame (r : Router σ) (frame : Bytes) :
    (r.route frame).table = r.table ∧ (r.route frame).nextIdx = r.nextIdx ∧
      (r.route frame).sessionId = r.sessionId ∧
      ∀ s, ((r.route frame).slots s).drId = (r.slots s).drId := by
  unfold route
  cases dataOf r.sessionId frame with
  | none => exact ⟨rfl, rfl, rfl, fun _ => rfl⟩
  | some data =>
    simp only [deliver]
    cases r.target data.1 with
    | none => exact ⟨rfl, rfl, rfl, fun _ => rfl⟩
    | some s => exact ⟨rfl, rfl, rfl, setSlot_drId (Subscription.deliver_drId data.2 _)⟩

/-- No two slots of the table have the same id. -/
def Distinct (r : Router σ) : Prop := (r.table.items.map fun s => (r.slots s).drId).Nodup

/-- Then the slot found for an id is the one that has it. -/
theorem target_eq_some {r : Router σ} (h : r.Distinct) {id : UInt16} {s : σ} :
    r.target id = some s ↔ s ∈ r.table.items ∧ (r.slots s).drId = id := by
  constructor
  · intro hs
    exact ⟨List.mem_of_find?_eq_some hs, by simpa using List.find?_some hs⟩
  · rintro ⟨hmem, rfl⟩
    unfold Distinct at h
    unfold target
    generalize r.table.items = items at h hmem
    induction items with
    | nil => cases hmem
    | cons x items ih =>
      rw [List.map_cons, List.nodup_cons] at h
      by_cases hx : (r.slots x).drId = (r.slots s).drId
      · rw [List.find?_cons_of_pos (by simpa using hx)]
        rcases List.mem_cons.mp hmem with rfl | hrest
        · rfl
        · exact absurd (hx ▸ List.mem_map_of_mem hrest) h.1
      · rw [List.find?_cons_of_neg (by simpa using hx)]
        rcases List.mem_cons.mp hmem with rfl | hrest
        · exact absurd rfl hx
        · exact ih h.2 hrest

theorem deliver_table (r : Router σ) (id : UInt16) (body : Bytes) :
    (r.deliver id body).table = r.table := by
  unfold deliver
  cases r.target id <;> rfl

/-- Only the slot that is found gets the sample. -/
theorem deliver_slots (r : Router σ) (id : UInt16) (body : Bytes) (s : σ) :
    (r.deliver id body).slots s =
      if r.target id = some s then (r.slots s).deliver body else r.slots s := by
  unfold deliver
  cases r.target id with
  | none => rfl
  | some t =>
    by_cases hs : t = s
    · subst hs
      rw [if_pos rfl]
      exact setSlot_self r t _
    · rw [if_neg (by simpa using hs)]
      exact setSlot_of_ne r (Ne.symm hs) _

variable {r r' : Router σ} {e : Event σ} {es : List (Event σ)}

theorem Step.sessionId (h : Step r e r') : r'.sessionId = r.sessionId := by
  cases h with
  | received frame => exact (r.route_frame frame).2.2.1
  | _ => rfl

theorem Steps.sessionId (h : Steps r es r') : r'.sessionId = r.sessionId := by
  induction h with
  | nil => rfl
  | cons first _ ih => exact ih.trans first.sessionId

/-- A quiet event keeps the table and the id of every slot. -/
theorem Step.quiet (h : Step r e r') (he : e.Quiet) :
    r'.table = r.table ∧ ∀ s, (r'.slots s).drId = (r.slots s).drId := by
  cases h with
  | allocated kind => exact ⟨rfl, fun _ => rfl⟩
  | sent frame => exact ⟨rfl, fun _ => rfl⟩
  | received frame =>
    have h := r.route_frame frame
    exact ⟨h.1, h.2.2.2⟩
  | assigned s id => exact he.elim
  | registered s table h => exact he.elim
  | taken s v sub h => exact ⟨rfl, setSlot_drId (Subscription.tryRecv_eq_some h).2⟩

theorem Step.distinct (h : Step r e r') (he : e.Quiet) (hr : r.Distinct) : r'.Distinct := by
  obtain ⟨htable, hids⟩ := h.quiet he
  unfold Distinct
  rw [htable, List.map_congr_left fun s _ => hids s]
  exact hr

theorem Steps.quiet (h : Steps r es r') (hes : ∀ e ∈ es, e.Quiet) :
    r'.table = r.table ∧ ∀ s, (r'.slots s).drId = (r.slots s).drId := by
  induction h with
  | nil => exact ⟨rfl, fun _ => rfl⟩
  | cons first _ ih =>
    obtain ⟨he, hrest⟩ := List.forall_mem_cons.mp hes
    have hfirst := first.quiet he
    have hih := ih hrest
    refine ⟨hih.1.trans hfirst.1, ?_⟩
    intro s
    exact (hih.2 s).trans (hfirst.2 s)

/-- A slot outside the table gets nothing: it can only lose samples to `try_recv`. -/
theorem Step.outside (h : Step r e r') (he : e.Quiet) {s : σ} (hs : s ∉ r.table.items) :
    (r'.slots s).inbox.items <:+ (r.slots s).inbox.items := by
  cases h with
  | allocated kind => exact List.suffix_rfl
  | sent frame => exact List.suffix_rfl
  | received frame =>
    unfold route
    cases dataOf r.sessionId frame with
    | none => exact List.suffix_rfl
    | some data =>
      have htarget : r.target data.1 ≠ some s := fun h => hs (List.mem_of_find?_eq_some h)
      have hsame : (r.deliver data.1 data.2).slots s = r.slots s := by
        rw [deliver_slots, if_neg htarget]
      exact ⟨[], by rw [List.nil_append, hsame]⟩
  | assigned s id => exact he.elim
  | registered s table h => exact he.elim
  | taken t v sub h =>
    by_cases ht : s = t
    · subst ht
      rw [setSlot_self, Bounded.pop_eq_some.mp (Subscription.tryRecv_eq_some h).1]
      exact List.suffix_cons v _
    · exact ⟨[], by rw [List.nil_append, setSlot_of_ne r ht]⟩

theorem Steps.outside (h : Steps r es r') (hes : ∀ e ∈ es, e.Quiet) {s : σ}
    (hs : s ∉ r.table.items) : (r'.slots s).inbox.items <:+ (r.slots s).inbox.items := by
  induction h with
  | nil => exact List.suffix_rfl
  | cons first _ ih =>
    obtain ⟨he, hrest⟩ := List.forall_mem_cons.mp hes
    rw [← (first.quiet he).1] at hs
    exact (ih hrest hs).trans (first.outside he (by rwa [(first.quiet he).1] at hs))

/-- Only the allocations of its kind move a counter. -/
theorem Step.nextIdx (h : Step r e r') (kind : EntityKind) :
    r'.nextIdx kind = if e.allocates kind then r.nextIdx kind + 1 else r.nextIdx kind := by
  cases h with
  | allocated k =>
    by_cases hk : k = kind
    · subst hk
      simp [Event.allocates]
    · simp [Event.allocates, hk, Function.update_of_ne (Ne.symm hk)]
  | received frame => rw [(r.route_frame frame).2.1]; rfl
  | _ => rfl

theorem Steps.nextIdx_eq (h : Steps r es r') {kind : EntityKind}
    (hes : ∀ e ∈ es, e.allocates kind = false) : r'.nextIdx kind = r.nextIdx kind := by
  induction h with
  | nil => rfl
  | cons first _ ih =>
    obtain ⟨he, hrest⟩ := List.forall_mem_cons.mp hes
    rw [ih hrest, first.nextIdx kind, he]
    rfl

/-- As long as it does not wrap, a counter counts. -/
theorem Steps.nextIdx (h : Steps r es r') (kind : EntityKind)
    (hlt : (r.nextIdx kind).toNat + allocations kind es < 2 ^ 16) :
    (r'.nextIdx kind).toNat = (r.nextIdx kind).toNat + allocations kind es := by
  induction h with
  | nil => rfl
  | @cons r r₁ r' e es first _ ih =>
    have hone : (1 : UInt16).toNat = 1 := rfl
    have hfirst := first.nextIdx kind
    rw [allocations, List.countP_cons] at hlt ⊢
    cases he : e.allocates kind with
    | false =>
      simp only [he, Bool.false_eq_true, if_false] at hfirst hlt ⊢
      rw [ih (by rw [hfirst, allocations]; omega), hfirst, allocations]
      rfl
    | true =>
      simp only [he, if_true] at hfirst hlt ⊢
      have hnext : (r₁.nextIdx kind).toNat = (r.nextIdx kind).toNat + 1 := by
        rw [hfirst, UInt16.toNat_add, hone]
        omega
      rw [ih (by rw [hnext, allocations]; omega), hnext, allocations]
      omega

theorem Step.registrations (h : Step r e r') (s : σ) :
    r'.table.items.count s = r.table.items.count s + if e.registers s then 1 else 0 := by
  cases h with
  | registered s' table hpush =>
    rw [(Bounded.push_eq_some.mp hpush).2, List.count_append, List.count_singleton]
    simp [Event.registers]
  | received frame => rw [(r.route_frame frame).1]; rfl
  | _ => rfl

/-- The table lists the registrations of the history. -/
theorem Steps.registrations (h : Steps r es r') (s : σ) :
    r'.table.items.count s = r.table.items.count s + registrations s es := by
  induction h with
  | nil => rfl
  | cons first _ ih =>
    rw [ih, first.registrations s, MicroXrceDds.registrations, MicroXrceDds.registrations,
      List.countP_cons]
    omega

end Router

end MicroXrceDds
