import MicroXrceDds.Calls

/-!
# What the creating calls are made of

Each call that creates entities is a sequence of allocations, requests and a check of the topic
name. What holds of these steps and is kept by sequences holds of the calls.
-/
namespace MicroXrceDds

open Prog Session

variable {T σ : Type} [Statics σ] [Target] [ReadWrite T]

/-- A property of programs that the steps of a creating call have. -/
structure Composes (P : (α : Type) → Call T σ α → Prop) : Prop where
  pure : ∀ {α : Type} (a : α), P α (Pure.pure a)
  bind : ∀ {α β : Type} {p : Call T σ α} {f : α → Call T σ β}, P α p → (∀ a, P β (f a)) →
    P β (p >>= f)
  alloc : ∀ kind, P UInt16 (alloc kind)
  topicName : ∀ topic, P Bytes (ros2TopicName topicNameMax topic)
  participant : ∀ fuel idx {xml : Bytes}, xml.length ≤ 320 →
    P Unit (createParticipantEntity fuel idx xml)
  child : ∀ fuel oid kind {xml : Bytes} parent, xml.length ≤ 320 →
    P Unit (createWithParentEntity fuel oid kind xml parent)
  readData : ∀ fuel oid, P Unit (sendReadData fuel oid)

namespace Composes

variable {P : (α : Type) → Call T σ α → Prop}

theorem createNode (h : Composes P) (fuel : Nat) (name : Bytes) :
    P Node (createNode fuel name) := by
  refine h.bind (h.alloc .participant) fun participantIdx => ?_
  refine h.bind (h.alloc .publisher) fun publisherIdx => ?_
  refine h.bind (h.alloc .subscriber) fun subscriberIdx => ?_
  refine h.bind (h.participant fuel participantIdx (length_participantXml_le name)) fun _ => ?_
  refine h.bind (h.child fuel _ _ _ (by decide)) fun _ => ?_
  exact h.bind (h.child fuel _ _ _ (by decide)) fun _ => h.pure _

theorem createPublisher (h : Composes P) (M : Type) [Message M] (fuel : Nat) (node : Node)
    (topic : Bytes) : P (Publisher M) (createPublisher M fuel node topic) := by
  refine h.bind (h.topicName topic) fun ddsTopic => ?_
  refine h.bind (h.alloc .topic) fun topicIdx => ?_
  refine h.bind (h.child fuel _ _ _ (length_topicXml_le _ _)) fun _ => ?_
  refine h.bind (h.alloc .datawriter) fun dwIdx => ?_
  exact h.bind (h.child fuel _ _ _ (length_dataWriterXml_le _ _)) fun _ => h.pure _

theorem prepareSubscription (h : Composes P) (fuel : Nat) (node : Node) (topic : Bytes) (s : σ) :
    P UInt16 (prepareSubscription fuel node topic s) := by
  refine h.bind (h.topicName topic) fun ddsTopic => ?_
  refine h.bind (h.alloc .topic) fun topicIdx => ?_
  refine h.bind (h.child fuel _ _ _ (length_topicXml_le _ _)) fun _ => ?_
  refine h.bind (h.alloc .datareader) fun drIdx => ?_
  refine h.bind (h.child fuel _ _ _ (length_dataReaderXml_le _ _)) fun _ => ?_
  exact h.bind (h.readData fuel _) fun _ => h.pure _

/-- A subscription is also refused at once when the table is full, and entered in the table at
the end. -/
theorem createSubscription (h : Composes P) (hget : P (World T σ) get)
    (hfull : P σ (throw .tooManySubscriptions)) (henter : ∀ s drOid, P σ (enter s drOid))
    (fuel : Nat) (node : Node) (topic : Bytes) (s : σ) :
    P σ (createSubscription fuel node topic s) := by
  rw [createSubscription_eq]
  refine h.bind hget fun w => ?_
  split
  · exact hfull
  · exact h.bind (h.prepareSubscription fuel node topic s) fun drOid => henter s drOid

end Composes

end MicroXrceDds
