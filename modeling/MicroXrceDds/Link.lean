import MicroXrceDds.Delivery
import MicroXrceDds.Library.Conversation
import MicroXrceDds.Requests

/-!
# A link to an agent

The transport of a session whose agent answers every CREATE and READ_DATA with one
STATUS. When it reads a request, when it answers it and with what, and which other
frames it sends in between is left open, and so is how the bytes are split. The link
neither fails nor loses anything.
-/
namespace MicroXrceDds

open Prog Session Conversation

/-- The request id of a frame that the agent has to answer. -/
def requestIn (sessionId : UInt8) (frame : Bytes) : Option UInt16 :=
  match requestOf sessionId frame with
  | some (id, req, _) => if id = submsgCreate ∨ id = submsgReadData then some req else none
  | none => none

/-- A frame of the agent's that is no answer. -/
structure OtherFrame (sessionId : UInt8) where
  frame : Bytes
  enough : msgHeaderLen sessionId + 4 ≤ frame.length
  fits : frame.length ≤ rxBufSize
  other : frame[msgHeaderLen sessionId]? ≠ some submsgStatus

/-- A STATUS frame, with its request id left open: any header and flags, at least six
bytes of payload, and whatever follows. -/
structure StatusFrame (sessionId : UInt8) where
  header : Bytes
  flags : UInt8
  objectHi : UInt8
  objectLo : UInt8
  status : UInt8
  implStatus : UInt8
  extra : Bytes
  trailing : Bytes
  header_length : header.length = msgHeaderLen sessionId
  fits : header.length + 10 + extra.length + trailing.length ≤ rxBufSize

variable {sessionId : UInt8}

def StatusFrame.payload (a : StatusFrame sessionId) (req : UInt16) : Bytes :=
  requestIdBeBytes req ++ [a.objectHi, a.objectLo, a.status, a.implStatus] ++ a.extra

def StatusFrame.frame (a : StatusFrame sessionId) (req : UInt16) : Bytes :=
  a.header ++ ([submsgStatus, a.flags] ++ u16LeBytes (.ofNat (a.payload req).length)) ++
    a.payload req ++ a.trailing

/-- What travels to the client. -/
inductive Letter (sessionId : UInt8) where
  | other : OtherFrame sessionId → Letter sessionId
  | status : UInt16 → StatusFrame sessionId → Letter sessionId

namespace Letter

def frame : Letter sessionId → Bytes
  | other f => f.frame
  | status req a => a.frame req

/-- The answer in it, if it is one. -/
def tells : Letter sessionId → Option (UInt16 × UInt8)
  | other _ => none
  | status req a => some (req, a.status)

end Letter

/-- What the agent may do: read a frame that has arrived, send one of its own, or answer
the request number `k` of those it owes an answer. -/
inductive Deed (sessionId : UInt8) where
  | receive
  | post : OtherFrame sessionId → Deed sessionId
  | answer : Nat → StatusFrame sessionId → Deed sessionId

/-- What the agent does before the next operation of the client, and how many bytes the
operation moves, less one. -/
structure Turn (sessionId : UInt8) where
  deeds : List (Deed sessionId)
  chunk : Nat

/-- The bytes under way in both directions, and the agent: the requests it has to answer,
the answers it has given, and the turns still to come. -/
structure Link (sessionId : UInt8) where
  toAgent : Bytes
  owed : List UInt16
  answered : List (UInt16 × UInt8)
  toClient : Bytes
  script : List (Turn sessionId)

/-- The first frame of a stream, once it is there. -/
def takeFrame : Bytes → Option (Bytes × Bytes)
  | lo :: hi :: rest =>
    let len := Framing.frameLen [lo, hi]
    if len ≤ rest.length then some (rest.take len, rest.drop len) else none
  | _ => none

namespace Link

def act (l : Link sessionId) : Deed sessionId → Link sessionId
  | .receive =>
    match takeFrame l.toAgent with
    | some (frame, rest) =>
      { l with toAgent := rest, owed := l.owed ++ (requestIn sessionId frame).toList }
    | none => l
  | .post f => { l with toClient := l.toClient ++ framed f.frame }
  | .answer k a =>
    match l.owed[k]? with
    | some req =>
      { l with
        owed := l.owed.eraseIdx k
        answered := l.answered ++ [(req, a.status)]
        toClient := l.toClient ++ framed (a.frame req) }
    | none => l

/-- The agent takes its next turn; when none is left it does nothing any more. -/
def turned (l : Link sessionId) : Link sessionId :=
  match l.script with
  | [] => l
  | turn :: script => turn.deeds.foldl act { l with script := script }

def chunk (len : Nat) (l : Link sessionId) : Nat :=
  match l.script with
  | [] => len
  | turn :: _ => min len (turn.chunk + 1)

/-- The client has read `k` bytes. -/
def took (k : Nat) (l : Link sessionId) : Link sessionId :=
  { l with toClient := l.toClient.drop k }

/-- The client has written some bytes. -/
def gave (bs : Bytes) (l : Link sessionId) : Link sessionId :=
  { l with toAgent := l.toAgent ++ bs }

/-- The link of a session that has just been connected. -/
def fresh (script : List (Turn sessionId)) : Link sessionId := ⟨[], [], [], [], script⟩

end Link

theorem StatusFrame.length_payload (a : StatusFrame sessionId) (req : UInt16) :
    (a.payload req).length = a.extra.length + 6 := by
  simp only [StatusFrame.payload, List.length_append, length_requestIdBeBytes, List.length_cons,
    List.length_nil]
  omega

theorem StatusFrame.length_frame (a : StatusFrame sessionId) (req : UInt16) :
    (a.frame req).length = a.header.length + 10 + a.extra.length + a.trailing.length := by
  simp only [StatusFrame.frame, List.length_append, a.length_payload, length_u16LeBytes,
    List.length_cons, List.length_nil]
  omega

theorem StatusFrame.statusOf_payload (a : StatusFrame sessionId) (req : UInt16) :
    statusOf (a.payload req) = some (req, a.status) := by
  simp only [StatusFrame.payload, requestIdBeBytes, List.cons_append, List.nil_append, statusOf,
    u16FromBe_bytes]

theorem StatusFrame.submessageOf_frame (a : StatusFrame sessionId) (req : UInt16) :
    submessageOf sessionId (a.frame req) = some (submsgStatus, a.payload req) := by
  have hsmall : (a.payload req).length < 2 ^ 16 := by
    have hfits := a.fits
    have hmax : rxBufSize = 768 := rfl
    rw [a.length_payload]
    omega
  have hdrop : (a.frame req).drop (msgHeaderLen sessionId) = submsgStatus :: a.flags ::
      UInt8.ofNat (UInt16.ofNat (a.payload req).length).toNat ::
      UInt8.ofNat ((UInt16.ofNat (a.payload req).length).toNat / 256) ::
      (a.payload req ++ a.trailing) := by
    rw [StatusFrame.frame, List.append_assoc, List.append_assoc, ← a.header_length, List.drop_left,
      u16LeBytes_eq]
    rfl
  simp only [submessageOf, hdrop, u16FromLe_bytes]
  rw [UInt16.toNat_ofNat', Nat.mod_eq_of_lt hsmall, List.take_left]

namespace Letter

theorem length_frame (m : Letter sessionId) : m.frame.length ≤ rxBufSize := by
  cases m with
  | other f => exact f.fits
  | status req a =>
    rw [frame, a.length_frame]
    exact a.fits

/-- A frame that is no answer is no STATUS. -/
theorem submessageOf_other (f : OtherFrame sessionId) : ∃ id payload,
    submessageOf sessionId f.frame = some (id, payload) ∧ id ≠ submsgStatus := by
  refine ⟨_, _, submessageOf_long f.enough, ?_⟩
  intro hid
  apply f.other
  rw [List.getElem?_eq_getElem (by have := f.enough; omega), hid]

end Letter

theorem takeFrame_framed {f : Bytes} (hf : f.length ≤ 65535) (rest : Bytes) :
    takeFrame (framed f ++ rest) = some (f, rest) := by
  have hlen := frameLen_bytes hf
  rw [u16LeBytes_eq] at hlen
  rw [framed, u16LeBytes_eq]
  simp only [List.cons_append, List.nil_append, takeFrame, hlen, List.length_append]
  rw [if_pos (by omega), List.take_left, List.drop_left]

/-- As long as something is missing there is no frame to take. -/
theorem takeFrame_partial {f p q : Bytes} (hf : f.length ≤ 65535) (h : p ++ q = framed f)
    (hq : q ≠ []) : takeFrame p = none := by
  rcases p with _ | ⟨lo, _ | ⟨hi, rest⟩⟩
  · rfl
  · rfl
  · have hlen := frameLen_bytes hf
    rw [u16LeBytes_eq] at hlen
    rw [framed, u16LeBytes_eq] at h
    simp only [List.cons_append, List.nil_append, List.cons.injEq] at h
    obtain ⟨rfl, rfl, rfl⟩ := h
    have hpos : 0 < q.length := List.length_pos_iff.mpr hq
    have hsum : (rest ++ q).length = rest.length + q.length := List.length_append
    simp only [takeFrame, hlen]
    rw [if_neg (by omega)]

/-- The link carries a conversation, and besides it the part `p` of a frame of the client
and the part `t` of a frame that the client is reading. -/
structure Link.Carries (l : Link sessionId) (p t : Bytes)
    (k : Talk Bytes (Letter sessionId) UInt16 UInt8) : Prop where
  toAgent : l.toAgent = stream k.inbox ++ p
  owed : l.owed = k.owed
  answered : l.answered = k.answered
  toClient : l.toClient = t ++ stream (k.flight.map Letter.frame)
  short : ∀ f ∈ k.inbox, f.length ≤ 65535

abbrev Answers (sessionId : UInt8) : Talk Bytes (Letter sessionId) UInt16 UInt8 →
    Talk Bytes (Letter sessionId) UInt16 UInt8 → Prop := Steps (requestIn sessionId) Letter.tells

theorem stream_singleton (f : Bytes) : stream [f] = framed f := List.flatMap_singleton ..

theorem stream_post (t : Bytes) (flight : List (Letter sessionId)) (m : Letter sessionId) :
    t ++ stream (flight.map Letter.frame) ++ framed m.frame =
      t ++ stream ((flight ++ [m]).map Letter.frame) := by
  rw [List.map_append, stream_append, List.append_assoc]
  exact congrArg (t ++ ·) (congrArg (_ ++ ·) (stream_singleton _).symm)

namespace Link.Carries

open Relation

variable {l : Link sessionId} {p t : Bytes} {k : Talk Bytes (Letter sessionId) UInt16 UInt8}

theorem act (h : l.Carries p t k) (hp : takeFrame p = none) (d : Deed sessionId) :
    ∃ k', Answers sessionId k k' ∧ (l.act d).Carries p t k' := by
  obtain ⟨inbox, owed, answered, flight⟩ := k
  obtain ⟨htoAgent, howed, hanswered, htoClient, hshort⟩ := h
  simp only at htoAgent howed hanswered htoClient hshort
  cases d with
  | receive =>
    cases inbox with
    | nil =>
      have hnone : takeFrame l.toAgent = none := by
        rw [htoAgent]
        exact hp
      refine ⟨_, .refl, ?_⟩
      simp only [Link.act, hnone]
      exact ⟨htoAgent, howed, hanswered, htoClient, hshort⟩
    | cons f inbox =>
      rw [List.forall_mem_cons] at hshort
      have hsome : takeFrame l.toAgent = some (f, stream inbox ++ p) := by
        rw [htoAgent, ← List.singleton_append, stream_append, stream_singleton, List.append_assoc,
          takeFrame_framed hshort.1]
      refine ⟨_, .single (.receive f inbox owed answered flight), ?_⟩
      simp only [Link.act, hsome, howed]
      exact ⟨rfl, rfl, hanswered, htoClient, hshort.2⟩
  | post f =>
    refine ⟨_, .single (.post (.other f) rfl _), htoAgent, howed, hanswered, ?_, hshort⟩
    simp only [Link.act, htoClient]
    exact stream_post t flight (.other f)
  | answer i a =>
    cases hget : owed[i]? with
    | none =>
      rw [← howed] at hget
      refine ⟨_, .refl, ?_⟩
      simp only [Link.act, hget]
      exact ⟨htoAgent, howed, hanswered, htoClient, hshort⟩
    | some req =>
      obtain ⟨front, back, rfl, herase⟩ : ∃ front back, owed = front ++ req :: back ∧
          owed.eraseIdx i = front ++ back := by
        obtain ⟨hlt, hreq⟩ := List.getElem?_eq_some_iff.mp hget
        refine ⟨owed.take i, owed.drop (i + 1), ?_, List.eraseIdx_eq_take_drop_succ ..⟩
        rw [← hreq, List.cons_getElem_drop_succ, List.take_append_drop]
      rw [← howed] at hget herase
      refine ⟨_, .single (.answer req a.status (.status req a) rfl inbox front back answered
        flight), ?_⟩
      simp only [Link.act, hget, herase, hanswered]
      refine ⟨htoAgent, rfl, rfl, ?_, hshort⟩
      rw [htoClient]
      exact stream_post t flight (.status req a)

theorem turned (h : l.Carries p t k) (hp : takeFrame p = none) :
    ∃ k', Answers sessionId k k' ∧ l.turned.Carries p t k' := by
  have hdeeds (deeds : List (Deed sessionId)) (l : Link sessionId)
      (k : Talk Bytes (Letter sessionId) UInt16 UInt8) (h : l.Carries p t k) :
      ∃ k', Answers sessionId k k' ∧ (deeds.foldl Link.act l).Carries p t k' := by
    induction deeds generalizing l k with
    | nil => exact ⟨k, .refl, h⟩
    | cons d deeds ih =>
      obtain ⟨k₁, hsteps, h₁⟩ := h.act hp d
      obtain ⟨k₂, hsteps₂, h₂⟩ := ih (l.act d) k₁ h₁
      exact ⟨k₂, hsteps.trans hsteps₂, h₂⟩
  unfold Link.turned
  split
  · exact ⟨k, .refl, h⟩
  · exact hdeeds _ _ k ⟨h.toAgent, h.owed, h.answered, h.toClient, h.short⟩

end Link.Carries

instance : ReadWrite (Link sessionId) where
  read len := ⟨fun l =>
    if l.turned.toClient = [] then (.pending, l.turned)
    else (.ok (l.turned.toClient.take (l.chunk len)), l.turned.took (l.chunk len))⟩
  write buf := ⟨fun l =>
    (.ok (buf.take (l.chunk buf.length)).length, l.turned.gave (buf.take (l.chunk buf.length)))⟩
  flush := modify Link.turned

end MicroXrceDds
