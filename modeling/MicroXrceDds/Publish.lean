import MicroXrceDds.CdrLayout
import MicroXrceDds.MsgLayout
import MicroXrceDds.Messages
import MicroXrceDds.Suspension
import MicroXrceDds.Wire

/-!
# Publishing

What `publish` hands to the transport: the whole serialization when it fits, and
otherwise a panic or a message whose body is cut off at the end of `tx_buf`.
-/
namespace MicroXrceDds

open Prog Session

variable {T σ : Type} [Statics σ] {M : Type}

def writeDataPrefix (sessionId : UInt8) : Nat := msgHeaderLen sessionId + 8

/-- The complete serialization of a message. -/
def bodyBytes [Message M] (m : M) : Bytes := bodyOf (Message.serialize m)

/-- The WRITE_DATA message of a publisher with a given CDR body. -/
def writeDataMessage (w : World T σ) (pub : Publisher M) (body : Bytes) : Bytes :=
  message w.session.sessionId w.session.seq w.session.clientKey submsgWriteData
    (flagLe ||| formatData) (writeDataPayload pub.dwId body)

/-- The world in which a frame is about to be written: it is in `tx_buf`, and the
sequence number has moved on. -/
def World.sending (frame : Bytes) (buf : Buffer UInt8 txBufSize) (w : World T σ) : World T σ :=
  ((w.setTxBuf buf).setSeq (w.session.seq + 1)).log (.sent frame)

theorem writeDataPrefix_le (sessionId : UInt8) : writeDataPrefix sessionId ≤ 16 := by
  rcases msgHeaderLen_cases sessionId with h | h <;> simp only [writeDataPrefix, h] <;> omega

theorem length_writeDataMessage (w : World T σ) (pub : Publisher M) (body : Bytes) :
    (writeDataMessage w pub body).length = writeDataPrefix w.session.sessionId + body.length := by
  rw [writeDataMessage, length_message, writeDataPayload, List.length_append, List.length_append,
    length_requestIdBeBytes, length_objectIdBeBytes, writeDataPrefix]
  omega

theorem sendTx_run [ReadWrite T] (w : World T σ) {len : Nat} (h : len ≤ txBufSize) :
    (sendTx len).run w = (Framing.writeFramed (w.session.txBuf.cells.take len)).run
      (w.log (.sent (w.session.txBuf.cells.take len))) := by
  rw [sendTx, run_get_bind, slice_of_le (Nat.zero_le _) (by rw [w.session.txBuf.size]; exact h),
    run_pure_bind, run_modify_bind]
  rfl

section
variable [Target] [Message M]

/-- The body as far as it fits behind the prefix, or a panic of the serializer. -/
theorem serializeBody_run (w : World T σ) {prefixLen : Nat} (hfront : prefixLen ≤ txBufSize)
    (m : M) :
    (∃ buf : Buffer UInt8 txBufSize,
      (serializeBody prefixLen m).run w =
        (.ok (min (bodyBytes m).length (txBufSize - prefixLen)), w.setTxBuf buf) ∧
      (buf.cells.drop prefixLen).take (min (bodyBytes m).length (txBufSize - prefixLen)) =
        (bodyBytes m).take (txBufSize - prefixLen)) ∨
    (txBufSize < prefixLen + (bodyBytes m).length ∧
      ∃ buf, (serializeBody prefixLen m).run w = (.panic, w.setTxBuf buf)) := by
  have hsmall : txBufSize - prefixLen < 2 ^ 32 - 1 := by
    simp only [txBufSize]
    omega
  let start := CdrWriter.new (w.session.txBuf.dropFront prefixLen)
  have hemits : Emits (runCalls (Message.serialize m) : WriteCdr (txBufSize - prefixLen)) _ :=
    runCalls_emits fun _ _ => .inr hsmall
  rcases hemits _ [] start (CdrWriter.wrote_new _) with ⟨hok, hwrote⟩ | ⟨hpanic, hlong⟩
  · have hrun : (do
        runCalls (Message.serialize m)
        let c ← get
        pure c.bytesWritten : Prog Error (CdrWriter (txBufSize - prefixLen)) Nat).run start =
        (.ok (min (bodyBytes m).length (txBufSize - prefixLen)),
          ((runCalls (Message.serialize m)).run start).2) := by
      rw [bind_ok (Prod.ext hok rfl), run_get_bind, run_pure, CdrWriter.bytesWritten, hwrote.pos]
      rfl
    left
    refine ⟨w.session.txBuf.overwrite prefixLen
      ((runCalls (Message.serialize m)).run start).2.buf.cells, ?_, ?_⟩
    · simp only [serializeBody, run_zoom]
      rw [hrun]
    · have hsize := ((runCalls (Message.serialize m)).run start).2.buf.size
      have hhead : (w.session.txBuf.cells.take prefixLen).length = prefixLen := by
        rw [List.length_take, w.session.txBuf.size]
        omega
      have htake : ((runCalls (Message.serialize m)).run start).2.buf.cells.take
          (bodyBytes m).length = (bodyBytes m).take (txBufSize - prefixLen) := hwrote.filled.take
      rw [Buffer.cells_overwrite (by omega), List.append_assoc, List.drop_append, hhead,
        Nat.sub_self, List.drop_eq_nil_of_le (by omega), List.nil_append, List.drop_zero,
        List.take_append_of_le_length (by omega), ← htake, List.take_eq_take_iff]
      omega
  · right
    constructor
    · change txBufSize - prefixLen < (bodyBytes m).length at hlong
      omega
    · simp only [serializeBody, run_zoom]
      rw [bind_abort (Prod.ext hpanic rfl) rfl]
      exact ⟨_, rfl⟩

/-- The headers are filled in around the body. -/
theorem fillHeaders_run (w : World T σ) (seq dwOid : UInt16) (body : Bytes)
    (hfit : writeDataPrefix w.session.sessionId + body.length ≤ txBufSize)
    (hbody : (w.session.txBuf.cells.drop (writeDataPrefix w.session.sessionId)).take body.length =
      body) :
    ∃ buf : Buffer UInt8 txBufSize,
      (fillHeaders (writeDataPrefix w.session.sessionId + body.length) seq dwOid).run w =
        (.ok (), w.setTxBuf buf) ∧
      buf.cells.take (writeDataPrefix w.session.sessionId + body.length) =
        message w.session.sessionId seq w.session.clientKey submsgWriteData
          (flagLe ||| formatData) (writeDataPayload dwOid body) := by
  have hplaced : ((w.session.txBuf.takeFront
      (writeDataPrefix w.session.sessionId + body.length)).cells.drop
      (msgHeaderLen w.session.sessionId + 8)) = body := by
    rw [Buffer.cells_takeFront, List.drop_take, writeDataPrefix, Nat.add_sub_cancel_left]
    exact hbody
  obtain ⟨b', hrun, hb'⟩ := finalizeWriteDataHeaders_run w.session.sessionId seq
    w.session.clientKey dwOid body _ (by simp only [writeDataPrefix] at hfit ⊢; omega) hplaced
  have hlen : b'.buf.cells.length = writeDataPrefix w.session.sessionId + body.length := by
    rw [b'.buf.size]
    omega
  refine ⟨w.session.txBuf.overwrite 0 b'.buf.cells, ?_, ?_⟩
  · simp only [fillHeaders, run_get_bind, run_zoom, hrun]
  · rw [Buffer.cells_overwrite (by omega), List.take_zero, List.nil_append,
      List.take_append_of_le_length (by omega), List.take_of_length_le (by omega), hb']

/-- The whole of `publish` up to the transport. -/
theorem publish_run [ReadWrite T] (w : World T σ) (pub : Publisher M) (m : M) :
    (∃ buf, (publish pub m).run w =
      (Framing.writeFramed (writeDataMessage w pub ((bodyBytes m).take
        (txBufSize - writeDataPrefix w.session.sessionId)))).run
      (w.sending (writeDataMessage w pub ((bodyBytes m).take
        (txBufSize - writeDataPrefix w.session.sessionId))) buf)) ∨
    (txBufSize < writeDataPrefix w.session.sessionId + (bodyBytes m).length ∧
      ∃ buf, (publish pub m).run w = (.panic, w.setTxBuf buf)) := by
  have hfront := writeDataPrefix_le w.session.sessionId
  have hroom : ¬ txBufSize < writeDataPrefix w.session.sessionId := by
    simp only [txBufSize]
    omega
  have hpublish : (publish pub m).run w = (do
      let bodyLen ← serializeBody (writeDataPrefix w.session.sessionId) m
      if txBufSize - writeDataPrefix w.session.sessionId < bodyLen then throw .bufferTooSmall
      else do
        let seq ← nextSeq
        fillHeaders (writeDataPrefix w.session.sessionId + bodyLen) seq pub.dwId
        sendTx (writeDataPrefix w.session.sessionId + bodyLen) : Call T σ Unit).run w := by
    rw [publish, run_get_bind]
    exact congrArg (fun p : Call T σ Unit => p.run w) (if_neg hroom)
  rcases serializeBody_run w (Nat.le_of_not_lt hroom) m with
    ⟨buf, hrun, hbuf⟩ | ⟨hlong, buf, hpanic⟩
  · left
    have hlen : ((bodyBytes m).take (txBufSize - writeDataPrefix w.session.sessionId)).length =
        min (bodyBytes m).length (txBufSize - writeDataPrefix w.session.sessionId) := by
      rw [List.length_take, Nat.min_comm]
    rw [hpublish, bind_ok hrun, if_neg (by omega)]
    obtain ⟨buf', hrun', hbuf'⟩ : ∃ buf' : Buffer UInt8 txBufSize,
        (fillHeaders (writeDataPrefix w.session.sessionId + min (bodyBytes m).length
          (txBufSize - writeDataPrefix w.session.sessionId)) w.session.seq pub.dwId).run
          ((w.setTxBuf buf).setSeq (w.session.seq + 1)) =
            (.ok (), ((w.setTxBuf buf).setSeq (w.session.seq + 1)).setTxBuf buf') ∧
        buf'.cells.take (writeDataPrefix w.session.sessionId + min (bodyBytes m).length
          (txBufSize - writeDataPrefix w.session.sessionId)) = writeDataMessage w pub
            ((bodyBytes m).take (txBufSize - writeDataPrefix w.session.sessionId)) := by
      have hsum : writeDataPrefix w.session.sessionId + min (bodyBytes m).length
          (txBufSize - writeDataPrefix w.session.sessionId) ≤ txBufSize := by omega
      have h := fillHeaders_run ((w.setTxBuf buf).setSeq (w.session.seq + 1)) w.session.seq pub.dwId
        ((bodyBytes m).take (txBufSize - writeDataPrefix w.session.sessionId))
      simp only [World.session_setSeq, World.session_setTxBuf, hlen] at h
      exact h hsum hbuf
    have hseq : (nextSeq : Call T σ UInt16).run (w.setTxBuf buf) =
        (.ok w.session.seq, (w.setTxBuf buf).setSeq (w.session.seq + 1)) := rfl
    refine ⟨buf', ?_⟩
    rw [bind_ok hseq, bind_ok hrun', sendTx_run _ (by omega)]
    change (Framing.writeFramed (buf'.cells.take _)).run (World.log (.sent (buf'.cells.take _)) _) = _
    rw [hbuf']
    rfl
  · right
    refine ⟨hlong, buf, ?_⟩
    rw [hpublish, bind_abort hpanic rfl]
    rfl

/-- The contract: a body that fits goes out whole in one frame, and one that does not
fit is refused before anything happens. -/
def PublishAllOrNothing [ReadWrite T] (w : World T σ) (pub : Publisher M) (m : M) : Prop :=
  if writeDataPrefix w.session.sessionId + (bodyBytes m).length ≤ txBufSize then
    ∃ buf, (publish pub m).run w = (Framing.writeFramed (writeDataMessage w pub (bodyBytes m))).run
      (w.sending (writeDataMessage w pub (bodyBytes m)) buf)
  else
    ∃ w', (publish pub m).run w = (.err .bufferTooSmall, w') ∧
      w'.session.transport = w.session.transport ∧ w'.history = w.history ∧
      w'.session.seq = w.session.seq

/-- A body that does not fit is never refused: either the serializer panics, or the
sequence number moves on and a cut-off body goes out. -/
theorem not_all_or_nothing [ReadWrite T] {w : World T σ} {pub : Publisher M} {m : M}
    (hlong : txBufSize < writeDataPrefix w.session.sessionId + (bodyBytes m).length) :
    ¬ PublishAllOrNothing w pub m := by
  unfold PublishAllOrNothing
  rw [if_neg (by omega)]
  rintro ⟨w', hrun, -, -, hseq⟩
  rcases publish_run w pub m with ⟨buf, hsent⟩ | ⟨-, buf, hpanic⟩
  · generalize writeDataMessage w pub ((bodyBytes m).take
      (txBufSize - writeDataPrefix w.session.sessionId)) = frame at hsent
    have hnext := (stable_session (T := T) (σ := σ) Session.seq fun _ _ => rfl).writeFramed frame
      (w.sending frame buf)
    rw [← hsent, hrun] at hnext
    have hn := congrArg UInt16.toNat (hseq.symm.trans hnext)
    have hlt := w.session.seq.toNat_lt
    have hone : (1 : UInt16).toNat = 1 := rfl
    change w.session.seq.toNat = (w.session.seq + 1).toNat at hn
    rw [UInt16.toNat_add] at hn
    omega
  · rw [hrun] at hpanic
    cases hpanic

/-- `publish` is all-or-nothing exactly for the messages that fit. -/
theorem publish_all_or_nothing_iff [ReadWrite T] (w : World T σ) (pub : Publisher M) (m : M) :
    PublishAllOrNothing w pub m ↔
      writeDataPrefix w.session.sessionId + (bodyBytes m).length ≤ txBufSize := by
  constructor
  · intro h
    by_contra hlong
    exact not_all_or_nothing (by omega) h
  · intro hfit
    unfold PublishAllOrNothing
    rw [if_pos hfit]
    rcases publish_run w pub m with ⟨buf, hsent⟩ | ⟨hlong, -⟩
    · rw [List.take_of_length_le (by omega)] at hsent
      exact ⟨buf, hsent⟩
    · omega

theorem bodyBytes_stdString (m : StdString) : bodyBytes m = cdrText (utf8 m.data) := rfl

end

/-- A string one byte too long for `tx_buf`: 757 bytes of body, and room for 756. -/
theorem publish_cuts_off_long_string :
    letI := rp2040 true
    let w : World Wire Empty := start ⟨[], [], []⟩ 0x81 ⟨0, 0, 0, 0⟩ []
    ¬ PublishAllOrNothing w ⟨0x0015⟩ (⟨String.ofList (List.replicate 752 'a')⟩ : StdString) := by
  let target := rp2040 true
  intro w
  apply not_all_or_nothing
  have hfront : writeDataPrefix w.session.sessionId = 12 := rfl
  have hlen : (utf8 (String.ofList (List.replicate 752 'a'))).length = 752 := by decide +kernel
  rw [hfront, bodyBytes_stdString, length_cdrText, hlen]
  decide

end MicroXrceDds
