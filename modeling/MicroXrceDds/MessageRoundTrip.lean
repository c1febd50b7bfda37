import MicroXrceDds.Decoding

/-!
# Messages come back

For every type of `ros2::msg`: `serialize` writes the message in the format, and
`deserialize` returns the sender's fields from it, whatever header the sender wrote. The
one condition is that the length field of a string can hold its length.
-/
namespace MicroXrceDds

open Prog CdrReader

/-- The reader over a body, as it is or behind any encapsulation header. -/
def CdrReader.Over (body : Bytes) (r : CdrReader) : Prop :=
  r = fromBody body ∨ ∃ encap : Bytes, encap.length = 4 ∧ r = CdrReader.new (encap ++ body)

theorem new_append {encap : Bytes} (h : encap.length = 4) (body : Bytes) :
    CdrReader.new (encap ++ body) = fromBody body := by
  rw [CdrReader.new, if_pos (by rw [List.length_append]; omega), ← h, List.drop_left]
  rfl

theorem CdrReader.Over.eq {body : Bytes} {r : CdrReader} (h : Over body r) : r = fromBody body := by
  rcases h with rfl | ⟨encap, hencap, rfl⟩
  · rfl
  · exact new_append hencap body

section
variable [t : Target]

/-- Decoding gives the sample back. The borrowed `String` is read as an owned one, of any
capacity, and refused where the capacity is too small. -/
def Ros2Msg.Returns : (k : Ros2Msg) → k.Sample → CdrReader → Prop
  | .string, (m : StdString), r => ∀ N,
      ((Message.deserialize : ReadCdr (StringOwned N)).run r).1 =
        if h : m.data.utf8ByteSize ≤ N then .ok ⟨m.data, h⟩ else .err .deserialization
  | k, m, r => ((Message.deserialize : ReadCdr k.Sample).run r).1 = .ok m

/-- The serializer writes the message with a header of zeros, and the message with any
header is read back. A slice has at most `isize::MAX` bytes. -/
structure ComesBack (k : Ros2Msg) (m : k.Sample) : Prop where
  written : ∀ n (buf : Buffer UInt8 n), (Cdr.encode 0 (k.reference .zero m)).length ≤ n →
    ∃ w, (runCalls (Message.serialize m)).run (CdrWriter.new buf) = (.ok (), w) ∧
      written w = Cdr.encode 0 (k.reference .zero m)
  returned : ∀ h r, (Cdr.encode 0 (k.reference h m)).length + 4 < 2 ^ (t.usizeBits - 1) →
    CdrReader.Over (Cdr.encode 0 (k.reference h m)) r → k.Returns m r

theorem serialize_written (k : Ros2Msg) {m : k.Sample} (hm : k.Encodable m) {n : Nat}
    (buf : Buffer UInt8 n) (hfit : (Cdr.encode 0 (k.reference .zero m)).length ≤ n) :
    ∃ w, (runCalls (Message.serialize m)).run (CdrWriter.new buf) = (.ok (), w) ∧
      written w = Cdr.encode 0 (k.reference .zero m) := by
  rw [← serialize_reference] at hfit ⊢
  have hemits : Emits (runCalls (Message.serialize m) : WriteCdr n) _ :=
    runCalls_emits fun s hs => .inl (strings_short k hm hs)
  rcases hemits buf [] _ (CdrWriter.wrote_new buf) with ⟨hok, hwrote⟩ | ⟨-, hlong⟩
  · exact ⟨_, Prod.ext hok rfl, written_of_wrote hwrote hfit⟩
  · exact absurd hfit (Nat.not_le.mpr hlong)

theorem Parses.run_body {α : Type} {p : ReadCdr α} {items : List Cdr.Item} {a : α}
    (hp : Parses p items a) (hsize : (Cdr.encode 0 items).length + 16 ≤ 2 ^ t.usizeBits) :
    ∃ r', p.run (fromBody (Cdr.encode 0 items)) = (.ok a, r') := by
  have h := hp.whole [] []
  rw [List.append_nil, List.nil_append] at h
  exact ⟨_, h hsize⟩

theorem message_returned (k : Ros2Msg) {m : k.Sample} (hm : k.Encodable m) (h : StdHeader)
    (hsize : (Cdr.encode 0 (k.reference h m)).length + 16 ≤ 2 ^ t.usizeBits) :
    k.Returns m (fromBody (Cdr.encode 0 (k.reference h m))) := by
  by_cases hk : k = .string
  · subst hk
    intro N
    obtain ⟨r', hrun⟩ := (parses_string hm).run_body hsize
    exact congrArg Prod.fst (deserialize_stringOwned hrun)
  · obtain ⟨r', hrun⟩ := (parses_reference hk h hm).run_body hsize
    cases k with
    | string => exact absurd rfl hk
    | _ => exact congrArg Prod.fst hrun

/-- Nor does a deserializer. -/
theorem stringOwned_short {N : Nat} {m : StringOwned N} {r : CdrReader} (hsane : Sane r.buf r.pos)
    (hsize : r.buf.length + 16 ≤ 2 ^ t.usizeBits)
    (h : ((Message.deserialize : ReadCdr (StringOwned N)).run r).1 = .ok m) :
    m.data.utf8ByteSize < 2 ^ 32 - 1 := by
  obtain ⟨bytes, r', hrun, hrest⟩ := bind_eq_ok (Prod.ext h rfl)
  have hclean : ¬ Poisoned t.usizeBits r.buf r.pos := by
    intro hpoison
    have hpanic := stringBytes_panics hsane hsize hpoison
    rw [hrun] at hpanic
    cases hpanic
  have hdoes : Does stringBytes r (readString r.buf r.pos) := does_stringBytes hsane hsize hclean
  have hread : (readString r.buf r.pos).value = some bytes := by
    rw [hdoes] at hrun
    exact Reading.outcome_eq_ok.mp (congrArg Prod.fst hrun)
  have hshort := readString_short hread
  cases hutf : fromUtf8 bytes with
  | none =>
    rw [hutf] at hrest
    cases hrest
  | some s =>
    rw [hutf] at hrest
    simp only at hrest
    split at hrest
    · cases hrest
      rwa [← utf8_of_fromUtf8 hutf] at hshort
    · cases hrest

theorem encodable_of_returned {k : Ros2Msg} {m : k.Sample} {r : CdrReader}
    (hsane : Sane r.buf r.pos) (hsize : r.buf.length + 16 ≤ 2 ^ t.usizeBits)
    (h : k.Returns m r) : k.Encodable m := by
  cases k with
  | string =>
    have hread := h (StdString.data m).utf8ByteSize
    rw [dif_pos (Nat.le_refl _)] at hread
    exact stringOwned_short hsane hsize hread
  | stringOwned N => exact stringOwned_short hsane hsize h
  | _ => trivial

theorem encodable_of_comes_back {k : Ros2Msg} {m : k.Sample}
    (hslice : (Cdr.encode 0 (k.reference .zero m)).length + 4 < 2 ^ (t.usizeBits - 1))
    (h : ComesBack k m) : k.Encodable m := by
  have hread := h.returned .zero _ hslice (.inl rfl)
  have hroom := room_of_slice hslice
  have hsize : (Cdr.encode 0 (k.reference .zero m)).length + 16 ≤ 2 ^ t.usizeBits := by omega
  exact encodable_of_returned (sane_of_le (Nat.zero_le _)) hsize hread

/-- A message comes back exactly when the length field can hold the length of its string.
The hypothesis is that its serialization and four more bytes make a slice. -/
theorem comes_back_iff (k : Ros2Msg) (m : k.Sample)
    (hslice : (Cdr.encode 0 (k.reference .zero m)).length + 4 < 2 ^ (t.usizeBits - 1)) :
    ComesBack k m ↔ k.Encodable m := by
  constructor
  · intro h
    exact encodable_of_comes_back hslice h
  · intro hm
    constructor
    · intro n buf hfit
      exact serialize_written k hm buf hfit
    · intro header r hlen hover
      have hroom := room_of_slice hlen
      rw [hover.eq]
      exact message_returned k hm header (by omega)

end

/-- Any sender's header in front of the fields of a range sensor. -/
theorem range_comes_back :
    letI := rp2040 true
    ComesBack .range (⟨1, 2, 3, 4, 5, 6⟩ : Range) := by
  let target := rp2040 true
  exact (comes_back_iff .range (⟨1, 2, 3, 4, 5, 6⟩ : Range) (by decide)).mpr trivial

theorem utf8ByteSize_replicate (n : Nat) :
    (String.ofList (List.replicate n 'a')).utf8ByteSize = n := by
  induction n with
  | zero => rfl
  | succ n ih =>
    have hone : (String.ofList ['a']).utf8ByteSize = 1 := by decide
    rw [List.replicate_succ', String.ofList_append, String.utf8ByteSize_append, ih, hone]

theorem not_comes_back [t : Target] {s : String} (hlong : ¬ s.utf8ByteSize < 2 ^ 32 - 1)
    (hslice : s.utf8ByteSize + 9 < 2 ^ (t.usizeBits - 1)) :
    ¬ ComesBack .string (⟨s⟩ : StdString) := by
  intro h
  have hlen : (Cdr.encode 0 (Ros2Msg.string.reference .zero (⟨s⟩ : StdString))).length =
      s.utf8ByteSize + 5 := Cdr.length_text (utf8 s)
  exact hlong (encodable_of_comes_back (by omega) h)

/-- The length field of a string of 2³² − 1 bytes wraps to zero, and the reader takes that for
an empty string. -/
theorem long_string_lost :
    letI := host64 false
    ¬ ComesBack .string (⟨String.ofList (List.replicate (2 ^ 32 - 1) 'a')⟩ : StdString) := by
  let target := host64 false
  apply not_comes_back
  · rw [utf8ByteSize_replicate]
    exact Nat.lt_irrefl _
  · rw [utf8ByteSize_replicate]
    decide

end MicroXrceDds
