import MicroXrceDds.MessageRoundTrip

/-!
# Samples that are cut off

What a subscription does with a strict prefix of a sample. The reads refuse it wherever the cut
is, with two exceptions: a frame id whose length takes the position past the address space
panics, and a string too long for its length field is taken for a shorter one.
-/
namespace MicroXrceDds

open Prog LittleEndian CdrReader
open Cdr (Item)

theorem encode_reference_ne_nil (k : Ros2Msg) (h : StdHeader) (m : k.Sample) :
    Cdr.encode 0 (k.reference h m) ≠ [] := by
  cases k <;> simp [Ros2Msg.reference, StdHeader.items, Vector3.items, Cdr.encode_cons, Item.encode,
    Item.i32, Item.u32, Item.u64, leBytes_succ]

/-- What the reader makes of a strict prefix of a payload is a strict prefix of the body. -/
theorem new_of_cut {encap body p : Bytes} (hencap : encap.length = 4) (hbody : body ≠ [])
    (hp : p <+: encap ++ body) (hcut : p.length < (encap ++ body).length) :
    ∃ part, CdrReader.new p = fromBody part ∧ part <+: body ∧ part.length < body.length ∧
      part.length ≤ p.length := by
  by_cases h4 : encap.length ≤ p.length
  · obtain ⟨part, rfl⟩ := List.prefix_of_prefix_length_le (List.prefix_append encap body) hp h4
    have hpart := (List.prefix_append_right_inj encap).mp hp
    simp only [List.length_append] at hcut ⊢
    exact ⟨part, new_append hencap part, hpart, by omega, by omega⟩
  · have hnil : CdrReader.new p = fromBody [] := by
      rw [CdrReader.new, if_neg (by omega)]
      rfl
    exact ⟨[], hnil, List.nil_prefix, List.length_pos_iff.mpr hbody, Nat.zero_le _⟩

/-- The length field of a string, read from any prefix that has it. -/
theorem lenField_of_prefix {out s part : Bytes} {more : List Item} (hout : out.length % 4 = 0)
    (hpart : part <+: out ++ Cdr.encode out.length (.text s :: more))
    (hlen : out.length + 4 ≤ part.length) :
    leNat (span part out.length 4) = (s.length + 1) % 2 ^ 32 := by
  obtain ⟨rest, hrest⟩ := hpart
  have hgap : Cdr.gap 4 out.length = [] := by
    rw [Cdr.gap, hout]
    rfl
  have hspan := span_append out (leBytes 4 (s.length + 1)) (s ++ [0] ++
    Cdr.encode (out.length + ((Item.text s).encode out.length).length) more)
  have hbytes : part ++ rest = out ++ leBytes 4 (s.length + 1) ++ (s ++ [0] ++
      Cdr.encode (out.length + ((Item.text s).encode out.length).length) more) := by
    rw [hrest, Cdr.encode_cons]
    simp only [Item.encode, hgap, List.nil_append, List.append_assoc]
  rw [← hbytes, length_leBytes, span_of_append hlen] at hspan
  rw [hspan, leNat_leBytes]
  rfl

/-- The string that stands at `stringAt`. -/
def Ros2Msg.content : (k : Ros2Msg) → StdHeader → k.Sample → Bytes
  | .string, _, (m : StdString) => utf8 m.data
  | .stringOwned _, _, m => utf8 (StringOwned.data m)
  | .range, h, _ => h.frameId
  | .imu, h, _ => h.frameId
  | _, _, _ => []

theorem length_stamp (h : StdHeader) :
    (Cdr.encode 0 [.i32 h.sec, .u32 h.nanosec]).length = 8 := by
  simp [Cdr.encode_cons, Item.encode, Item.i32, Item.u32, Cdr.gap]

theorem reference_split {k : Ros2Msg} {q : Nat} (hat : k.stringAt = some q) (h : StdHeader)
    (m : k.Sample) : ∃ front more, k.reference h m = front ++ .text (k.content h m) :: more ∧
      (Cdr.encode 0 front).length = q := by
  cases k with
  | stringOwned N =>
    cases hat
    exact ⟨[], [], rfl, rfl⟩
  | range =>
    cases hat
    exact ⟨[.i32 h.sec, .u32 h.nanosec], _, rfl, length_stamp h⟩
  | imu =>
    cases hat
    simp only [Ros2Msg.reference, List.append_assoc]
    exact ⟨[.i32 h.sec, .u32 h.nanosec], _, rfl, length_stamp h⟩
  | _ => cases hat

/-- The string of a message and all in front of it. -/
theorem length_reference_ge {k : Ros2Msg} {q : Nat} (hat : k.stringAt = some q) (h : StdHeader)
    (m : k.Sample) : q + 5 + (k.content h m).length ≤ (Cdr.encode 0 (k.reference h m)).length := by
  obtain ⟨front, more, hsplit, hfront⟩ := reference_split hat h m
  rw [hsplit, Cdr.encode_append, Cdr.encode_cons, List.length_append, List.length_append, hfront]
  simp only [Item.encode, List.length_append, length_leBytes, List.length_singleton]
  omega

theorem stringAt_aligned {k : Ros2Msg} {q : Nat} (hat : k.stringAt = some q) : q % 4 = 0 := by
  cases k <;> cases hat <;> rfl

/-- Of a string that is complete or cut off the reader takes as many bytes as the length field
says. -/
theorem readString_of_prefix {s part : Bytes} (hpart : part <+: Cdr.encode 0 [.text s]) :
    (readString part 0).value = if 4 + (s.length + 1) % 2 ^ 32 ≤ part.length then
      some (s.take ((s.length + 1) % 2 ^ 32 - 1)) else none := by
  have hlt : (s.length + 1) % 2 ^ 32 < 2 ^ 32 := Nat.mod_lt _ (by decide)
  have hle : (s.length + 1) % 2 ^ 32 ≤ s.length + 1 := Nat.mod_le _ _
  have hfield (h4 : 4 ≤ part.length) : leNat (span part 0 4) = (s.length + 1) % 2 ^ 32 := by
    have hout : ([] : Bytes).length % 4 = 0 := rfl
    have hfit : ([] : Bytes).length + 4 ≤ part.length := by rwa [List.length_nil, Nat.zero_add]
    exact lenField_of_prefix hout hpart hfit
  have hcontent {j : Nat} (hj : j ≤ s.length) (hfit : 4 + j ≤ part.length) :
      span part 4 j = s.take j := by
    obtain ⟨rest, hrest⟩ := hpart
    have hbytes : Cdr.encode 0 [.text s] = leBytes 4 (s.length + 1) ++ (s ++ [0]) := by
      have hgap : Cdr.gap 4 0 = [] := rfl
      simp only [Cdr.encode_singleton, Item.encode, hgap, List.nil_append, List.append_assoc]
    have hlen : (leBytes 4 (s.length + 1)).length = 4 := length_leBytes _ _
    rw [← span_of_append hfit rest, hrest, hbytes, span, List.drop_left' hlen,
      List.take_append_of_le_length hj]
  generalize (s.length + 1) % 2 ^ 32 = len at *
  by_cases h4 : 4 ≤ part.length
  · have hword : readWord 4 part 0 = ⟨some len, 4⟩ := by
      rw [readWord_of_le (show alignedPos 4 0 + 4 ≤ part.length from h4)]
      exact congrArg (fun n => (⟨some n, 4⟩ : Reading Nat)) (hfield h4)
    have hnum : (UInt32.ofNat len).toNat = len := by
      rw [UInt32.toNat_ofNat', Nat.mod_eq_of_lt hlt]
    rw [readString, hword]
    simp only [Reading.map, Reading.andThen, Option.map_some, hnum]
    by_cases hzero : len = 0
    · simp only [hzero, ↓reduceIte, Nat.add_zero, if_pos h4, Nat.zero_sub, List.take_zero]
    · by_cases hfit : 4 + len ≤ part.length
      · have hbody : 4 + (len - 1) ≤ part.length := by omega
        have hnul : 4 + (len - 1) + 1 ≤ part.length := by omega
        simp only [if_neg hzero, readSpan, if_pos hbody, if_pos hnul, if_pos hfit, Option.map_some,
          hcontent (show len - 1 ≤ s.length by omega) hbody]
      · have hnul : ¬ 4 + (len - 1) + 1 ≤ part.length := by omega
        by_cases hbody : 4 + (len - 1) ≤ part.length
        · simp only [if_neg hzero, readSpan, if_pos hbody, if_neg hnul, if_neg hfit,
            Option.map_none]
        · simp only [if_neg hzero, readSpan, if_neg hbody, if_neg hfit]
  · have hshort : ¬ 4 + len ≤ part.length := by omega
    rw [readString, readWord_of_lt (show part.length < alignedPos 4 0 + 4 from Nat.lt_of_not_le h4),
      if_neg hshort]
    rfl

/-- A sample is refused without a trace exactly when it cannot be decoded. -/
theorem tryDeliver_refused_iff {M : Type} [Message M] {N : Nat} (sub : Subscription M N)
    (payload : Bytes) : (Subscription.tryDeliver payload).run sub = (.err .deserialization, sub) ↔
      Subscription.decode M payload = .err .deserialization := by
  rw [Subscription.tryDeliver]
  cases hdecode : Subscription.decode M payload with
  | ok v =>
    have hsend : ((Subscription.trySend v).run sub).1 ≠ .err .deserialization := by
      rw [Subscription.trySend, run_get_bind]
      cases sub.inbox.push v with
      | none =>
        intro h
        cases h
      | some inbox =>
        intro h
        cases h
    constructor
    · intro h
      exact absurd (congrArg Prod.fst h) hsend
    · intro h
      cases h
  | err e =>
    constructor
    · intro h
      have hsame : (.err e : Outcome Error Unit) = .err .deserialization := congrArg Prod.fst h
      cases hsame
      rfl
    · intro h
      cases h
      rfl
  | panic =>
    constructor
    · intro h
      cases h
    · intro h
      cases h
  | pending =>
    constructor
    · intro h
      cases h
    · intro h
      cases h

section
variable [t : Target] {k : Ros2Msg} {h : StdHeader} {m : k.Sample} {part : Bytes}

/-- In a cut-off body the string is poisoned when the cut leaves its length field. -/
theorem poisoned_cut_iff {q : Nat} (hat : k.stringAt = some q)
    (hpart : part <+: Cdr.encode 0 (k.reference h m)) :
    Poisoned t.usizeBits part q ↔ q + 4 ≤ part.length ∧
      2 ^ t.usizeBits < q + 4 + ((k.content h m).length + 1) % 2 ^ 32 := by
  obtain ⟨front, more, hsplit, hfront⟩ := reference_split hat h m
  have haligned : alignedPos 4 q = q := by
    rw [alignedPos, padding_eq_zero (stringAt_aligned hat), Nat.add_zero]
  rw [hsplit, Cdr.encode_append, Nat.zero_add] at hpart
  have hlen (hfit : q + 4 ≤ part.length) : leNat (span part q 4) =
      ((k.content h m).length + 1) % 2 ^ 32 := by
    have hmod := stringAt_aligned hat
    subst hfront
    exact lenField_of_prefix hmod hpart hfit
  rw [Poisoned, haligned]
  constructor
  · rintro ⟨hfit, hlong⟩
    rw [hlen hfit] at hlong
    exact ⟨hfit, hlong⟩
  · rintro ⟨hfit, hlong⟩
    rw [← hlen hfit] at hlong
    exact ⟨hfit, hlong⟩

/-- No strict prefix of the sample, behind any encapsulation header, gets into the inbox or
changes it. -/
def RefusesCuts (k : Ros2Msg) (h : StdHeader) (m : k.Sample) : Prop :=
  ∀ (N : Nat) (sub : Subscription k.Sample N) (encap p : Bytes), encap.length = 4 →
    p <+: encap ++ Cdr.encode 0 (k.reference h m) →
    p.length < (encap ++ Cdr.encode 0 (k.reference h m)).length →
    p.length < 2 ^ (t.usizeBits - 1) →
    (Subscription.tryDeliver p).run sub = (.err .deserialization, sub)

/-- The cut that keeps the first `len` bytes of the body. -/
theorem RefusesCuts.decode (hall : RefusesCuts k h m) {len : Nat}
    (hlen : len < (Cdr.encode 0 (k.reference h m)).length)
    (hslice : 4 + len < 2 ^ (t.usizeBits - 1)) :
    Subscription.decode k.Sample
      ([0, 0, 0, 0] ++ (Cdr.encode 0 (k.reference h m)).take len) = .err .deserialization := by
  have hbody := List.take_prefix len (Cdr.encode 0 (k.reference h m))
  have hrefused := hall 0 ⟨0, Bounded.empty⟩ [0, 0, 0, 0]
    ([0, 0, 0, 0] ++ (Cdr.encode 0 (k.reference h m)).take len) rfl
    ((List.prefix_append_right_inj _).mpr hbody)
    (by simp only [List.length_append, List.length_take]; omega)
    (by simp only [List.length_append, List.length_take, List.length_cons, List.length_nil]; omega)
  exact (tryDeliver_refused_iff _ _).mp hrefused

theorem owned_refused_iff {N : Nat} {m : StringOwned N}
    (hpart : part <+: Cdr.encode 0 [.text (utf8 m.data)])
    (hclean : ¬ Poisoned t.usizeBits part 0) (hsize : part.length + 16 ≤ 2 ^ t.usizeBits) :
    ((Message.deserialize : ReadCdr (StringOwned N)).run (fromBody part)).1 =
        .err .deserialization ↔
      (4 + ((utf8 m.data).length + 1) % 2 ^ 32 ≤ part.length →
        fromUtf8 ((utf8 m.data).take (((utf8 m.data).length + 1) % 2 ^ 32 - 1)) = none) := by
  have hsane : Sane part 0 := sane_of_le (Nat.zero_le _)
  have hdoes : Does stringBytes (fromBody part) (readString part 0) :=
    does_stringBytes hsane hsize hclean
  have hread := readString_of_prefix hpart
  have hle : ((utf8 m.data).length + 1) % 2 ^ 32 ≤ (utf8 m.data).length + 1 := Nat.mod_le _ _
  generalize ((utf8 m.data).length + 1) % 2 ^ 32 = len at *
  by_cases hfit : 4 + len ≤ part.length
  · rw [if_pos hfit] at hread
    rw [Does, Reading.outcome, hread] at hdoes
    cases hutf : fromUtf8 ((utf8 m.data).take (len - 1)) with
    | none =>
      constructor
      · intro _ _
        rfl
      · intro _
        exact congrArg Prod.fst (deserialize_invalid hdoes hutf)
    | some s =>
      have hbytes := utf8_of_fromUtf8 hutf
      rw [← hbytes] at hdoes
      have hfits : s.utf8ByteSize ≤ N := by
        have hlen := congrArg List.length hbytes
        have hm := m.fits
        rw [length_utf8, List.length_take, length_utf8] at hlen
        omega
      rw [deserialize_stringOwned hdoes, dif_pos hfits]
      constructor
      · intro h
        cases h
      · intro h
        cases h hfit
  · rw [if_neg hfit] at hread
    rw [Does, Reading.outcome, hread] at hdoes
    constructor
    · intro _ hcontra
      exact absurd hcontra hfit
    · intro _
      exact congrArg Prod.fst (bind_abort hdoes rfl _)

/-- The exact condition. A frame id must end within the address space. An owned string has a
length that its length field can hold, or what the field says cuts a character in two. -/
def Ros2Msg.CutSafe : (k : Ros2Msg) → StdHeader → k.Sample → Prop
  | .range, h, _ => 13 + h.frameId.length ≤ 2 ^ t.usizeBits
  | .imu, h, _ => 13 + h.frameId.length ≤ 2 ^ t.usizeBits
  | .stringOwned _, _, m => (utf8 (StringOwned.data m)).length < 2 ^ 32 - 1 ∨
      fromUtf8 ((utf8 (StringOwned.data m)).take
        (((utf8 (StringOwned.data m)).length + 1) % 2 ^ 32 - 1)) = none
  | _, _, _ => True

/-- An owned string is a value in memory. -/
def Ros2Msg.InMemory : (k : Ros2Msg) → k.Sample → Prop
  | .stringOwned _, m => (utf8 (StringOwned.data m)).length < 2 ^ (t.usizeBits - 1)
  | _, _ => True

/-- What an encodable message without a poisoned string leaves of a cut is refused. -/
theorem decode_cut (hk : k ≠ .string) (hm : k.Encodable m) {p : Bytes}
    (hnew : CdrReader.new p = fromBody part) (hcut : Cdr.CutOff 0 (k.reference h m) part)
    (hpart : part.length + 16 ≤ 2 ^ t.usizeBits) (hsize : p.length + 16 ≤ 2 ^ t.usizeBits)
    (hclean : ∀ q, k.stringAt = some q → ¬ Poisoned t.usizeBits part q) :
    Subscription.decode k.Sample p = .err .deserialization := by
  have hbuf : (CdrReader.new p).buf = part := by
    rw [hnew]
    rfl
  have hsafe := (decode_cases k p hsize).1 (by rwa [hbuf])
  rcases hsafe with ⟨v, hv⟩ | herr
  · rw [Subscription.decode, hnew] at hv
    exact absurd hv ((parses_reference hk h hm).cut [] part hcut hpart v)
  · exact herr

/-- The string is not poisoned when it ends within the address space. -/
theorem clean_of_le (hpart : part <+: Cdr.encode 0 (k.reference h m))
    (hend : ∀ q, k.stringAt = some q → q + 5 + (k.content h m).length ≤ 2 ^ t.usizeBits) :
    ∀ q, k.stringAt = some q → ¬ Poisoned t.usizeBits part q := by
  intro q hat hpoison
  have hlong := ((poisoned_cut_iff hat hpart).mp hpoison).2
  have hle := Nat.mod_le ((k.content h m).length + 1) (2 ^ 32)
  have hq := hend q hat
  omega

theorem string_ends (hm : k.InMemory m) (hsafe : k.CutSafe h m) :
    ∀ q, k.stringAt = some q → q + 5 + (k.content h m).length ≤ 2 ^ t.usizeBits := by
  intro q hat
  cases k with
  | range =>
    cases hat
    exact hsafe
  | imu =>
    cases hat
    exact hsafe
  | stringOwned N =>
    cases hat
    have hroom := room_of_slice hm
    simp only [Ros2Msg.content]
    omega
  | _ => cases hat

theorem refuses_cuts_of_cutSafe (hm : k.InMemory m) (hsafe : k.CutSafe h m) :
    RefusesCuts k h m := by
  intro N sub encap p hencap hp hshort hslice
  rw [tryDeliver_refused_iff]
  obtain ⟨part, hnew, hpart, hcut, hle⟩ :=
    new_of_cut hencap (encode_reference_ne_nil k h m) hp hshort
  have hsize : p.length + 16 ≤ 2 ^ t.usizeBits := room_of_slice hslice
  have hroom : part.length + 16 ≤ 2 ^ t.usizeBits := by omega
  have hclean := clean_of_le hpart (string_ends hm hsafe)
  by_cases hk : k = .string
  · subst hk
    rfl
  · by_cases henc : k.Encodable m
    · exact decode_cut hk henc hnew ⟨hpart, hcut⟩ hroom hsize hclean
    · -- Only an owned string can be too long for its length field.
      cases k with
      | stringOwned M =>
        have htext := hsafe.resolve_left henc
        rw [Subscription.decode, hnew]
        exact (owned_refused_iff hpart (hclean 0 rfl) hroom).mpr fun _ => htext
      | string => exact absurd rfl hk
      | _ => exact absurd trivial henc

/-- A string that does not end within the address space panics when the cut leaves its length
field. -/
theorem string_ends_of_refuses {q : Nat} (hat : k.stringAt = some q)
    (hall : RefusesCuts k h m) (hshort : (k.content h m).length < 2 ^ 32 - 1) :
    q + 5 + (k.content h m).length ≤ 2 ^ t.usizeBits := by
  by_contra hlong
  have hlen := length_reference_ge hat h m
  have hq : q ≤ 8 := by
    cases k <;> cases hat <;> decide
  have h32 := two_pow_32_le (t := t)
  have hhalf := two_mul_half (t := t)
  have hdecode := hall.decode (show q + 4 < _ by omega) (by omega)
  have hbody := List.take_prefix (q + 4) (Cdr.encode 0 (k.reference h m))
  have hfield : q + 4 ≤ ((Cdr.encode 0 (k.reference h m)).take (q + 4)).length := by
    rw [List.length_take]
    omega
  have hcut : ((Cdr.encode 0 (k.reference h m)).take (q + 4)).length ≤ q + 4 :=
    List.length_take_le _ _
  have hpoison := (poisoned_cut_iff hat hbody).mpr ⟨hfield, by omega⟩
  generalize (Cdr.encode 0 (k.reference h m)).take (q + 4) = part at *
  have hbuf : (CdrReader.new ([0, 0, 0, 0] ++ part)).buf = part := by
    rw [new_append rfl]
    rfl
  have hsize : ([0, 0, 0, 0] ++ part).length + 16 ≤ 2 ^ t.usizeBits := by
    rw [List.length_append]
    change 4 + part.length + 16 ≤ _
    omega
  have hpanic := (decode_cases k ([0, 0, 0, 0] ++ part) hsize).2 q hat (by rwa [hbuf])
  rw [hdecode] at hpanic
  cases hpanic

/-- A string too long for its length field is taken for what the field says. -/
theorem text_of_refuses {N : Nat} {m : StringOwned N} (hm : Ros2Msg.InMemory (.stringOwned N) m)
    (hlong : 2 ^ 32 - 1 ≤ (utf8 m.data).length) (hall : RefusesCuts (.stringOwned N) h m) :
    fromUtf8 ((utf8 m.data).take (((utf8 m.data).length + 1) % 2 ^ 32 - 1)) = none := by
  have hlen : (Cdr.encode 0 (Ros2Msg.reference (.stringOwned N) h m)).length =
      (utf8 m.data).length + 5 := Cdr.length_text _
  have hroom := room_of_slice hm
  have hm' : (utf8 m.data).length < 2 ^ (t.usizeBits - 1) := hm
  have hwrap : ((utf8 m.data).length + 1) % 2 ^ 32 + 2 ^ 32 ≤ (utf8 m.data).length + 1 := by
    omega
  have hdecode := hall.decode (show 4 + ((utf8 m.data).length + 1) % 2 ^ 32 < _ by omega) (by omega)
  have hpart := List.take_prefix (4 + ((utf8 m.data).length + 1) % 2 ^ 32)
    (Cdr.encode 0 (Ros2Msg.reference (.stringOwned N) h m))
  have hclean := clean_of_le hpart (by
    intro q hat
    cases hat
    simp only [Ros2Msg.content]
    omega) 0 rfl
  have hfit : 4 + ((utf8 m.data).length + 1) % 2 ^ 32 ≤ ((Cdr.encode 0
      (Ros2Msg.reference (.stringOwned N) h m)).take
        (4 + ((utf8 m.data).length + 1) % 2 ^ 32)).length := by
    rw [List.length_take]
    omega
  rw [Subscription.decode, new_append rfl] at hdecode
  exact (owned_refused_iff hpart hclean (by rw [List.length_take]; omega)).mp hdecode hfit

/-- A truncated sample is refused, at every cut, exactly under that condition. -/
theorem refuses_cuts_iff (k : Ros2Msg) (h : StdHeader) (m : k.Sample) (hm : k.InMemory m) :
    RefusesCuts k h m ↔ k.CutSafe h m := by
  constructor
  · intro hall
    cases k with
    | range => exact string_ends_of_refuses rfl hall h.short
    | imu => exact string_ends_of_refuses rfl hall h.short
    | stringOwned N =>
      by_cases hshort : (utf8 (StringOwned.data m)).length < 2 ^ 32 - 1
      · exact .inl hshort
      · exact .inr (text_of_refuses hm (Nat.le_of_not_lt hshort) hall)
    | _ => trivial
  · intro hsafe
    exact refuses_cuts_of_cutSafe hm hsafe

end

/-- An owned string on the firmware. -/
theorem refuses_cuts_of_string :
    letI := rp2040 true
    RefusesCuts (.stringOwned 8) ⟨1, 2, [], by decide⟩ (⟨"ab", by decide⟩ : StringOwned 8) := by
  let target := rp2040 true
  have hmem : Ros2Msg.InMemory (.stringOwned 8) (⟨"ab", by decide⟩ : StringOwned 8) := by
    change (utf8 "ab").length < 2 ^ (32 - 1)
    decide
  exact (refuses_cuts_iff _ _ _ hmem).mpr (.inl (by decide))

/-- A header whose frame id is `n` zeros. -/
def StdHeader.ofLength (n : Nat) (h : n < 2 ^ 32 - 1) : StdHeader :=
  ⟨0, 0, List.replicate n 0, by rwa [List.length_replicate]⟩

theorem not_refuses_cuts [t : Target] {n : Nat} (hn : n < 2 ^ 32 - 1)
    (hlong : 2 ^ t.usizeBits < 13 + n) (m : Range) : ¬ RefusesCuts .range (.ofLength n hn) m := by
  intro hall
  have hends := string_ends_of_refuses rfl hall (StdHeader.ofLength n hn).short
  have hlen : (Ros2Msg.range.content (.ofLength n hn) m).length = n := List.length_replicate
  rw [hlen] at hends
  exact absurd hends (Nat.not_le.mpr hlong)

/-- A frame id of 2³² − 2 bytes, cut off behind its length field, on a 32-bit machine. -/
theorem long_frame_id_panics :
    letI := rp2040 false
    ¬ RefusesCuts .range (.ofLength (2 ^ 32 - 2) (by decide)) (⟨0, 0, 0, 0, 0, 0⟩ : Range) := by
  let target := rp2040 false
  exact not_refuses_cuts (by decide) (by decide) _

end MicroXrceDds
