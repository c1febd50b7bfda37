import MicroXrceDds.Reference

/-!
# The deserializers against the format

Each `deserialize` is a list of reads by hand, with nothing to keep it in step with the
sender. `Parses` says that a program reads given items wherever they stand, and that it
returns nothing where they break off; it is proved read by read and composes along `?`.
-/
namespace MicroXrceDds

open Prog LittleEndian CdrReader
open Cdr (Item)

variable {α β : Type}

/-- Where the items stand, at any offset and whatever follows, the program returns `a` and
stops behind them. Where they break off it returns nothing. -/
structure Parses [t : Target] (p : ReadCdr α) (items : List Item) (a : α) : Prop where
  whole : ∀ out rest, (out ++ Cdr.encode out.length items ++ rest).length + 16 ≤ 2 ^ t.usizeBits →
    p.run ⟨out ++ Cdr.encode out.length items ++ rest, out.length⟩ =
      (.ok a, ⟨out ++ Cdr.encode out.length items ++ rest,
        (out ++ Cdr.encode out.length items).length⟩)
  cut : ∀ out part, Cdr.CutOff out.length items part →
    (out ++ part).length + 16 ≤ 2 ^ t.usizeBits → ∀ v, (p.run ⟨out ++ part, out.length⟩).1 ≠ .ok v

namespace Parses

variable [t : Target] {p : ReadCdr α} {f : α → ReadCdr β} {xs ys : List Item} {a : α} {b : β}

theorem pure (a : α) : Parses (Pure.pure a) [] a where
  whole out rest _ := by
    rw [Cdr.encode_nil, List.append_nil]
    rfl
  cut out part h := absurd h (Cdr.not_cutOff_nil _ _)

theorem bind (hp : Parses p xs a) (hf : Parses (f a) ys b) : Parses (p >>= f) (xs ++ ys) b where
  whole out rest hsize := by
    have hitems := Cdr.encode_append out.length xs ys
    rw [← List.length_append] at hitems
    have hfirst := hp.whole out (Cdr.encode (out ++ Cdr.encode out.length xs).length ys ++ rest)
    have hsecond := hf.whole (out ++ Cdr.encode out.length xs) rest
    simp only [hitems, ← List.append_assoc] at hsize hfirst hsecond ⊢
    exact (bind_ok (hfirst hsize) f).trans (hsecond hsize)
  cut out part hcut hsize v := by
    rcases hcut.append with hin | ⟨more, rfl, hmore⟩
    · -- The cut is in what the first program reads.
      have hnone := hp.cut out part hin hsize
      intro hok
      obtain ⟨a', r', hrun, -⟩ := bind_eq_ok (Prod.ext hok rfl)
      exact hnone a' (congrArg Prod.fst hrun)
    · have hfirst := hp.whole out more (by rwa [List.append_assoc])
      have hsecond := hf.cut (out ++ Cdr.encode out.length xs) more
        (by rwa [List.length_append]) (by rwa [List.append_assoc]) v
      rw [← List.append_assoc, bind_ok hfirst]
      exact hsecond

/-- A program that does what a reading says, where the reading finds the items. -/
theorem of_does {x : Bytes → Nat → Reading α}
    (hdoes : ∀ buf q, Sane buf q → buf.length + 16 ≤ 2 ^ t.usizeBits → Does p ⟨buf, q⟩ (x buf q))
    (hwhole : ∀ out rest, x (out ++ Cdr.encode out.length xs ++ rest) out.length =
      ⟨some a, (out ++ Cdr.encode out.length xs).length⟩)
    (hcut : ∀ out part, Cdr.CutOff out.length xs part →
      (x (out ++ part) out.length).value = none) : Parses p xs a where
  whole out rest hsize := by
    have hsane : Sane (out ++ Cdr.encode out.length xs ++ rest) out.length := by
      apply sane_of_le
      simp only [List.length_append]
      omega
    have h := hdoes _ _ hsane hsize
    rwa [hwhole] at h
  cut out part hpart hsize v := by
    have hsane : Sane (out ++ part) out.length := by
      apply sane_of_le
      rw [List.length_append]
      omega
    rw [hdoes _ _ hsane hsize, Reading.outcome, hcut out part hpart]
    intro h
    cases h

theorem map (hp : Parses p xs a) (f : α → β) :
    Parses (p >>= fun v => Pure.pure (f v)) xs (f a) := by
  have h := hp.bind (f := fun v => Pure.pure (f v)) (Parses.pure (f a))
  rwa [List.append_nil] at h

end Parses

section
variable {k : Nat} (hk : 0 < k) (value : BitVec (8 * k))
include hk

theorem readWord_item (out rest : Bytes) :
    readWord k (out ++ Cdr.encode out.length [.scalar k value] ++ rest) out.length =
      ⟨some value.toNat, (out ++ Cdr.encode out.length [.scalar k value]).length⟩ := by
  have hbytes : out ++ Cdr.encode out.length [.scalar k value] =
      padTo k out ++ leBytes k value.toNat := by
    rw [Cdr.encode_singleton, Item.encode, padTo_eq hk, List.append_assoc]
  rw [hbytes]
  exact readWord_written (Cdr.toNat_lt value) out rest

theorem readWord_cut {out part : Bytes} (h : Cdr.CutOff out.length [.scalar k value] part) :
    (readWord k (out ++ part) out.length).value = none := by
  have hlen := (Cdr.cutOff_singleton.mp h).2
  have hpad := congrArg List.length (padTo_eq hk out)
  rw [length_padTo, List.length_append] at hpad
  rw [Item.encode, List.length_append, length_leBytes] at hlen
  rw [readWord_of_lt]
  rw [alignedPos, List.length_append]
  omega

end

section
variable [t : Target]

/-- A program that reads one aligned number. -/
theorem parses_word {k : Nat} (hk : k = 4 ∨ k = 8) (value : BitVec (8 * k)) {f : Nat → α}
    {p : ReadCdr α} (hdoes : ∀ r : CdrReader, alignedPos k r.pos + k < 2 ^ t.usizeBits →
      Does p r ((readWord k r.buf r.pos).map f)) :
    Parses p [.scalar k value] (f value.toNat) := by
  have hpos : 0 < k := by omega
  apply Parses.of_does (x := fun buf q => (readWord k buf q).map f)
  · intro buf q hsane hsize
    exact hdoes ⟨buf, q⟩ (hsane.room hk hsize)
  · intro out rest
    simp only [readWord_item hpos value, Reading.map, Option.map_some]
  · intro out part hcut
    simp only [Reading.map, readWord_cut hpos value hcut, Option.map_none]

theorem parses_u32 (v : UInt32) : Parses u32Val [.u32 v] v := by
  have h := parses_word (.inl rfl) v.toBitVec fun _ => does_u32Val
  rwa [show UInt32.ofNat v.toBitVec.toNat = v from UInt32.ofNat_toNat] at h

theorem parses_f32 (v : UInt32) : Parses f32Val [.u32 v] v := parses_u32 v

theorem parses_i32 (v : Int32) : Parses i32Val [.i32 v] v := by
  have h := parses_word (.inl rfl) v.toBitVec fun _ => does_i32Val
  have hv : (UInt32.ofNat v.toBitVec.toNat).toInt32 = v := by
    rw [show v.toBitVec.toNat = v.toUInt32.toNat from rfl, UInt32.ofNat_toNat,
      Int32.toInt32_toUInt32]
  rwa [hv] at h

theorem parses_f64 (v : UInt64) : Parses f64Val [.u64 v] v := by
  have h := parses_word (.inr rfl) v.toBitVec fun _ => does_f64Val
  rwa [show UInt64.ofNat v.toBitVec.toNat = v from UInt64.ofNat_toNat] at h

theorem parses_u8 (v : UInt8) : Parses u8Val [.u8 v] v := by
  apply Parses.of_does (x := readByte)
  · intro buf q _ hsize
    have hroom : buf.length < 2 ^ t.usizeBits := by omega
    exact does_u8Val (r := ⟨buf, q⟩) hroom
  · intro out rest
    have hget : (out ++ [v] ++ rest)[out.length]? = some v := by simp
    rw [Cdr.encode_singleton, encode_u8, readByte, hget, List.length_append, List.length_singleton]
  · intro out part hcut
    have hnil : part = [] := by
      have hlen := (Cdr.cutOff_singleton.mp hcut).2
      rw [encode_u8, List.length_singleton] at hlen
      exact List.eq_nil_of_length_eq_zero (by omega)
    have hget : (out ++ part)[out.length]? = none := by simp [hnil]
    rw [readByte, hget]

theorem parses_f64Slots {n : Nat} (vs : List.Vector UInt64 n) :
    Parses (f64Slots n) (vs.toList.map .u64) vs := by
  induction n with
  | zero =>
    rw [vs.eq_nil]
    exact Parses.pure _
  | succ n ih =>
    obtain ⟨v, rest, rfl⟩ := vs.exists_eq_cons
    rw [List.Vector.toList_cons]
    exact (parses_f64 v).bind (f := fun v => do
      let rest ← f64Slots n
      pure (v ::ᵥ rest)) ((ih rest).map (v ::ᵥ ·))

/-- The first read of an array would align by itself. -/
theorem f64Array_run {n : Nat} {r : CdrReader} (h : Sane r.buf r.pos)
    (hsize : r.buf.length + 16 ≤ 2 ^ t.usizeBits) :
    (f64Array (n + 1)).run r = (f64Slots (n + 1)).run r := by
  have haligned : alignedPos 8 (alignedPos 8 r.pos) = alignedPos 8 r.pos := by
    have hdvd := padding_dvd (show 0 < 8 by decide) r.pos
    rw [alignedPos, alignedPos, padding_eq_zero hdvd, Nat.add_zero]
  have hread : readDoubles r.buf (n + 1) (alignedPos 8 r.pos) =
      readDoubles r.buf (n + 1) r.pos := by
    simp only [readDoubles, readWord, haligned]
  have harray : Does (f64Array (n + 1)) r _ := does_f64Array (n + 1) h hsize
  have hslots : Does (f64Slots (n + 1)) r _ := does_f64Slots (n + 1) h hsize
  rw [harray, hslots, hread]

theorem parses_f64Array {n : Nat} (vs : List.Vector UInt64 (n + 1)) :
    Parses (f64Array (n + 1)) (vs.toList.map .u64) vs where
  whole out rest hsize := by
    rw [f64Array_run _ hsize]
    · exact (parses_f64Slots vs).whole out rest hsize
    · apply sane_of_le
      simp only [List.length_append]
      omega
  cut out part hcut hsize := by
    rw [f64Array_run _ hsize]
    · exact (parses_f64Slots vs).cut out part hcut hsize
    · apply sane_of_le
      simp only [List.length_append]
      omega

end

/-- What follows a span does not change it. -/
theorem span_of_append {k p : Nat} {buf : Bytes} (h : p + k ≤ buf.length) (rest : Bytes) :
    span (buf ++ rest) p k = span buf p k := by
  rw [span, List.drop_append_of_le_length (by omega),
    List.take_append_of_le_length (by rw [List.length_drop]; omega), span]

theorem readWord_append {k p : Nat} {buf : Bytes} (h : alignedPos k p + k ≤ buf.length)
    (rest : Bytes) : readWord k (buf ++ rest) p = readWord k buf p := by
  rw [readWord_of_le h, readWord_of_le (by rw [List.length_append]; omega), span_of_append h]

/-- A string that breaks off in its length field, in its content or before its terminator. -/
theorem readString_cut {s : Bytes} (hs : s.length < 2 ^ 32 - 1) {out part : Bytes}
    (h : Cdr.CutOff out.length [.text s] part) :
    (readString (out ++ part) out.length).value = none := by
  obtain ⟨⟨rest, hrest⟩, hshort⟩ := Cdr.cutOff_singleton.mp h
  have hpad := congrArg List.length (padTo_eq (show 0 < 4 by decide) out)
  rw [length_padTo, List.length_append] at hpad
  simp only [Item.encode, List.length_append, length_leBytes, List.length_singleton] at hshort
  by_cases hfield : alignedPos 4 out.length + 4 ≤ (out ++ part).length
  · have hword : readWord 4 (out ++ part) out.length =
        ⟨some (s.length + 1), (padTo 4 out ++ leBytes 4 (s.length + 1)).length⟩ := by
      have hwritten := readWord_written (show s.length + 1 < 256 ^ 4 by omega) out (s ++ [0])
      have hbytes : padTo 4 out ++ leBytes 4 (s.length + 1) ++ (s ++ [0]) =
          out ++ part ++ rest := by
        rw [List.append_assoc out, hrest, Item.encode, padTo_eq (by decide)]
        simp only [List.append_assoc]
      rwa [hbytes, readWord_append hfield] at hwritten
    have hlen : (UInt32.ofNat (s.length + 1)).toNat = s.length + 1 := by
      rw [UInt32.toNat_ofNat']
      omega
    have hend : (out ++ part).length <
        (padTo 4 out ++ leBytes 4 (s.length + 1)).length + s.length + 1 := by
      simp only [List.length_append, length_padTo, length_leBytes]
      omega
    rw [readString, hword]
    simp only [Reading.map, Reading.andThen, Option.map_some, hlen, Nat.succ_ne_zero, ↓reduceIte,
      Nat.add_sub_cancel]
    by_cases htext :
        (padTo 4 out ++ leBytes 4 (s.length + 1)).length + s.length ≤ (out ++ part).length
    · simp only [readSpan, if_pos htext, if_neg (Nat.not_le.mpr hend), Option.map_none]
    · simp only [readSpan, if_neg htext]
  · rw [readString, readWord_of_lt (Nat.lt_of_not_le hfield)]
    rfl

section
variable [t : Target]

theorem parses_string {s : Bytes} (hs : s.length < 2 ^ 32 - 1) :
    Parses stringBytes [.text s] s where
  whole out rest hsize := by
    have hbytes : out ++ Cdr.encode out.length [.text s] =
        padTo 4 out ++ leBytes 4 (s.length + 1) ++ s ++ [0x00] := by
      simp only [Cdr.encode_singleton, Item.encode, padTo_eq (show 0 < 4 by decide),
        List.append_assoc]
    rw [hbytes] at hsize ⊢
    have hclean := not_poisoned_written hs out rest (by omega)
    have hsane :
        Sane (padTo 4 out ++ leBytes 4 (s.length + 1) ++ s ++ [0x00] ++ rest) out.length := by
      apply sane_of_le
      simp only [List.length_append, length_padTo]
      omega
    have hdoes : Does stringBytes ⟨_, out.length⟩ _ := does_stringBytes hsane hsize hclean
    rwa [readString_written hs] at hdoes
  cut out part hcut hsize v := by
    have hsane : Sane (out ++ part) out.length := by
      apply sane_of_le
      rw [List.length_append]
      omega
    by_cases hpoison : Poisoned t.usizeBits (out ++ part) out.length
    · have hpanic := stringBytes_panics (r := ⟨out ++ part, out.length⟩) hsane hsize hpoison
      rw [hpanic]
      intro h
      cases h
    · have hdoes : Does stringBytes ⟨out ++ part, out.length⟩ _ :=
        does_stringBytes hsane hsize hpoison
      rw [hdoes, Reading.outcome, readString_cut hs hcut]
      intro h
      cases h

theorem parses_header (h : StdHeader) : Parses readHeader h.items () :=
  (parses_i32 h.sec).bind ((parses_u32 h.nanosec).bind ((parses_string h.short).map fun _ => ()))

theorem parses_vector3 (v : Vector3) : Parses Vector3.deserializeInline v.items v :=
  (parses_f64 v.x).bind ((parses_f64 v.y).bind ((parses_f64 v.z).map _))

theorem parses_range (h : StdHeader) (m : Range) :
    Parses (Message.deserialize : ReadCdr Range) (Ros2Msg.range.reference h m) m := by
  apply (parses_header h).bind
  apply (parses_u8 m.radiationType).bind
  apply (parses_f32 m.fieldOfView).bind
  apply (parses_f32 m.minRange).bind
  apply (parses_f32 m.maxRange).bind
  apply (parses_f32 m.range).bind
  exact (parses_f32 m.variance).map _

theorem parses_imu (h : StdHeader) (m : Imu) :
    Parses (Message.deserialize : ReadCdr Imu) (Ros2Msg.imu.reference h m) m := by
  simp only [Ros2Msg.reference, List.append_assoc]
  apply (parses_header h).bind
  apply (parses_f64Array m.orientation).bind
  apply (parses_f64Array m.orientationCovariance).bind
  apply (parses_f64Array m.angularVelocity).bind
  apply (parses_f64Array m.angularVelocityCovariance).bind
  apply (parses_f64Array m.linearAcceleration).bind
  exact (parses_f64Array m.linearAccelerationCovariance).map _

theorem parses_twist (h : StdHeader) (m : Twist) :
    Parses (Message.deserialize : ReadCdr Twist) (Ros2Msg.twist.reference h m) m :=
  (parses_vector3 m.linear).bind ((parses_vector3 m.angular).map _)

/-- A string that has been read is owned if it fits. -/
theorem deserialize_stringOwned {N : Nat} {s : String} {r r' : CdrReader}
    (h : stringBytes.run r = (.ok (utf8 s), r')) :
    (Message.deserialize : ReadCdr (StringOwned N)).run r =
      (if hfits : s.utf8ByteSize ≤ N then .ok ⟨s, hfits⟩ else .err .deserialization, r') := by
  apply (bind_ok h _).trans
  simp only [fromUtf8_utf8]
  split
  · rfl
  · rfl

theorem deserialize_invalid {N : Nat} {bytes : Bytes} {r r' : CdrReader}
    (h : stringBytes.run r = (.ok bytes, r')) (hutf : fromUtf8 bytes = none) :
    (Message.deserialize : ReadCdr (StringOwned N)).run r = (.err .deserialization, r') := by
  apply (bind_ok h _).trans
  rw [hutf]
  rfl

theorem parses_stringOwned {N : Nat} {m : StringOwned N} (hs : (utf8 m.data).length < 2 ^ 32 - 1) :
    Parses (Message.deserialize : ReadCdr (StringOwned N)) [.text (utf8 m.data)] m where
  whole out rest hsize := by
    rw [deserialize_stringOwned ((parses_string hs).whole out rest hsize), dif_pos m.fits]
  cut out part hcut hsize v hok := by
    obtain ⟨bytes, r', hrun, -⟩ := bind_eq_ok (Prod.ext hok rfl)
    exact (parses_string hs).cut out part hcut hsize bytes (congrArg Prod.fst hrun)

end

theorem parses_reference [Target] {k : Ros2Msg} (hk : k ≠ .string) (h : StdHeader) {m : k.Sample}
    (hm : k.Encodable m) :
    Parses (Message.deserialize : ReadCdr k.Sample) (k.reference h m) m := by
  cases k with
  | float32 => exact (parses_f32 m.data).map _
  | int32 => exact (parses_i32 m.data).map _
  | string => exact absurd rfl hk
  | stringOwned N => exact parses_stringOwned hm
  | range => exact parses_range h m
  | imu => exact parses_imu h m
  | twist => exact parses_twist h m

end MicroXrceDds
