import Preflight.Encoding.Utf16
import Preflight.Proofs.Encoding.Utf8

/-!
# UTF-16 is read as it is written

Decoding accepts the encodings of texts and nothing else, in either byte order
(`decode_eq_some_iff`).

It goes in two steps.  Bytes are the pairs of some units
(`units_eq_some_iff`), and units are the writing of some text
(`decodeUnits_eq_some_iff`).  An odd byte fails the first step, a surrogate
without its partner the second.
-/

namespace Preflight.Utf16

/-! ## Units and bytes -/

/-- The unit that two bytes form. -/
def unitOf (order : ByteOrder) (a b : UInt8) : Nat :=
  match order with
  | .littleEndian => b.toNat * 0x100 + a.toNat
  | .bigEndian => a.toNat * 0x100 + b.toNat

theorem units_cons_cons (order : ByteOrder) (a b : UInt8)
    (bytes : List UInt8) :
    units order (a :: b :: bytes) =
      (units order bytes).map (unitOf order a b :: ·) := by
  cases order <;> rfl

theorem unitOf_lt (order : ByteOrder) (a b : UInt8) :
    unitOf order a b < 0x10000 := by
  have ha := a.toNat_lt
  have hb := b.toNat_lt
  cases order <;> simp only [unitOf] <;> omega

/-- A unit is written as the two bytes that form it. -/
theorem unitBytes_eq_iff {order : ByteOrder} {unit : Nat} (h : unit < 0x10000)
    {a b : UInt8} :
    unitBytes order unit = [a, b] ↔ unitOf order a b = unit := by
  have ha := a.toNat_lt
  have hb := b.toNat_lt
  cases order with
  | littleEndian =>
    simp only [unitBytes, unitOf, List.cons.injEq, and_true]
    rw [Utf8.toUInt8_eq_iff (by omega), Utf8.toUInt8_eq_iff (by omega)]
    omega
  | bigEndian =>
    simp only [unitBytes, unitOf, List.cons.injEq, and_true]
    rw [Utf8.toUInt8_eq_iff (by omega), Utf8.toUInt8_eq_iff (by omega)]
    omega

theorem unitBytes_unitOf (order : ByteOrder) (a b : UInt8) :
    unitBytes order (unitOf order a b) = [a, b] :=
  (unitBytes_eq_iff (unitOf_lt order a b)).mpr rfl

theorem exists_unitBytes_eq (order : ByteOrder) (unit : Nat) :
    ∃ a b, unitBytes order unit = [a, b] := by
  cases order <;> exact ⟨_, _, rfl⟩

theorem units_unitBytes_append {order : ByteOrder} {unit : Nat}
    (h : unit < 0x10000) (bytes : List UInt8) :
    units order (unitBytes order unit ++ bytes) =
      (units order bytes).map (unit :: ·) := by
  obtain ⟨a, b, hbytes⟩ := exists_unitBytes_eq order unit
  rw [hbytes, List.cons_append, List.singleton_append, units_cons_cons,
    (unitBytes_eq_iff h).mp hbytes]

theorem eq_of_units {order : ByteOrder} :
    ∀ {bytes : List UInt8} {us : List Nat}, units order bytes = some us →
      bytes = us.flatMap (unitBytes order) ∧ ∀ unit ∈ us, unit < 0x10000
  | [], us, h => by
    cases h
    simp
  | [_], us, h => nomatch h
  | a :: b :: bytes, us, h => by
    rw [units_cons_cons] at h
    obtain ⟨rest, hrest, rfl⟩ := Option.map_eq_some_iff.mp h
    obtain ⟨hbytes, hbound⟩ := eq_of_units hrest
    refine ⟨?_, List.forall_mem_cons.mpr ⟨unitOf_lt order a b, hbound⟩⟩
    rw [List.flatMap_cons, unitBytes_unitOf, ← hbytes]
    rfl

/-- The bytes of units are the pairs that are read as these units. -/
theorem units_eq_some_iff {order : ByteOrder} {bytes : List UInt8}
    {us : List Nat} :
    units order bytes = some us ↔
      bytes = us.flatMap (unitBytes order) ∧ ∀ unit ∈ us, unit < 0x10000 := by
  constructor
  · exact eq_of_units
  · rintro ⟨rfl, hbound⟩
    induction us with
    | nil => rfl
    | cons unit us ih =>
      obtain ⟨hunit, hbound⟩ := List.forall_mem_cons.mp hbound
      rw [List.flatMap_cons, units_unitBytes_append hunit, ih hbound]
      rfl

/-! ## Characters and units -/

theorem isHigh_iff {unit : Nat} :
    isHigh unit = true ↔ 0xD800 ≤ unit ∧ unit < 0xDC00 := by
  simp [isHigh]

theorem isLow_iff {unit : Nat} :
    isLow unit = true ↔ 0xDC00 ≤ unit ∧ unit < 0xE000 := by
  simp [isLow]

/-- The units of a character are units. -/
theorem lt_of_mem_encodeChar {c : Char} {unit : Nat}
    (h : unit ∈ encodeChar c) : unit < 0x10000 := by
  have hc := Utf8.toNat_lt_or c
  rw [encodeChar] at h
  split at h
  · simp at h
    omega
  · simp at h
    omega

theorem encodeChar_eq_one_iff {c : Char} {unit : Nat} (h : unit < 0x10000) :
    encodeChar c = [unit] ↔
      isHigh unit = false ∧ Utf8.charOfNat? unit = some c := by
  have hc := Utf8.toNat_lt_or c
  rw [Utf8.charOfNat?_eq_some_iff, ← Bool.not_eq_true, isHigh_iff, encodeChar]
  split
  · simp
    omega
  · simp
    omega

theorem encodeChar_eq_two_iff {c : Char} {high low : Nat} :
    encodeChar c = [high, low] ↔
      (isHigh high = true ∧ isLow low = true) ∧
        Utf8.charOfNat?
          (0x10000 + (high - 0xD800) * 0x400 + (low - 0xDC00)) = some c := by
  have hc := Utf8.toNat_lt_or c
  rw [Utf8.charOfNat?_eq_some_iff, isHigh_iff, isLow_iff, encodeChar]
  split
  · simp
    omega
  · simp only [List.cons.injEq, and_true]
    omega

theorem encodeChar_shape (c : Char) :
    (∃ unit, encodeChar c = [unit]) ∨ ∃ high low, encodeChar c = [high, low] := by
  rw [encodeChar]
  split
  · exact .inl ⟨_, rfl⟩
  · exact .inr ⟨_, _, rfl⟩

/-- Behind the units of a character, decoding goes on with the rest. -/
theorem decodeUnits_encodeChar_append (c : Char) (us : List Nat) :
    decodeUnits (encodeChar c ++ us) = (decodeUnits us).map (c :: ·) := by
  have hmap : (decodeUnits us).map (c :: ·) =
      (decodeUnits us).bind fun text => some (c :: text) := Option.map_eq_bind
  rw [hmap]
  rcases encodeChar_shape c with ⟨unit, hc⟩ | ⟨high, low, hc⟩
  · have hunit : unit < 0x10000 := lt_of_mem_encodeChar (c := c) (by simp [hc])
    obtain ⟨hhigh, hchar⟩ := (encodeChar_eq_one_iff hunit).mp hc
    simp [hc, decodeUnits.eq_def (unit :: us), hhigh, hchar]
  · obtain ⟨⟨hhigh, hlow⟩, hchar⟩ := encodeChar_eq_two_iff.mp hc
    simp [hc, decodeUnits, hhigh, hlow, hchar]

theorem eq_flatMap_of_decodeUnits {us : List Nat} {text : List Char}
    (hbound : ∀ unit ∈ us, unit < 0x10000) (h : decodeUnits us = some text) :
    us = text.flatMap encodeChar := by
  fun_induction decodeUnits us generalizing text with
  | case1 =>
    cases h
    rfl
  | case2 high hhigh low us hlow ih =>
    simp only [Option.bind_eq_bind, Option.bind_eq_some_iff, Option.pure_def,
      Option.some.injEq] at h
    obtain ⟨c, hc, rest, hrest, rfl⟩ := h
    simp only [List.mem_cons, forall_eq_or_imp] at hbound
    rw [List.flatMap_cons, encodeChar_eq_two_iff.mpr ⟨⟨hhigh, hlow⟩, hc⟩,
      ih hbound.2.2 hrest]
    rfl
  | case5 unit us hhigh ih =>
    simp only [Option.bind_eq_bind, Option.bind_eq_some_iff, Option.pure_def,
      Option.some.injEq] at h
    obtain ⟨c, hc, rest, hrest, rfl⟩ := h
    simp only [List.mem_cons, forall_eq_or_imp] at hbound
    have hunit : isHigh unit = false := Bool.eq_false_iff.mpr hhigh
    rw [List.flatMap_cons,
      (encodeChar_eq_one_iff hbound.1).mpr ⟨hunit, hc⟩, ih hbound.2 hrest]
    rfl
  | case3 | case4 => cases h

/-- Units are read as the text that they are the writing of. -/
theorem decodeUnits_eq_some_iff {us : List Nat} {text : List Char}
    (hbound : ∀ unit ∈ us, unit < 0x10000) :
    decodeUnits us = some text ↔ us = text.flatMap encodeChar := by
  constructor
  · exact eq_flatMap_of_decodeUnits hbound
  · rintro rfl
    clear hbound
    induction text with
    | nil => rfl
    | cons c text ih =>
      rw [List.flatMap_cons, decodeUnits_encodeChar_append, ih]
      rfl

/-! ## Texts -/

/-- Exactly the written texts are read, each as what was written. -/
theorem decode_eq_some_iff {order : ByteOrder} {bytes : List UInt8}
    {text : List Char} :
    decode order bytes = some text ↔ bytes = encode order text := by
  rw [decode, Option.bind_eq_bind, Option.bind_eq_some_iff, encode]
  constructor
  · rintro ⟨us, hunits, htext⟩
    obtain ⟨rfl, hbound⟩ := units_eq_some_iff.mp hunits
    rw [(decodeUnits_eq_some_iff hbound).mp htext]
  · rintro rfl
    have hbound : ∀ unit ∈ text.flatMap encodeChar, unit < 0x10000 := by
      intro unit hunit
      obtain ⟨c, _, hc⟩ := List.mem_flatMap.mp hunit
      exact lt_of_mem_encodeChar hc
    exact ⟨_, units_eq_some_iff.mpr ⟨rfl, hbound⟩,
      (decodeUnits_eq_some_iff hbound).mpr rfl⟩

end Preflight.Utf16
