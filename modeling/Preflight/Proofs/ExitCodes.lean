import Preflight.Checks.PowerShell
import Preflight.Proofs.LetterCase.Words

/-!
# Numbers as exit codes

`Renders` says how a number is written as an exit code, in decimal or in
hexadecimal, whatever its size.

* `exitCodeValue?_of_renders`: the value of a code is its number, as long as the
  number fits in 64 bits.  Larger numbers have no value, so only zero counts as
  success (`isSuccessCode_of_renders`).
* `accepts_of_hexValue?` and what stands before it: the digits of a written number
  are digits for the patterns, and these are word characters.
-/

namespace Preflight

open Text

/-! ## Written numbers -/

/-- The number that digits go on to behind `value`. -/
def numeralFrom (base value : Nat) (digits : List Char) : Nat :=
  digits.foldl (fun n c => base * n + (Notation.hexValue? c).getD 0) value

/-- The characters are digits of the base. -/
def DigitsOf (base : Nat) (digits : List Char) : Prop :=
  ∀ c ∈ digits, ∃ digit, Notation.hexValue? c = some digit ∧ digit < base

/-- How a number is written as an exit code: in decimal, or in hexadecimal behind
`0x`, with leading zeros and in either case. -/
inductive Renders : Nat → List Char → Prop where
  | decimal {digits : List Char} (hne : digits ≠ []) (h : DigitsOf 10 digits) :
      Renders (numeralFrom 10 0 digits) digits
  | hexadecimal {mark : Char} {digits : List Char} (hmark : mark = 'x' ∨ mark = 'X')
      (hne : digits ≠ []) (h : DigitsOf 16 digits) :
      Renders (numeralFrom 16 0 digits) ('0' :: mark :: digits)

theorem le_numeralFrom {base : Nat} (hbase : 0 < base) (value : Nat)
    (digits : List Char) : value ≤ numeralFrom base value digits := by
  unfold numeralFrom
  induction digits generalizing value with
  | nil => exact Nat.le_refl _
  | cons c digits ih =>
    have hnext := ih (base * value + (Notation.hexValue? c).getD 0)
    have hgrows : value ≤ base * value := Nat.le_mul_of_pos_left value hbase
    rw [List.foldl_cons]
    omega

namespace Checks

/-- Digit by digit, a number is read if it fits in 64 bits. -/
theorem readWord?_eq {base : Nat} (hbase : 0 < base) {value : Nat}
    (hvalue : value < 18446744073709551616) {digits : List Char}
    (h : DigitsOf base digits) :
    readWord? base value digits =
      if numeralFrom base value digits < 18446744073709551616 then
        some (numeralFrom base value digits)
      else none := by
  induction digits generalizing value with
  | nil => exact (if_pos hvalue).symm
  | cons c digits ih =>
    obtain ⟨⟨digit, hdigit, hlt⟩, hdigits⟩ := List.forall_mem_cons.mp h
    have hnumeral : numeralFrom base value (c :: digits) =
        numeralFrom base (base * value + digit) digits := by
      rw [numeralFrom, List.foldl_cons, hdigit]
      rfl
    rw [readWord?, hdigit, hnumeral]
    by_cases hfits : base * value + digit < 18446744073709551616
    · rw [← ih hfits hdigits]
      exact if_pos ⟨hlt, hfits⟩
    · -- What does not fit so far does not fit in the end.
      have hgrows := le_numeralFrom hbase (base * value + digit) digits
      rw [if_neg (by omega)]
      exact if_neg fun hboth => hfits hboth.2

/-- No decimal code has the mark of a hexadecimal one. -/
theorem exitCodeValue?_of_decimal {digits : List Char} (h : DigitsOf 10 digits) :
    exitCodeValue? digits = word? 10 digits := by
  by_cases hdigits : ∃ x more, digits = '0' :: x :: more
  · obtain ⟨x, more, rfl⟩ := hdigits
    obtain ⟨digit, hdigit, -⟩ := h x (List.mem_cons_of_mem _ List.mem_cons_self)
    have hmark : ¬(x = 'x' ∨ x = 'X') := by
      rintro (rfl | rfl)
      · cases hdigit
      · cases hdigit
    rw [exitCodeValue?, if_neg hmark]
  · rw [exitCodeValue?.eq_2 _ fun x more hcode => hdigits ⟨x, more, hcode⟩]

/-- The value of a code is its number, if that fits in 64 bits. -/
theorem exitCodeValue?_of_renders {number : Nat} {code : List Char}
    (h : Renders number code) :
    exitCodeValue? code =
      if number < 18446744073709551616 then some number else none := by
  cases h with
  | decimal hne h =>
    rw [exitCodeValue?_of_decimal h, word?, if_neg hne]
    exact readWord?_eq (by decide) (by decide) h
  | @hexadecimal mark digits hmark hne h =>
    rw [exitCodeValue?, if_pos hmark, word?, if_neg hne]
    exact readWord?_eq (by decide) (by decide) h

example : exitCodeValue? "0X00ff".toList = some 255 ∧
    exitCodeValue? "18446744073709551616".toList = none := by
  decide

/-- Of all numbers, only zero counts as success. -/
theorem isSuccessCode_of_renders {number : Nat} {code : List Char}
    (h : Renders number code) : isSuccessCode code = true ↔ number = 0 := by
  rw [isSuccessCode, exitCodeValue?_of_renders h, beq_iff_eq]
  split
  · exact Option.some_inj
  · exact iff_of_false nofun (by omega)

end Checks

/-! ## Characters of codes -/

theorem toNat_le_of_le {c d : Char} (h : c ≤ d) : c.toNat ≤ d.toNat :=
  UInt32.le_iff_toNat_le.mp h

/-- The class of hexadecimal digits. -/
def hexDigits : CharClass := ⟨[.range '0' '9', .range 'a' 'f'], false⟩

theorem toNat_lt_of_hexDigits {c : Char} (h : hexDigits.accepts .insensitive c = true) :
    c.toNat < 128 := by
  by_cases hc : c ∈ casedLetters
  · have hletters : casedLetters.all (fun c =>
        !hexDigits.accepts .insensitive c || c.toNat < 128) = true := by decide
    simpa [h] using List.all_eq_true.mp hletters c hc
  · rw [CharClass.accepts, caseVariants_of_notMem hc] at h
    simp only [hexDigits, ClassItem.holds, List.any_cons, List.any_nil, Bool.or_false,
      Bool.bne_false, Bool.or_eq_true, Bool.and_eq_true, decide_eq_true_eq] at h
    have hnine : '9'.toNat < 128 := by decide
    have hf : 'f'.toNat < 128 := by decide
    rcases h with h | h
    · exact Nat.lt_of_le_of_lt (toNat_le_of_le h.2) hnine
    · exact Nat.lt_of_le_of_lt (toNat_le_of_le h.2) hf

theorem isWord_of_hexDigits {c : Char} (h : hexDigits.accepts .insensitive c = true) :
    isWord c = true := by
  have hascii : ∀ n < 128, hexDigits.accepts .insensitive (Char.ofNat n) = true →
      isWord (Char.ofNat n) = true := by decide
  have hc := hascii c.toNat (toNat_lt_of_hexDigits h)
  rw [Char.ofNat_toNat] at hc
  exact hc h

/-- Decimal digits of any script are word characters. -/
theorem isWord_of_isDigit {c : Char} (h : isDigit c = true) : isWord c = true := by
  have hranges : (digitRanges.all fun range => wordRanges.any fun wider =>
      Nat.ble wider.1 range.1 && Nat.ble range.2 wider.2) = true := by
    decide +kernel
  unfold isDigit at h
  unfold isWord
  split
  · rename_i hlow
    rw [if_pos hlow] at h
    rw [Char.isAlphanum, h, Bool.or_true, Bool.true_or]
  · rename_i hhigh
    rw [if_neg hhigh, inRanges, List.any_eq_true] at h
    obtain ⟨range, hrange, hin⟩ := h
    obtain ⟨wider, hwider, hcovers⟩ :=
      List.any_eq_true.mp (List.all_eq_true.mp hranges range hrange)
    rw [inRanges, List.any_eq_true]
    simp only [Bool.and_eq_true, decide_eq_true_eq, Nat.ble_eq] at hin hcovers ⊢
    exact ⟨wider, hwider, by omega, by omega⟩

theorem toNat_lt_of_hexValue? {c : Char} {digit : Nat}
    (h : Notation.hexValue? c = some digit) : c.toNat < 128 := by
  have hnine : '9'.toNat < 128 := by decide
  have hf : 'f'.toNat < 128 ∧ 'F'.toNat < 128 := by decide
  unfold Notation.hexValue? at h
  split at h
  · rename_i hdigit
    have hle : c ≤ '9' := of_decide_eq_true (Bool.and_eq_true_iff.mp hdigit).2
    exact Nat.lt_of_le_of_lt (toNat_le_of_le hle) hnine
  · split at h
    · rename_i hsmall
      exact Nat.lt_of_le_of_lt (toNat_le_of_le hsmall.2) hf.1
    · split at h
      · rename_i hcapital
        exact Nat.lt_of_le_of_lt (toNat_le_of_le hcapital.2) hf.2
      · cases h

/-- Digits with a value are digits for the patterns, too. -/
theorem accepts_of_hexValue? {c : Char} {digit : Nat}
    (h : Notation.hexValue? c = some digit) :
    hexDigits.accepts .insensitive c = true ∧ (digit < 10 → isDigit c = true) := by
  have hascii : ∀ n < 128, ∀ digit ∈ Notation.hexValue? (Char.ofNat n),
      hexDigits.accepts .insensitive (Char.ofNat n) = true ∧
        (digit < 10 → isDigit (Char.ofNat n) = true) := by
    decide
  have hc := hascii c.toNat (toNat_lt_of_hexValue? h)
  rw [Char.ofNat_toNat] at hc
  exact hc digit h

end Preflight
