import Preflight.Encoding.Utf8
import Mathlib.Tactic.SplitIfs

/-!
# UTF-8 is read as it is written

Decoding accepts the encodings of texts and nothing else
(`decode_eq_some_iff`).

A character is written in one to four bytes.  For each number of bytes, an
`encodeChar_eq_*_iff` says when some bytes are the writing of a character, in
the words of the decoder: the range of the first byte, the continuation bytes
behind it, and the value that they carry.  Both directions of the main result
go through these four lemmas.
-/

namespace Preflight.Utf8

/-! ## Code points -/

/-- Surrogates are no characters. -/
theorem toNat_lt_or (c : Char) :
    c.toNat < 0xD800 ∨ 0xDFFF < c.toNat ∧ c.toNat < 0x110000 :=
  c.valid

theorem charOfNat?_eq_some_iff {n : Nat} {c : Char} :
    charOfNat? n = some c ↔ n = c.toNat := by
  constructor
  · intro h
    by_cases hvalid : n.isValidChar
    · rw [charOfNat?, dif_pos hvalid] at h
      cases h
      rfl
    · rw [charOfNat?, dif_neg hvalid] at h
      cases h
  · rintro rfl
    have hvalid : c.toNat.isValidChar := c.valid
    rw [charOfNat?, dif_pos hvalid]
    rfl

theorem scalar?_eq_some_iff {least n : Nat} {c : Char} :
    scalar? least n = some c ↔ least ≤ n ∧ n = c.toNat := by
  rw [scalar?]
  split
  · constructor
    · simp
    · omega
  · rw [charOfNat?_eq_some_iff]
    omega

/-! ## Bytes -/

theorem toUInt8_eq_iff {n : Nat} (h : n < 0x100) {b : UInt8} :
    n.toUInt8 = b ↔ b.toNat = n := by
  rw [← UInt8.toNat_inj, Nat.toUInt8, UInt8.toNat_ofNat', Nat.mod_eq_of_lt h]
  exact eq_comm

theorem continuation?_eq_some_iff {b : UInt8} {x : Nat} :
    continuation? b = some x ↔ b.toNat = 0x80 + x ∧ x < 0x40 := by
  simp only [continuation?, UInt8.le_iff_toNat_le, UInt8.lt_iff_toNat_lt]
  split
  · rename_i h
    simp at h ⊢
    omega
  · rename_i h
    simp at h ⊢
    omega

/-! ## One character -/

section

variable {c : Char} {b b₁ b₂ b₃ : UInt8}

theorem encodeChar_eq_one_iff :
    encodeChar c = [b] ↔ b.toNat < 0x80 ∧ charOfNat? b.toNat = some c := by
  rw [charOfNat?_eq_some_iff, encodeChar]
  split_ifs with h₁ h₂ h₃
  · simp only [List.cons.injEq, and_true]
    rw [toUInt8_eq_iff (by omega)]
    omega
  · simp
    omega
  · simp
    omega
  · simp
    omega

theorem encodeChar_eq_two_iff :
    encodeChar c = [b, b₁] ↔
      (0xC0 ≤ b.toNat ∧ b.toNat < 0xE0) ∧
        ∃ x₁, continuation? b₁ = some x₁ ∧
          scalar? 0x80 ((b.toNat - 0xC0) * 0x40 + x₁) = some c := by
  simp only [continuation?_eq_some_iff, scalar?_eq_some_iff]
  rw [encodeChar]
  split_ifs with h₁ h₂ h₃
  · simp
    omega
  · simp only [List.cons.injEq, and_true]
    rw [toUInt8_eq_iff (by omega), toUInt8_eq_iff (by omega)]
    constructor
    · rintro ⟨hb, hb₁⟩
      exact ⟨by omega, c.toNat % 0x40, by omega, by omega⟩
    · rintro ⟨hb, x₁, hb₁, hc⟩
      omega
  · simp
    omega
  · simp
    omega

theorem encodeChar_eq_three_iff :
    encodeChar c = [b, b₁, b₂] ↔
      (0xE0 ≤ b.toNat ∧ b.toNat < 0xF0) ∧
        ∃ x₁, continuation? b₁ = some x₁ ∧
        ∃ x₂, continuation? b₂ = some x₂ ∧
          scalar? 0x800 (((b.toNat - 0xE0) * 0x40 + x₁) * 0x40 + x₂) =
            some c := by
  simp only [continuation?_eq_some_iff, scalar?_eq_some_iff]
  rw [encodeChar]
  split_ifs with h₁ h₂ h₃
  · simp
    omega
  · simp
    omega
  · simp only [List.cons.injEq, and_true]
    rw [toUInt8_eq_iff (by omega), toUInt8_eq_iff (by omega),
      toUInt8_eq_iff (by omega)]
    constructor
    · rintro ⟨hb, hb₁, hb₂⟩
      exact ⟨by omega, c.toNat / 0x40 % 0x40, by omega, c.toNat % 0x40,
        by omega, by omega⟩
    · rintro ⟨hb, x₁, hb₁, x₂, hb₂, hc⟩
      omega
  · simp
    omega

theorem encodeChar_eq_four_iff :
    encodeChar c = [b, b₁, b₂, b₃] ↔
      (0xF0 ≤ b.toNat ∧ b.toNat < 0xF8) ∧
        ∃ x₁, continuation? b₁ = some x₁ ∧
        ∃ x₂, continuation? b₂ = some x₂ ∧
        ∃ x₃, continuation? b₃ = some x₃ ∧
          scalar? 0x10000
              ((((b.toNat - 0xF0) * 0x40 + x₁) * 0x40 + x₂) * 0x40 + x₃) =
            some c := by
  have hc := toNat_lt_or c
  simp only [continuation?_eq_some_iff, scalar?_eq_some_iff]
  rw [encodeChar]
  split_ifs with h₁ h₂ h₃
  · simp
    omega
  · simp
    omega
  · simp
    omega
  · simp only [List.cons.injEq, and_true]
    rw [toUInt8_eq_iff (by omega), toUInt8_eq_iff (by omega),
      toUInt8_eq_iff (by omega), toUInt8_eq_iff (by omega)]
    constructor
    · rintro ⟨hb, hb₁, hb₂, hb₃⟩
      exact ⟨by omega, c.toNat / 0x1000 % 0x40, by omega,
        c.toNat / 0x40 % 0x40, by omega, c.toNat % 0x40, by omega, by omega⟩
    · rintro ⟨hb, x₁, hb₁, x₂, hb₂, x₃, hb₃, hc⟩
      omega

end

/-- A character is written in one, two, three or four bytes. -/
theorem encodeChar_shape (c : Char) :
    (∃ b, encodeChar c = [b]) ∨ (∃ b b₁, encodeChar c = [b, b₁]) ∨
      (∃ b b₁ b₂, encodeChar c = [b, b₁, b₂]) ∨
      ∃ b b₁ b₂ b₃, encodeChar c = [b, b₁, b₂, b₃] := by
  rw [encodeChar]
  split_ifs
  · exact .inl ⟨_, rfl⟩
  · exact .inr (.inl ⟨_, _, rfl⟩)
  · exact .inr (.inr (.inl ⟨_, _, _, rfl⟩))
  · exact .inr (.inr (.inr ⟨_, _, _, _, rfl⟩))

/-- The bytes of a character are those that the standard library gives it. -/
theorem encodeChar_eq_utf8EncodeChar (c : Char) :
    encodeChar c = String.utf8EncodeChar c := by
  have hc := toNat_lt_or c
  have hval : c.val.toNat = c.toNat := rfl
  simp only [encodeChar, String.utf8EncodeChar, hval]
  split_ifs
  any_goals omega
  · rfl
  · rw [show c.toNat / 64 % 32 + 192 = 0xC0 + c.toNat / 0x40 by omega,
      Nat.add_comm (c.toNat % 64)]
  · rw [show c.toNat / 4096 % 16 + 224 = 0xE0 + c.toNat / 0x1000 by omega,
      Nat.add_comm (c.toNat / 64 % 64), Nat.add_comm (c.toNat % 64)]
  · rw [show c.toNat / 262144 % 8 + 240 = 0xF0 + c.toNat / 0x40000 by omega,
      Nat.add_comm (c.toNat / 4096 % 64), Nat.add_comm (c.toNat / 64 % 64),
      Nat.add_comm (c.toNat % 64)]

/-! ## Texts -/

theorem encode_eq_toUTF8 (text : List Char) :
    encode text = (String.ofList text).toUTF8.data.toList := by
  rw [encode, funext encodeChar_eq_utf8EncodeChar]
  simp [String.toUTF8, List.utf8Encode]

/-- Behind a written character, decoding goes on with the rest. -/
theorem decode_encodeChar_append (c : Char) (bs : List UInt8) :
    decode (encodeChar c ++ bs) = (decode bs).map (c :: ·) := by
  have hmap : (decode bs).map (c :: ·) = (decode bs).bind fun text => some (c :: text) :=
    Option.map_eq_bind
  rw [hmap]
  rcases encodeChar_shape c with
    ⟨b, hc⟩ | ⟨b, b₁, hc⟩ | ⟨b, b₁, b₂, hc⟩ | ⟨b, b₁, b₂, b₃, hc⟩
  · obtain ⟨hb, hchar⟩ := encodeChar_eq_one_iff.mp hc
    simp [hc, decode.eq_def (b :: bs), UInt8.lt_iff_toNat_lt, hb, hchar]
  · obtain ⟨⟨hlow, hhigh⟩, x₁, hx₁, hchar⟩ := encodeChar_eq_two_iff.mp hc
    have h₁ : ¬b.toNat < 0x80 := by omega
    have h₂ : ¬b.toNat < 0xC0 := by omega
    simp [hc, decode, UInt8.lt_iff_toNat_lt, h₁, h₂, hhigh, hx₁, hchar]
  · obtain ⟨⟨hlow, hhigh⟩, x₁, hx₁, x₂, hx₂, hchar⟩ :=
      encodeChar_eq_three_iff.mp hc
    have h₁ : ¬b.toNat < 0x80 := by omega
    have h₂ : ¬b.toNat < 0xC0 := by omega
    have h₃ : ¬b.toNat < 0xE0 := by omega
    simp [hc, decode, UInt8.lt_iff_toNat_lt, h₁, h₂, h₃, hhigh, hx₁, hx₂, hchar]
  · obtain ⟨⟨hlow, hhigh⟩, x₁, hx₁, x₂, hx₂, x₃, hx₃, hchar⟩ :=
      encodeChar_eq_four_iff.mp hc
    have h₁ : ¬b.toNat < 0x80 := by omega
    have h₂ : ¬b.toNat < 0xC0 := by omega
    have h₃ : ¬b.toNat < 0xE0 := by omega
    have h₄ : ¬b.toNat < 0xF0 := by omega
    simp [hc, decode, UInt8.lt_iff_toNat_lt, h₁, h₂, h₃, h₄, hhigh, hx₁, hx₂,
      hx₃, hchar]

theorem decode_encode (text : List Char) : decode (encode text) = some text := by
  induction text with
  | nil => rfl
  | cons c text ih =>
    rw [encode, List.flatMap_cons, decode_encodeChar_append]
    exact congrArg (Option.map (c :: ·)) ih

theorem eq_encode_of_decode {bytes : List UInt8} {text : List Char}
    (h : decode bytes = some text) : bytes = encode text := by
  -- What is decoded from the front is a character whose bytes stand there.
  have hcons {front bs : List UInt8} {c : Char} {rest : List Char}
      (hfront : encodeChar c = front) (hrest : bs = encode rest) :
      front ++ bs = encode (c :: rest) := by
    rw [encode, List.flatMap_cons, hfront, hrest, encode]
  fun_induction decode bytes generalizing text with
  | case1 =>
    cases h
    rfl
  | case2 b bs hb ih =>
    simp only [Option.bind_eq_bind, Option.bind_eq_some_iff, Option.pure_def,
      Option.some.injEq] at h
    obtain ⟨c, hc, rest, hrest, rfl⟩ := h
    exact hcons (encodeChar_eq_one_iff.mpr ⟨UInt8.lt_iff_toNat_lt.mp hb, hc⟩)
      (ih hrest)
  | case4 b hb₁ hb₂ hb b₁ bs ih =>
    simp only [Option.bind_eq_bind, Option.bind_eq_some_iff, Option.pure_def,
      Option.some.injEq] at h
    obtain ⟨x₁, hx₁, c, hc, rest, hrest, rfl⟩ := h
    have hlow : 0xC0 ≤ b.toNat := UInt8.le_iff_toNat_le.mp (UInt8.not_lt.mp hb₂)
    exact hcons (encodeChar_eq_two_iff.mpr
      ⟨⟨hlow, UInt8.lt_iff_toNat_lt.mp hb⟩, x₁, hx₁, hc⟩) (ih hrest)
  | case6 b hb₁ hb₂ hb₃ hb b₁ b₂ bs ih =>
    simp only [Option.bind_eq_bind, Option.bind_eq_some_iff, Option.pure_def,
      Option.some.injEq] at h
    obtain ⟨x₁, hx₁, x₂, hx₂, c, hc, rest, hrest, rfl⟩ := h
    have hlow : 0xE0 ≤ b.toNat := UInt8.le_iff_toNat_le.mp (UInt8.not_lt.mp hb₃)
    exact hcons (encodeChar_eq_three_iff.mpr
      ⟨⟨hlow, UInt8.lt_iff_toNat_lt.mp hb⟩, x₁, hx₁, x₂, hx₂, hc⟩) (ih hrest)
  | case8 b hb₁ hb₂ hb₃ hb₄ hb b₁ b₂ b₃ bs ih =>
    simp only [Option.bind_eq_bind, Option.bind_eq_some_iff, Option.pure_def,
      Option.some.injEq] at h
    obtain ⟨x₁, hx₁, x₂, hx₂, x₃, hx₃, c, hc, rest, hrest, rfl⟩ := h
    have hlow : 0xF0 ≤ b.toNat := UInt8.le_iff_toNat_le.mp (UInt8.not_lt.mp hb₄)
    exact hcons (encodeChar_eq_four_iff.mpr
      ⟨⟨hlow, UInt8.lt_iff_toNat_lt.mp hb⟩, x₁, hx₁, x₂, hx₂, x₃, hx₃, hc⟩)
      (ih hrest)
  | case3 | case5 | case7 | case9 | case10 => cases h

/-- Exactly the written texts are read, each as what was written. -/
theorem decode_eq_some_iff {bytes : List UInt8} {text : List Char} :
    decode bytes = some text ↔ bytes = encode text := by
  constructor
  · exact eq_encode_of_decode
  · rintro rfl
    exact decode_encode text

/-- No character is written with a first byte this large. -/
theorem decode_of_le {b : UInt8} (h : 0xF8 ≤ b) (bs : List UInt8) :
    decode (b :: bs) = none := by
  have hlow {n : UInt8} (hn : n ≤ 0xF8) : ¬b < n :=
    UInt8.not_lt.mpr (UInt8.le_trans hn h)
  have h₁ : ¬b < 0x80 := hlow (by decide)
  have h₂ : ¬b < 0xC0 := hlow (by decide)
  have h₃ : ¬b < 0xE0 := hlow (by decide)
  have h₄ : ¬b < 0xF0 := hlow (by decide)
  have h₅ : ¬b < 0xF8 := hlow (by decide)
  simp only [decode.eq_def (b :: bs), h₁, h₂, h₃, h₄, h₅, if_false]

end Preflight.Utf8
