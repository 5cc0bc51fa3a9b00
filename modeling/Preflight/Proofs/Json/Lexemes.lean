import Mathlib.Data.List.Basic
import Preflight.Json.Reader
import Preflight.Json.Writer

/-!
# Tokens in the texts that are written

Each piece of a text that is written is read back as one token, whatever stands
behind it: `readToken_quote` for strings, and `readToken_int` for whole numbers
of 64 bits, for which the text behind it has to begin with something else than a
digit (`Closes`).

`Lexes` relates tokens to the texts that hold them, with blanks in between.  The
tokenizer finds the tokens of such a text (`tokens_of_lexes`).
-/

namespace Preflight.Json

variable {rest : List Char}

/-! ## Strings -/

/-- A character stands in a string behind a backslash, by its number, or as it
is. -/
theorem escapeChar_cases (c : Char) :
    (∃ x, escapeChar c = ['\\', x] ∧ simpleEscape? x = some c ∧ x ≠ 'u') ∨
    (escapeChar c =
        ['\\', 'u', '0', '0', hexDigit (c.toNat / 16), hexDigit c.toNat] ∧
      c < ' ') ∨
    (escapeChar c = [c] ∧ c ≠ '"' ∧ c ≠ '\\' ∧ ¬c < ' ') := by
  by_cases hshort : c ∈ ['"', '\\', '\x08', '\t', '\n', '\x0c', '\r']
  · left
    simp only [List.mem_cons, List.not_mem_nil, or_false] at hshort
    rcases hshort with rfl | rfl | rfl | rfl | rfl | rfl | rfl
    all_goals exact ⟨_, rfl, rfl, by decide⟩
  · right
    simp only [List.mem_cons, List.not_mem_nil, or_false, not_or] at hshort
    unfold escapeChar
    by_cases hlow : c < ' '
    all_goals simp [hshort, hlow]

theorem hex4?_hexDigit {n : Nat} (hn : n < 32) :
    hex4? '0' '0' (hexDigit (n / 16)) (hexDigit n) = some n := by
  revert n
  decide

/-- The text does not start with an escape of four digits that are none. -/
def NoBadEscape (cs : List Char) : Prop :=
  ∀ e f g h others, cs = '\\' :: 'u' :: e :: f :: g :: h :: others →
    (hex4? e f g h).isSome

theorem noBadEscape_escaped (s : List Char) (rest : List Char) :
    NoBadEscape (s.flatMap escapeChar ++ '"' :: rest) := by
  intro e f g h others heq
  cases s with
  | nil => cases heq
  | cons c s =>
    rw [List.flatMap_cons, List.append_assoc] at heq
    rcases escapeChar_cases c with
      ⟨x, hc, _, hx⟩ | ⟨hc, hlow⟩ | ⟨hc, _, hslash, _⟩
    all_goals
      simp only [hc, List.cons_append, List.nil_append, List.cons.injEq] at heq
    · exact absurd heq.2.1 hx
    · have ⟨_, _, he, hf, hg, hh, _⟩ := heq
      have hn : c.toNat < 32 := hlow
      rw [← he, ← hf, ← hg, ← hh, hex4?_hexDigit hn]
      rfl
    · exact absurd heq.1 hslash

/-- The reader looks behind an escape of four digits for a second one, with which
it could make a pair. -/
theorem readString_control {c : Char} (read : List Char) {cs : List Char}
    (hc : c < ' ') (hcs : NoBadEscape cs) :
    readString read ('\\' :: 'u' :: '0' :: '0' :: hexDigit (c.toNat / 16) ::
      hexDigit c.toNat :: cs) = readString (c :: read) cs := by
  have hn : c.toNat < 32 := hc
  have hhex := hex4?_hexDigit hn
  have hchar : Char.ofNat c.toNat = c := Char.ofNat_toNat c
  by_cases hnext :
      ∃ e f g h others, cs = '\\' :: 'u' :: e :: f :: g :: h :: others
  · have ⟨e, f, g, h, others, hothers⟩ := hnext
    have ⟨low, hlow⟩ := Option.isSome_iff_exists.mp (hcs e f g h others hothers)
    subst hothers
    rw [readString, hhex, hlow]
    dsimp only
    rw [if_neg (by omega), if_neg (by omega), hchar]
  · rw [readString, hhex]
    · dsimp only
      rw [if_neg (by omega), hchar]
    · intro e f g h others hothers
      exact hnext ⟨e, f, g, h, others, hothers⟩

theorem readString_escapeChar (c : Char) (read : List Char) {cs : List Char}
    (hcs : NoBadEscape cs) :
    readString read (escapeChar c ++ cs) = readString (c :: read) cs := by
  rcases escapeChar_cases c with
    ⟨x, hc, hx, hu⟩ | ⟨hc, hlow⟩ | ⟨hc, hquote, hslash, hlow⟩
  · rw [hc, List.cons_append, List.cons_append, List.nil_append, readString, hx]
    · exact fun _ _ _ _ _ _ _ _ _ h => absurd h hu
    · exact fun _ _ _ _ _ h => absurd h hu
  · rw [hc]
    exact readString_control read hlow hcs
  · rw [hc, List.cons_append, List.nil_append, readString, if_neg hlow]
    · exact hquote
    · exact fun _ _ _ _ _ _ _ _ _ h => absurd h hslash
    · exact fun _ _ _ _ _ h => absurd h hslash
    · exact fun _ _ h => absurd h hslash

theorem readString_escaped (s read rest : List Char) :
    readString read (s.flatMap escapeChar ++ '"' :: rest) =
      some (read.reverse ++ s, rest) := by
  induction s generalizing read with
  | nil =>
    rw [List.append_nil]
    rfl
  | cons c s ih =>
    have hbehind := noBadEscape_escaped s rest
    rw [List.flatMap_cons, List.append_assoc,
      readString_escapeChar c read hbehind, ih, List.reverse_cons,
      List.append_assoc]
    rfl

/-- A string is read back. -/
theorem readToken_quote (s : String) (rest : List Char) :
    readToken ((quote s).toList ++ rest) = some (.atom (.string s), rest) := by
  have hquote : (quote s).toList ++ rest =
      '"' :: (s.toList.flatMap escapeChar ++ '"' :: rest) := by
    unfold quote
    simp
  rw [hquote, readToken, readString_escaped]
  show some (Token.atom (.string (String.ofList s.toList)), rest) = _
  rw [String.ofList_toList]

/-! ## Whole numbers -/

/-- What may stand behind a value: the end of the text, or a character that is in
no number. -/
inductive Closes : List Char → Prop
  | nil : Closes []
  | comma (cs : List Char) : Closes (',' :: cs)
  | bracket (cs : List Char) : Closes (']' :: cs)
  | brace (cs : List Char) : Closes ('}' :: cs)
  | newLine (cs : List Char) : Closes ('\n' :: cs)

theorem Closes.takeWhile_isDigit (h : Closes rest) :
    rest.takeWhile Char.isDigit = [] := by
  cases h <;> rfl

theorem Closes.dropWhile_isDigit (h : Closes rest) :
    rest.dropWhile Char.isDigit = rest := by
  cases h <;> rfl

namespace Number

theorem toDigits_eq_cons (n : Nat) :
    ∃ c cs, Nat.toDigits 10 n = c :: cs ∧ c.isDigit := by
  cases hcs : Nat.toDigits 10 n with
  | nil => exact absurd hcs Nat.toDigits_ne_nil
  | cons c cs =>
    have hmem : c ∈ Nat.toDigits 10 n := hcs ▸ List.mem_cons_self
    have hdigit := Nat.isDigit_of_mem_toDigits (by omega) (by omega) hmem
    exact ⟨c, cs, rfl, hdigit⟩

theorem head_toDigits_ne_zero {n : Nat} (hn : 0 < n) :
    (Nat.toDigits 10 n).head? ≠ some '0' := by
  induction n using Nat.strongRecOn with
  | ind n ih =>
    by_cases hsmall : n < 10
    · rw [Nat.toDigits_of_lt_base hsmall]
      intro h
      have hzero := Nat.digitChar_eq_zero.mp (Option.some.inj h)
      omega
    · have hlead := ih (n / 10) (by omega) (by omega)
      have ⟨c, cs, hcs, _⟩ := toDigits_eq_cons (n / 10)
      rw [Nat.toDigits_of_base_le (by omega) (by omega), hcs]
      rwa [hcs] at hlead

/-- Digits whose value fits a word are all read: so does each value on the
way. -/
theorem readDigits_append {digits : List Char} (significand count : Nat)
    (hdigits : ∀ c ∈ digits, c.isDigit)
    (hfits : fitsWord (Nat.ofDigitChars 10 digits significand))
    (hrest : Closes rest) :
    readDigits significand count (digits ++ rest) =
      (Nat.ofDigitChars 10 digits significand, count + digits.length, rest) := by
  induction digits generalizing significand count with
  | nil => cases hrest <;> rfl
  | cons c digits ih =>
    have hc := hdigits c List.mem_cons_self
    have hothers (d : Char) (hd : d ∈ digits) : d.isDigit :=
      hdigits d (List.mem_cons_of_mem c hd)
    rw [Nat.ofDigitChars_cons, Nat.mul_comm 10] at hfits ⊢
    have hnext : fitsWord (significand * 10 + (c.toNat - '0'.toNat)) := by
      rw [Nat.ofDigitChars_eq_ofDigitChars_zero] at hfits
      have hpow : 0 < 10 ^ digits.length := Nat.pow_pos (by omega)
      have hle := Nat.le_mul_of_pos_left
        (significand * 10 + (c.toNat - '0'.toNat)) hpow
      unfold fitsWord at hfits ⊢
      rw [decide_eq_true_iff] at hfits ⊢
      omega
    rw [List.cons_append, readDigits, if_pos ⟨hc, hnext⟩,
      ih _ _ hothers hfits, List.length_cons, Nat.add_assoc, Nat.add_comm 1]

theorem ofText_minus (cs : List Char) :
    ofText ('-' :: cs) = readUnsigned true cs :=
  rfl

theorem ofText_of_ne_minus {c : Char} (cs : List Char) (hc : c ≠ '-') :
    ofText (c :: cs) = readUnsigned false (c :: cs) :=
  ofText.eq_2 _ fun _ h => hc (List.cons.inj h).1

theorem readUnsigned_toDigits (negative : Bool) {n : Nat} (hn : fitsWord n)
    (hrest : Closes rest) :
    readUnsigned negative (Nat.toDigits 10 n ++ rest) =
      readFraction negative n 0 rest := by
  rcases Nat.eq_zero_or_pos n with rfl | hpos
  · cases hrest <;> rfl
  · have hdigits (c : Char) (hc : c ∈ Nat.toDigits 10 n) : c.isDigit :=
      Nat.isDigit_of_mem_toDigits (by omega) (by omega) hc
    have hvalue := Nat.ofDigitChars_ten_toDigits (n := n)
    have hlead := head_toDigits_ne_zero hpos
    have hread := readDigits_append 0 0 hdigits (hvalue.symm ▸ hn) hrest
    rw [hvalue] at hread
    have ⟨c, cs, hcs, hc⟩ := toDigits_eq_cons n
    rw [hcs] at hlead
    have hzero : c ≠ '0' := fun h => hlead (congrArg some h)
    rw [hcs, List.cons_append] at hread ⊢
    unfold readUnsigned
    dsimp only
    rw [if_neg hzero, if_pos hc, hread]
    dsimp only
    rw [hrest.takeWhile_isDigit, hrest.dropWhile_isDigit]
    rfl

/-- Nothing of a fraction is behind a whole number. -/
theorem readFraction_closes (negative : Bool) (n : Nat) (hrest : Closes rest) :
    readFraction negative n 0 rest =
      if !negative then some (int n, rest)
      else if n = 0 ∨ 0x8000000000000000 < n then
        (scale negative n 0).map (·, rest)
      else some (int (-n), rest) := by
  cases hrest <;> rfl

/-- The whole numbers of 64 bits, with a sign or without. -/
def IsWord (n : Int) : Prop :=
  -0x8000000000000000 ≤ n ∧ n < 0x10000000000000000

theorem toText_ofNat (n : Nat) :
    (int (.ofNat n)).toText.toList = Nat.toDigits 10 n := Nat.toList_repr

theorem toText_negSucc (n : Nat) :
    (int (.negSucc n)).toText.toList = '-' :: Nat.toDigits 10 (n + 1) := by
  show ("-" ++ Nat.repr (n + 1)).toList = _
  rw [String.toList_append, Nat.toList_repr]
  rfl

theorem toText_eq_cons (n : Int) :
    ∃ c cs, (int n).toText.toList = c :: cs ∧ (c = '-' ∨ c.isDigit) := by
  cases n with
  | ofNat n =>
    have ⟨c, cs, hcs, hc⟩ := toDigits_eq_cons n
    exact ⟨c, cs, (toText_ofNat n).trans hcs, .inr hc⟩
  | negSucc n => exact ⟨'-', _, toText_negSucc n, .inl rfl⟩

theorem ofText_toText {n : Int} (hn : IsWord n) (hrest : Closes rest) :
    ofText ((int n).toText.toList ++ rest) = some (int n, rest) := by
  unfold IsWord at hn
  cases n with
  | ofNat n =>
    rw [Int.ofNat_eq_natCast] at hn
    have hword : fitsWord n := decide_eq_true (by omega)
    have hread := readUnsigned_toDigits false hword hrest
    have ⟨c, cs, hcs, hdigit⟩ := toDigits_eq_cons n
    have hc : c ≠ '-' := fun h => absurd (h ▸ hdigit) (by decide)
    rw [hcs, List.cons_append] at hread
    rw [toText_ofNat, hcs, List.cons_append, ofText_of_ne_minus _ hc, hread,
      readFraction_closes false n hrest]
    rfl
  | negSucc n =>
    have hword : fitsWord (n + 1) := decide_eq_true (by omega)
    rw [toText_negSucc, List.cons_append, ofText_minus,
      readUnsigned_toDigits true hword hrest, readFraction_closes true _ hrest,
      if_neg (by decide), if_neg (by omega)]
    rfl

end Number

/-- What starts as a number is one: no other token starts like that. -/
theorem readToken_number {c : Char} (cs : List Char)
    (hc : c = '-' ∨ c.isDigit) :
    readToken (c :: cs) =
      (Number.ofText (c :: cs)).map fun (n, rest) =>
        (.atom (.number n), rest) := by
  have hne {d : Char} (hd : ¬(d = '-' ∨ d.isDigit)) : c ≠ d :=
    fun h => hd (h ▸ hc)
  rw [readToken]
  case x_1 => exact nofun
  all_goals
    intro others heq
    exact hne (by decide) (List.cons.inj heq).1

/-- A whole number of 64 bits is read back. -/
theorem readToken_int {n : Int} (hn : Number.IsWord n) (hrest : Closes rest) :
    readToken ((Number.int n).toText.toList ++ rest) =
      some (.atom (.number (.int n)), rest) := by
  have hread := Number.ofText_toText hn hrest
  have ⟨c, cs, htext, hc⟩ := Number.toText_eq_cons n
  rw [htext, List.cons_append] at hread ⊢
  rw [readToken_number _ hc, hread]
  rfl

/-! ## Texts -/

/-- The text holds the tokens, with blanks between them. -/
inductive Lexes : List Token → List Char → Prop
  | nil : Lexes [] []
  | blank {tokens : List Token} {c : Char} {cs : List Char} (hc : isBlank c)
      (h : Lexes tokens cs) : Lexes tokens (c :: cs)
  | token {token : Token} {tokens : List Token} (lexeme : List Char)
      {cs : List Char} (hread : readToken (lexeme ++ cs) = some (token, cs))
      (hlexeme : lexeme ≠ []) (h : Lexes tokens cs) :
      Lexes (token :: tokens) (lexeme ++ cs)

namespace Lexes

variable {token : Token} {tokens : List Token} {cs : List Char}

theorem blanks {bs : List Char} (hbs : ∀ c ∈ bs, isBlank c)
    (h : Lexes tokens cs) : Lexes tokens (bs ++ cs) := by
  induction bs with
  | nil => exact h
  | cons c bs ih =>
    have hothers (d : Char) (hd : d ∈ bs) : isBlank d :=
      hbs d (List.mem_cons_of_mem c hd)
    exact .blank (hbs c List.mem_cons_self) (ih hothers)

/-- A token of one character. -/
theorem char (c : Char) (hread : readToken (c :: cs) = some (token, cs))
    (h : Lexes tokens cs) : Lexes (token :: tokens) (c :: cs) :=
  Lexes.token [c] hread (List.cons_ne_nil c []) h

end Lexes

theorem readToken_blank {c : Char} (cs : List Char) (hc : isBlank c) :
    readToken (c :: cs) = none := by
  unfold isBlank at hc
  simp only [Bool.or_eq_true, beq_iff_eq] at hc
  rcases hc with ((rfl | rfl) | rfl) | rfl
  all_goals rfl

theorem dropWhile_isBlank_of_readToken {cs : List Char} {token : Token}
    (h : readToken cs = some (token, rest)) : cs.dropWhile isBlank = cs := by
  cases cs with
  | nil => rfl
  | cons c cs =>
    have hc : ¬isBlank c := by
      intro hblank
      rw [readToken_blank cs hblank] at h
      cases h
    exact List.dropWhile_cons_of_neg hc

theorem tokensOnto_blank {c : Char} (cs : List Char) (found : List Token)
    (fuel : Nat) (hc : isBlank c) :
    tokensOnto found fuel (c :: cs) = tokensOnto found fuel cs := by
  have hdrop : (c :: cs).dropWhile isBlank = cs.dropWhile isBlank :=
    List.dropWhile_cons_of_pos hc
  cases fuel with
  | zero => rw [tokensOnto, tokensOnto, hdrop]
  | succ fuel => rw [tokensOnto, tokensOnto, hdrop]

theorem tokensOnto_token {cs : List Char} {token : Token} (found : List Token)
    (fuel : Nat) (h : readToken cs = some (token, rest)) :
    tokensOnto found (fuel + 1) cs = tokensOnto (token :: found) fuel rest := by
  have hdrop := dropWhile_isBlank_of_readToken h
  cases cs with
  | nil => cases h
  | cons c cs =>
    rw [tokensOnto, hdrop]
    dsimp only
    rw [h]

theorem tokensOnto_of_lexes {tokens : List Token} {cs : List Char}
    (h : Lexes tokens cs) (found : List Token) {fuel : Nat}
    (hfuel : cs.length ≤ fuel) :
    tokensOnto found fuel cs = some (tokens.reverse ++ found) := by
  induction h generalizing found fuel with
  | nil => cases fuel <;> rfl
  | @blank tokens c cs hc _ ih =>
    rw [List.length_cons] at hfuel
    rw [tokensOnto_blank cs found fuel hc]
    exact ih found (by omega)
  | @token token tokens lexeme cs hread hlexeme _ ih =>
    have hpos := List.length_pos_iff.mpr hlexeme
    rw [List.length_append] at hfuel
    obtain ⟨fuel, rfl⟩ : ∃ more, fuel = more + 1 := ⟨fuel - 1, by omega⟩
    rw [tokensOnto_token found fuel hread, ih (token :: found) (by omega),
      List.reverse_cons, List.append_assoc]
    rfl

/-- The tokens of a text are found. -/
theorem tokens_of_lexes {found : List Token} {text : List Char}
    (h : Lexes found text) : tokens text = some found := by
  unfold tokens
  rw [tokensOnto_of_lexes h [] (Nat.le_refl _), Option.map_some,
    List.append_nil, List.reverse_reverse]

end Preflight.Json
