import Preflight.Checks.Secrets
import Preflight.Proofs.LetterCase.Variants
import Preflight.Proofs.Pattern.Finds

/-!
# Secrets that are written into a script

`Secret` says what a secret in a script looks like, in three shapes and without
the patterns that look for them: a word is assigned a quoted literal, a quoted
literal is turned into a secure string, or it stands on the line of a
credential object.  Words are compared by simple case folding.

* `finds_assignedSecret_iff`, `finds_secureStringLiteral_iff` and
  `finds_credentialLiteral_iff`: each pattern finds the pieces of one shape,
  wherever they stand.
* `embeddedSecrets_cases`: the check has one violation exactly if some piece of
  the text is a secret.
-/

namespace Preflight

namespace Text

/-- The text reads as the word, compared by simple case folding. -/
def Spells (word : String) (s : List Char) : Prop :=
  s.map simpleFold = word.toList.map simpleFold

/-- Nothing but white space. -/
def Blank (s : List Char) : Prop := ∀ c ∈ s, isSpace c = true

/-- A single or a double quote. -/
def IsQuote (c : Char) : Prop := c = '"' ∨ c = '\''

instance (word : String) (s : List Char) : Decidable (Spells word s) :=
  inferInstanceAs (Decidable (_ = _))

instance (s : List Char) : Decidable (Blank s) :=
  List.decidableBAll _ _

instance (c : Char) : Decidable (IsQuote c) :=
  inferInstanceAs (Decidable (_ ∨ _))

/-- A literal on one line: a quote, one or more characters that are neither
quotes nor line feeds, and a quote. -/
inductive Quoted : List Char → Prop where
  | mk {opening closing : Char} {inside : List Char}
      (hopening : IsQuote opening) (hne : inside ≠ [])
      (hinside : ∀ c ∈ inside, ¬IsQuote c ∧ c ≠ '\n')
      (hclosing : IsQuote closing) : Quoted (opening :: (inside ++ [closing]))

/-- The shapes of a secret. -/
inductive Secret : List Char → Prop where
  /-- A password, a secret or a key is assigned a literal. -/
  | assigned {word before after literal : List Char}
      (hword : Spells "password" word ∨ Spells "secret" word ∨
        Spells "api_key" word)
      (hbefore : Blank before) (hafter : Blank after)
      (hliteral : Quoted literal) :
      Secret (word ++ before ++ ['='] ++ after ++ literal)
  /-- A literal is turned into a secure string, with or without the name of the
  argument. -/
  | secureString {command gap argument literal : List Char}
      (hcommand : Spells "ConvertTo-SecureString" command)
      (hne : gap ≠ []) (hgap : Blank gap)
      (hargument : argument = [] ∨ ∃ name gap',
        argument = name ++ gap' ∧ Spells "-String" name ∧ gap' ≠ [] ∧
          Blank gap')
      (hliteral : Quoted literal) :
      Secret (command ++ gap ++ argument ++ literal)
  /-- A credential object is made, with a literal on its line. -/
  | credential {command between name rest literal : List Char}
      (hcommand : Spells "New-Object" command) (hbetween : '\n' ∉ between)
      (hname : Spells "PSCredential" name) (hrest : '\n' ∉ rest)
      (hliteral : Quoted literal) :
      Secret (command ++ between ++ name ++ rest ++ literal)

/-- Some piece of the text is a secret. -/
def HoldsSecret (text : List Char) : Prop :=
  ∃ front secret back, text = front ++ secret ++ back ∧ Secret secret

end Text

open Text

namespace Pattern

variable {front piece back : List Char}

/-- A word is found without regard to case where the text reads as it. -/
theorem finds_text_insensitive_iff {s : String} :
    Finds .insensitive (text s) front piece back ↔ Spells s piece := by
  rw [finds_text_iff, Spells, ← List.forall₂_eq_eq_eq,
    List.forall₂_map_left_iff, List.forall₂_map_right_iff]
  simp only [accepts_just_iff]
  exact ⟨.flip, .flip⟩

/-- Characters without case variants are spelled by themselves only. -/
theorem spells_iff_eq {word : String}
    (h : word.toList.all (fun c => c ∉ casedLetters) = true) :
    Spells word piece ↔ piece = word.toList := by
  have hplain {c d : Char} (hd : d ∉ casedLetters) :
      simpleFold c = simpleFold d ↔ c = d := by
    rw [← mem_caseVariants_iff, caseVariants_of_notMem hd, List.mem_singleton]
  unfold Spells
  generalize word.toList = letters at h ⊢
  induction letters generalizing piece with
  | nil => exact List.map_eq_nil_iff
  | cons d letters ih =>
    rw [List.all_cons, Bool.and_eq_true, decide_eq_true_eq] at h
    obtain ⟨hd, hletters⟩ := h
    cases piece with
    | nil => exact iff_of_false nofun nofun
    | cons c piece =>
      rw [List.map_cons, List.map_cons, List.cons.injEq, List.cons.injEq]
      exact and_congr (hplain hd) (ih hletters)

theorem spells_equals_iff : Spells "=" piece ↔ piece = ['='] :=
  spells_iff_eq (by decide)

theorem finds_spaces_iff :
    Finds .insensitive spaces front piece back ↔ Blank piece := by
  simp only [spaces, finds_run_iff, accepts_space_iff, Blank]

theorem finds_someSpace_iff :
    Finds .insensitive someSpace front piece back ↔
      piece ≠ [] ∧ Blank piece := by
  simp only [someSpace, finds_some_iff, accepts_space_iff, Blank]

theorem finds_inLine_iff :
    Finds .insensitive (run .inLine) front piece back ↔ '\n' ∉ piece := by
  rw [finds_run_iff, ← List.forall_mem_ne]
  refine forall₂_congr fun c _ => ?_
  rw [CharClass.inLine, accepts_noneOf_iff (by decide)]
  simp [eq_comm]

end Pattern

namespace Checks

open Pattern

variable {front piece back : List Char}

theorem isQuote_iff {c : Char} :
    (CharClass.anyOf "\"'").accepts .insensitive c = true ↔ IsQuote c := by
  rw [accepts_anyOf_iff (by decide), IsQuote]
  simp

theorem isInside_iff {c : Char} :
    (CharClass.noneOf "\"'\n").accepts .insensitive c = true ↔
      ¬IsQuote c ∧ c ≠ '\n' := by
  rw [accepts_noneOf_iff (by decide), IsQuote]
  simp [and_assoc]

theorem finds_quotedText_iff :
    Finds .insensitive quotedText front piece back ↔ Quoted piece := by
  simp only [quotedText, finds_append_iff, finds_one_iff, finds_some_iff,
    isQuote_iff, isInside_iff]
  constructor
  · rintro ⟨_, _, rfl, ⟨_, inside, rfl, ⟨opening, rfl, hopening⟩, hne, hinside⟩,
      ⟨closing, rfl, hclosing⟩⟩
    exact .mk hopening hne hinside hclosing
  · rintro ⟨hopening, hne, hinside, hclosing⟩
    exact ⟨_, _, rfl, ⟨_, _, rfl, ⟨_, rfl, hopening⟩, hne, hinside⟩,
      ⟨_, rfl, hclosing⟩⟩

theorem finds_assignedSecret_iff :
    Finds .insensitive assignedSecret front piece back ↔
      ∃ word before after literal,
        piece = word ++ before ++ ['='] ++ after ++ literal ∧
        (Spells "password" word ∨ Spells "secret" word ∨
          Spells "api_key" word) ∧
        Blank before ∧ Blank after ∧ Quoted literal := by
  simp only [assignedSecret, finds_append_iff, finds_group_iff, firstOf,
    finds_alt_iff, finds_text_insensitive_iff, finds_spaces_iff,
    spells_equals_iff, finds_quotedText_iff]
  constructor
  · rintro ⟨_, literal, rfl, ⟨_, after, rfl, ⟨_, _, rfl, ⟨word, before, rfl,
      hword, hbefore⟩, rfl⟩, hafter⟩, hliteral⟩
    exact ⟨word, before, after, literal, rfl, hword, hbefore, hafter, hliteral⟩
  · rintro ⟨word, before, after, literal, rfl, hword, hbefore, hafter, hliteral⟩
    exact ⟨_, literal, rfl, ⟨_, after, rfl, ⟨_, _, rfl, ⟨word, before, rfl,
      hword, hbefore⟩, rfl⟩, hafter⟩, hliteral⟩

theorem finds_secureStringLiteral_iff :
    Finds .insensitive secureStringLiteral front piece back ↔
      ∃ command gap argument literal,
        piece = command ++ gap ++ argument ++ literal ∧
        Spells "ConvertTo-SecureString" command ∧ (gap ≠ [] ∧ Blank gap) ∧
        (argument = [] ∨ ∃ name gap', argument = name ++ gap' ∧
          Spells "-String" name ∧ gap' ≠ [] ∧ Blank gap') ∧
        Quoted literal := by
  simp only [secureStringLiteral, finds_append_iff, finds_optional_iff,
    finds_group_iff, finds_text_insensitive_iff, finds_someSpace_iff,
    finds_quotedText_iff]
  constructor
  · rintro ⟨_, literal, rfl, ⟨_, argument, rfl, ⟨command, gap, rfl, hcommand,
      hgap⟩, hargument⟩, hliteral⟩
    exact ⟨command, gap, argument, literal, rfl, hcommand, hgap, hargument.symm,
      hliteral⟩
  · rintro ⟨command, gap, argument, literal, rfl, hcommand, hgap, hargument,
      hliteral⟩
    exact ⟨_, literal, rfl, ⟨_, argument, rfl, ⟨command, gap, rfl, hcommand,
      hgap⟩, hargument.symm⟩, hliteral⟩

theorem finds_credentialLiteral_iff :
    Finds .insensitive credentialLiteral front piece back ↔
      ∃ command between name rest literal,
        piece = command ++ between ++ name ++ rest ++ literal ∧
        Spells "New-Object" command ∧ '\n' ∉ between ∧
        Spells "PSCredential" name ∧ '\n' ∉ rest ∧ Quoted literal := by
  simp only [credentialLiteral, finds_append_iff, finds_text_insensitive_iff,
    finds_inLine_iff, finds_quotedText_iff]
  constructor
  · rintro ⟨_, literal, rfl, ⟨_, rest, rfl, ⟨_, name, rfl, ⟨command, between, rfl,
      hcommand, hbetween⟩, hname⟩, hrest⟩, hliteral⟩
    exact ⟨command, between, name, rest, literal, rfl, hcommand, hbetween, hname,
      hrest, hliteral⟩
  · rintro ⟨command, between, name, rest, literal, rfl, hcommand, hbetween,
      hname, hrest, hliteral⟩
    exact ⟨_, literal, rfl, ⟨_, rest, rfl, ⟨_, name, rfl, ⟨command, between, rfl,
      hcommand, hbetween⟩, hname⟩, hrest⟩, hliteral⟩

/-- Together, the shapes that are looked for are those of a secret. -/
theorem finds_secretShapes_iff :
    (∃ shape ∈ secretShapes, shape.1.Finds .insensitive front piece back) ↔
      Secret piece := by
  simp only [secretShapes, List.mem_cons, List.not_mem_nil, or_false,
    exists_eq_or_imp, exists_eq_left, finds_assignedSecret_iff,
    finds_secureStringLiteral_iff, finds_credentialLiteral_iff]
  constructor
  · rintro (⟨_, _, _, _, rfl, hword, hbefore, hafter, hliteral⟩ |
      ⟨_, _, _, _, rfl, hcommand, ⟨hne, hgap⟩, hargument, hliteral⟩ |
      ⟨_, _, _, _, _, rfl, hcommand, hbetween, hname, hrest, hliteral⟩)
    · exact .assigned hword hbefore hafter hliteral
    · exact .secureString hcommand hne hgap hargument hliteral
    · exact .credential hcommand hbetween hname hrest hliteral
  · intro h
    cases h with
    | assigned hword hbefore hafter hliteral =>
      exact .inl ⟨_, _, _, _, rfl, hword, hbefore, hafter, hliteral⟩
    | secureString hcommand hne hgap hargument hliteral =>
      exact .inr (.inl ⟨_, _, _, _, rfl, hcommand, ⟨hne, hgap⟩, hargument,
        hliteral⟩)
    | credential hcommand hbetween hname hrest hliteral =>
      exact .inr (.inr ⟨_, _, _, _, _, rfl, hcommand, hbetween, hname, hrest,
        hliteral⟩)

/-- Some label is found exactly if some pattern of the table occurs. -/
theorem labelsIn_ne_nil_iff {content : List Char}
    {table : List (Pattern × String)} :
    labelsIn content table ≠ [] ↔
      ∃ entry ∈ table, entry.1.occursIn .insensitive content = true := by
  rw [labelsIn, Ne, List.map_eq_nil_iff, List.filter_eq_nil_iff]
  simp only [not_forall, not_not, exists_prop]

theorem labelsIn_secretShapes_ne_nil_iff {content : List Char} :
    labelsIn content secretShapes ≠ [] ↔ HoldsSecret content := by
  rw [labelsIn_ne_nil_iff]
  constructor
  · rintro ⟨shape, hshape, hoccurs⟩
    obtain ⟨front, piece, back, hcontent, hfinds⟩ := occursIn_iff.mp hoccurs
    exact ⟨front, piece, back, by rw [hcontent, List.append_assoc],
      finds_secretShapes_iff.mp ⟨shape, hshape, hfinds⟩⟩
  · rintro ⟨front, secret, back, hcontent, hsecret⟩
    obtain ⟨shape, hshape, hfinds⟩ := finds_secretShapes_iff.mpr hsecret
    refine ⟨shape, hshape, occursIn_iff.mpr ⟨front, secret, back, ?_, hfinds⟩⟩
    rw [hcontent, List.append_assoc]

/-- The check has one violation where the text holds a secret, and nothing to
say elsewhere. -/
theorem embeddedSecrets_cases (c : Context) :
    (HoldsSecret c.content ∧ ∃ message,
        embeddedSecrets c = [.violation message]) ∨
      ¬HoldsSecret c.content ∧ embeddedSecrets c = [] := by
  rw [← labelsIn_secretShapes_ne_nil_iff, embeddedSecrets]
  cases labelsIn c.content secretShapes with
  | nil => exact .inr ⟨not_not_intro rfl, rfl⟩
  | cons label labels => exact .inl ⟨List.cons_ne_nil _ _, _, rfl⟩

end Checks

end Preflight
