import Preflight.Proofs.LetterCase.Checks
import Preflight.Proofs.LineEnds.Checks
import Preflight.Proofs.Lines
import Preflight.Proofs.QuotedPaths

/-!
# Directories that all users share

A literal that names the directory of a user is reported unless all users share the
name.  The name goes up to a backslash, a quote or the end of the line.

* `exists_namesUser_iff`: the name is what stands between the root of the user
  directories and the first character that no name has (`NamesHome`).
* `namesHome_crlf_iff`: with other line ends, the same names stand in a text, and those
  at the end of a line have a CR at their end.

A CR counts as part of the name, even where the line ends with CR LF.  So a shared name
at the end of such a line is reported, and so is a root with no name behind it:
`hardcodedPaths_of_shared` says that this is all that other line ends change.
-/

namespace Preflight

namespace Text

variable {text front piece back name : List Char}

/-! ## Names below the root -/

/-- Behind a quote and the root of the user directories stands the name, and then
something that no name has in it. -/
inductive NamesHome (text name back : List Char) : Prop where
  | mk {front root : List Char} {quote : Char}
      (htext : text = front ++ quote :: (root ++ (name ++ back))) (hquote : IsQuote quote)
      (hroot : Spells "C:\\Users\\" root) (hname : ∀ c ∈ name, InComponent c)
      (hend : ∀ c ∈ back.head?, ¬InComponent c)

/-- All users share the directory. -/
def SharedName (name : List Char) : Prop :=
  ∃ shared ∈ ["public", "default", "all users"], Reads shared name

/-- Behind a quote stands the root of a drive from D on. -/
inductive NamesRoot (text : List Char) : Prop where
  | mk {front back : List Char} {quote letter drive : Char}
      (htext : text = front ++ quote :: letter :: ':' :: '\\' :: back)
      (hquote : IsQuote quote) (hdrive : 'D' ≤ drive ∧ drive ≤ 'Z')
      (hletter : simpleFold letter = simpleFold drive)

/-- A name, without the CR of a line end behind it. -/
def ownName (name back : List Char) : List Char :=
  if name.getLast? = some '\r' ∧ back.head? = some '\n' then name.dropLast else name

/-- The names that stand in the text are shared, or are left empty. -/
def OnlyShared (text : List Char) : Prop :=
  ∀ name back, NamesHome text name back →
    ownName name back = [] ∨ SharedName (ownName name back)

/-- A user is named by a name that is neither empty nor shared. -/
theorem exists_namesUser_iff :
    (∃ start literal, NamesUser text start literal) ↔
      ∃ name back, NamesHome text name back ∧ name ≠ [] ∧ ¬SharedName name := by
  constructor
  · rintro ⟨_, _, ⟨htext, _, hquote, hroot, hne, huser, hend, howned⟩⟩
    exact ⟨_, _, .mk htext hquote hroot huser hend, hne,
      fun ⟨shared, hmem, hreads⟩ => howned shared hmem hreads⟩
  · rintro ⟨name, back, ⟨htext, hquote, hroot, hname, hend⟩, hne, howned⟩
    exact ⟨_, _, .mk htext rfl hquote hroot hne hname hend
      fun shared hmem hreads => howned ⟨shared, hmem, hreads⟩⟩

/-- The path on a drive goes on as long as it can. -/
theorem exists_namesDrive_iff :
    (∃ start literal, NamesDrive text start literal) ↔ NamesRoot text := by
  constructor
  · rintro ⟨_, _, ⟨htext, _, hquote, hdrive, hletter, _, _⟩⟩
    exact .mk htext hquote hdrive hletter
  · rintro @⟨front, back, quote, letter, drive, htext, hquote, hdrive, hletter⟩
    obtain ⟨path, hback, hpath, hend⟩ :=
      exists_run (fun c => decide (¬IsQuote c ∧ c ≠ '\n')) back
    rw [hback] at htext
    refine ⟨_, _, .mk htext rfl hquote hdrive hletter (fun c hc => ?_) fun c hc => ?_⟩
    · exact of_decide_eq_true (hpath c hc)
    · have hstop := of_decide_eq_false (hend c hc)
      tauto

/-! ## Other line ends -/

/-- A piece without line ends stands in the text with other line ends where it stands
in the text. -/
theorem crlf_eq_append (hpiece : OnLine piece) (hne : piece ≠ [])
    (h : crlf text = front ++ (piece ++ back)) :
    ∃ left right, text = left ++ (piece ++ right) ∧ back = crlf right := by
  rcases cut_crlf h with ⟨left, rest, rfl, -, hrest⟩ | ⟨left, rest, -, -, hrest⟩
  · rcases cut_crlf hrest.symm with ⟨middle, right, rfl, hmiddle, rfl⟩ |
      ⟨middle, right, -, hmiddle, -⟩
    · obtain rfl := (crlf_eq_iff hpiece.2).mp hmiddle.symm
      exact ⟨left, right, rfl, rfl⟩
    · exact absurd (hmiddle ▸ List.mem_append_right _ List.mem_cons_self) hpiece.1
  · obtain ⟨c, tail, rfl⟩ := List.exists_cons_of_ne_nil hne
    obtain ⟨rfl, -⟩ := List.cons.inj hrest
    exact absurd List.mem_cons_self hpiece.2

/-- What the root and a quote are written with does not stand at a line end. -/
theorem onLine_root {root : List Char} {quote : Char} (hquote : IsQuote quote)
    (hroot : Spells "C:\\Users\\" root) : OnLine (quote :: root) := by
  have hplain {c : Char} (hc : simpleFold c ∉ "C:\\Users\\".toList.map simpleFold)
      (hne : ¬IsQuote c) : c ∉ quote :: root := by
    rw [List.mem_cons, not_or]
    refine ⟨fun heq => hne (heq ▸ hquote), fun hmem => hc ?_⟩
    rw [← hroot]
    exact List.mem_map_of_mem hmem
  exact ⟨hplain (by decide) (by decide), hplain (by decide) (by decide)⟩

theorem head?_crlf (h : text.head? ≠ some '\n') : (crlf text).head? = text.head? := by
  cases text with
  | nil => rfl
  | cons c text =>
    rw [crlf_cons fun hc => h (congrArg some hc)]
    rfl

theorem inComponent_cr : InComponent '\r' := by
  rw [InComponent]
  decide

/-- Names at the end of a line have a CR at their end in the text with other line
ends.  The other names are as they are. -/
theorem namesHome_crlf_iff {name' back' : List Char} :
    NamesHome (crlf text) name' back' ↔
      (∃ back, NamesHome text name' back ∧ back.head? ≠ some '\n' ∧ back' = crlf back) ∨
      ∃ name back, NamesHome text name ('\n' :: back) ∧ name' = name ++ ['\r'] ∧
        back' = '\n' :: crlf back := by
  constructor
  · rintro @⟨front, root, quote, htext, hquote, hroot, hname, hend⟩
    rw [← List.cons_append] at htext
    obtain ⟨left, right, rfl, hright⟩ :=
      crlf_eq_append (onLine_root hquote hroot) (List.cons_ne_nil _ _) htext
    rcases cut_crlf hright.symm with ⟨name, back, rfl, hcut, rfl⟩ |
      ⟨name, back, rfl, rfl, rfl⟩
    · have hline : '\n' ∉ name' := fun hmem => (hname _ hmem).2.2 rfl
      obtain rfl := (crlf_eq_iff hline).mp hcut.symm
      -- In front of a line end the name would go on with the CR.
      have hback : back.head? ≠ some '\n' := by
        intro hhead
        obtain ⟨more, rfl⟩ := List.head?_eq_some_iff.mp hhead
        exact hend '\r' rfl inComponent_cr
      refine .inl ⟨back, .mk rfl hquote hroot hname fun c hc => hend c ?_, hback, rfl⟩
      rwa [head?_crlf hback]
    · obtain ⟨hname, -⟩ := List.forall_mem_append.mp hname
      have hline : '\n' ∉ name := by
        rw [← mem_crlf_iff (by decide)]
        exact fun hmem => (hname _ hmem).2.2 rfl
      rw [crlf_eq_self hline] at hname ⊢
      exact .inr ⟨name, back, .mk rfl hquote hroot hname hend, rfl, rfl⟩
  · have htext {front root name back : List Char} {quote : Char} (hquote : IsQuote quote)
        (hroot : Spells "C:\\Users\\" root) (hname : ∀ c ∈ name, InComponent c) :
        crlf (front ++ quote :: (root ++ (name ++ back))) =
          crlf front ++ quote :: (root ++ (name ++ crlf back)) := by
      have hline : '\n' ∉ quote :: root := (onLine_root hquote hroot).2
      have hline' : '\n' ∉ name := fun hmem => (hname _ hmem).2.2 rfl
      rw [← List.cons_append, ← List.cons_append, crlf_append, crlf_append, crlf_append,
        crlf_eq_self hline, crlf_eq_self hline']
    rintro (⟨back, ⟨rfl, hquote, hroot, hname, hend⟩, hback, rfl⟩ |
      ⟨name, back, @⟨front, root, quote, rfl, hquote, hroot, hname, hend⟩, rfl, rfl⟩)
    · refine .mk (htext hquote hroot hname) hquote hroot hname ?_
      rwa [head?_crlf hback]
    · have hcrlf : crlf (front ++ quote :: (root ++ (name ++ '\n' :: back))) =
          crlf front ++ quote :: (root ++ (name ++ ['\r'] ++ '\n' :: crlf back)) := by
        rw [htext hquote hroot hname, List.append_assoc name]
        rfl
      exact .mk hcrlf hquote hroot (List.forall_mem_append.mpr
        ⟨hname, List.forall_mem_singleton.mpr inComponent_cr⟩) hend

/-- A drive is named with other line ends exactly if it is named. -/
theorem namesRoot_crlf_iff : NamesRoot (crlf text) ↔ NamesRoot text := by
  have hline {quote letter drive : Char} (hquote : IsQuote quote)
      (hdrive : 'D' ≤ drive ∧ drive ≤ 'Z')
      (hletter : simpleFold letter = simpleFold drive) :
      OnLine [quote, letter, ':', '\\'] := by
    have hclass := Checks.isDriveLetter_iff.mpr ⟨drive, hdrive, hletter⟩
    have hplain : letter ≠ '\r' ∧ letter ≠ '\n' := by
      constructor <;> rintro rfl <;> exact absurd hclass (by decide)
    rcases hquote with rfl | rfl
    · simp [OnLine, hplain.1.symm, hplain.2.symm]
    · simp [OnLine, hplain.1.symm, hplain.2.symm]
  constructor
  · rintro @⟨front, back, quote, letter, drive, htext, hquote, hdrive, hletter⟩
    have htext : crlf text = front ++ ([quote, letter, ':', '\\'] ++ back) := htext
    obtain ⟨left, right, rfl, -⟩ :=
      crlf_eq_append (hline hquote hdrive hletter) (List.cons_ne_nil _ _) htext
    exact .mk rfl hquote hdrive hletter
  · rintro @⟨front, back, quote, letter, drive, rfl, hquote, hdrive, hletter⟩
    have hcrlf : crlf (front ++ ([quote, letter, ':', '\\'] ++ back)) =
        crlf front ++ ([quote, letter, ':', '\\'] ++ crlf back) := by
      rw [crlf_append, crlf_append, crlf_eq_self (hline hquote hdrive hletter).2]
    exact .mk hcrlf hquote hdrive hletter

/-! ## Shared names -/

/-- A CR is no letter of a shared name. -/
theorem not_sharedName_append_cr (name : List Char) : ¬SharedName (name ++ ['\r']) := by
  have hletters : ∀ shared ∈ ["public", "default", "all users"],
      '\r' ∉ folded shared.toList := by
    decide
  rintro ⟨shared, hmem, hreads⟩
  refine hletters shared hmem ?_
  rw [← hreads, folded_append]
  exact List.mem_append_right _ (by decide)

theorem ownName_append_cr (name back : List Char) :
    ownName (name ++ ['\r']) ('\n' :: back) = name := by
  rw [ownName, if_pos ⟨List.getLast?_concat, rfl⟩, List.dropLast_concat]

/-- A name that has no CR at its end, or that does not stand at the end of a line. -/
theorem ownName_eq_self (h : ∀ stem more, name = stem ++ ['\r'] → back ≠ '\n' :: more) :
    ownName name back = name := by
  refine if_neg ?_
  rintro ⟨hlast, hhead⟩
  obtain ⟨stem, hstem⟩ := List.getLast?_eq_some_iff.mp hlast
  obtain ⟨more, hmore⟩ := List.head?_eq_some_iff.mp hhead
  exact h stem more hstem hmore

theorem NamesHome.subset (h : NamesHome text name back) : name ⊆ text := by
  rcases h with ⟨rfl, -, -, -, -⟩
  intro c hc
  simp [hc]

theorem NamesHome.ownName_eq (h : NamesHome text name back) (htext : '\r' ∉ text) :
    ownName name back = name := by
  refine ownName_eq_self ?_
  rintro stem - rfl
  exact absurd (h.subset (List.mem_append_right _ (List.mem_singleton_self _))) htext

/-- Whether the names are shared does not depend on the line ends. -/
theorem OnlyShared.crlf (h : OnlyShared text) (htext : '\r' ∉ text) :
    OnlyShared (crlf text) := by
  intro name' back' hhome'
  rcases namesHome_crlf_iff.mp hhome' with ⟨back, hhome, hback, rfl⟩ |
    ⟨name, back, hhome, rfl, rfl⟩
  · have hown : ownName name' (Text.crlf back) = ownName name' back := by
      rw [ownName, ownName, head?_crlf hback]
    rw [hown]
    exact h name' back hhome
  · rw [ownName_append_cr, ← hhome.ownName_eq htext]
    exact h name _ hhome

end Text

open Text

namespace Checks

variable (c : Context)

/-- What is reported is a violation. -/
theorem exists_violation_hardcodedPaths_iff :
    (∃ message, .violation message ∈ hardcodedPaths c) ↔ hardcodedPaths c ≠ [] := by
  rw [hardcodedPaths]
  split
  · refine iff_of_false ?_ (not_not_intro rfl)
    rintro ⟨message, hmem⟩
    cases hmem
  · exact iff_of_true ⟨_, List.mem_singleton_self _⟩ (List.cons_ne_nil _ _)

/-- Nothing is reported exactly if all names are empty or shared, and no drive is
named. -/
theorem hardcodedPaths_eq_nil_iff :
    hardcodedPaths c = [] ↔
      (∀ name back, NamesHome c.content name back → name = [] ∨ SharedName name) ∧
      ¬NamesRoot c.content := by
  have hnone : hardcodedPaths c = [] ↔
      userPaths c.content = [] ∧ drivePaths c.content = [] := by
    rw [← List.append_eq_nil_iff, ← firstOccurrences_eq_nil_iff (_ ++ _), hardcodedPaths]
    cases firstOccurrences [] (userPaths c.content ++ drivePaths c.content) <;> simp
  obtain ⟨users, -, husers, husersEq⟩ := userPaths_places c.content
  obtain ⟨drives, -, hdrives, hdrivesEq⟩ := drivePaths_places c.content
  have hempty {places : List (Nat × List Char)} {P : Nat → List Char → Prop}
      (hplaces : ∀ start literal, (start, literal) ∈ places ↔ P start literal) :
      places.map (·.2) = [] ↔ ¬∃ start literal, P start literal := by
    rw [List.map_eq_nil_iff, List.eq_nil_iff_forall_not_mem, Prod.forall]
    simp only [hplaces, not_exists]
  rw [hnone, husersEq, hdrivesEq, hempty husers, hempty hdrives, exists_namesUser_iff,
    exists_namesDrive_iff]
  refine and_congr_left fun _ => ?_
  simp only [not_exists, not_and, not_not, or_iff_not_imp_left, ne_eq]

/-- If all names in a text are shared, those are reported that a CR LF stands behind. -/
theorem hardcodedPaths_eq_nil_iff_of_onlyShared (hshared : OnlyShared c.content)
    (hroot : ¬NamesRoot c.content) :
    hardcodedPaths c = [] ↔
      ¬∃ name back, NamesHome c.content (name ++ ['\r']) ('\n' :: back) := by
  rw [hardcodedPaths_eq_nil_iff, and_iff_left hroot]
  constructor
  · rintro h ⟨name, back, hhome⟩
    rcases h _ _ hhome with hnil | hname
    · exact List.append_ne_nil_of_right_ne_nil name (List.cons_ne_nil _ _) hnil
    · exact not_sharedName_append_cr name hname
  · intro h name back hhome
    have hown := hshared name back hhome
    rwa [ownName_eq_self] at hown
    rintro stem more rfl rfl
    exact h ⟨stem, more, hhome⟩

/-- Other line ends make a difference for names that would not be reported and that
stand at the end of a line. -/
theorem hardcodedPaths_crlf_eq_nil_iff :
    hardcodedPaths c.crlf = [] ↔
      hardcodedPaths c = [] ∧ ¬∃ name back, NamesHome c.content name ('\n' :: back) := by
  rw [hardcodedPaths_eq_nil_iff, hardcodedPaths_eq_nil_iff, Context.crlf_content,
    namesRoot_crlf_iff, and_right_comm]
  refine and_congr_left fun _ => ?_
  constructor
  · intro h
    have hend : ¬∃ name back, NamesHome c.content name ('\n' :: back) := by
      rintro ⟨name, back, hhome⟩
      rcases h _ _ (namesHome_crlf_iff.mpr (.inr ⟨name, back, hhome, rfl, rfl⟩)) with
        hnil | hname
      · exact List.append_ne_nil_of_right_ne_nil name (List.cons_ne_nil _ _) hnil
      · exact not_sharedName_append_cr name hname
    refine ⟨fun name back hhome => ?_, hend⟩
    refine h name (crlf back) (namesHome_crlf_iff.mpr (.inl ⟨back, hhome, ?_, rfl⟩))
    intro hhead
    obtain ⟨more, rfl⟩ := List.head?_eq_some_iff.mp hhead
    exact hend ⟨name, more, hhome⟩
  · rintro ⟨h, hend⟩ name back hhome
    rcases namesHome_crlf_iff.mp hhome with ⟨back, hhome, -, -⟩ | ⟨name, back, hhome, -, -⟩
    · exact h name back hhome
    · exact absurd ⟨name, back, hhome⟩ hend

theorem onlyShared_of_eq_nil {c : Context} (hcontent : '\r' ∉ c.content)
    (h : hardcodedPaths c = []) : OnlyShared c.content ∧ ¬NamesRoot c.content := by
  obtain ⟨hnames, hroot⟩ := (hardcodedPaths_eq_nil_iff c).mp h
  refine ⟨fun name back hhome => ?_, hroot⟩
  rw [hhome.ownName_eq hcontent]
  exact hnames name back hhome

/-- A text with nothing but shared names has a violation exactly if one of them, or a
root without a name, stands at the end of a line that ends with CR LF.  So a text and
the text with CR LF line ends both have a violation or both have none, unless there is
none in the text and such a name or root stands at the end of a line. -/
theorem hardcodedPaths_of_shared :
    (OnlyShared c.content → ¬NamesRoot c.content →
      (hardcodedPaths c ≠ [] ↔
        ∃ name back, NamesHome c.content (name ++ ['\r']) ('\n' :: back) ∧
          (name = [] ∨ SharedName name))) ∧
    (((∃ message, .violation message ∈ hardcodedPaths c.crlf) ↔
        ∃ message, .violation message ∈ hardcodedPaths c) ↔
      ¬(hardcodedPaths c = [] ∧
        ∃ name back, NamesHome c.content name ('\n' :: back))) := by
  constructor
  · intro hshared hroot
    rw [ne_eq, hardcodedPaths_eq_nil_iff_of_onlyShared c hshared hroot, not_not]
    refine exists_congr fun name => exists_congr fun back => ⟨fun h => ⟨h, ?_⟩, And.left⟩
    have hown := hshared _ _ h
    rwa [ownName_append_cr] at hown
  · rw [exists_violation_hardcodedPaths_iff, exists_violation_hardcodedPaths_iff, ne_eq,
      ne_eq, hardcodedPaths_crlf_eq_nil_iff, not_iff_not, and_iff_left_iff_imp, not_and]

/-- A public directory in quotes on one line. -/
theorem hardcodedPaths_of_public :
    let c : Context := .resolve ⟨"t.ps1", .pdq, ⟨some .deploy, false, false⟩⟩ .default []
      "$p = 'C:\\Users\\Public'".toList
    OnlyShared c.content ∧ ¬NamesRoot c.content ∧ hardcodedPaths c = [] := by
  intro c
  have hnone : hardcodedPaths c = [] := by decide +kernel
  obtain ⟨hshared, hroot⟩ := onlyShared_of_eq_nil (by decide) hnone
  refine ⟨hshared, hroot, not_not.mp fun h => ?_⟩
  obtain ⟨name, back, hhome, -⟩ := ((hardcodedPaths_of_shared c).1 hshared hroot).mp h
  have hcr : '\r' ∈ c.content :=
    hhome.subset (List.mem_append_right _ (List.mem_singleton_self _))
  revert hcr
  decide

/-- A public directory at the end of a line is reported once the line ends with CR LF. -/
theorem onlyShared_and_reported :
    let c : Context := .resolve ⟨"t.ps1", .pdq, ⟨some .deploy, false, false⟩⟩ .default []
      "$p = 'C:\\Users\\Public\n'".toList
    '\r' ∉ c.content ∧ hardcodedPaths c = [] ∧ OnlyShared c.crlf.content ∧
      ¬NamesRoot c.crlf.content ∧ ∃ message, .violation message ∈ hardcodedPaths c.crlf := by
  intro c
  have hcontent : '\r' ∉ c.content := by decide
  have hnone : hardcodedPaths c = [] := by decide +kernel
  obtain ⟨hshared, hroot⟩ := onlyShared_of_eq_nil hcontent hnone
  refine ⟨hcontent, hnone, hshared.crlf hcontent, mt namesRoot_crlf_iff.mp hroot, ?_⟩
  rw [exists_violation_hardcodedPaths_iff]
  decide +kernel

end Checks

end Preflight
