import Preflight.Checks.Pdq
import Preflight.Proofs.LetterCase.Words
import Preflight.Proofs.Pattern.Captures
import Preflight.Proofs.Pattern.Marks

/-!
# Paths that hold on one machine only

`NamesUser` and `NamesDrive` say which literals of a text name such a path, each by
the place of the quote in front of it and without the patterns that look for them.

A match of either pattern begins with a quote and holds no other one
(`anchored_userPath`, `anchored_drivePath`), so no literal is missed because of an
earlier one, even where the quote that opens it closes another literal.  A path
goes on as long as it can (`path_of_matchAt?_userPath` and its like).

`hardcodedPaths_eq` says what is reported: the first three literals, each once.
-/

namespace Preflight

namespace Text

/-- A character that a path has between two backslashes. -/
def InComponent (c : Char) : Prop := ¬IsQuote c ∧ c ≠ '\\' ∧ c ≠ '\n'

/-- Behind the quote at offset `start`, the literal names the directory of a user:
the root of the user directories and the user, up to where the name stops.  Names
that all users share are none. -/
inductive NamesUser (text : List Char) (start : Nat) : List Char → Prop where
  | mk {front root user back : List Char} {quote : Char}
      (htext : text = front ++ quote :: (root ++ (user ++ back)))
      (hstart : front.length = start) (hquote : IsQuote quote)
      (hroot : Spells "C:\\Users\\" root) (hne : user ≠ [])
      (huser : ∀ c ∈ user, InComponent c)
      (hend : ∀ c ∈ back.head?, ¬InComponent c)
      (howned : ∀ name ∈ ["public", "default", "all users"], ¬Reads name user) :
      NamesUser text start (root ++ user)

/-- Behind the quote at offset `start`, the literal names a path on a drive from D
on, up to the next quote or the end of the line. -/
inductive NamesDrive (text : List Char) (start : Nat) : List Char → Prop where
  | mk {front path back : List Char} {quote letter drive : Char}
      (htext : text = front ++ quote :: letter :: ':' :: '\\' :: (path ++ back))
      (hstart : front.length = start) (hquote : IsQuote quote)
      (hdrive : 'D' ≤ drive ∧ drive ≤ 'Z')
      (hletter : simpleFold letter = simpleFold drive)
      (hpath : ∀ c ∈ path, ¬IsQuote c ∧ c ≠ '\n')
      (hend : ∀ c ∈ back.head?, IsQuote c ∨ c = '\n') :
      NamesDrive text start (letter :: ':' :: '\\' :: path)

end Text

open Text

namespace Checks

open Pattern

variable {front piece rest back : List Char} {groups : List Group} {found : Match}

/-! ## Users -/

theorem inComponent_iff {c : Char} :
    (CharClass.noneOf "\"'\\\n").accepts .insensitive c = true ↔ InComponent c := by
  rw [accepts_noneOf_iff (by decide), InComponent, IsQuote]
  simp [and_assoc]

/-- The parts of a path to a user, with the groups that a match keeps. -/
theorem captures_userPath_iff :
    userPath.Captures .insensitive front piece back groups ↔
      ∃ quote root user, piece = quote :: (root ++ user) ∧ IsQuote quote ∧
        Spells "C:\\Users\\" root ∧ user ≠ [] ∧ (∀ c ∈ user, InComponent c) ∧
        groups = [⟨1, (front ++ [quote]).length, (front ++ [quote] ++ (root ++ user)).length⟩,
          ⟨2, (front ++ [quote] ++ root).length,
            (front ++ [quote] ++ root ++ user).length⟩] := by
  have hsome : (Pattern.some (.noneOf "\"'\\\n")).groupless = true := rfl
  have hroot : (text "C:\\Users\\").groupless = true := by decide
  have hquote : (one (.anyOf "\"'")).groupless = true := rfl
  simp only [userPath, captures_append_group_iff hsome, captures_append_iff,
    captures_group_iff, captures_groupless_iff hroot, captures_groupless_iff hquote,
    finds_one_iff, finds_some_iff, finds_text_insensitive_iff, isQuote_iff,
    inComponent_iff]
  constructor
  · rintro ⟨_, _, _, _, rfl, rfl, ⟨rfl, quote, rfl, hquote⟩, _, rfl, root, user, _,
      rfl, rfl, ⟨rfl, hroot⟩, hne, huser⟩
    exact ⟨quote, root, user, rfl, hquote, hroot, hne, huser, rfl⟩
  · rintro ⟨quote, root, user, rfl, hquote, hroot, hne, huser, rfl⟩
    exact ⟨[quote], root ++ user, [], _, rfl, rfl, ⟨rfl, quote, rfl, hquote⟩, _, rfl,
      root, user, [], rfl, rfl, ⟨rfl, hroot⟩, hne, huser⟩

/-- A word without quotes is spelled without quotes. -/
theorem not_isQuote_of_spells {word : String} {spelled : List Char}
    (hword : simpleFold '"' ∉ word.toList.map simpleFold ∧
      simpleFold '\'' ∉ word.toList.map simpleFold)
    (h : Spells word spelled) : ∀ c ∈ spelled, ¬IsQuote c := by
  intro c hc hquote
  have hfold : simpleFold c ∈ word.toList.map simpleFold :=
    h ▸ List.mem_map_of_mem hc
  rcases hquote with rfl | rfl
  · exact hword.1 hfold
  · exact hword.2 hfold

/-- The only quote of a match is the one it begins with. -/
theorem anchored_userPath : userPath.Anchored .insensitive IsQuote := by
  intro front piece back hfinds
  obtain ⟨groups, hcaptures⟩ := finds_iff_exists_captures.mp hfinds
  obtain ⟨quote, root, user, rfl, hquote, hroot, -, huser, -⟩ :=
    captures_userPath_iff.mp hcaptures
  refine ⟨quote, root ++ user, rfl, hquote, fun c hc => ?_⟩
  rcases List.mem_append.mp hc with hc | hc
  · exact not_isQuote_of_spells (by decide) hroot c hc
  · exact (huser c hc).1

theorem exhausts_userPath :
    userPath.Exhausts .insensitive (.noneOf "\"'\\\n") :=
  ((((exhausts_run _).seq _).group 2).seq _ |>.group 1).seq _

/-- What a search takes of a path to a user. -/
theorem path_of_matchAt?_userPath
    (h : userPath.matchAt? .insensitive front.getLast? rest front.length =
      Option.some found) :
    ∃ quote root user back, rest = quote :: (root ++ (user ++ back)) ∧
      IsQuote quote ∧ Spells "C:\\Users\\" root ∧ user ≠ [] ∧
      (∀ c ∈ user, InComponent c) ∧ (∀ c ∈ back.head?, ¬InComponent c) ∧
      found.group? (front ++ rest) 1 = Option.some (root ++ user) ∧
      found.group? (front ++ rest) 2 = Option.some user := by
  obtain ⟨piece, back, rfl, hcuts, hcaptures⟩ := captures_of_matchAt? h
  obtain ⟨quote, root, user, rfl, hquote, hroot, hne, huser, hgroups⟩ :=
    captures_userPath_iff.mp hcaptures
  have hend := exhausts_userPath.not_accepts h
  rw [hcuts.after] at hend
  have hfind (index : Nat) : found.groups.find? (·.index == index) = _ :=
    congrArg (List.find? (·.index == index)) hgroups
  refine ⟨quote, root, user, back, ?_, hquote, hroot, hne, huser, fun c hc => ?_,
    ?_, ?_⟩
  · simp
  · rw [← inComponent_iff, hend c hc]
    exact Bool.false_ne_true
  · have htext : front ++ (quote :: (root ++ user) ++ back) =
        (front ++ [quote]) ++ ((root ++ user) ++ back) := by simp
    rw [htext]
    exact Match.group?_of_find? (hfind 1) rfl rfl
  · have htext : front ++ (quote :: (root ++ user) ++ back) =
        (front ++ [quote] ++ root) ++ (user ++ back) := by simp
    rw [htext]
    exact Match.group?_of_find? (hfind 2) rfl rfl

theorem length_of_spells {word : String} {spelled : List Char}
    (h : Spells word spelled) : spelled.length = word.toList.length := by
  have hlength := congrArg List.length h
  rwa [List.length_map, List.length_map] at hlength

/-- Where a path to a user stands, a search takes all of it. -/
theorem exists_matchAt?_userPath {root user : List Char} {quote : Char}
    (hquote : IsQuote quote) (hroot : Spells "C:\\Users\\" root) (hne : user ≠ [])
    (huser : ∀ c ∈ user, InComponent c) (hend : ∀ c ∈ back.head?, ¬InComponent c) :
    ∃ found, userPath.matchAt? .insensitive front.getLast?
        (quote :: (root ++ (user ++ back))) front.length = Option.some found ∧
      found.group? (front ++ quote :: (root ++ (user ++ back))) 1 =
        Option.some (root ++ user) ∧
      found.group? (front ++ quote :: (root ++ (user ++ back))) 2 =
        Option.some user := by
  have hfinds : userPath.Finds .insensitive front (quote :: (root ++ user)) back :=
    (captures_userPath_iff.mpr
      ⟨quote, root, user, rfl, hquote, hroot, hne, huser, rfl⟩).finds
  have htext : quote :: (root ++ user) ++ back = quote :: (root ++ (user ++ back)) := by
    simp
  obtain ⟨found, hmatch⟩ := Option.isSome_iff_exists.mp <|
    matchAt?_isSome_iff.mpr ⟨_, back, rfl, hfinds⟩
  rw [htext] at hmatch
  obtain ⟨quote', root', user', back', hsplit, -, hroot', -, huser', hend', hpath,
    hname⟩ := path_of_matchAt?_userPath hmatch
  have hlength : root.length = root'.length := by
    rw [length_of_spells hroot, length_of_spells hroot']
  obtain ⟨rfl, htail⟩ := List.cons.inj hsplit
  obtain ⟨rfl, hrest⟩ := List.append_inj htail hlength
  -- Both names go on as long as they can.
  have hkind {c : Char} : ¬InComponent c →
      (CharClass.noneOf "\"'\\\n").accepts .insensitive c = false := by
    rw [← inComponent_iff, Bool.not_eq_true]
    exact id
  obtain ⟨rfl, rfl⟩ := append_inj_of_kind hrest
    (fun c hc => inComponent_iff.mpr (huser c hc))
    (fun c hc => inComponent_iff.mpr (huser' c hc))
    (fun c hc => hkind (hend c hc)) (fun c hc => hkind (hend' c hc))
  exact ⟨found, hmatch, hpath, hname⟩

/-- A user that all users share is left out of the paths. -/
theorem mem_sharedUsers_iff {user : List Char} :
    user.map Char.toLower ∈ sharedUsers ↔
      ∃ name ∈ ["public", "default", "all users"], Reads name user := by
  have hnames : sharedUsers =
      ["public", "default", "all users"].map fun name => folded name.toList := by
    decide
  rw [hnames, List.mem_map]
  exact exists_congr fun name => and_congr_right fun _ => eq_comm

/-- The paths of users are the literals that name one, in the order of their
places. -/
theorem userPaths_places (content : List Char) :
    ∃ places : List (Nat × List Char),
      places.Pairwise (fun first second => first.1 < second.1) ∧
      (∀ start literal, (start, literal) ∈ places ↔ NamesUser content start literal) ∧
      userPaths content = places.map (·.2) := by
  obtain ⟨places, hsorted, hmem, hkept⟩ := anchored_userPath.places (fun found =>
    let user := (found.group? content 2).getD []
    if user.map Char.toLower ∈ sharedUsers then none else found.group? content 1)
    content
  refine ⟨places, hsorted, fun start literal => ?_, hkept⟩
  rw [hmem]
  constructor
  · rintro ⟨front, rest, found, rfl, hstart, hkeeps, hmatch⟩
    obtain ⟨quote, root, user, back, rfl, hquote, hroot, hne, huser, hend, hpath,
      hname⟩ := path_of_matchAt?_userPath hmatch
    simp only [hname, hpath, Option.getD_some, mem_sharedUsers_iff,
      Option.ite_none_left_eq_some, Option.some.injEq] at hkeeps
    obtain ⟨howned, rfl⟩ := hkeeps
    exact .mk rfl hstart hquote hroot hne huser hend
      fun name hmem hreads => howned ⟨name, hmem, hreads⟩
  · rintro ⟨rfl, hstart, hquote, hroot, hne, huser, hend, howned⟩
    obtain ⟨found, hmatch, hpath, hname⟩ :=
      exists_matchAt?_userPath hquote hroot hne huser hend
    refine ⟨_, _, found, rfl, hstart, ?_, hmatch⟩
    have hshared : ¬∃ name ∈ ["public", "default", "all users"], Reads name _ :=
      fun ⟨name, hmem, hreads⟩ => howned name hmem hreads
    simp only [hname, hpath, Option.getD_some, mem_sharedUsers_iff, if_neg hshared]

/-! ## Drives -/

theorem isDriveLetter_iff {c : Char} :
    (CharClass.mk [.range 'D' 'Z'] false).accepts .insensitive c = true ↔
      ∃ drive, ('D' ≤ drive ∧ drive ≤ 'Z') ∧ simpleFold c = simpleFold drive := by
  simp only [CharClass.accepts, Bool.bne_false, List.any_eq_true,
    mem_caseVariants_iff, List.mem_singleton, exists_eq_left, ClassItem.holds,
    Bool.and_eq_true, decide_eq_true_eq]
  exact exists_congr fun drive => by rw [and_comm, eq_comm]

/-- The parts of a path on a drive, with the group that a match keeps. -/
theorem captures_drivePath_iff :
    drivePath.Captures .insensitive front piece back groups ↔
      ∃ quote letter path, piece = quote :: letter :: ':' :: '\\' :: path ∧
        IsQuote quote ∧
        (∃ drive, ('D' ≤ drive ∧ drive ≤ 'Z') ∧
          simpleFold letter = simpleFold drive) ∧
        (∀ c ∈ path, ¬IsQuote c ∧ c ≠ '\n') ∧
        groups = [⟨1, (front ++ [quote]).length,
          (front ++ [quote] ++ (letter :: ':' :: '\\' :: path)).length⟩] := by
  have hquote : (one (.anyOf "\"'")).groupless = true := rfl
  have hpath : (one (.mk [.range 'D' 'Z'] false) ++ text ":\\" ++
    run (.noneOf "\"'\n")).groupless = true := by decide
  have hcolon {piece : List Char} : Spells ":\\" piece ↔ piece = ":\\".toList :=
    spells_iff_eq (by decide)
  simp only [drivePath, captures_append_group_iff hpath, captures_groupless_iff hquote,
    finds_append_iff, finds_one_iff, finds_run_iff, finds_text_insensitive_iff,
    hcolon, isQuote_iff, isInside_iff, isDriveLetter_iff]
  constructor
  · rintro ⟨_, _, _, rfl, rfl, ⟨rfl, quote, rfl, hquote⟩, _, path, rfl,
      ⟨_, _, rfl, ⟨letter, rfl, hletter⟩, rfl⟩, hpath⟩
    exact ⟨quote, letter, path, rfl, hquote, hletter, hpath, rfl⟩
  · rintro ⟨quote, letter, path, rfl, hquote, hletter, hpath, rfl⟩
    exact ⟨[quote], letter :: ':' :: '\\' :: path, [], rfl, rfl,
      ⟨rfl, quote, rfl, hquote⟩, [letter, ':', '\\'], path, rfl,
      ⟨[letter], [':', '\\'], rfl, ⟨letter, rfl, hletter⟩, rfl⟩, hpath⟩

theorem anchored_drivePath : drivePath.Anchored .insensitive IsQuote := by
  intro front piece back hfinds
  obtain ⟨groups, hcaptures⟩ := finds_iff_exists_captures.mp hfinds
  obtain ⟨quote, letter, path, rfl, hquote, hletter, hpath, -⟩ :=
    captures_drivePath_iff.mp hcaptures
  have hplain : ¬IsQuote letter := by
    rw [← isDriveLetter_iff] at hletter
    rintro (rfl | rfl)
    · exact absurd hletter (by decide)
    · exact absurd hletter (by decide)
  refine ⟨quote, _, rfl, hquote, ?_⟩
  rw [List.forall_mem_cons, List.forall_mem_cons, List.forall_mem_cons]
  exact ⟨hplain, by decide, by decide, fun c hc => (hpath c hc).1⟩

theorem exhausts_drivePath :
    drivePath.Exhausts .insensitive (.noneOf "\"'\n") :=
  ((exhausts_run _).seq _ |>.group 1).seq _

/-- What a search takes of a path on a drive. -/
theorem path_of_matchAt?_drivePath
    (h : drivePath.matchAt? .insensitive front.getLast? rest front.length =
      Option.some found) :
    ∃ quote letter path back,
      rest = quote :: letter :: ':' :: '\\' :: (path ++ back) ∧ IsQuote quote ∧
      (∃ drive, ('D' ≤ drive ∧ drive ≤ 'Z') ∧
        simpleFold letter = simpleFold drive) ∧
      (∀ c ∈ path, ¬IsQuote c ∧ c ≠ '\n') ∧
      (∀ c ∈ back.head?, ¬(¬IsQuote c ∧ c ≠ '\n')) ∧
      found.group? (front ++ rest) 1 =
        Option.some (letter :: ':' :: '\\' :: path) := by
  obtain ⟨piece, back, rfl, hcuts, hcaptures⟩ := captures_of_matchAt? h
  obtain ⟨quote, letter, path, rfl, hquote, hletter, hpath, hgroups⟩ :=
    captures_drivePath_iff.mp hcaptures
  have hend := exhausts_drivePath.not_accepts h
  rw [hcuts.after] at hend
  refine ⟨quote, letter, path, back, rfl, hquote, hletter, hpath, fun c hc => ?_, ?_⟩
  · rw [← isInside_iff, hend c hc]
    exact Bool.false_ne_true
  · have htext : front ++ (quote :: letter :: ':' :: '\\' :: path ++ back) =
        (front ++ [quote]) ++ ((letter :: ':' :: '\\' :: path) ++ back) := by simp
    rw [htext]
    exact Match.group?_of_groups hgroups

/-- Where a path on a drive stands, a search takes all of it. -/
theorem exists_matchAt?_drivePath {path : List Char} {quote letter : Char}
    (hquote : IsQuote quote)
    (hletter : ∃ drive, ('D' ≤ drive ∧ drive ≤ 'Z') ∧
      simpleFold letter = simpleFold drive)
    (hpath : ∀ c ∈ path, ¬IsQuote c ∧ c ≠ '\n')
    (hend : ∀ c ∈ back.head?, IsQuote c ∨ c = '\n') :
    ∃ found, drivePath.matchAt? .insensitive front.getLast?
        (quote :: letter :: ':' :: '\\' :: (path ++ back)) front.length =
          Option.some found ∧
      found.group? (front ++ quote :: letter :: ':' :: '\\' :: (path ++ back)) 1 =
        Option.some (letter :: ':' :: '\\' :: path) := by
  have hfinds : drivePath.Finds .insensitive front
      (quote :: letter :: ':' :: '\\' :: path) back :=
    (captures_drivePath_iff.mpr
      ⟨quote, letter, path, rfl, hquote, hletter, hpath, rfl⟩).finds
  obtain ⟨found, hmatch⟩ := Option.isSome_iff_exists.mp <|
    matchAt?_isSome_iff.mpr ⟨_, back, rfl, hfinds⟩
  obtain ⟨quote', letter', path', back', hsplit, -, -, hpath', hend', hgroup⟩ :=
    path_of_matchAt?_drivePath hmatch
  simp only [List.cons_append, List.cons.injEq, true_and] at hsplit
  obtain ⟨rfl, rfl, hrest⟩ := hsplit
  -- Both paths go on as long as they can.
  have hkind {c : Char} : ¬(¬IsQuote c ∧ c ≠ '\n') →
      (CharClass.noneOf "\"'\n").accepts .insensitive c = false := by
    rw [← isInside_iff, Bool.not_eq_true]
    exact id
  obtain ⟨rfl, rfl⟩ := append_inj_of_kind hrest
    (fun c hc => isInside_iff.mpr (hpath c hc))
    (fun c hc => isInside_iff.mpr (hpath' c hc))
    (fun c hc => hkind fun hinside => (hend c hc).elim hinside.1 hinside.2)
    (fun c hc => hkind (hend' c hc))
  exact ⟨found, hmatch, hgroup⟩

/-- The paths on drives are the literals that name one, in the order of their
places. -/
theorem drivePaths_places (content : List Char) :
    ∃ places : List (Nat × List Char),
      places.Pairwise (fun first second => first.1 < second.1) ∧
      (∀ start literal, (start, literal) ∈ places ↔
        NamesDrive content start literal) ∧
      drivePaths content = places.map (·.2) := by
  obtain ⟨places, hsorted, hmem, hkept⟩ :=
    anchored_drivePath.places (fun found => found.group? content 1) content
  refine ⟨places, hsorted, fun start literal => ?_, hkept⟩
  rw [hmem]
  constructor
  · rintro ⟨front, rest, found, rfl, hstart, hkeeps, hmatch⟩
    obtain ⟨quote, letter, path, back, rfl, hquote, ⟨drive, hdrive, hletter⟩, hpath,
      hend, hgroup⟩ := path_of_matchAt?_drivePath hmatch
    obtain rfl := Option.some.inj (hgroup.symm.trans hkeeps)
    refine .mk rfl hstart hquote hdrive hletter hpath fun c hc => ?_
    have := hend c hc
    tauto
  · rintro ⟨rfl, hstart, hquote, hdrive, hletter, hpath, hend⟩
    obtain ⟨found, hmatch, hgroup⟩ :=
      exists_matchAt?_drivePath hquote ⟨_, hdrive, hletter⟩ hpath hend
    exact ⟨_, _, found, rfl, hstart, hgroup, hmatch⟩

-- The quote behind one literal opens the next one.
example : drivePaths "'D:\\a'E:\\b'".toList = ["D:\\a".toList, "E:\\b".toList] := by
  decide +kernel

/-! ## What is reported -/

/-- Of each member of a list, the first occurrence is kept, unless it has been
seen. -/
theorem firstOccurrences_eq {α : Type} [DecidableEq α] [BEq α] [LawfulBEq α]
    (seen as : List α) :
    firstOccurrences seen as = (as.filter fun a => a ∉ seen).eraseDups := by
  induction as generalizing seen with
  | nil => rfl
  | cons a as ih =>
    rw [firstOccurrences]
    by_cases ha : a ∈ seen
    · rw [if_pos ha, ih, List.filter_cons_of_neg (by simpa using ha)]
    · rw [if_neg ha, ih, List.filter_cons_of_pos (by simpa using ha),
        List.eraseDups_cons, List.filter_filter]
      congr 2
      refine List.filter_congr fun b _ => ?_
      rw [Bool.eq_iff_iff]
      simp [not_or]

/-- Paths are reported exactly if some literal of the text names the directory of a
user or a path on another drive.  The literals are told in the order of their places,
those of users first.  Each is told once, and at most three of them. -/
theorem hardcodedPaths_eq (c : Context) :
    ∃ users drives : List (Nat × List Char),
      users.Pairwise (fun first second => first.1 < second.1) ∧
      (∀ start literal, (start, literal) ∈ users ↔
        NamesUser c.content start literal) ∧
      drives.Pairwise (fun first second => first.1 < second.1) ∧
      (∀ start literal, (start, literal) ∈ drives ↔
        NamesDrive c.content start literal) ∧
      ((∃ message, .violation message ∈ hardcodedPaths c) ↔
        ∃ start literal, NamesUser c.content start literal ∨
          NamesDrive c.content start literal) ∧
      hardcodedPaths c =
        if users ++ drives = [] then []
        else
          let shown := ((users ++ drives).map (·.2)).eraseDups.take 3
          let listed := String.intercalate ", " (shown.map String.ofList)
          [.violation
            (s!"Hardcoded paths found: {listed}. " ++
              "Consider using environment variables or parameters.")] := by
  obtain ⟨users, husers, husersMem, husersEq⟩ := userPaths_places c.content
  obtain ⟨drives, hdrives, hdrivesMem, hdrivesEq⟩ := drivePaths_places c.content
  have hfound : firstOccurrences [] (userPaths c.content ++ drivePaths c.content) =
      ((users ++ drives).map (·.2)).eraseDups := by
    rw [firstOccurrences_eq, husersEq, hdrivesEq, List.map_append]
    simp
  have hreport : hardcodedPaths c =
      if users ++ drives = [] then []
      else
        let shown := ((users ++ drives).map (·.2)).eraseDups.take 3
        let listed := String.intercalate ", " (shown.map String.ofList)
        [.violation
          (s!"Hardcoded paths found: {listed}. " ++
            "Consider using environment variables or parameters.")] := by
    rw [hardcodedPaths, hfound]
    cases users ++ drives with
    | nil => rfl
    | cons first more =>
      rw [List.map_cons, List.eraseDups_cons, if_neg (List.cons_ne_nil _ _)]
  refine ⟨users, drives, husers, husersMem, hdrives, hdrivesMem, ?_, hreport⟩
  have hsome : users ++ drives ≠ [] ↔ ∃ start literal,
      NamesUser c.content start literal ∨ NamesDrive c.content start literal := by
    simp only [← husersMem, ← hdrivesMem, ← List.mem_append]
    constructor
    · intro hne
      obtain ⟨⟨start, literal⟩, hmem⟩ := List.exists_mem_of_ne_nil _ hne
      exact ⟨start, literal, hmem⟩
    · rintro ⟨start, literal, hmem⟩
      exact List.ne_nil_of_mem hmem
  rw [hreport, ← hsome]
  by_cases hnone : users ++ drives = []
  · rw [if_pos hnone]
    exact iff_of_false nofun (not_not_intro hnone)
  · rw [if_neg hnone]
    exact iff_of_true ⟨_, List.mem_singleton_self _⟩ hnone

end Checks

end Preflight
