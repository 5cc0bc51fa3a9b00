import Preflight.Proofs.Json.Lexemes

/-!
# Documents that are read back

The two ways of writing a value give texts with the same tokens, `Value.tokens`.
From these the reader builds `Value.canonical`, the value with the fields of each
object in the order of their names.

This holds for values whose numbers are whole and have 64 bits, and that are not
nested too deep (`Value.Regular`).

* `Lexes.compact`, `Lexes.pretty`: the texts hold the tokens.
* `build_value`: the tokens give the value.
* `read_compact`, `read_pretty`: the texts give the value.
* `Fields.ofList_perm`: fields of distinct names are only permuted on the way.
-/

namespace Preflight.Json

namespace Value

mutual

/-- The numbers are whole and have 64 bits, the names in an object are distinct,
and arrays and objects are nested at most `room` deep. -/
def Regular (room : Nat) : Value → Prop
  | null | bool _ | string _ => True
  | number (.int n) => Number.IsWord n
  | number (.double _) => False
  | array items => 0 < room ∧ RegularItems (room - 1) items
  | object fields =>
    0 < room ∧ (fields.map Prod.fst).Nodup ∧ RegularFields (room - 1) fields

/-- Each item is regular. -/
def RegularItems (room : Nat) : List Value → Prop
  | [] => True
  | v :: vs => Regular room v ∧ RegularItems room vs

/-- The value of each field is regular. -/
def RegularFields (room : Nat) : List (String × Value) → Prop
  | [] => True
  | (_, v) :: fields => Regular room v ∧ RegularFields room fields

end

mutual

/-- The value as it is read: with the fields of each object in order. -/
def canonical : Value → Value
  | null => null
  | bool b => bool b
  | number n => number n
  | string s => string s
  | array items => array (canonicalItems items)
  | object fields => object (Fields.ofList (canonicalFields fields))

/-- The items as they are read. -/
def canonicalItems : List Value → List Value
  | [] => []
  | v :: vs => canonical v :: canonicalItems vs

/-- The fields as they are read, before they are put in order. -/
def canonicalFields : List (String × Value) → List (String × Value)
  | [] => []
  | (name, v) :: fields => (name, canonical v) :: canonicalFields fields

end

mutual

/-- The tokens of a value. -/
def tokens : Value → List Token
  | array items => .openArray :: (itemTokens items ++ [.closeArray])
  | object fields => .openObject :: (fieldTokens fields ++ [.closeObject])
  | v => [.atom v]

/-- The tokens of items with commas between them. -/
def itemTokens : List Value → List Token
  | [] => []
  | [v] => tokens v
  | v :: vs => tokens v ++ .comma :: itemTokens vs

/-- The tokens of fields with commas between them. -/
def fieldTokens : List (String × Value) → List Token
  | [] => []
  | [(name, v)] => .atom (.string name) :: .colon :: tokens v
  | (name, v) :: fields =>
    .atom (.string name) :: .colon :: (tokens v ++ .comma :: fieldTokens fields)

end

section

variable {fs : List (String × Value)}

theorem regularFields_iff {room : Nat} :
    RegularFields room fs ↔ ∀ f ∈ fs, f.2.Regular room := by
  induction fs with
  | nil => exact iff_of_true trivial (List.forall_mem_nil _)
  | cons f fs ih =>
    rw [List.forall_mem_cons, ← ih]
    rfl

theorem canonicalFields_eq_map :
    canonicalFields fs = fs.map fun f => (f.1, f.2.canonical) := by
  induction fs with
  | nil => rfl
  | cons f fs ih =>
    rw [canonicalFields, ih]
    rfl

theorem map_fst_canonicalFields :
    (canonicalFields fs).map Prod.fst = fs.map Prod.fst := by
  rw [canonicalFields_eq_map, List.map_map]
  rfl

end

end Value

/-! ## Fields in order -/

namespace Fields

variable {name : String} {fields : List (String × Value)}

theorem insert_perm (value : Value) (hname : name ∉ fields.map Prod.fst) :
    (insert name value fields).Perm ((name, value) :: fields) := by
  induction fields with
  | nil => exact .refl _
  | cons f fields ih =>
    rw [List.map_cons, List.mem_cons, not_or] at hname
    unfold insert
    rw [if_neg hname.1]
    split
    · exact .refl _
    · exact ((ih hname.2).cons f).trans (.swap _ _ _)

theorem foldl_insert_perm (sorted : List (String × Value))
    (hnames : ((fields ++ sorted).map Prod.fst).Nodup) :
    (fields.foldl (fun sorted f => insert f.1 f.2 sorted) sorted).Perm
      (fields ++ sorted) := by
  induction fields generalizing sorted with
  | nil => exact .refl _
  | cons f fields ih =>
    have hf : f.1 ∉ sorted.map Prod.fst := by
      rw [List.cons_append, List.map_cons, List.nodup_cons, List.map_append,
        List.mem_append, not_or] at hnames
      exact hnames.1.2
    have hstep := (insert_perm f.2 hf).append_left fields
    have hall := hstep.trans List.perm_middle
    have hrest := ih _ ((hall.map Prod.fst).nodup_iff.mpr hnames)
    exact hrest.trans hall

/-- Fields of distinct names are put in order. -/
theorem ofList_perm (hnames : (fields.map Prod.fst).Nodup) :
    (ofList fields).Perm fields := by
  rw [← List.append_nil fields] at hnames
  have hperm := foldl_insert_perm [] hnames
  rwa [List.append_nil] at hperm

end Fields

/-! ## From texts to tokens -/

theorem Value.toList_newLine (level : Nat) :
    (newLine level).toList = '\n' :: List.replicate (2 * level) ' ' := by
  unfold newLine
  simp

theorem Value.closes_newLine {rest : List Char} (level : Nat) :
    Closes ((newLine level).toList ++ rest) := by
  rw [toList_newLine]
  exact .newLine _

namespace Lexes

theorem quote {ts : List Token} {rest : List Char} (s : String)
    (h : Lexes ts rest) :
    Lexes (.atom (.string s) :: ts) ((Json.quote s).toList ++ rest) := by
  have hlexeme : (Json.quote s).toList ≠ [] := by
    unfold Json.quote
    simp
  exact .token _ (readToken_quote s rest) hlexeme h

theorem number {room : Nat} {ts : List Token} {rest : List Char} {n : Number}
    (hn : (Value.number n).Regular room) (hrest : Closes rest)
    (h : Lexes ts rest) :
    Lexes (.atom (.number n) :: ts) (n.toText.toList ++ rest) := by
  cases n with
  | double bits => exact absurd hn not_false
  | int n =>
    have ⟨c, cs, htext, _⟩ := Number.toText_eq_cons n
    have hlexeme : (Number.int n).toText.toList ≠ [] :=
      htext ▸ List.cons_ne_nil c cs
    exact .token _ (readToken_int hn hrest) hlexeme h

mutual

/-- A value without blanks holds its tokens, whatever text closes it. -/
theorem compact {room : Nat} {ts : List Token} {rest : List Char} (v : Value)
    (hv : v.Regular room) (hrest : Closes rest) (h : Lexes ts rest) :
    Lexes (v.tokens ++ ts) (v.compact.toList ++ rest) := by
  cases v with
  | null => exact .token ['n', 'u', 'l', 'l'] rfl nofun h
  | bool b =>
    cases b with
    | true => exact .token ['t', 'r', 'u', 'e'] rfl nofun h
    | false => exact .token ['f', 'a', 'l', 's', 'e'] rfl nofun h
  | number n => exact .number hv hrest h
  | string s => exact .quote s h
  | array items =>
    have hclose := Lexes.char ']' rfl h
    have hitems := compactItems items hv.2 (.bracket rest) hclose
    simpa [Value.tokens, Value.compact] using Lexes.char '[' rfl hitems
  | object fields =>
    have hclose := Lexes.char '}' rfl h
    have hfields := compactFields fields hv.2.2 (.brace rest) hclose
    simpa [Value.tokens, Value.compact] using Lexes.char '{' rfl hfields

theorem compactItems {room : Nat} {ts : List Token} {rest : List Char}
    (vs : List Value) (hvs : Value.RegularItems room vs) (hrest : Closes rest)
    (h : Lexes ts rest) :
    Lexes (Value.itemTokens vs ++ ts)
      ((Value.compactItems vs).toList ++ rest) := by
  match vs with
  | [] => exact h
  | [v] => exact compact v hvs.1 hrest h
  | v :: w :: vs =>
    have hothers := compactItems (w :: vs) hvs.2 hrest h
    have hfirst := compact v hvs.1 (.comma _) (.char ',' rfl hothers)
    simpa [Value.itemTokens, Value.compactItems] using hfirst

theorem compactFields {room : Nat} {ts : List Token} {rest : List Char}
    (fs : List (String × Value)) (hfs : Value.RegularFields room fs)
    (hrest : Closes rest) (h : Lexes ts rest) :
    Lexes (Value.fieldTokens fs ++ ts)
      ((Value.compactFields fs).toList ++ rest) := by
  match fs with
  | [] => exact h
  | [(name, v)] =>
    have hvalue := compact v hfs.1 hrest h
    have hfield := Lexes.quote name (.char ':' rfl hvalue)
    simpa [Value.fieldTokens, Value.compactFields] using hfield
  | (name, v) :: f :: fs =>
    have hothers := compactFields (f :: fs) hfs.2 hrest h
    have hvalue := compact v hfs.1 (.comma _) (.char ',' rfl hothers)
    have hfield := Lexes.quote name (.char ':' rfl hvalue)
    simpa [Value.fieldTokens, Value.compactFields] using hfield

end

theorem newLine {ts : List Token} {rest : List Char} (level : Nat)
    (h : Lexes ts rest) : Lexes ts ((Value.newLine level).toList ++ rest) := by
  have hblank (c : Char) (hc : c ∈ (Value.newLine level).toList) :
      isBlank c := by
    rw [Value.toList_newLine] at hc
    rcases List.mem_cons.mp hc with rfl | hc
    · rfl
    · rw [List.eq_of_mem_replicate hc]
      rfl
  exact .blanks hblank h

mutual

/-- A value in lines holds the same tokens. -/
theorem pretty {room : Nat} {ts : List Token} {rest : List Char} (level : Nat)
    (v : Value) (hv : v.Regular room) (hrest : Closes rest)
    (h : Lexes ts rest) :
    Lexes (v.tokens ++ ts) ((v.prettyAt level).toList ++ rest) := by
  match v with
  | .null | .bool true | .bool false | .number _ | .string _ | .array []
  | .object [] =>
    rw [Value.prettyAt]
    exact compact _ hv hrest h
  | .array (w :: ws) =>
    have hclose := newLine level (.char ']' rfl h)
    have hitems := prettyItems (level + 1) (w :: ws) hv.2
      (Value.closes_newLine level) hclose
    simpa [Value.tokens, Value.prettyAt] using Lexes.char '[' rfl hitems
  | .object (f :: fs) =>
    have hclose := newLine level (.char '}' rfl h)
    have hfields := prettyFields (level + 1) (f :: fs) hv.2.2
      (Value.closes_newLine level) hclose
    simpa [Value.tokens, Value.prettyAt] using Lexes.char '{' rfl hfields

theorem prettyItems {room : Nat} {ts : List Token} {rest : List Char}
    (level : Nat) (vs : List Value) (hvs : Value.RegularItems room vs)
    (hrest : Closes rest) (h : Lexes ts rest) :
    Lexes (Value.itemTokens vs ++ ts)
      ((Value.prettyItems level vs).toList ++ rest) := by
  match vs with
  | [] => exact h
  | [v] =>
    have hitem := newLine level (pretty level v hvs.1 hrest h)
    simpa [Value.itemTokens, Value.prettyItems] using hitem
  | v :: w :: vs =>
    have hothers := prettyItems level (w :: vs) hvs.2 hrest h
    have hfirst := pretty level v hvs.1 (.comma _) (.char ',' rfl hothers)
    have hitem := newLine level hfirst
    simpa [Value.itemTokens, Value.prettyItems] using hitem

theorem prettyFields {room : Nat} {ts : List Token} {rest : List Char}
    (level : Nat) (fs : List (String × Value))
    (hfs : Value.RegularFields room fs) (hrest : Closes rest)
    (h : Lexes ts rest) :
    Lexes (Value.fieldTokens fs ++ ts)
      ((Value.prettyFields level fs).toList ++ rest) := by
  match fs with
  | [] => exact h
  | [(name, v)] =>
    have hvalue := pretty level v hfs.1 hrest h
    have hcolon := Lexes.char ':' rfl (.blank (c := ' ') rfl hvalue)
    have hfield := newLine level (Lexes.quote name hcolon)
    simpa [Value.fieldTokens, Value.prettyFields] using hfield
  | (name, v) :: f :: fs =>
    have hothers := prettyFields level (f :: fs) hfs.2 hrest h
    have hvalue := pretty level v hfs.1 (.comma _) (.char ',' rfl hothers)
    have hcolon := Lexes.char ':' rfl (.blank (c := ' ') rfl hvalue)
    have hfield := newLine level (Lexes.quote name hcolon)
    simpa [Value.fieldTokens, Value.prettyFields] using hfield

end

end Lexes

/-! ## From tokens to values -/

/-- A first item is built like any other one. -/
theorem build_itemOrEnd {frames : List Frame} {ts : List Token} (v : Value) :
    build .itemOrEnd frames (v.tokens ++ ts) =
      build .value (.array [] :: frames) (v.tokens ++ ts) := by
  cases v <;> rfl

theorem Value.itemTokens_cons (v : Value) (vs : List Value) :
    ∃ others, itemTokens (v :: vs) = v.tokens ++ others := by
  cases vs with
  | nil => exact ⟨[], (List.append_nil _).symm⟩
  | cons w ws => exact ⟨_, rfl⟩

mutual

/-- From its tokens the value is built, and what stands behind them is left.  The
open frames and the depth of the value together stay within the limit. -/
theorem build_value {room : Nat} (v : Value) (frames : List Frame)
    (ts : List Token) (hv : v.Regular room)
    (hroom : frames.length + room ≤ maxDepth) :
    build .value frames (v.tokens ++ ts) =
      build (.more v.canonical) frames ts := by
  match v with
  | .null | .bool _ | .number _ | .string _ => rfl
  | .array items =>
    have hpos := hv.1
    have hdepth : frames.length < maxDepth := by omega
    rw [Value.tokens, List.cons_append, List.append_assoc, build,
      if_pos hdepth]
    match items with
    | [] => rfl
    | w :: ws =>
      -- The first item stands where the array could have ended.
      have hitems := build_items [] (w :: ws) frames ts
        (List.cons_ne_nil w ws) hv.2 (by omega)
      have ⟨others, hothers⟩ := Value.itemTokens_cons w ws
      rw [hothers, List.append_assoc] at hitems ⊢
      rw [build_itemOrEnd]
      exact hitems
  | .object fields =>
    have hpos := hv.1
    have hdepth : frames.length < maxDepth := by omega
    rw [Value.tokens, List.cons_append, List.append_assoc, build,
      if_pos hdepth]
    match fields with
    | [] => rfl
    | f :: fs =>
      exact build_fields [] true (f :: fs) frames ts
        (List.cons_ne_nil f fs) hv.2.2 (by omega)

theorem build_items {room : Nat} (done : List Value) (vs : List Value)
    (frames : List Frame) (ts : List Token) (hne : vs ≠ [])
    (hvs : Value.RegularItems room vs)
    (hroom : frames.length + 1 + room ≤ maxDepth) :
    build .value (.array done :: frames)
        (Value.itemTokens vs ++ ([.closeArray] ++ ts)) =
      build (.more (.array (done.reverse ++ Value.canonicalItems vs)))
        frames ts := by
  have hframes : (Frame.array done :: frames).length + room ≤ maxDepth := hroom
  match vs with
  | [] => exact absurd rfl hne
  | [v] =>
    rw [Value.itemTokens, build_value v _ _ hvs.1 hframes]
    show build (.more (.array (v.canonical :: done).reverse)) frames ts = _
    rw [List.reverse_cons]
    rfl
  | v :: w :: ws =>
    have hothers := build_items (v.canonical :: done) (w :: ws) frames ts
      (List.cons_ne_nil w ws) hvs.2 hroom
    rw [List.reverse_cons, List.append_assoc] at hothers
    show build .value (.array done :: frames) ((v.tokens ++ _) ++ _) = _
    rw [List.append_assoc, build_value v _ _ hvs.1 hframes]
    exact hothers

theorem build_fields {room : Nat} (done : List (String × Value))
    (mayEnd : Bool) (fs : List (String × Value)) (frames : List Frame)
    (ts : List Token) (hne : fs ≠ [])
    (hfs : Value.RegularFields room fs)
    (hroom : frames.length + 1 + room ≤ maxDepth) :
    build (.name done mayEnd) frames
        (Value.fieldTokens fs ++ ([.closeObject] ++ ts)) =
      build (.more (.object (Fields.ofList
        (done.reverse ++ Value.canonicalFields fs)))) frames ts := by
  have hframes (name : String) :
      (Frame.object done name :: frames).length + room ≤ maxDepth := hroom
  match fs with
  | [] => exact absurd rfl hne
  | [(name, v)] =>
    show build .value (.object done name :: frames) (v.tokens ++ _) = _
    rw [build_value v _ _ hfs.1 (hframes name)]
    show build (.more (.object (Fields.ofList
      ((name, v.canonical) :: done).reverse))) frames ts = _
    rw [List.reverse_cons]
    rfl
  | (name, v) :: g :: gs =>
    have hothers := build_fields ((name, v.canonical) :: done) false (g :: gs)
      frames ts (List.cons_ne_nil g gs) hfs.2 hroom
    rw [List.reverse_cons, List.append_assoc] at hothers
    show build .value (.object done name :: frames)
      ((v.tokens ++ _) ++ _) = _
    rw [List.append_assoc, build_value v _ _ hfs.1 (hframes name)]
    exact hothers

end

/-! ## From texts to values -/

theorem read_of_lexes {v : Value} {text : List Char} (hv : v.Regular maxDepth)
    (h : Lexes v.tokens text) : read text = some v.canonical := by
  have hdepth : 0 + maxDepth ≤ maxDepth := Nat.le_of_eq (Nat.zero_add _)
  have hbuild := build_value v [] [] hv hdepth
  rw [List.append_nil] at hbuild
  unfold read
  rw [tokens_of_lexes h]
  exact hbuild

/-- What is written without blanks is read back. -/
theorem read_compact {v : Value} (hv : v.Regular maxDepth) :
    read v.compact.toList = some v.canonical := by
  have hlexes := Lexes.compact v hv .nil .nil
  rw [List.append_nil, List.append_nil] at hlexes
  exact read_of_lexes hv hlexes

/-- What is written in lines is read back. -/
theorem read_pretty {v : Value} (hv : v.Regular maxDepth) :
    read v.pretty.toList = some v.canonical := by
  have hlexes := Lexes.pretty 0 v hv .nil .nil
  rw [List.append_nil, List.append_nil] at hlexes
  exact read_of_lexes hv hlexes

end Preflight.Json
