import Mathlib.Data.List.Forall2
import Preflight.Json.Decode
import Preflight.Proofs.Json.Documents

/-!
# Documents that say the same

`Value.Restates` relates a document to those that say the same to a reader of
records: at every object the keys may stand in another order, keys that the
object does not have may have been added, and keys whose value is null may be
left out.

A reader `Recovers` a record from a document if it reads it from all that say
the same.  There is one lemma for each kind of value; `Recovers.record` is about
records, from what is found for each of their keys (`Restates.found`).

Writing a document as text and reading it gives one that says the same
(`Restates.canonical`).
-/

namespace Preflight.Json

mutual

/-- The second document says what the first one says. -/
inductive Value.Restates : Value → Value → Prop
  | null : Restates .null .null
  | bool (b : Bool) : Restates (.bool b) (.bool b)
  | number (n : Number) : Restates (.number n) (.number n)
  | string (s : String) : Restates (.string s) (.string s)
  | array {items others : List Value} (hitems : ItemsRestate items others) :
      Restates (.array items) (.array others)
  /-- Of the fields some nulls are dropped, unknown fields are added, and all is
  put in some order. -/
  | object {fields kept unknown others : List (String × Value)}
      (hkept : FieldsRestate fields kept)
      (hunknown : ∀ f ∈ unknown, f.1 ∉ fields.map Prod.fst)
      (hothers : others.Perm (kept ++ unknown)) :
      Restates (.object fields) (.object others)

/-- Item by item. -/
inductive Value.ItemsRestate : List Value → List Value → Prop
  | nil : ItemsRestate [] []
  | cons {v w : Value} {vs ws : List Value} (hhead : Restates v w)
      (htail : ItemsRestate vs ws) : ItemsRestate (v :: vs) (w :: ws)

/-- Field by field, where fields that are null may be dropped. -/
inductive Value.FieldsRestate :
    List (String × Value) → List (String × Value) → Prop
  | nil : FieldsRestate [] []
  | keep (name : String) {v w : Value} {fs gs : List (String × Value)}
      (hhead : Restates v w) (htail : FieldsRestate fs gs) :
      FieldsRestate ((name, v) :: fs) ((name, w) :: gs)
  | drop (name : String) {fs gs : List (String × Value)}
      (htail : FieldsRestate fs gs) : FieldsRestate ((name, .null) :: fs) gs

end

namespace Value

mutual

/-- A document says what it says. -/
theorem Restates.refl (v : Value) : v.Restates v := by
  cases v with
  | null => exact .null
  | bool b => exact .bool b
  | number n => exact .number n
  | string s => exact .string s
  | array items => exact .array (ItemsRestate.refl items)
  | object fields =>
    have hkept := FieldsRestate.refl fields
    have hall : fields.Perm (fields ++ []) := by rw [List.append_nil]
    exact .object hkept (List.forall_mem_nil _) hall

theorem ItemsRestate.refl (vs : List Value) : ItemsRestate vs vs := by
  cases vs with
  | nil => exact .nil
  | cons v vs => exact .cons (Restates.refl v) (ItemsRestate.refl vs)

theorem FieldsRestate.refl (fs : List (String × Value)) : FieldsRestate fs fs := by
  cases fs with
  | nil => exact .nil
  | cons f fs => exact .keep f.1 (Restates.refl f.2) (FieldsRestate.refl fs)

end

variable {v w : Value} {fs gs : List (String × Value)} {name : String}

theorem Restates.ne_null (h : v.Restates w) (hv : v ≠ .null) : w ≠ .null := by
  cases h with
  | null => exact absurd rfl hv
  | bool | number | string | array | object => exact Value.noConfusion

/-! ## What stands for a key -/

theorem mem_of_lookup (h : fs.lookup name = some v) : (name, v) ∈ fs := by
  have ⟨front, back, hfs, _⟩ := List.lookup_eq_some_iff.mp h
  rw [hfs]
  exact List.mem_append_right front List.mem_cons_self

theorem lookup_of_mem (hnames : (fs.map Prod.fst).Nodup) (h : (name, v) ∈ fs) :
    fs.lookup name = some v := by
  have ⟨front, back, hfs⟩ := List.append_of_mem h
  rw [hfs, List.map_append, List.nodup_append] at hnames
  refine List.lookup_eq_some_iff.mpr ⟨front, back, hfs, fun f hf => ?_⟩
  have hne : f.1 ≠ name :=
    hnames.2.2 _ (List.mem_map_of_mem hf) _ List.mem_cons_self
  exact bne_iff_ne.mpr (Ne.symm hne)

/-- Unknown fields and the order of fields do not matter to a known key. -/
theorem lookup_of_perm {kept unknown others : List (String × Value)}
    (hothers : others.Perm (kept ++ unknown))
    (hnames : (kept.map Prod.fst).Nodup)
    (hunknown : name ∉ unknown.map Prod.fst) :
    others.lookup name = kept.lookup name := by
  have hkept (w : Value) : (name, w) ∈ others ↔ (name, w) ∈ kept := by
    have habsent : (name, w) ∉ unknown := fun h =>
      hunknown (List.mem_map_of_mem (f := Prod.fst) h)
    rw [hothers.mem_iff, List.mem_append, or_iff_left habsent]
  cases hlookup : others.lookup name with
  | some w =>
    have hmem := (hkept w).mp (mem_of_lookup hlookup)
    exact (lookup_of_mem hnames hmem).symm
  | none =>
    cases hfound : kept.lookup name with
    | none => rfl
    | some w =>
      have hmem := (hkept w).mpr (mem_of_lookup hfound)
      have hne := List.lookup_eq_none_iff.mp hlookup _ hmem
      exact absurd rfl (bne_iff_ne.mp hne)

/-- What is found for a field says what the field says; a field that is null may
be missing. -/
def Found (v : Value) : Option Value → Prop
  | some w => v.Restates w
  | none => v = .null

theorem FieldsRestate.names_sublist (h : FieldsRestate fs gs) :
    (gs.map Prod.fst).Sublist (fs.map Prod.fst) := by
  induction fs generalizing gs with
  | nil => cases h; exact .slnil
  | cons f fs ih =>
    cases h with
    | keep name _ htail => exact .cons_cons name (ih htail)
    | drop name htail => exact .cons name (ih htail)

/-- Every field is found among those that are kept. -/
theorem FieldsRestate.found (h : FieldsRestate fs gs)
    (hnames : (fs.map Prod.fst).Nodup) :
    ∀ f ∈ fs, f.2.Found (gs.lookup f.1) := by
  induction fs generalizing gs with
  | nil => exact fun _ hf => nomatch hf
  | cons first fs ih =>
    rw [List.map_cons, List.nodup_cons] at hnames
    have hother {name : String} (hname : name ∈ fs.map Prod.fst) :
        name ≠ first.1 := fun heq => hnames.1 (heq ▸ hname)
    intro f hf
    cases h with
    | keep name hhead htail =>
      rcases List.mem_cons.mp hf with rfl | hf
      · rw [List.lookup_cons_self]
        exact hhead
      · have hne := beq_false_of_ne (hother (List.mem_map_of_mem hf))
        rw [List.lookup_cons, hne]
        exact ih htail hnames.2 f hf
    | drop name htail =>
      rcases List.mem_cons.mp hf with rfl | hf
      · have habsent : gs.lookup name = none := by
          rw [List.lookup_eq_none_iff]
          intro g hg
          have hmem := htail.names_sublist.subset (List.mem_map_of_mem hg)
          exact bne_iff_ne.mpr (Ne.symm (hother hmem))
        rw [habsent]
        exact rfl
      · exact ih htail hnames.2 f hf

/-- What says the same as an object is an object in which every field is
found. -/
theorem Restates.found (h : (Value.object fs).Restates w)
    (hnames : (fs.map Prod.fst).Nodup) :
    ∃ gs, w = .object gs ∧ ∀ f ∈ fs, f.2.Found (gs.lookup f.1) := by
  cases h with
  | @object _ kept unknown gs hkept hunknown hothers =>
    refine ⟨gs, rfl, fun f hf => ?_⟩
    have hkeptNames : (kept.map Prod.fst).Nodup :=
      hkept.names_sublist.nodup hnames
    have hknown : f.1 ∉ unknown.map Prod.fst := by
      intro hmem
      have ⟨g, hg, hgf⟩ := List.mem_map.mp hmem
      exact hunknown g hg (hgf ▸ List.mem_map_of_mem hf)
    rw [lookup_of_perm hothers hkeptNames hknown]
    exact hkept.found hnames f hf

/-! ## Documents as they are read -/

mutual

/-- A document says the same when it has been read. -/
theorem Restates.canonical {v w : Value} {room : Nat} (h : v.Restates w)
    (hw : w.Regular room) : v.Restates w.canonical := by
  cases h with
  | null => exact .null
  | bool b => exact .bool b
  | number n => exact .number n
  | string s => exact .string s
  | array hitems => exact .array (hitems.canonical hw.2)
  | @object fields kept unknown others hkept hunknown hothers =>
    have hregular := regularFields_iff.mp hw.2.2
    have hkeptRegular (f : String × Value) (hf : f ∈ kept) :=
      hregular f (hothers.mem_iff.mpr (List.mem_append_left unknown hf))
    have hnames : ((canonicalFields others).map Prod.fst).Nodup := by
      rw [map_fst_canonicalFields]
      exact hw.2.1
    -- The names are distinct, so putting the fields in order only permutes them.
    have hperm := hothers.map fun f => (f.1, f.2.canonical)
    rw [List.map_append, ← canonicalFields_eq_map, ← canonicalFields_eq_map,
      ← canonicalFields_eq_map] at hperm
    refine .object (hkept.canonical hkeptRegular) (fun f hf => ?_)
      ((Fields.ofList_perm hnames).trans hperm)
    have hmem := List.mem_map_of_mem (f := Prod.fst) hf
    rw [map_fst_canonicalFields] at hmem
    have ⟨g, hg, hgf⟩ := List.mem_map.mp hmem
    exact hgf ▸ hunknown g hg

theorem ItemsRestate.canonical {vs ws : List Value} {room : Nat}
    (h : ItemsRestate vs ws) (hws : RegularItems room ws) :
    ItemsRestate vs (canonicalItems ws) := by
  cases h with
  | nil => exact .nil
  | cons hhead htail =>
    exact .cons (hhead.canonical hws.1) (htail.canonical hws.2)

theorem FieldsRestate.canonical {fs gs : List (String × Value)} {room : Nat}
    (h : FieldsRestate fs gs) (hgs : ∀ g ∈ gs, g.2.Regular room) :
    FieldsRestate fs (canonicalFields gs) := by
  cases h with
  | nil => exact .nil
  | keep name hhead htail =>
    rw [List.forall_mem_cons] at hgs
    exact .keep name (hhead.canonical hgs.1) (htail.canonical hgs.2)
  | drop name htail => exact .drop name (htail.canonical hgs)

end

end Value

/-! ## Readers -/

/-- The reader reads the record from every document that says the same as the
given one. -/
def Recovers {α : Type} (read? : Value → Option α) (v : Value) (a : α) : Prop :=
  ∀ w, v.Restates w → read? w = some a

namespace Recovers

theorem string (s : String) : Recovers Value.string? (.string s) s := by
  intro w h
  cases h
  rfl

theorem intIn {low high n : Int} (hlow : low ≤ n) (hhigh : n ≤ high) :
    Recovers (Value.intIn? low high) (.number (.int n)) n := by
  intro w h
  cases h
  exact if_pos ⟨hlow, hhigh⟩

theorem natIn {bits n : Nat} (hn : n < 1 <<< bits) :
    Recovers (Value.natIn? bits) (.number (.int n)) n := by
  intro w h
  have hlow : (0 : Int) ≤ n := Int.natCast_nonneg n
  have hhigh : (n : Int) ≤ (1 <<< bits : Nat) - 1 := by omega
  unfold Value.natIn?
  rw [intIn hlow hhigh w h]
  rfl

/-- A choice is written by its name. -/
theorem choice {α : Type} (c : Conventions) {named? : String → Option α}
    {key : String} {a : α} (hkey : named? key = some a) :
    Recovers (Value.choice? c named?) (.string key) a := by
  intro w h
  cases h
  exact hkey

theorem list {α : Type} {item? : Value → Option α} {toValue : α → Value}
    (hitem : ∀ a, Recovers item? (toValue a) a) (l : List α) :
    Recovers (Value.list? item?) (.array (l.map toValue)) l := by
  have hitems (ws : List Value) (h : Value.ItemsRestate (l.map toValue) ws) :
      ws.mapM item? = some l := by
    induction l generalizing ws with
    | nil =>
      cases h
      rfl
    | cons a l ih =>
      cases h with
      | cons hhead htail =>
        rw [List.mapM_cons, hitem a _ hhead, ih _ htail]
        rfl
  intro w h
  cases h with
  | array h => exact hitems _ h

/-- A record is read if it is read from whatever is found for its fields. -/
theorem record {α : Type} {names : List String} {fs : List (String × Value)}
    {read : List (Option Value) → Option α} {a : α}
    (hnames : fs.map Prod.fst = names) (hdistinct : names.Nodup)
    (hread : ∀ found, List.Forall₂ Value.Found (fs.map Prod.snd) found →
      read found = some a) :
    Recovers (fun v => (v.fields? names).bind read) (.object fs) a := by
  subst hnames
  intro w h
  obtain ⟨gs, rfl, hfound⟩ := h.found hdistinct
  apply hread
  unfold Value.fieldsOfObject
  rw [List.map_map, List.forall₂_map_left_iff, List.forall₂_map_right_iff,
    List.forall₂_same]
  exact hfound

end Recovers

/-! ## Fields of records -/

section

variable {α : Type} {read? : Value → Option α} {v : Value} {a : α}
  {found : Option Value}

theorem required_of_found (h : Recovers read? v a) (hv : v ≠ .null)
    (hfound : v.Found found) : required read? found = some a := by
  cases found with
  | none => exact absurd hfound hv
  | some w => exact h w hfound

theorem nullable_of_found_null (hfound : Value.null.Found found) :
    nullable read? found = some none := by
  cases found with
  | none => rfl
  | some w =>
    cases hfound
    rfl

theorem nullable_of_found (h : Recovers read? v a) (hv : v ≠ .null)
    (hfound : v.Found found) : nullable read? found = some (some a) := by
  cases found with
  | none => exact absurd hfound hv
  | some w =>
    have hread := h w hfound
    have hw := hfound.ne_null hv
    unfold nullable
    split
    next hnone => cases hnone
    next hnull => exact absurd (Option.some.inj hnull) hw
    next hsome =>
      cases hsome
      rw [hread]
      rfl

end

end Preflight.Json
