import Preflight.Proofs.Contributions

/-!
# The rows of the catalog

What holds of all rows alike: their identifiers differ, they are none of the
identifiers outside the catalog, and their checks always run.  So a rule of the
catalog never fails (`failed_catalog`), and what it records names it and has
the severity of its column, or is information (`origin_of_mem_recorded`).  What
names a row has been added by that row (`filter_shares_catalog`).
-/

namespace Preflight.Rule

/-- No two rows have the same identifier. -/
theorem catalog_ids_nodup : (catalog.map (·.id)).Nodup := by
  decide

/-- A row is found by its identifier. -/
theorem find?_of_mem_catalog {r : Rule} (hr : r ∈ catalog) :
    find? r.id = some r := by
  obtain ⟨front, back, hcatalog⟩ := List.append_of_mem hr
  have hids := catalog_ids_nodup
  rw [hcatalog, List.map_append, List.map_cons, List.nodup_append] at hids
  refine List.find?_eq_some_iff_append.mpr
    ⟨beq_self_eq_true r.id, front, back, hcatalog, fun s hs => ?_⟩
  have hne : s.id ≠ r.id :=
    hids.2.2 _ (List.mem_map_of_mem hs) _ List.mem_cons_self
  simpa using hne

/-- The check of the row with a given identifier. -/
theorem check_of_find? {r : Rule} (hr : r ∈ catalog) {id : RuleId}
    (hid : r.id = id) {check : Check}
    (hrow : (find? id).map (·.check) = some check) : r.check = check := by
  rw [← hid, find?_of_mem_catalog hr] at hrow
  exact Option.some.inj hrow

/-- The row with the identifier lists these findings in the context. -/
def Reports (id : RuleId) (context : Context) (findings : List Finding) : Prop :=
  (find? id).map (·.check context) = some (.ok findings)

theorem Reports.of_row {id : RuleId} {check : Context → List Finding}
    (hrow : (find? id).map (·.check) = some (total check)) (context : Context) :
    Reports id context (check context) := by
  unfold Reports
  obtain ⟨r, hr, hcheck⟩ := Option.map_eq_some_iff.mp hrow
  rw [hr, Option.map_some, hcheck]
  rfl

/-- The parser and the probe have no rows. -/
theorem id_ne_of_mem_catalog :
    ∀ r ∈ catalog, r.id ≠ .parserCheck ∧ r.id ≠ .liveProbe := by
  decide

/-- The check of every row lists findings and never fails to run. -/
theorem total_of_mem_catalog :
    ∀ r ∈ catalog, ∃ check, r.check = total check := by
  simp only [catalog, List.forall_mem_cons]
  and_intros
  all_goals first | exact ⟨_, rfl⟩ | exact List.forall_mem_nil _

/-! ## Evaluating the catalog -/

/-- No rule of the catalog is named as failed. -/
theorem failed_catalog (context : Context) (ds : Diagnostics) :
    (evaluate catalog context ds).1.failed = [] := by
  rw [failed_evaluate, List.map_eq_nil_iff, List.filter_eq_nil_iff]
  intro r hr
  obtain ⟨check, hcheck⟩ :=
    total_of_mem_catalog r (List.mem_filter.mp hr).1
  rw [failsOn, hcheck]
  exact Bool.false_ne_true

/-- The rules that apply are named in the order of the catalog, each once. -/
theorem applicableIds_sublist (target : Target) (profile : Option Profile) :
    (applicableIds catalog target profile).Sublist (catalog.map (·.id)) := by
  rw [applicableIds, applicable]
  induction catalog with
  | nil => exact .slnil
  | cons r rules ih =>
    rw [List.filterMap_cons, List.map_cons]
    cases r.severityIn target profile with
    | none => exact .cons _ ih
    | some active => exact .cons_cons _ ih

/-- What the catalog records comes from a row that applies.  It names that row,
and has the severity of the active column or is information. -/
theorem origin_of_mem_recorded {context : Context} {d : Diagnostic}
    (hd : d ∈ recorded catalog context) :
    ∃ r ∈ catalog, ∃ active,
      r.severityIn context.target context.profile = some active ∧
      d.ruleId = some r.id ∧ (d.severity = .info ∨ d.severity = active) := by
  obtain ⟨⟨r, active⟩, hmem, hd⟩ := List.mem_flatMap.mp hd
  obtain ⟨hr, hactive⟩ := mem_applicable hmem
  obtain ⟨check, hcheck⟩ := total_of_mem_catalog r hr
  simp only [hcheck, total, contribution] at hd
  obtain ⟨f, -, rfl⟩ := List.mem_map.mp hd
  refine ⟨r, hr, active, hactive, ?_⟩
  cases f with
  | violation message => exact ⟨rfl, .inr rfl⟩
  | note message => exact ⟨rfl, .inl rfl⟩

/-- The row of a diagnostic is named as evaluated. -/
theorem mem_applicableIds {r : Rule} (hr : r ∈ catalog) {target : Target}
    {profile : Option Profile} {active : Severity}
    (hactive : r.severityIn target profile = some active) :
    r.id ∈ applicableIds catalog target profile := by
  refine List.mem_map.mpr ⟨(r, active), ?_, rfl⟩
  exact List.mem_filterMap.mpr ⟨r, hr, by rw [hactive]; rfl⟩

/-! ## One row among the others -/

/-- What a rule adds names the rule. -/
theorem ruleId_of_mem_share {r : Rule} {context : Context} {severity : Severity}
    {d : Diagnostic} (hd : d ∈ r.share context severity) :
    d.ruleId = some r.id := by
  rw [share] at hd
  split at hd
  · cases hd
  · split at hd
    · obtain ⟨f, -, hf⟩ := List.mem_filterMap.mp hd
      cases f <;> simp only [findingShare] at hf <;> split at hf <;> cases hf <;>
        rfl
    · split at hd
      · obtain rfl := List.mem_singleton.mp hd
        rfl
      · cases hd

/-- What all rows add and names one of them, that one has added. -/
theorem filter_shares_catalog {r : Rule} (hr : r ∈ catalog) {context : Context}
    {severity : Severity} :
    (catalog.flatMap (·.share context severity)).filter
        (·.ruleId = some r.id) =
      r.share context severity := by
  obtain ⟨front, back, hcatalog⟩ := List.append_of_mem hr
  have hids := catalog_ids_nodup
  rw [hcatalog, List.map_append, List.map_cons, List.perm_middle.nodup_iff,
    List.nodup_cons] at hids
  have hothers (rules : List Rule)
      (hrules : ∀ s ∈ rules, s.id ∈ front.map (·.id) ++ back.map (·.id)) :
      (rules.flatMap (·.share context severity)).filter
        (·.ruleId = some r.id) = [] := by
    rw [List.filter_eq_nil_iff]
    intro d hd hid
    obtain ⟨s, hs, hd⟩ := List.mem_flatMap.mp hd
    have hsame : s.id = r.id :=
      Option.some.inj ((ruleId_of_mem_share hd).symm.trans (of_decide_eq_true hid))
    exact hids.1 (hsame ▸ hrules s hs)
  have hfront := hothers front fun s hs =>
    List.mem_append_left _ (List.mem_map_of_mem hs)
  have hback := hothers back fun s hs =>
    List.mem_append_right _ (List.mem_map_of_mem hs)
  have hown : (r.share context severity).filter (·.ruleId = some r.id) =
      r.share context severity := by
    rw [List.filter_eq_self]
    intro d hd
    exact decide_eq_true (ruleId_of_mem_share hd)
  rw [hcatalog, List.flatMap_append, List.flatMap_cons, List.filter_append,
    List.filter_append, hfront, hback, hown, List.nil_append, List.append_nil]

end Preflight.Rule
