import Preflight.Verdict

/-!
# How diagnostics grow

Recording only ever appends.  `bucket_pushAll` says what each sequence is
after some diagnostics have been recorded: what it was, followed by the new
members of its severity in the order in which they came.  Everything that a
run or the evaluation of rules says about its diagnostics is read off this
one equation.

`Grows` is the order on diagnostics that recording respects.
-/

namespace Preflight.Diagnostics

/-! ## One equation for recording -/

@[simp] theorem bucket_empty (severity : Severity) :
    empty.bucket severity = [] := by
  cases severity <;> rfl

@[simp] theorem pushAll_nil (ds : Diagnostics) : ds.pushAll [] = ds := rfl

@[simp] theorem pushAll_cons (ds : Diagnostics) (d : Diagnostic)
    (new : List Diagnostic) : ds.pushAll (d :: new) = (ds.push d).pushAll new :=
  rfl

theorem pushAll_append (ds : Diagnostics) (new more : List Diagnostic) :
    ds.pushAll (new ++ more) = (ds.pushAll new).pushAll more :=
  List.foldl_append

/-- A sequence is followed by the new members of its severity. -/
theorem bucket_pushAll (ds : Diagnostics) (new : List Diagnostic)
    (severity : Severity) :
    (ds.pushAll new).bucket severity =
      ds.bucket severity ++ new.filter (·.severity = severity) := by
  induction new generalizing ds with
  | nil => simp
  | cons d new ih =>
    rw [pushAll_cons, ih, bucket_push]
    by_cases h : d.severity = severity
    · simp [h]
    · simp [h]

/-- All in all, the new diagnostics are added to what there was. -/
theorem toList_pushAll_perm (ds : Diagnostics) (new : List Diagnostic) :
    (ds.pushAll new).toList.Perm (ds.toList ++ new) := by
  have hpush (ds : Diagnostics) (d : Diagnostic) :
      (ds.push d).toList.Perm (ds.toList ++ [d]) := by
    rw [List.perm_iff_count, push, toList]
    intro other
    cases d.severity <;> simp only [toList, List.count_append] <;> omega
  induction new generalizing ds with
  | nil => simp
  | cons d new ih =>
    rw [pushAll_cons, List.append_cons]
    exact (ih (ds.push d)).trans ((hpush ds d).append_right new)

/-! ## The order of growth -/

/-- Every sequence of `ds` is the beginning of that of `es`. -/
def Grows (ds es : Diagnostics) : Prop :=
  ∀ severity, ds.bucket severity <+: es.bucket severity

theorem Grows.refl (ds : Diagnostics) : ds.Grows ds :=
  fun _ => List.prefix_rfl

theorem Grows.trans {ds es fs : Diagnostics} (h : ds.Grows es)
    (h' : es.Grows fs) : ds.Grows fs :=
  fun severity => (h severity).trans (h' severity)

theorem Grows.pushAll (ds : Diagnostics) (new : List Diagnostic) :
    ds.Grows (ds.pushAll new) := by
  intro severity
  rw [bucket_pushAll]
  exact List.prefix_append _ _

theorem Grows.push (ds : Diagnostics) (d : Diagnostic) : ds.Grows (ds.push d) :=
  .pushAll ds [d]

/-! ## Counting errors -/

/-- Recording adds as many errors as there are among the new diagnostics. -/
theorem errors_length_pushAll (ds : Diagnostics) (new : List Diagnostic) :
    (ds.pushAll new).errors.length =
      ds.errors.length + new.countP (·.severity = .error) := by
  have h := congrArg List.length (bucket_pushAll ds new .error)
  rw [List.length_append, ← List.countP_eq_length_filter] at h
  exact h

/-- Whether there are errors is seen from their number. -/
theorem errors_isEmpty_congr {ds es : Diagnostics}
    (h : ds.errors.length = es.errors.length) :
    ds.errors.isEmpty = es.errors.isEmpty := by
  rw [Bool.eq_iff_iff, List.isEmpty_iff_length_eq_zero,
    List.isEmpty_iff_length_eq_zero, h]

end Preflight.Diagnostics
