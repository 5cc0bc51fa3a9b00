import Mathlib.Order.Defs.Unbundled
import Preflight.Proofs.Choice

/-!
# The order of preference

A policy puts the profiles that it lists first, by their first mention, and then
the others in the fallback order.  `DetectionPolicy.Precedes` says so for two
profiles, and `precedes_iff` says that this is the order of their ranks.

* `isStrictTotalOrder_precedes`: any list of priorities gives a strict total
  order, also one that repeats or leaves out profiles.
* `DropsRepeats`: a list is shortened by repeated entries only.  First mentions
  keep their order (`DropsRepeats.idxOf_lt_iff`), so a policy may be written
  with or without repetitions, and with or without its unlisted profiles.

`decide_eq_foremost` says that the foremost of the profiles with the highest
score is decided on, and which changes of the policy and of the scores leave the
decision as it is.
-/

namespace Preflight

/-! ## Lists without repetitions -/

section

variable {α : Type}

/-- `kept` is the list without some of its entries, each of which repeats an
earlier entry or stands in `seen`. -/
inductive DropsRepeats : (seen list kept : List α) → Prop where
  | nil (seen) : DropsRepeats seen [] []
  | keep {seen list kept a} (h : DropsRepeats (a :: seen) list kept) :
      DropsRepeats seen (a :: list) (a :: kept)
  | drop {seen list kept a} (hseen : a ∈ seen)
      (h : DropsRepeats seen list kept) : DropsRepeats seen (a :: list) kept

namespace DropsRepeats

variable {seen list kept more : List α}

theorem refl (seen list : List α) : DropsRepeats seen list list := by
  induction list generalizing seen with
  | nil => exact .nil seen
  | cons a list ih => exact .keep (ih _)

theorem append_right (h : DropsRepeats seen list kept) (more : List α) :
    DropsRepeats seen (list ++ more) (kept ++ more) := by
  induction h with
  | nil seen => exact refl seen more
  | keep _ ih => exact .keep ih
  | drop hseen _ ih => exact .drop hseen ih

/-- What is kept of `more` behind a list, where the list has been seen. -/
theorem append_left (list : List α)
    (h : DropsRepeats (list.reverse ++ seen) more kept) :
    DropsRepeats seen (list ++ more) (list ++ kept) := by
  induction list generalizing seen with
  | nil => exact h
  | cons a list ih =>
    rw [List.reverse_cons, List.append_assoc, List.singleton_append] at h
    exact .keep (ih h)

/-- Entries that have been seen may be filtered out. -/
theorem filter {ok : α → Bool} (h : ∀ a ∈ list, ok a = false → a ∈ seen) :
    DropsRepeats seen list (list.filter ok) := by
  induction list generalizing seen with
  | nil => exact .nil seen
  | cons a list ih =>
    obtain ⟨ha, hlist⟩ := List.forall_mem_cons.mp h
    rw [List.filter_cons]
    split
    · exact .keep (ih fun b hb hdropped =>
        List.mem_cons_of_mem a (hlist b hb hdropped))
    · rename_i hdropped
      exact .drop (ha (Bool.eq_false_iff.mpr hdropped)) (ih hlist)

variable [DecidableEq α]

/-- First mentions keep their order. -/
theorem idxOf_lt_iff (h : DropsRepeats seen list kept) {a b : α}
    (ha : a ∉ seen) (hb : b ∉ seen) :
    kept.idxOf a < kept.idxOf b ↔ list.idxOf a < list.idxOf b := by
  induction h with
  | nil => exact Iff.rfl
  | @keep seen list kept c _ ih =>
    by_cases hca : c = a
    · subst hca
      by_cases hcb : c = b
      · subst hcb
        simp
      · simp [List.idxOf_cons_ne _ hcb]
    · by_cases hcb : c = b
      · subst hcb
        simp
      · rw [List.idxOf_cons_ne _ hca, List.idxOf_cons_ne _ hcb,
          List.idxOf_cons_ne _ hca, List.idxOf_cons_ne _ hcb,
          Nat.succ_lt_succ_iff, Nat.succ_lt_succ_iff]
        refine ih ?_ ?_
        · exact List.not_mem_cons_of_ne_of_not_mem (Ne.symm hca) ha
        · exact List.not_mem_cons_of_ne_of_not_mem (Ne.symm hcb) hb
  | @drop seen list kept c hseen _ ih =>
    have hca : c ≠ a := fun h => ha (h ▸ hseen)
    have hcb : c ≠ b := fun h => hb (h ▸ hseen)
    rw [List.idxOf_cons_ne _ hca, List.idxOf_cons_ne _ hcb,
      Nat.succ_lt_succ_iff]
    exact ih ha hb

end DropsRepeats

end

/-! ## Changed scores -/

namespace Scores

/-- The scores with that of one profile changed to `n`. -/
def set (scores : Scores) (n : Nat) : Profile → Scores
  | .inventory => { scores with inventory := n }
  | .deploy => { scores with deploy := n }
  | .connect => { scores with connect := n }

@[simp] theorem get_set_self (scores : Scores) (n : Nat) (p : Profile) :
    (scores.set n p).get p = n := by
  cases p <;> rfl

theorem get_set_of_ne (scores : Scores) (n : Nat) {p q : Profile} (h : q ≠ p) :
    (scores.set n p).get q = scores.get q := by
  cases p <;> cases q <;> first | rfl | exact absurd rfl h

end Scores

namespace DetectionPolicy

/-! ## The order -/

/-- Listed profiles come first, by their first place in the list, and then the
others in the fallback order. -/
inductive Precedes (policy : DetectionPolicy) (p q : Profile) : Prop where
  | listed (hp : p ∈ policy.priority) (hq : q ∈ policy.priority)
      (hfirst : policy.priority.idxOf p < policy.priority.idxOf q)
  | listedOnly (hp : p ∈ policy.priority) (hq : q ∉ policy.priority)
  | unlisted (hp : p ∉ policy.priority) (hq : q ∉ policy.priority)
      (hfallback : fallback.idxOf p < fallback.idxOf q)

variable {policy other : DetectionPolicy} {scores : Scores} {p q : Profile}

theorem precedes_iff : policy.Precedes p q ↔ policy.rank p < policy.rank q := by
  have hplace {r : Profile} (h : r ∈ policy.priority) :
      policy.priority.idxOf r < policy.priority.length :=
    List.idxOf_lt_length_of_mem h
  unfold rank
  constructor
  · intro h
    cases h with
    | listed hp hq hfirst =>
      rw [if_pos hp, if_pos hq]
      exact hfirst
    | listedOnly hp hq =>
      have := hplace hp
      rw [if_pos hp, if_neg hq]
      omega
    | unlisted hp hq hfallback =>
      rw [if_neg hp, if_neg hq]
      omega
  · intro h
    by_cases hp : p ∈ policy.priority <;> by_cases hq : q ∈ policy.priority
    · rw [if_pos hp, if_pos hq] at h
      exact .listed hp hq h
    · exact .listedOnly hp hq
    · have := hplace hq
      rw [if_neg hp, if_pos hq] at h
      omega
    · rw [if_neg hp, if_neg hq] at h
      exact .unlisted hp hq (by omega)

theorem precedes_iff_idxOf :
    policy.Precedes p q ↔
      policy.preferences.idxOf p < policy.preferences.idxOf q := by
  rw [precedes_iff, rank_eq, rank_eq]

theorem isStrictTotalOrder_precedes (policy : DetectionPolicy) :
    IsStrictTotalOrder Profile policy.Precedes where
  trichotomous p q hpq hqp := by
    rw [precedes_iff] at hpq hqp
    exact eq_of_rank_eq policy (by omega)
  irrefl p h := Nat.lt_irrefl _ (precedes_iff.mp h)
  trans p q r hpq hqr :=
    precedes_iff.mpr (Nat.lt_trans (precedes_iff.mp hpq) (precedes_iff.mp hqr))

/-! ## The foremost profile -/

/-- No profile has a higher score, and the others with this score come later. -/
structure Foremost (policy : DetectionPolicy) (scores : Scores) (p : Profile) :
    Prop where
  maximal : ∀ q, scores.get q ≤ scores.get p
  precedes : ∀ q, q ≠ p → scores.get q = scores.get p → policy.Precedes p q

theorem chooses_iff :
    policy.Chooses scores p ↔
      (∃ q, policy.minConfidence ≤ scores.get q) ∧ policy.Foremost scores p := by
  constructor
  · intro h
    refine ⟨⟨p, h.confident⟩, h.maximal, fun q hne hscore => ?_⟩
    exact precedes_iff_idxOf.mpr (h.first q hscore hne)
  · rintro ⟨⟨q, hq⟩, h⟩
    refine ⟨h.maximal, Nat.le_trans hq (h.maximal q), fun q hscore hne => ?_⟩
    exact precedes_iff_idxOf.mp (h.precedes q hne hscore)

theorem foremost_congr
    (horder : ∀ p q, other.Precedes p q ↔ policy.Precedes p q) :
    other.Foremost scores p ↔ policy.Foremost scores p := by
  constructor
  · intro h
    exact ⟨h.maximal, fun q hne hscore =>
      (horder p q).mp (h.precedes q hne hscore)⟩
  · intro h
    exact ⟨h.maximal, fun q hne hscore =>
      (horder p q).mpr (h.precedes q hne hscore)⟩

/-- Without a threshold, some profile is decided on. -/
theorem existsUnique_foremost (policy : DetectionPolicy) (scores : Scores) :
    ∃! p, policy.Foremost scores p := by
  let eager : DetectionPolicy := { policy with minConfidence := 0 }
  have hchooses {p : Profile} :
      eager.Chooses scores p ↔ policy.Foremost scores p := by
    have hany : ∃ q, eager.minConfidence ≤ scores.get q := ⟨p, Nat.zero_le _⟩
    rw [chooses_iff, and_iff_right hany]
    refine foremost_congr fun q r => ?_
    rw [precedes_iff, precedes_iff]
    rfl
  cases hdecide : eager.decide scores with
  | none =>
    have := decide_eq_none_iff.mp hdecide .inventory
    exact absurd this (Nat.not_lt_zero _)
  | some p =>
    have hp := decide_eq_some_iff.mp hdecide
    refine ⟨p, hchooses.mp hp, fun q hq => ?_⟩
    exact (hchooses.mpr hq).eq hp

/-- Policies with the same threshold and the same order decide alike. -/
theorem decide_congr (hconfidence : other.minConfidence = policy.minConfidence)
    (horder : ∀ p q, other.Precedes p q ↔ policy.Precedes p q) :
    other.decide scores = policy.decide scores := by
  refine Option.ext fun p => ?_
  rw [decide_eq_some_iff, decide_eq_some_iff, chooses_iff, chooses_iff,
    hconfidence, foremost_congr horder]

/-! ## Changes that make no difference -/

theorem precedes_of_dropsRepeats
    (h : DropsRepeats [] policy.preferences other.preferences) :
    other.Precedes p q ↔ policy.Precedes p q := by
  rw [precedes_iff_idxOf, precedes_iff_idxOf]
  exact h.idxOf_lt_iff List.not_mem_nil List.not_mem_nil

theorem decide_dropsRepeats (scores : Scores) {priority : List Profile}
    (h : DropsRepeats [] policy.priority priority) :
    { policy with priority }.decide scores = policy.decide scores :=
  decide_congr rfl fun _ _ => precedes_of_dropsRepeats (h.append_right fallback)

/-- The profiles that the policy does not list, in the fallback order. -/
def missing (policy : DetectionPolicy) : List Profile :=
  fallback.filter (· ∉ policy.priority)

theorem mem_priority_append_missing (policy : DetectionPolicy) (p : Profile) :
    p ∈ policy.priority ++ policy.missing := by
  by_cases hp : p ∈ policy.priority
  · exact List.mem_append_left _ hp
  · refine List.mem_append_right _ (List.mem_filter.mpr ⟨mem_fallback p, ?_⟩)
    exact decide_eq_true hp

/-- Unlisted profiles may be listed at the end: both lists of preferences hold
the same profiles, some of them repeated. -/
theorem decide_complete (policy : DetectionPolicy) (scores : Scores) :
    { policy with priority := policy.priority ++ policy.missing }.decide scores =
      policy.decide scores := by
  let listed := policy.priority ++ policy.missing
  let complete : DetectionPolicy := { policy with priority := listed }
  have hpolicy : DropsRepeats [] policy.preferences listed := by
    refine .append_left policy.priority (.filter fun p _ hlisted => ?_)
    simpa using hlisted
  have hcomplete : DropsRepeats [] complete.preferences (listed ++ []) := by
    have hseen (p : Profile) : p ∈ listed.reverse ++ [] := by
      rw [List.append_nil, List.mem_reverse]
      exact policy.mem_priority_append_missing p
    have hnone : DropsRepeats (listed.reverse ++ []) fallback
        (fallback.filter fun _ => false) := .filter fun p _ _ => hseen p
    exact .append_left listed hnone
  rw [List.append_nil] at hcomplete
  refine decide_congr rfl fun p q => ?_
  rw [precedes_iff_idxOf, precedes_iff_idxOf,
    ← hpolicy.idxOf_lt_iff List.not_mem_nil List.not_mem_nil]
  exact (hcomplete.idxOf_lt_iff List.not_mem_nil List.not_mem_nil).symm

/-- A winner that rises stays the winner. -/
theorem decide_set_of_winner {n : Nat} (h : policy.decide scores = some p)
    (hrise : scores.get p ≤ n) :
    policy.decide (scores.set n p) = some p := by
  have hchosen : policy.Chooses scores p := decide_eq_some_iff.mp h
  refine decide_eq_some_iff.mpr (hchosen.of_favoured ?_ fun q hq => ?_)
  · rw [Scores.get_set_self]
    exact hrise
  · exact Nat.le_of_eq (scores.get_set_of_ne n hq)

/-- A profile that has not won loses nothing for others when it falls. -/
theorem decide_set_of_loser {n : Nat} (h : policy.decide scores ≠ some p)
    (hfall : n ≤ scores.get p) :
    policy.decide (scores.set n p) = policy.decide scores := by
  have hle (q : Profile) : (scores.set n p).get q ≤ scores.get q := by
    by_cases hq : q = p
    · rw [hq, Scores.get_set_self]
      exact hfall
    · exact Nat.le_of_eq (scores.get_set_of_ne n hq)
  cases hdecide : policy.decide scores with
  | none =>
    refine decide_eq_none_iff.mpr fun q => ?_
    exact Nat.lt_of_le_of_lt (hle q) (decide_eq_none_iff.mp hdecide q)
  | some winner =>
    have hne : winner ≠ p := fun heq => h (heq ▸ hdecide)
    have hchosen : policy.Chooses scores winner :=
      decide_eq_some_iff.mp hdecide
    refine decide_eq_some_iff.mpr (hchosen.of_favoured ?_ fun q _ => hle q)
    exact Nat.le_of_eq (scores.get_set_of_ne n hne).symm

/-- Of any scores, none is decided on exactly if all are below the threshold, and
otherwise the one profile with the highest score that precedes all others with
this score.  Repeated entries of the priorities and unlisted profiles at their
end make no difference, and neither do a winner that rises and a loser that
falls. -/
theorem decide_eq_foremost (policy : DetectionPolicy) (scores : Scores) :
    IsStrictTotalOrder Profile policy.Precedes ∧
      (∃! p, policy.Foremost scores p) ∧
      (policy.decide scores = none ↔
        ∀ p, scores.get p < policy.minConfidence) ∧
      (∀ p, policy.decide scores = some p ↔
        (∃ q, policy.minConfidence ≤ scores.get q) ∧
          policy.Foremost scores p) ∧
      (∀ priority, DropsRepeats [] policy.priority priority →
        { policy with priority }.decide scores = policy.decide scores) ∧
      { policy with priority := policy.priority ++ policy.missing }.decide
          scores = policy.decide scores ∧
      (∀ p n, policy.decide scores = some p → scores.get p ≤ n →
        policy.decide (scores.set n p) = some p) ∧
      (∀ p n, policy.decide scores ≠ some p → n ≤ scores.get p →
        policy.decide (scores.set n p) = policy.decide scores) := by
  refine ⟨policy.isStrictTotalOrder_precedes, policy.existsUnique_foremost scores,
    decide_eq_none_iff, fun p => ?_, fun _ h => decide_dropsRepeats scores h,
    policy.decide_complete scores, fun _ _ => decide_set_of_winner,
    fun _ _ => decide_set_of_loser⟩
  rw [decide_eq_some_iff, chooses_iff]

/-- A profile that is listed twice still goes before one that is not listed. -/
example :
    let policy : DetectionPolicy := ⟨0, [.deploy, .deploy]⟩
    policy.decide ⟨2, 2, 1⟩ = some .deploy := by
  decide

end DetectionPolicy

end Preflight
