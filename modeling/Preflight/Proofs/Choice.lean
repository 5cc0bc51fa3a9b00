import Mathlib.Data.List.Basic
import Preflight.Detection

/-!
# How a profile is chosen

`DetectionPolicy.Chooses` says of a profile that it is the one to choose: no
other has a higher score, its score reaches the threshold, and of several such
profiles it stands first in `DetectionPolicy.preferences`.

`decide_eq_some_iff` and `decide_eq_none_iff` say that this is what a policy
decides.  The profiles are compared by `rank`, which is their place in the order
of preference (`rank_eq`), so no two of them compare equal
(`eq_of_rank_eq`).
-/

namespace Preflight

/-! ## Least members -/

section

variable {α : Type} {key : α → Nat} {l : List α} {a : α}

theorem leastBy_eq_none_iff : leastBy key l = none ↔ l = [] := by
  cases l with
  | nil => exact ⟨fun _ => rfl, fun _ => rfl⟩
  | cons b l =>
    unfold leastBy
    cases leastBy key l with
    | none => simp
    | some c =>
      show (if key c < key b then some c else some b) = none ↔ _
      split <;> simp

theorem mem_of_leastBy (h : leastBy key l = some a) : a ∈ l := by
  induction l with
  | nil => cases h
  | cons b l ih =>
    unfold leastBy at h
    cases hrest : leastBy key l with
    | none =>
      rw [hrest] at h
      cases h
      exact List.mem_cons_self
    | some c =>
      rw [hrest] at h ih
      simp only at h
      split at h
      · exact List.mem_cons_of_mem b (ih h)
      · cases h
        exact List.mem_cons_self

theorem le_of_leastBy (h : leastBy key l = some a) :
    ∀ b ∈ l, key a ≤ key b := by
  induction l generalizing a with
  | nil => cases h
  | cons b l ih =>
    unfold leastBy at h
    cases hrest : leastBy key l with
    | none =>
      rw [hrest] at h
      cases h
      have hnil : l = [] := leastBy_eq_none_iff.mp hrest
      intro c hc
      rw [hnil, List.mem_singleton] at hc
      exact Nat.le_of_eq (congrArg key hc.symm)
    | some c =>
      rw [hrest] at h
      simp only at h
      intro d hd
      have hlater : d ∈ l → key c ≤ key d := fun hd => ih hrest d hd
      rcases List.mem_cons.mp hd with rfl | hd
      · split at h <;> cases h <;> omega
      · have := hlater hd
        split at h <;> cases h <;> omega

end

/-! ## Highest scores -/

namespace Scores

variable (scores : Scores)

theorem get_le_max (p : Profile) : scores.get p ≤ scores.max := by
  unfold max
  cases p <;> simp only [get] <;> omega

theorem exists_get_eq_max : ∃ p, scores.get p = scores.max := by
  have hmax : scores.inventory = scores.max ∨ scores.deploy = scores.max ∨
      scores.connect = scores.max := by
    unfold max
    omega
  rcases hmax with h | h | h
  · exact ⟨.inventory, h⟩
  · exact ⟨.deploy, h⟩
  · exact ⟨.connect, h⟩

/-- A profile has the highest score if no other has a higher one. -/
theorem get_eq_max_iff {p : Profile} :
    scores.get p = scores.max ↔ ∀ q, scores.get q ≤ scores.get p := by
  constructor
  · intro h q
    have := scores.get_le_max q
    omega
  · intro h
    have ⟨q, hq⟩ := scores.exists_get_eq_max
    have hle := h q
    have hge := scores.get_le_max p
    omega

theorem max_lt_iff {n : Nat} : scores.max < n ↔ ∀ p, scores.get p < n := by
  constructor
  · intro h p
    have := scores.get_le_max p
    omega
  · intro h
    have ⟨q, hq⟩ := scores.exists_get_eq_max
    have := h q
    omega

end Scores

/-! ## The order of preference -/

namespace DetectionPolicy

variable (policy : DetectionPolicy) {scores : Scores} {p q : Profile}

/-- All profiles in the order of preference: those that the policy lists, then
the fallback order.  The first mention of a profile counts. -/
def preferences : List Profile := policy.priority ++ fallback

theorem mem_fallback (p : Profile) : p ∈ fallback := by
  cases p <;> decide

theorem mem_preferences (p : Profile) : p ∈ policy.preferences :=
  List.mem_append_right _ (mem_fallback p)

/-- The rank of a profile is its place. -/
theorem rank_eq (p : Profile) : policy.rank p = policy.preferences.idxOf p := by
  unfold rank preferences
  split
  · rename_i hlisted
    exact (List.idxOf_append_of_mem hlisted).symm
  · rename_i hunlisted
    exact (List.idxOf_append_of_notMem hunlisted).symm

theorem eq_of_rank_eq (h : policy.rank p = policy.rank q) : p = q := by
  rw [rank_eq, rank_eq] at h
  exact (List.idxOf_inj (policy.mem_preferences p)).mp h

/-- The profile is the one to choose. -/
structure Chooses (scores : Scores) (p : Profile) : Prop where
  maximal : ∀ q, scores.get q ≤ scores.get p
  confident : policy.minConfidence ≤ scores.get p
  first : ∀ q, scores.get q = scores.get p → q ≠ p →
    policy.preferences.idxOf p < policy.preferences.idxOf q

variable {policy}

/-- At most one profile is the one to choose. -/
theorem Chooses.eq (hp : policy.Chooses scores p) (hq : policy.Chooses scores q) :
    p = q := by
  by_contra hne
  have hscore : scores.get q = scores.get p :=
    Nat.le_antisymm (hp.maximal q) (hq.maximal p)
  have hfirst := hp.first q hscore (Ne.symm hne)
  have hsecond := hq.first p hscore.symm hne
  omega

/-- A profile stays the one to choose when its own score rises and others
fall. -/
theorem Chooses.of_favoured {favoured : Scores} (h : policy.Chooses scores p)
    (hrise : scores.get p ≤ favoured.get p)
    (hfall : ∀ q, q ≠ p → favoured.get q ≤ scores.get q) :
    policy.Chooses favoured p where
  maximal q := by
    by_cases hq : q = p
    · exact Nat.le_of_eq (congrArg favoured.get hq)
    · have := hfall q hq
      have := h.maximal q
      omega
  confident := Nat.le_trans h.confident hrise
  first q hscore hq := by
    have := hfall q hq
    have := h.maximal q
    exact h.first q (by omega) hq

/-- A profile with the highest score and the least rank is the one to choose,
if its score reaches the threshold. -/
theorem chooses_of_decide (h : policy.decide scores = some p) :
    policy.Chooses scores p := by
  unfold decide at h
  split at h
  · cases h
  · rename_i hconfident
    have hmem := mem_of_leastBy h
    have hleast := le_of_leastBy h
    have hmax : scores.get p = scores.max := by
      simpa using (List.mem_filter.mp hmem).2
    refine ⟨scores.get_eq_max_iff.mp hmax, by omega, ?_⟩
    intro q hscore hne
    have hall : q ∈ Profile.all := by cases q <;> decide
    have hq : q ∈ Profile.all.filter fun p => scores.get p == scores.max := by
      rw [List.mem_filter]
      exact ⟨hall, by simpa using hscore.trans hmax⟩
    have hrank : policy.rank p ≤ policy.rank q := hleast q hq
    have hdiffer : policy.rank p ≠ policy.rank q := fun heq =>
      hne (eq_of_rank_eq policy heq).symm
    rw [← rank_eq, ← rank_eq]
    omega

/-- No profile is decided on exactly if every score is below the threshold. -/
theorem decide_eq_none_iff :
    policy.decide scores = none ↔ ∀ p, scores.get p < policy.minConfidence := by
  rw [← scores.max_lt_iff]
  unfold decide
  constructor
  · intro h
    split at h
    · assumption
    · have hnone := leastBy_eq_none_iff.mp h
      have ⟨p, hp⟩ := scores.exists_get_eq_max
      have hall : p ∈ Profile.all := by cases p <;> decide
      have hmem : p ∈ Profile.all.filter fun p => scores.get p == scores.max := by
        rw [List.mem_filter]
        exact ⟨hall, by simpa using hp⟩
      rw [hnone] at hmem
      cases hmem
  · intro h
    rw [if_pos h]

/-- The profile that is decided on is the one to choose. -/
theorem decide_eq_some_iff :
    policy.decide scores = some p ↔ policy.Chooses scores p := by
  constructor
  · exact chooses_of_decide
  · intro h
    cases hdecide : policy.decide scores with
    | none =>
      have hbelow := decide_eq_none_iff.mp hdecide p
      have hconfident := h.confident
      omega
    | some q =>
      rw [(chooses_of_decide hdecide).eq h]

end DetectionPolicy

end Preflight
