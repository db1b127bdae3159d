import ContextSets.Text.LetterCase
import Mathlib.Data.List.Pairwise
import Mathlib.Data.List.TakeWhile

/-!
# Capitals and small letters

A capital is neither a small letter nor a digit. Where Unicode tables tell, their runs are in ascending
order, so one pass over both tables shows that no code point lies in runs of both.
-/

namespace ContextSets.Text

variable {c : Char} {point : Nat}

namespace Run

/-! ### Runs apart from each other -/

/-- Whether no code point lies in both of two runs: one ends before the other starts, or each leaves
out every second point and they differ in which, or one is a single point that the other leaves out. -/
def apart (one other : Run) : Bool :=
  one.last < other.first || other.last < one.first ||
    if one.step = 2 ∧ other.step = 2 then one.first % 2 != other.first % 2
    else one.first == one.last && !other.has one.first ||
      other.first == other.last && !one.has other.first

/-- A run has an end before which another does not start. -/
def EndsBefore (one other : Run) : Prop :=
  one.first ≤ one.last ∧ one.last < other.first

instance : DecidableRel EndsBefore :=
  fun one other => inferInstanceAs (Decidable (one.first ≤ one.last ∧ one.last < other.first))

instance : Trans EndsBefore EndsBefore EndsBefore where
  trans := by
    rintro a b c ⟨ha, hab⟩ ⟨hb, hbc⟩
    exact ⟨ha, by omega⟩

/-- Whether the runs of two ascending lists are apart from each other. From each run on, the others that
end before it are done, and only those that start within it are near. -/
def allApart : List Run → List Run → Bool
  | [], _ => true
  | one :: rest, others =>
    let left := others.dropWhile fun other => other.last < one.first
    let near := left.takeWhile fun other => other.first ≤ one.last
    near.all one.apart && allApart rest left

variable {one other : Run} {ones others : List Run}

theorem has_iff {run : Run} :
    run.has point = true ↔
      run.first ≤ point ∧ point ≤ run.last ∧ (point - run.first) % run.step = 0 := by
  simp [has, and_assoc]

theorem has_eq_false_of_apart (h : one.apart other = true) (hone : one.has point = true) :
    other.has point = false := by
  rw [Bool.eq_false_iff]
  intro hother
  obtain ⟨hfirst, hlast, hstep⟩ := has_iff.mp hone
  obtain ⟨hfirst', hlast', hstep'⟩ := has_iff.mp hother
  unfold apart at h
  split at h
  · rename_i htwo
    rw [htwo.1] at hstep
    rw [htwo.2] at hstep'
    simp at h
    omega
  · simp only [Bool.or_eq_true, decide_eq_true_iff, Bool.and_eq_true, beq_iff_eq, Bool.not_eq_true'] at h
    rcases h with (hbefore | hbehind) | ⟨hsingle, hout⟩ | ⟨hsingle, hout⟩
    · omega
    · omega
    · obtain rfl : one.first = point := by omega
      rw [hout] at hother
      cases hother
    · obtain rfl : other.first = point := by omega
      rw [hout] at hone
      cases hone

theorem mem_takeWhile_or_mem_dropWhile (test : Run → Bool) (h : other ∈ others) :
    other ∈ others.takeWhile test ∨ other ∈ others.dropWhile test := by
  rw [← List.mem_append, List.takeWhile_append_dropWhile]
  exact h

/-- Behind the runs that start up to a point, the runs of an ascending list start later. -/
theorem lt_first_of_mem_dropWhile (hothers : others.Pairwise EndsBefore)
    (h : other ∈ others.dropWhile fun other => other.first ≤ point) : point < other.first := by
  cases hleft : others.dropWhile fun other => other.first ≤ point with
  | nil =>
    rw [hleft] at h
    cases h
  | cons head rest =>
    have hhead : point < head.first := by
      have hfails := List.head?_dropWhile_not (fun other => other.first ≤ point) others
      rw [hleft] at hfails
      simpa using hfails
    have hsorted : (head :: rest).Pairwise EndsBefore :=
      hleft ▸ hothers.sublist (List.dropWhile_sublist _)
    rw [hleft] at h
    rcases List.mem_cons.mp h with rfl | hrest
    · exact hhead
    · have hbefore := (List.pairwise_cons.mp hsorted).1 other hrest
      exact Nat.lt_trans hhead (Nat.lt_of_le_of_lt hbefore.1 hbefore.2)

/-- No code point lies in runs of both of two ascending lists that are apart. -/
theorem has_eq_false_of_allApart (hones : ones.Pairwise EndsBefore)
    (hothers : others.Pairwise EndsBefore) (h : allApart ones others = true) (hone : one ∈ ones)
    (hother : other ∈ others) (hpoint : one.has point = true) : other.has point = false := by
  induction ones generalizing others with
  | nil => cases hone
  | cons first rest ih =>
    obtain ⟨hfirst, hrest⟩ := List.pairwise_cons.mp hones
    obtain ⟨hnear, hlater⟩ := Bool.and_eq_true_iff.mp h
    rcases mem_takeWhile_or_mem_dropWhile (fun other => other.last < first.first) hother
      with hdone | hleft
    · have hend : other.last < first.first := by
        simpa using List.mem_takeWhile_imp hdone
      have hstart : first.first ≤ one.first := by
        rcases List.mem_cons.mp hone with rfl | hone
        · exact Nat.le_refl _
        · have hbefore := hfirst one hone
          exact Nat.le_of_lt (Nat.lt_of_le_of_lt hbefore.1 hbefore.2)
      rw [Bool.eq_false_iff]
      intro hother
      have hlow := (has_iff.mp hpoint).1
      have hhigh := (has_iff.mp hother).2.1
      omega
    · have hsorted := hothers.sublist
        (List.dropWhile_sublist fun other => other.last < first.first)
      rcases List.mem_cons.mp hone with rfl | hone
      · rcases mem_takeWhile_or_mem_dropWhile (fun other => other.first ≤ one.last) hleft
          with hwithin | hbehind
        · exact has_eq_false_of_apart (List.all_eq_true.mp hnear other hwithin) hpoint
        · have hstart := lt_first_of_mem_dropWhile hsorted hbehind
          rw [Bool.eq_false_iff]
          intro hother
          have hhigh := (has_iff.mp hpoint).2.1
          have hlow := (has_iff.mp hother).1
          omega
      · exact ih hrest hsorted hlater hone hleft

end Run

theorem exists_run_of_inRuns {table : Array Run} (h : inRuns table c = true) :
    ∃ run ∈ table.toList, run.has c.toNat = true := by
  obtain ⟨run, hcandidate, hrun⟩ := (Option.any_eq_true _ _).mp h
  refine ⟨run, ?_, hrun⟩
  unfold candidate at hcandidate
  split at hcandidate
  · cases hcandidate
  · exact Array.mem_toList_iff.mpr (Array.mem_of_getElem? hcandidate)

/-! ### The tables of letters -/

theorem upperRuns_ascending : upperRuns.toList.Pairwise Run.EndsBefore :=
  List.isChain_iff_pairwise.mp (by decide +kernel)

theorem lowerRuns_ascending : lowerRuns.toList.Pairwise Run.EndsBefore :=
  List.isChain_iff_pairwise.mp (by decide +kernel)

theorem upperRuns_apart_lowerRuns : Run.allApart upperRuns.toList lowerRuns.toList = true := by
  decide +kernel

/-! ### Capitals -/

theorem range_of_isUpper (h : c.isUpper = true) : 65 ≤ c.toNat ∧ c.toNat ≤ 90 :=
  of_decide_eq_true h

theorem range_of_isLower (h : c.isLower = true) : 97 ≤ c.toNat ∧ c.toNat ≤ 122 :=
  (Bool.and_eq_true_iff.mp h).imp of_decide_eq_true of_decide_eq_true

theorem range_of_isDigit (h : c.isDigit = true) : 48 ≤ c.toNat ∧ c.toNat ≤ 57 :=
  (Bool.and_eq_true_iff.mp h).imp of_decide_eq_true of_decide_eq_true

/-- A capital is neither a small letter nor a digit. -/
theorem not_small_of_isUpper (h : isUpper c = true) : (isLower c || c.isDigit) = false := by
  rw [Bool.eq_false_iff, Ne, Bool.or_eq_true]
  unfold isUpper at h
  unfold isLower
  rintro (hlower | hdigit)
  · split at h
    · rename_i hascii
      rw [if_pos hascii] at hlower
      have hupper := range_of_isUpper h
      have hsmall := range_of_isLower hlower
      omega
    · rename_i hother
      rw [if_neg hother] at hlower
      obtain ⟨upper, hupper, hpoint⟩ := exists_run_of_inRuns h
      obtain ⟨lower, hrun, hpoint'⟩ := exists_run_of_inRuns hlower
      rw [Run.has_eq_false_of_allApart upperRuns_ascending lowerRuns_ascending
        upperRuns_apart_lowerRuns hupper hrun hpoint] at hpoint'
      cases hpoint'
  · have hrange := range_of_isDigit hdigit
    rw [if_pos (by omega)] at h
    have hupper := range_of_isUpper h
    omega

end ContextSets.Text
