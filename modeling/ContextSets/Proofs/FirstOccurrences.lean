import Mathlib.Data.List.Nodup

/-!
# First occurrences

A list without its repetitions has the first occurrence of each member. What is said of it follows the
list from its head, each time without the later occurrences of the head.
-/

namespace ContextSets

variable {α : Type} [BEq α]

/-- An induction on lists in which the head does not come again in the rest. -/
theorem firstOccurrences_induction {P : List α → Prop} (nil : P [])
    (cons : ∀ x rest, P (rest.filter fun y => !y == x) → P (x :: rest)) (xs : List α) : P xs := by
  induction hlength : xs.length using Nat.strongRecOn generalizing xs with
  | ind n ih =>
    cases xs with
    | nil => exact nil
    | cons x rest =>
      have hle := List.length_filter_le (fun y => !y == x) rest
      rw [List.length_cons] at hlength
      exact cons x rest (ih _ (by omega) _ rfl)

variable [LawfulBEq α]

theorem nodup_eraseDups (xs : List α) : xs.eraseDups.Nodup := by
  induction xs using firstOccurrences_induction with
  | nil => exact List.nodup_nil
  | cons x rest ih =>
    rw [List.eraseDups_cons, List.nodup_cons]
    exact ⟨by simp, ih⟩

theorem eraseDups_of_nodup {xs : List α} (h : xs.Nodup) : xs.eraseDups = xs := by
  induction xs with
  | nil => rfl
  | cons x rest ih =>
    obtain ⟨hx, hrest⟩ := List.nodup_cons.mp h
    have hother : rest.filter (fun y => !y == x) = rest := by
      refine List.filter_eq_self.mpr fun y hy => ?_
      have hne : y ≠ x := ne_of_mem_of_not_mem hy hx
      simpa using hne
    rw [List.eraseDups_cons, hother, ih hrest]

/-- Of the members that pass a test the same occurrences come first. -/
theorem eraseDups_filter (test : α → Bool) (xs : List α) :
    (xs.filter test).eraseDups = xs.eraseDups.filter test := by
  induction xs using firstOccurrences_induction with
  | nil => rfl
  | cons x rest ih =>
    rw [List.eraseDups_cons]
    cases hx : test x with
    | true =>
      rw [List.filter_cons_of_pos hx, List.filter_cons_of_pos hx, List.eraseDups_cons,
        List.filter_filter, ← ih, List.filter_filter]
      simp only [Bool.and_comm]
    -- what passes the test is not the head
    | false =>
      have hother : (rest.filter fun y => !y == x).filter test = rest.filter test := by
        rw [List.filter_filter]
        refine List.filter_congr fun y _ => ?_
        cases hy : test y with
        | false => rfl
        | true =>
          have hne : y ≠ x := fun heq => by simp [heq, hx] at hy
          simpa using hne
      rw [List.filter_cons_of_neg (by rw [hx]; exact Bool.false_ne_true),
        List.filter_cons_of_neg (by rw [hx]; exact Bool.false_ne_true), ← ih, hother]

/-- Behind another list those members occur first that the other does not have. -/
theorem eraseDups_append (xs ys : List α) :
    (xs ++ ys).eraseDups = xs.eraseDups ++ ys.eraseDups.filter (!xs.eraseDups.contains ·) := by
  rw [List.eraseDups_append, List.removeAll, eraseDups_filter]
  congr 1
  refine List.filter_congr fun y _ => ?_
  simp [List.mem_eraseDups]

end ContextSets
