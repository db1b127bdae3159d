import Mathlib.Data.List.Basic
import Mathlib.Data.List.Nodup

/-!
# Sorted lists

Where only equal elements come at the same place of an order, a list is sorted in one way, whatever
order its elements were given in. So it is with an order by places and names, where no two elements
have one name.
-/

namespace ContextSets

variable {α : Type} {le : α → α → Bool} {list other : List α}

/-- Lists with the same elements are sorted alike. -/
theorem mergeSort_congr (htrans : ∀ a b c, le a b = true → le b c = true → le a c = true)
    (htotal : ∀ a b, (le a b || le b a) = true)
    (hantisymm : ∀ a ∈ list, ∀ b ∈ list, le a b = true → le b a = true → a = b)
    (hperm : list.Perm other) : list.mergeSort le = other.mergeSort le := by
  have hsorted := List.pairwise_mergeSort htrans htotal list
  have hsorted' := List.pairwise_mergeSort htrans htotal other
  apply List.Perm.eq_of_pairwise _ hsorted hsorted'
  · exact (List.mergeSort_perm list le).trans (hperm.trans (List.mergeSort_perm other le).symm)
  · intro a b ha hb hab hba
    have hmem : a ∈ list := (List.mergeSort_perm list le).mem_iff.mp ha
    have hmem' : b ∈ list := hperm.mem_iff.mpr ((List.mergeSort_perm other le).mem_iff.mp hb)
    exact hantisymm a hmem b hmem' hab hba

/-- Lists that are sorted alike have the same elements. -/
theorem perm_of_mergeSort_eq (h : list.mergeSort le = other.mergeSort le) : list.Perm other := by
  have hperm := List.mergeSort_perm list le
  rw [h] at hperm
  exact hperm.symm.trans (List.mergeSort_perm other le)

/-! ### The order of texts -/

theorem string_le_trans (a b c : String) (hab : decide (a ≤ b) = true)
    (hbc : decide (b ≤ c) = true) : decide (a ≤ c) = true :=
  decide_eq_true (String.le_trans (of_decide_eq_true hab) (of_decide_eq_true hbc))

theorem string_le_total (a b : String) : (decide (a ≤ b) || decide (b ≤ a)) = true := by
  rw [Bool.or_eq_true, decide_eq_true_iff, decide_eq_true_iff]
  exact String.le_total a b

/-! ### Orders by places and names -/

/-- An order puts higher places first, and goes by name where two places are the same. -/
def RanksBy (le : α → α → Bool) (place : α → Int) (name : α → String) : Prop :=
  ∀ a b, le a b = true ↔ place b < place a ∨ place a = place b ∧ name a ≤ name b

namespace RanksBy

variable {place : α → Int} {name : α → String} (hranks : RanksBy le place name)

include hranks

theorem total (a b : α) : (le a b || le b a) = true := by
  rw [Bool.or_eq_true, hranks a b, hranks b a]
  rcases Int.lt_trichotomy (place a) (place b) with h | h | h
  · exact .inr (.inl h)
  · exact (String.le_total (name a) (name b)).imp (fun hle => .inr ⟨h, hle⟩)
      fun hle => .inr ⟨h.symm, hle⟩
  · exact .inl (.inl h)

theorem trans (a b c : α) (hab : le a b = true) (hbc : le b c = true) : le a c = true := by
  rw [hranks] at hab hbc ⊢
  rcases hab with hab | ⟨hab, hle⟩
  · left
    omega
  · rcases hbc with hbc | ⟨hbc, hle'⟩
    · left
      omega
    · exact .inr ⟨hab.trans hbc, String.le_trans hle hle'⟩

/-- Two elements that come before each other have one name. -/
theorem name_eq {a b : α} (hab : le a b = true) (hba : le b a = true) : name a = name b := by
  rw [hranks] at hab hba
  rcases hab with hab | ⟨hab, hle⟩
  · omega
  · rcases hba with hba | ⟨-, hle'⟩
    · omega
    · exact String.le_antisymm hle hle'

/-- Elements with distinct names are sorted in one way. -/
theorem mergeSort_perm (hperm : list.Perm other) (hnames : (list.map name).Nodup) :
    list.mergeSort le = other.mergeSort le := by
  apply mergeSort_congr hranks.trans hranks.total _ hperm
  intro a ha b hb hab hba
  exact List.inj_on_of_nodup_map hnames ha hb (hranks.name_eq hab hba)

/-- Elements with distinct names are sorted strictly. -/
theorem pairwise_mergeSort (hnames : (list.map name).Nodup) :
    (list.mergeSort le).Pairwise
      fun a b => place b < place a ∨ place a = place b ∧ name a < name b := by
  have hsorted := List.pairwise_mergeSort hranks.trans hranks.total list
  have hdistinct : ((list.mergeSort le).map name).Nodup :=
    ((List.mergeSort_perm list le).map name).nodup_iff.mpr hnames
  refine (hsorted.and (List.pairwise_map.mp hdistinct)).imp ?_
  rintro a b ⟨hle, hne⟩
  refine ((hranks a b).mp hle).imp_right fun ⟨hplace, hname⟩ => ⟨hplace, ?_⟩
  exact String.not_le.mp fun hle' => hne (String.le_antisymm hname hle')

end RanksBy

/-- Distinct texts are sorted in strictly ascending order. -/
theorem pairwise_lt_mergeSort {texts : List String} (h : texts.Nodup) :
    (texts.mergeSort fun a b => decide (a ≤ b)).Pairwise (· < ·) := by
  have hranks : RanksBy (fun a b : String => decide (a ≤ b)) (fun _ => 0) id := by
    intro a b
    simp
  refine (hranks.pairwise_mergeSort (by rwa [List.map_id])).imp ?_
  rintro a b (hplace | ⟨-, hlt⟩)
  · exact absurd hplace (Int.lt_irrefl 0)
  · exact hlt

end ContextSets
