import ContextSets.Manifest
import Mathlib.Data.List.DropRight

/-!
# Spellings of paths

A normalized path has no blank at its end, "/" between its parts and no leading "./". That makes it
its own normal spelling unless it starts with a blank: the ends are trimmed before the leading "./"
are taken off, so a blank after them comes to light and stays.
-/

namespace ContextSets.Manifest

open Text

/-- Whether a path starts with a blank. -/
def startsBlank (path : String) : Bool :=
  path.toList.head?.any isBlank

theorem startsBlank_eq_false_iff {path : String} :
    startsBlank path = false ↔ ∀ c ∈ path.toList.head?, isBlank c = false := by
  unfold startsBlank
  cases path.toList.head? <;> simp

/-- What every normalized path is like. -/
structure Plain (cs : List Char) : Prop where
  separators : '\\' ∉ cs
  end_not_blank : ∀ c ∈ cs.getLast?, isBlank c = false
  no_dots : dropDots cs = cs

variable {cs : List Char}

/-! ### Trimming -/

theorem getLast?_trim {c : Char} (h : c ∈ (trim cs).getLast?) : isBlank c = false := by
  have hne : trim cs ≠ [] := by
    rintro hnil
    rw [hnil] at h
    cases h
  obtain rfl := Option.some.inj ((List.getLast?_eq_some_getLast hne).symm.trans h)
  exact Bool.eq_false_iff.mpr (List.rdropWhile_last_not isBlank _ hne)

/-- Trimming leaves a text alone that has no blanks at its ends. -/
theorem trim_eq_self (hstart : ∀ c ∈ cs.head?, isBlank c = false)
    (hend : ∀ c ∈ cs.getLast?, isBlank c = false) : trim cs = cs := by
  have hleft : trimLeft cs = cs := by
    cases cs with
    | nil => rfl
    | cons c rest => exact List.dropWhile_cons_of_neg (by simp [hstart c rfl])
  have hright : trimRight cs = cs := by
    refine List.rdropWhile_eq_self_iff.mpr fun hne => ?_
    rw [hend _ (List.getLast?_eq_some_getLast hne)]
    exact Bool.false_ne_true
  rw [trim, hleft, hright]

theorem length_trim_le (cs : List Char) : (trim cs).length ≤ (trimLeft cs).length :=
  (List.rdropWhile_prefix isBlank _).length_le

/-- A blank at the start is trimmed off. -/
theorem length_trim_lt (h : cs.head?.any isBlank = true) : (trim cs).length < cs.length := by
  cases cs with
  | nil => cases h
  | cons c rest =>
    have hrest : trimLeft (c :: rest) = trimLeft rest := List.dropWhile_cons_of_pos h
    have hle : (trimLeft rest).length ≤ rest.length := (List.dropWhile_suffix isBlank).length_le
    have htrim := length_trim_le (c :: rest)
    rw [hrest] at htrim
    rw [List.length_cons]
    omega

/-! ### Leading dots -/

theorem dropDots_suffix (cs : List Char) : dropDots cs <:+ cs := by
  fun_induction dropDots cs with
  | case1 rest ih => exact ih.trans (List.suffix_append ['.', '/'] rest)
  | case2 path => exact List.suffix_rfl

theorem dropDots_dropDots (cs : List Char) : dropDots (dropDots cs) = dropDots cs := by
  fun_induction dropDots cs with
  | case1 rest ih => exact ih
  | case2 path hnone => rw [dropDots.eq_2 path hnone]

/-! ### Normalized paths -/

/-- A separator as it is written in a normalized path. -/
def separator (c : Char) : Char :=
  if c = '\\' then '/' else c

theorem separator_ne (c : Char) : separator c ≠ '\\' := by
  unfold separator
  split
  · decide
  · assumption

theorem isBlank_separator {c : Char} (h : isBlank c = false) : isBlank (separator c) = false := by
  unfold separator
  split
  · decide
  · exact h

theorem map_separator (h : '\\' ∉ cs) : cs.map separator = cs := by
  refine (List.map_congr_left fun c hc => ?_).trans (List.map_id cs)
  exact if_neg (ne_of_mem_of_not_mem hc h)

theorem toList_normalize (path : String) :
    (normalize path).toList = dropDots ((trim path.toList).map separator) :=
  String.toList_ofList

theorem plain_normalize (path : String) : Plain (normalize path).toList := by
  rw [toList_normalize]
  have hsuffix := dropDots_suffix ((trim path.toList).map separator)
  refine ⟨fun hmem => ?_, fun c hc => ?_, dropDots_dropDots _⟩
  · obtain ⟨c, -, hc⟩ := List.mem_map.mp (hsuffix.subset hmem)
    exact separator_ne c hc
  -- what is left after the dots ends like the whole
  · have hlast : c ∈ ((trim path.toList).map separator).getLast? := by
      obtain ⟨front, hfront⟩ := hsuffix
      rw [← hfront, List.getLast?_append, Option.mem_def.mp hc]
      rfl
    rw [List.getLast?_map] at hlast
    obtain ⟨old, hold, rfl⟩ := Option.map_eq_some_iff.mp hlast
    exact isBlank_separator (getLast?_trim hold)

/-- A path that starts with a slash is normalized to one that does. -/
theorem head?_normalize {path : String} (h : path.toList.head? = some '/') :
    (normalize path).toList.head? = some '/' := by
  obtain ⟨rest, hpath⟩ : ∃ rest, path.toList = '/' :: rest := ⟨_, List.eq_cons_of_mem_head? h⟩
  have hleft : trimLeft ('/' :: rest) = '/' :: rest := List.dropWhile_cons_of_neg (by decide)
  obtain ⟨behind, hbehind⟩ := List.rdropWhile_prefix isBlank ('/' :: rest)
  have htrim : trim path.toList = ('/' :: rest).rdropWhile isBlank := by
    rw [hpath, trim, hleft]
    rfl
  rw [toList_normalize, htrim]
  cases hkept : ('/' :: rest).rdropWhile isBlank with
  | nil =>
    have hblank := List.rdropWhile_eq_nil_iff.mp hkept '/' List.mem_cons_self
    cases hblank
  | cons c kept =>
    rw [hkept] at hbehind
    cases (List.cons.inj hbehind).1
    rfl

/-- A plain path is its own normal spelling exactly if it does not start with a blank. -/
theorem Plain.normalize_eq_iff {path : String} (h : Plain path.toList) :
    normalize path = path ↔ startsBlank path = false := by
  rw [← String.toList_inj, toList_normalize]
  constructor
  · intro hsame
    by_contra hblank
    have hshort := length_trim_lt (Bool.of_not_eq_false hblank)
    have hdots := (dropDots_suffix ((trim path.toList).map separator)).length_le
    rw [hsame, List.length_map] at hdots
    omega
  · intro hstart
    rw [trim_eq_self (startsBlank_eq_false_iff.mp hstart) h.end_not_blank,
      map_separator h.separators, h.no_dots]

/-- Normalizing twice is normalizing once unless a blank has come to light. -/
theorem normalize_normalize_iff (path : String) :
    normalize (normalize path) = normalize path ↔ startsBlank (normalize path) = false :=
  (plain_normalize path).normalize_eq_iff

/-- A path without a backslash and without a blank at its ends. -/
structure Verbatim (path : String) : Prop where
  separators : '\\' ∉ path.toList
  start_not_blank : startsBlank path = false
  end_not_blank : ∀ c ∈ path.toList.getLast?, isBlank c = false

theorem verbatim_iff {path : String} :
    Verbatim path ↔ '\\' ∉ path.toList ∧ startsBlank path = false ∧
      ∀ c ∈ path.toList.getLast?, isBlank c = false :=
  ⟨fun h => ⟨h.separators, h.start_not_blank, h.end_not_blank⟩, fun h => ⟨h.1, h.2.1, h.2.2⟩⟩

instance (path : String) : Decidable (Verbatim path) :=
  -- named here since an instance that tries every character may be found first
  haveI : Decidable (∀ c ∈ path.toList.getLast?, isBlank c = false) :=
    Option.decidableForallMem path.toList.getLast?
  decidable_of_iff _ verbatim_iff.symm

/-- Paths that do not start with "./" are stored as they are spelled exactly if they are verbatim. -/
theorem normalize_eq_self_iff {path : String} (hdots : dropDots path.toList = path.toList) :
    normalize path = path ↔ Verbatim path := by
  constructor
  · intro h
    have hplain := plain_normalize path
    rw [h] at hplain
    exact ⟨hplain.separators, hplain.normalize_eq_iff.mp h, hplain.end_not_blank⟩
  · intro h
    have hplain : Plain path.toList := ⟨h.separators, h.end_not_blank, hdots⟩
    exact hplain.normalize_eq_iff.mpr h.start_not_blank

/-- Verbatim paths are normalized by taking the dots off. -/
theorem Verbatim.normalize_eq {path : String} (h : Verbatim path) :
    normalize path = String.ofList (dropDots path.toList) := by
  rw [← String.toList_inj, toList_normalize, String.toList_ofList,
    trim_eq_self (startsBlank_eq_false_iff.mp h.start_not_blank) h.end_not_blank,
    map_separator h.separators]

/-! ### Paths with dots in front -/

/-- A path with "./" in front of it, some times. -/
def dotted : Nat → String → String
  | 0, path => path
  | count + 1, path => "./" ++ dotted count path

theorem toList_dotted_succ (count : Nat) (path : String) :
    (dotted (count + 1) path).toList = '.' :: '/' :: (dotted count path).toList := by
  rw [dotted, String.toList_append]
  rfl

theorem dropDots_dotted (count : Nat) (path : String) :
    dropDots (dotted count path).toList = dropDots path.toList := by
  induction count with
  | zero => rfl
  | succ count ih => rw [toList_dotted_succ, dropDots.eq_1, ih]

/-- A path is what is left of it when the dots are taken off, with some of them in front. -/
theorem exists_dotted (path : String) :
    ∃ count, path = dotted count (String.ofList (dropDots path.toList)) := by
  suffices h : ∀ cs, ∃ count, cs = (dotted count (String.ofList (dropDots cs))).toList by
    obtain ⟨count, hcount⟩ := h path.toList
    exact ⟨count, String.toList_inj.mp hcount⟩
  intro cs
  fun_induction dropDots cs with
  | case1 rest ih =>
    obtain ⟨count, hcount⟩ := ih
    exact ⟨count + 1, by rw [toList_dotted_succ, ← hcount]⟩
  | case2 cs hdots => exact ⟨0, String.toList_ofList.symm⟩

/-- Taking the dots off leads to a path without dots exactly if dots alone stand in front of it. -/
theorem dropDots_eq_iff {path other : String} (hother : dropDots other.toList = other.toList) :
    dropDots path.toList = other.toList ↔ ∃ count, path = dotted count other := by
  constructor
  · intro h
    obtain ⟨count, hcount⟩ := exists_dotted path
    rw [h, String.ofList_toList] at hcount
    exact ⟨count, hcount⟩
  · rintro ⟨count, rfl⟩
    rw [dropDots_dotted, hother]

end ContextSets.Manifest
