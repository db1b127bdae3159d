import ContextSets.SetName

/-!
# Bare and prefixed names

Taking prefixes off is idempotent and undoes prefixing, so a bare name stands for all its spellings.
-/

namespace ContextSets.SetName

theorem bareChars_bareChars (name : List Char) : bareChars (bareChars name) = bareChars name := by
  fun_induction bareChars name with
  | case1 rest ih => exact ih
  | case2 name h =>
    rw [bareChars]
    exact h

@[simp] theorem bare_bare (name : String) : bare (bare name) = bare name := by
  simp only [bare, String.toList_ofList, bareChars_bareChars]

theorem toList_prefixed (name : String) :
    (prefixed name).toList = label.toList ++ (bare name).toList :=
  String.toList_append

@[simp] theorem bare_prefixed (name : String) : bare (prefixed name) = bare name := by
  have hlabel : label.toList = ['c', 'o', 'n', 't', 'e', 'x', 't', ':'] := rfl
  -- one step of `bareChars` takes the label off, and what is left is bare
  have hchars : bareChars (prefixed name).toList = bareChars (bare name).toList := by
    rw [toList_prefixed, hlabel]
    simp only [List.cons_append, List.nil_append, bareChars]
  calc bare (prefixed name)
      = bare (bare name) := congrArg String.ofList hchars
    _ = bare name := bare_bare name

/-- Names without a prefix are told apart by their prefixed forms. -/
theorem prefixed_inj {name other : String} (hname : bare name = name) (hother : bare other = other)
    (h : prefixed name = prefixed other) : name = other := by
  rw [← hname, ← hother, ← bare_prefixed name, ← bare_prefixed other, h]

end ContextSets.SetName
