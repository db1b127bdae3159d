import ContextSets.Text.Lines
import Mathlib.Data.String.Basic

/-!
# Complete lines and cuts

Behind a line feed a new line begins, so the lines of a text that consists of complete lines stand in
front of the lines of whatever follows it. A cut keeps the longest start of a text that fits: every
start within the room is a start of the cut.
-/

namespace ContextSets.Text

variable {front back text : List Char}

/-! ### Lines -/

/-- A text consists of complete lines: it is empty, or a line feed stands at its end. -/
def EndsLine (text : List Char) : Prop :=
  text = [] ∨ text.getLast? = some '\n'

theorem linesFrom_of_ne {c : Char} (h : c ≠ '\n') (line rest : List Char) :
    linesFrom line (c :: rest) = linesFrom (c :: line) rest :=
  if_neg h

/-- At a line feed a line ends, whatever follows. -/
theorem exists_linesFrom_newline (line : List Char) :
    ∃ ended, ∀ rest, linesFrom line ('\n' :: rest) = ended :: linesFrom [] rest :=
  ⟨_, fun _ => rfl⟩

theorem linesFrom_append (h : front.getLast? = some '\n') (line back : List Char) :
    linesFrom line (front ++ back) = linesFrom line front ++ linesFrom [] back := by
  induction front generalizing line with
  | nil => cases h
  | cons c rest ih =>
    by_cases hc : c = '\n'
    · subst hc
      obtain ⟨ended, hended⟩ := exists_linesFrom_newline line
      rw [List.cons_append, hended, hended, List.cons_append]
      cases rest with
      | nil => rfl
      | cons d rest => rw [ih (by rwa [List.getLast?_cons_cons] at h)]
    · cases rest with
      | nil => exact absurd (Option.some.inj h) hc
      | cons d rest =>
        rw [List.cons_append, linesFrom_of_ne hc, linesFrom_of_ne hc]
        exact ih (by rwa [List.getLast?_cons_cons] at h) (c :: line)

theorem lines_append (h : EndsLine front) (back : List Char) :
    lines (front ++ back) = lines front ++ lines back := by
  rcases h with rfl | h
  · rfl
  · exact linesFrom_append h [] back

theorem length_linesFrom (h : text.getLast? = some '\n') (line : List Char) :
    (linesFrom line text).length = text.count '\n' := by
  induction text generalizing line with
  | nil => cases h
  | cons c rest ih =>
    by_cases hc : c = '\n'
    · subst hc
      obtain ⟨ended, hended⟩ := exists_linesFrom_newline line
      rw [hended, List.length_cons, List.count_cons_self]
      cases rest with
      | nil => rfl
      | cons d rest => rw [ih (by rwa [List.getLast?_cons_cons] at h)]
    · cases rest with
      | nil => exact absurd (Option.some.inj h) hc
      | cons d rest =>
        rw [linesFrom_of_ne hc, List.count_cons_of_ne hc]
        exact ih (by rwa [List.getLast?_cons_cons] at h) (c :: line)

/-- There are as many complete lines as line feeds. -/
theorem length_lines (h : EndsLine text) : (lines text).length = text.count '\n' := by
  rcases h with rfl | h
  · rfl
  · exact length_linesFrom h []

theorem length_lines_of_not_mem (h : '\n' ∉ text) : (lines text).length ≤ 1 := by
  suffices hlength : ∀ line, (linesFrom line text).length ≤ 1 from hlength []
  induction text with
  | nil =>
    intro line
    unfold linesFrom
    split
    · exact Nat.zero_le 1
    · exact Nat.le_refl 1
  | cons c rest ih =>
    intro line
    obtain ⟨hc, hrest⟩ := List.ne_and_not_mem_of_not_mem_cons h
    rw [linesFrom_of_ne hc.symm]
    exact ih hrest (c :: line)

/-- A text consists of complete lines and of what stands behind the last line feed. -/
theorem exists_complete_lines (text : List Char) :
    ∃ complete rest, text = complete ++ rest ∧ EndsLine complete ∧ '\n' ∉ rest := by
  induction text with
  | nil => exact ⟨[], [], rfl, .inl rfl, List.not_mem_nil⟩
  | cons c text ih =>
    obtain ⟨complete, rest, rfl, hcomplete, hrest⟩ := ih
    rcases hcomplete with rfl | hlast
    · by_cases hc : c = '\n'
      · subst hc
        exact ⟨['\n'], rest, rfl, .inr rfl, hrest⟩
      · exact ⟨[], c :: rest, rfl, .inl rfl, List.not_mem_cons_of_ne_of_not_mem (Ne.symm hc) hrest⟩
    · refine ⟨c :: complete, rest, rfl, .inr ?_, hrest⟩
      rw [List.getLast?_cons, hlast]
      rfl

theorem length_lines_le (text : List Char) : (lines text).length ≤ text.count '\n' + 1 := by
  obtain ⟨complete, rest, rfl, hcomplete, hrest⟩ := exists_complete_lines text
  have hlast := length_lines_of_not_mem hrest
  rw [lines_append hcomplete, List.length_append, length_lines hcomplete, List.count_append,
    List.count_eq_zero.mpr hrest]
  omega

/-! ### Cuts -/

theorem fitting_cons (count room : Nat) (c : Char) (rest : List Char) :
    fitting count room (c :: rest) =
      if c.utf8Size ≤ room then fitting (count + 1) (room - c.utf8Size) rest else count :=
  rfl

theorem fitting_eq (count room : Nat) (text : List Char) :
    fitting count room text = count + fitting 0 room text := by
  induction text generalizing count room with
  | nil => rfl
  | cons c rest ih =>
    rw [fitting_cons, fitting_cons, ih (count + 1), ih (0 + 1)]
    split
    · omega
    · rfl

theorem cut_nil (room : Nat) : cut room [] = [] :=
  List.take_nil

theorem cut_cons (room : Nat) (c : Char) (rest : List Char) :
    cut room (c :: rest) =
      if c.utf8Size ≤ room then c :: cut (room - c.utf8Size) rest else [] := by
  rw [cut, fitting_cons, fitting_eq]
  split
  · rw [Nat.add_comm, List.take_succ_cons]
    rfl
  · rfl

theorem cut_prefix_self (room : Nat) (text : List Char) : cut room text <+: text :=
  List.take_prefix ..

theorem utf8Len_cut_le (room : Nat) (text : List Char) : String.utf8Len (cut room text) ≤ room := by
  induction text generalizing room with
  | nil => simp [cut_nil]
  | cons c rest ih =>
    rw [cut_cons]
    split
    · have hrest := ih (room - c.utf8Size)
      rw [String.utf8Len_cons]
      omega
    · exact Nat.zero_le room

/-- Every start of a text that fits is within the cut. -/
theorem prefix_cut {room : Nat} (h : String.utf8Len front ≤ room) (back : List Char) :
    front <+: cut room (front ++ back) := by
  induction front generalizing room with
  | nil => exact List.nil_prefix
  | cons c rest ih =>
    rw [String.utf8Len_cons] at h
    rw [List.cons_append, cut_cons, if_pos (by omega), List.cons_prefix_cons]
    exact ⟨rfl, ih (by omega)⟩

/-- A text that fits is not cut. -/
theorem cut_of_fits {room : Nat} (h : String.utf8Len text ≤ room) : cut room text = text := by
  have hwhole := prefix_cut h []
  rw [List.append_nil] at hwhole
  exact (hwhole.eq_of_length_le (cut_prefix_self room text).length_le).symm

end ContextSets.Text
