import ContextSets.Text.Occurrence
import Mathlib.Data.List.Basic

/-!
# Parts of a text

A text is cut at every character that passes a test, into the runs of characters between. A text with
such a character in its middle has the parts of what is before it and then of what is behind it, and
each run stands as far behind the character as in the rest alone.
-/

namespace ContextSets.Text

variable {test : Char → Bool} {c : Char} {text front back run part : List Char}
  {position : Nat}

/-! ### Parts -/

theorem splitFrom_eq_splitOnPPrepend (test : Char → Bool) (part text : List Char) :
    splitFrom test part text = text.splitOnPPrepend test part := by
  induction text generalizing part with
  | nil => rfl
  | cons c rest ih => simp only [splitFrom, List.splitOnPPrepend, ih]

theorem splitBy_eq_splitOnP (test : Char → Bool) (text : List Char) :
    splitBy test text = text.splitOnP test :=
  splitFrom_eq_splitOnPPrepend test [] text

theorem splitFrom_of_none (h : ∀ c ∈ text, test c = false) (part : List Char) :
    splitFrom test part text = [part.reverse ++ text] := by
  induction text generalizing part with
  | nil => simp [splitFrom]
  | cons c rest ih =>
    obtain ⟨hc, hrest⟩ := List.forall_mem_cons.mp h
    simp [splitFrom, hc, ih hrest]

theorem splitBy_of_none (h : ∀ c ∈ text, test c = false) : splitBy test text = [text] :=
  splitFrom_of_none h []

theorem splitBy_append_cons (h : test c = true) (front back : List Char) :
    splitBy test (front ++ c :: back) = splitBy test front ++ splitBy test back := by
  simp only [splitBy_eq_splitOnP, List.splitOnP_append_cons front back h]

theorem test_of_mem_splitFrom {between : List Char} (hpart : ∀ c ∈ part, test c = false)
    (h : between ∈ splitFrom test part text) (hc : c ∈ between) : test c = false := by
  induction text generalizing part with
  | nil =>
    rw [splitFrom, List.mem_singleton] at h
    exact hpart c (List.mem_reverse.mp (h ▸ hc))
  | cons d rest ih =>
    unfold splitFrom at h
    split at h
    · rcases List.mem_cons.mp h with rfl | h
      · exact hpart c (List.mem_reverse.mp hc)
      · exact ih (List.forall_mem_nil _) h
    · rename_i hd
      exact ih (List.forall_mem_cons.mpr ⟨Bool.eq_false_iff.mpr hd, hpart⟩) h

/-- An induction on texts from one character that passes the test to the next. -/
theorem parts_induction {P : List Char → Prop} (test : Char → Bool)
    (none : ∀ text, (∀ c ∈ text, test c = false) → P text)
    (cut : ∀ front c back, (∀ c ∈ front, test c = false) → test c = true → P back →
      P (front ++ c :: back)) (text : List Char) : P text := by
  -- what has been read of the part stands in front of the text
  suffices h : ∀ front, (∀ c ∈ front, test c = false) → P (front ++ text) from
    h [] (List.forall_mem_nil _)
  induction text with
  | nil =>
    intro front hfront
    rw [List.append_nil]
    exact none front hfront
  | cons c rest ih =>
    intro front hfront
    cases hc : test c with
    | true => exact cut front c rest hfront hc (ih [] (List.forall_mem_nil _))
    | false =>
      rw [List.append_cons]
      refine ih (front ++ [c]) fun d hd => ?_
      rcases List.mem_append.mp hd with hd | hd
      · exact hfront d hd
      · exact List.mem_singleton.mp hd ▸ hc

/-! ### Characters of the parts -/

section Characters

variable {P : Char → Prop} (hP : ∀ c, test c = true → P c)

include hP

/-- What holds of the characters that cut holds of all exactly if it holds of those in the parts. -/
theorem forall_mem_splitBy (text : List Char) :
    (∀ c ∈ text, P c) ↔ ∀ part ∈ splitBy test text, ∀ c ∈ part, P c := by
  induction text using parts_induction test with
  | none text h => rw [splitBy_of_none h, List.forall_mem_singleton]
  | cut front c back hfront hc ih =>
    rw [splitBy_append_cons hc, splitBy_of_none hfront, List.forall_mem_append,
      List.forall_mem_append, List.forall_mem_singleton, List.forall_mem_cons, ih]
    exact and_congr_right fun _ => and_iff_right (hP c hc)

theorem forall_head?_splitBy (text : List Char) :
    (∀ c ∈ text.head?, P c) ↔ ∀ part ∈ (splitBy test text).head?, ∀ c ∈ part.head?, P c := by
  induction text using parts_induction test with
  | none text h =>
    rw [splitBy_of_none h]
    simp
  | cut front c back hfront hc ih =>
    rw [splitBy_append_cons hc, splitBy_of_none hfront]
    cases front with
    | nil => simpa using hP c hc
    | cons d rest => simp

theorem forall_getLast?_splitBy (text : List Char) :
    (∀ c ∈ text.getLast?, P c) ↔ ∀ part ∈ (splitBy test text).getLast?, ∀ c ∈ part.getLast?, P c := by
  induction text using parts_induction test with
  | none text h =>
    rw [splitBy_of_none h]
    simp
  | cut front c back hfront hc ih =>
    have hne : splitBy test back ≠ [] := by
      rw [splitBy_eq_splitOnP]
      exact List.splitOnP_ne_nil _ _
    rw [splitBy_append_cons hc, List.getLast?_append_of_ne_nil _ hne, ← ih,
      List.getLast?_append_of_ne_nil _ (List.cons_ne_nil c back)]
    cases back with
    | nil => simpa using hP c hc
    | cons d rest => rw [List.getLast?_cons_cons]

end Characters

/-! ### Runs -/

/-- A run at a position of a text: some characters that fail the test, as many as there are up to the
next one that passes it, or the end, and behind one that passes it, or the start. -/
def RunAt (test : Char → Bool) (text : List Char) (position : Nat) (run : List Char) : Prop :=
  ∃ before after, text = before ++ run ++ after ∧ before.length = position ∧ run ≠ [] ∧
    (∀ c ∈ run, test c = false) ∧ (∀ c ∈ before.getLast?, test c = true) ∧
    ∀ c ∈ after.head?, test c = true

theorem RunAt.le_length (h : RunAt test text position run) : position + run.length ≤ text.length := by
  obtain ⟨before, after, rfl, rfl, -⟩ := h
  simp

/-- A text without characters that pass the test is one run. -/
theorem runAt_of_none (h : ∀ c ∈ text, test c = false) :
    RunAt test text position run ↔ position = 0 ∧ run = text ∧ text ≠ [] := by
  constructor
  · intro hrun
    obtain ⟨before, after, rfl, rfl, hne, -, hbefore, hafter⟩ := hrun
    have hfails : ∀ c ∈ before ++ run ++ after, ¬ test c = true := fun c hc => by
      rw [h c hc]
      exact Bool.false_ne_true
    obtain rfl : before = [] := by
      cases hlast : before.getLast? with
      | none => exact List.getLast?_eq_none_iff.mp hlast
      | some c => exact absurd (hbefore c hlast) (hfails c (by simp [List.mem_of_getLast? hlast]))
    obtain rfl : after = [] := by
      cases hhead : after.head? with
      | none => exact List.head?_eq_none_iff.mp hhead
      | some c => exact absurd (hafter c hhead) (hfails c (by simp [List.mem_of_head? hhead]))
    simp [hne]
  · intro hrun
    obtain ⟨rfl, rfl, hne⟩ := hrun
    exact ⟨[], [], by simp, rfl, hne, h, by simp, by simp⟩

theorem RunAt.append_cons (h : RunAt test front position run) (hc : test c = true)
    (back : List Char) : RunAt test (front ++ c :: back) position run := by
  obtain ⟨before, after, rfl, hlength, hne, hrun, hbefore, hafter⟩ := h
  refine ⟨before, after ++ c :: back, by simp, hlength, hne, hrun, hbefore, ?_⟩
  cases after with
  | nil => simpa using hc
  | cons d rest => simpa using hafter

theorem RunAt.behind (h : RunAt test back position run) (hc : test c = true) (front : List Char) :
    RunAt test (front ++ c :: back) (front.length + 1 + position) run := by
  obtain ⟨before, after, rfl, rfl, hne, hrun, hbefore, hafter⟩ := h
  refine ⟨front ++ c :: before, after, by simp, by simp; omega, hne, hrun, ?_, hafter⟩
  cases before with
  | nil => simpa using hc
  | cons d rest => simpa using hbefore

/-- A run ends before a character that passes the test, or it begins behind it. -/
theorem runAt_append_cons (hc : test c = true) :
    RunAt test (front ++ c :: back) position run ↔
      RunAt test front position run ∨
        ∃ later, position = front.length + 1 + later ∧ RunAt test back later run := by
  constructor
  · intro h
    obtain ⟨before, after, heq, rfl, hne, hrun, hbefore, hafter⟩ := h
    have hnot : c ∉ run := fun hmem => by
      rw [hrun c hmem] at hc
      cases hc
    rw [List.append_assoc] at heq
    rcases List.append_eq_append_iff.mp heq with ⟨rest, rfl, hrest⟩ | ⟨rest, rfl, hrest⟩
    · right
      cases rest with
      | nil =>
        obtain ⟨d, run, rfl⟩ := List.exists_cons_of_ne_nil hne
        obtain ⟨rfl, -⟩ := List.cons.inj hrest
        exact absurd List.mem_cons_self hnot
      | cons d rest =>
        obtain ⟨rfl, rfl⟩ := List.cons.inj hrest
        refine ⟨rest.length, by simp; omega, rest, after, by simp, rfl, hne, hrun, ?_, hafter⟩
        intro d hd
        refine hbefore d ?_
        simp [List.getLast?_append, List.getLast?_cons, Option.mem_def.mp hd]
    · left
      rcases List.append_eq_append_iff.mp hrest with ⟨last, rfl, rfl⟩ | ⟨last, rfl, hlast⟩
      · refine ⟨before, last, by simp, rfl, hne, hrun, hbefore, fun d hd => hafter d ?_⟩
        simp [List.head?_append, Option.mem_def.mp hd]
      · cases last with
        | nil => exact ⟨before, [], by simp, rfl, hne, hrun, hbefore, by simp⟩
        | cons d last =>
          obtain ⟨rfl, -⟩ := List.cons.inj hlast
          simp at hnot
  · intro h
    rcases h with h | ⟨later, rfl, h⟩
    · exact h.append_cons hc back
    · exact h.behind hc front

/-- The parts with something in them are the runs. -/
theorem mem_splitBy_iff (hne : run ≠ []) :
    run ∈ splitBy test text ↔ ∃ position, RunAt test text position run := by
  induction text using parts_induction test with
  | none text h =>
    rw [splitBy_of_none h, List.mem_singleton]
    simp only [runAt_of_none h, exists_eq_left]
    exact ⟨fun heq => ⟨heq, heq ▸ hne⟩, And.left⟩
  | cut front c back hfront hc ih =>
    rw [splitBy_append_cons hc, List.mem_append, ih, splitBy_of_none hfront, List.mem_singleton]
    simp only [runAt_append_cons hc, runAt_of_none hfront, exists_or]
    refine or_congr ?_ ?_
    · simp only [exists_eq_left]
      exact ⟨fun heq => ⟨heq, heq ▸ hne⟩, And.left⟩
    · exact ⟨fun ⟨later, h⟩ => ⟨_, later, rfl, h⟩, fun ⟨_, later, _, h⟩ => ⟨later, h⟩⟩

end ContextSets.Text
