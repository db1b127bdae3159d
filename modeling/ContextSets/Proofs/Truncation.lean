import ContextSets.Proofs.LineDeclarations
import Mathlib.Logic.Relation
import Mathlib.Order.Bounds.Defs

/-!
# Truncated texts

A text that is too large is cut between two characters, as far to the right as there is room, and what
stands before the cut is analyzed. The lines that are complete there declare what they declare in the
whole text. Only the last line may declare something else, and nothing is declared behind it.
-/

namespace ContextSets

open Relation

namespace Text

/-- The start of a text within a limit. -/
def kept (limit : Nat) (text : String) : String :=
  String.ofList (cut limit text.toList)

/-- The place for a cut is looked for from the right: a position within a character is given up for
the one in front of it. -/
def StepsBack (text : String) (position next : Nat) : Prop :=
  ¬ (String.Pos.Raw.mk position).IsValid text ∧ position = next + 1

/-- A position between two characters is that behind some start of the text. -/
theorem isValid_iff {text : String} {position : Nat} :
    (String.Pos.Raw.mk position).IsValid text ↔
      ∃ front, front <+: text.toList ∧ position = String.utf8Len front := by
  rw [String.Pos.Raw.isValid_iff_exists_append]
  constructor
  · rintro ⟨front, back, rfl, hposition⟩
    refine ⟨front.toList, ⟨back.toList, String.toList_append.symm⟩, ?_⟩
    rw [String.utf8Len_toList]
    exact congrArg String.Pos.Raw.byteIdx hposition
  · rintro ⟨front, ⟨back, hback⟩, rfl⟩
    refine ⟨String.ofList front, String.ofList back, ?_, ?_⟩
    · rw [← String.ofList_append, hback, String.ofList_toList]
    · rw [String.rawEndPos_ofList]

/-- A text is cut at the last position between two characters for which there is room. -/
theorem isGreatest_cut (room : Nat) (text : String) :
    IsGreatest
      {position | (String.Pos.Raw.mk position).IsValid text ∧ position ≤ min room text.utf8ByteSize}
      (String.utf8Len (cut room text.toList)) := by
  have hprefix := cut_prefix_self room text.toList
  constructor
  · refine ⟨isValid_iff.mpr ⟨_, hprefix, rfl⟩, le_min (utf8Len_cut_le room _) ?_⟩
    rw [← String.utf8Len_toList]
    exact String.utf8Len_le_of_prefix hprefix
  · rintro position ⟨hvalid, hle⟩
    obtain ⟨front, ⟨back, hback⟩, rfl⟩ := isValid_iff.mp hvalid
    rw [← hback]
    exact String.utf8Len_le_of_prefix (prefix_cut (le_trans hle (min_le_left ..)) back)

/-- Stepping back leads to the last position between two characters. -/
theorem stepsBack_of_isGreatest {text : String} {start position : Nat}
    (h : IsGreatest {n | (String.Pos.Raw.mk n).IsValid text ∧ n ≤ start} position) :
    ReflTransGen (StepsBack text) start position := by
  obtain ⟨⟨hvalid, hle⟩, hgreatest⟩ := h
  induction start with
  | zero =>
    obtain rfl := Nat.le_zero.mp hle
    exact .refl
  | succ start ih =>
    by_cases hstart : (String.Pos.Raw.mk (start + 1)).IsValid text
    · obtain rfl := le_antisymm hle (hgreatest ⟨hstart, le_rfl⟩)
      exact .refl
    · have hne : position ≠ start + 1 := fun heq => hstart (heq ▸ hvalid)
      refine .head ⟨hstart, rfl⟩ (ih ?_ (by omega))
      exact fun n hn => hgreatest ⟨hn.1, Nat.le_succ_of_le hn.2⟩

end Text

namespace Declaration

variable {language : Language} {forms : List Pattern} {front : List Char}

/-- What follows complete lines makes no difference to what they declare. -/
theorem filter_inText_append (h : Text.EndsLine front) (back : List Char) {number : Nat}
    (hnumber : number ≤ front.count '\n') :
    (inText language forms (front ++ back)).filter (·.line = number) =
      (inText language forms front).filter (·.line = number) := by
  have hbehind : ((inText language forms back).map (shift (front.count '\n'))).filter
      (·.line = number) = [] := by
    refine List.filter_eq_nil_iff.mpr fun d hd => ?_
    obtain ⟨own, hown, rfl⟩ := List.mem_map.mp hd
    obtain ⟨hle, -⟩ := line_of_mem_inText hown
    rw [decide_eq_true_eq]
    exact (by omega : own.line + front.count '\n' ≠ number)
  rw [inText_append h, List.filter_append, hbehind, List.append_nil]

end Declaration

/-- A text is cut at the last position between two characters within the limit and the text, at which
a search that steps back from there ends. What stands before it is analyzed: each line whose line
feed stands there declares just what it declares in the whole text, and nothing is declared behind
the line that follows those. -/
theorem truncation_keeps_complete_lines (limit : Nat) (path text : String) :
    (∃ rest, text = Text.kept limit text ++ rest) ∧
      IsGreatest
        {position | (String.Pos.Raw.mk position).IsValid text ∧
          position ≤ min limit text.utf8ByteSize}
        (Text.kept limit text).utf8ByteSize ∧
      ReflTransGen (Text.StepsBack text) (min limit text.utf8ByteSize)
        (Text.kept limit text).utf8ByteSize ∧
      ∀ full, text.utf8ByteSize ≤ full →
        Analysis.ofText limit path text = Analysis.ofText full path (Text.kept limit text) ∧
        ∀ kind,
          (∀ number, number ≤ (Text.kept limit text).toList.count '\n' →
            ((Analysis.ofText limit path text).ofKind kind).filter (·.line = number) =
              ((Analysis.ofText full path text).ofKind kind).filter (·.line = number)) ∧
          ∀ d ∈ (Analysis.ofText limit path text).ofKind kind,
            d.line ≤ (Text.kept limit text).toList.count '\n' + 1 := by
  obtain ⟨rest, hrest⟩ := Text.cut_prefix_self limit text.toList
  have htext : text = Text.kept limit text ++ String.ofList rest := by
    rw [Text.kept, ← String.ofList_append, hrest, String.ofList_toList]
  have hgreatest := Text.isGreatest_cut limit text
  rw [← String.utf8ByteSize_ofList] at hgreatest
  refine ⟨⟨_, htext⟩, hgreatest, Text.stepsBack_of_isGreatest hgreatest, fun full hfull => ?_⟩
  have hwhole : Text.cut full text.toList = text.toList :=
    Text.cut_of_fits (by rwa [String.utf8Len_toList])
  have hkept : Text.cut full (Text.cut limit text.toList) = Text.cut limit text.toList := by
    refine Text.cut_of_fits (le_trans ?_ hfull)
    rw [← String.utf8Len_toList]
    exact String.utf8Len_le_of_prefix (Text.cut_prefix_self limit text.toList)
  constructor
  · simp only [Analysis.ofText, Text.kept, String.toList_ofList, hkept]
  intro kind
  rw [Text.kept, String.toList_ofList]
  cases hlanguage : Language.ofPath? path with
  | none =>
    simp only [Analysis.ofKind_ofText_of_none hlanguage]
    exact ⟨fun _ _ => trivial, List.forall_mem_nil _⟩
  | some language =>
    simp only [Analysis.ofKind_ofText_of_some hlanguage, hwhole]
    constructor
    · intro number hnumber
      -- the cut and the whole text begin with the same complete lines
      obtain ⟨complete, last, hcut, hcomplete, hlast⟩ :=
        Text.exists_complete_lines (Text.cut limit text.toList)
      rw [hcut, List.count_append, List.count_eq_zero.mpr hlast, Nat.add_zero] at hnumber
      have hparts : text.toList = complete ++ (last ++ rest) := by
        rw [← List.append_assoc, ← hcut, hrest]
      rw [hcut, hparts, Declaration.filter_inText_append hcomplete _ hnumber,
        Declaration.filter_inText_append hcomplete _ hnumber]
    · intro d hd
      obtain ⟨-, hle⟩ := Declaration.line_of_mem_inText hd
      exact le_trans hle (Text.length_lines_le _)

/-- With a limit within a letter of the second line the first line is complete. -/
theorem truncation_keeps_complete_lines_short :
    "fn a() {}\r\nstruct Bé {}\n".utf8ByteSize ≤ 64 ∧
      1 ≤ (Text.kept 20 "fn a() {}\r\nstruct Bé {}\n").toList.count '\n' ∧
      ((Analysis.ofText 20 "a.rs" "fn a() {}\r\nstruct Bé {}\n").ofKind .function).filter
        (·.line = 1) = [⟨"a", 1⟩] := by
  have hfull : "fn a() {}\r\nstruct Bé {}\n".utf8ByteSize ≤ 64 := by decide
  have hcomplete : 1 ≤ (Text.kept 20 "fn a() {}\r\nstruct Bé {}\n").toList.count '\n' := by
    decide +kernel
  obtain ⟨-, -, -, hanalyses⟩ :=
    truncation_keeps_complete_lines 20 "a.rs" "fn a() {}\r\nstruct Bé {}\n"
  refine ⟨hfull, hcomplete, ?_⟩
  rw [((hanalyses 64 hfull).2 .function).1 1 hcomplete]
  decide +kernel

end ContextSets
