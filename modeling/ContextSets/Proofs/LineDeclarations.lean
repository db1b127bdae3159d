import ContextSets.Declaration.Analysis
import ContextSets.Proofs.FirstOccurrences
import ContextSets.Proofs.TextLines
import Mathlib.Data.List.TakeWhile

/-!
# Declarations line by line

What a file declares is read off its lines one by one, and put in a strict order by line and name. So
the declarations are settled by what each line declares, and those of complete lines stand in front of
those of what follows, which keep their distance.
-/

namespace ContextSets

namespace Declaration

/-- The two kinds of declarations. -/
inductive Kind where
  | function
  | type
deriving DecidableEq, Repr

/-- The forms of declarations of a kind. -/
def Kind.forms : Kind → Language → List Pattern
  | function => Form.functions
  | type => Form.classes

/-! ### The order of declarations -/

/-- A declaration comes before another if it is on an earlier line, or on the same line under a name
that comes earlier. -/
def Before (a b : Declaration) : Prop :=
  a.line < b.line ∨ a.line = b.line ∧ a.name < b.name

variable {a b d : Declaration} {xs ys : List Declaration} {language : Language}
  {forms : List Pattern} {form : Pattern} {line : List Char} {name : String}

theorem Before.ne (h : Before a b) : a ≠ b := by
  rintro rfl
  rcases h with h | ⟨-, h⟩
  · exact Nat.lt_irrefl _ h
  · exact String.lt_irrefl _ h

theorem Before.asymm (h : Before a b) : ¬ Before b a := by
  rintro (h' | ⟨hline, hname⟩)
  · rcases h with h | ⟨h, -⟩
    · omega
    · omega
  · rcases h with h | ⟨-, h⟩
    · omega
    · exact String.lt_irrefl _ (String.lt_trans h hname)

theorem nodup_of_pairwise_before (h : xs.Pairwise Before) : xs.Nodup :=
  h.imp Before.ne

/-- Two lists in strict order are the same if they have the same members. -/
theorem eq_of_pairwise_before (hxs : xs.Pairwise Before) (hys : ys.Pairwise Before)
    (h : ∀ d, d ∈ xs ↔ d ∈ ys) : xs = ys := by
  refine List.Perm.eq_of_pairwise (fun a b _ _ hab hba => absurd hba hab.asymm) hxs hys ?_
  exact (List.perm_ext_iff_of_nodup (nodup_of_pairwise_before hxs)
    (nodup_of_pairwise_before hys)).mpr h

theorem precedes_iff :
    precedes a b = true ↔ a.line < b.line ∨ a.line = b.line ∧ a.name ≤ b.name := by
  simp [precedes]

theorem precedes_total (a b : Declaration) : (precedes a b || precedes b a) = true := by
  rw [Bool.or_eq_true, precedes_iff, precedes_iff]
  rcases Nat.lt_trichotomy a.line b.line with h | h | h
  · exact .inl (.inl h)
  · exact (String.le_total a.name b.name).imp (fun hle => .inr ⟨h, hle⟩)
      fun hle => .inr ⟨h.symm, hle⟩
  · exact .inr (.inl h)

theorem precedes_trans (a b c : Declaration) (hab : precedes a b = true)
    (hbc : precedes b c = true) : precedes a c = true := by
  rw [precedes_iff] at hab hbc ⊢
  rcases hab with hab | ⟨hab, hle⟩
  · left
    omega
  · rcases hbc with hbc | ⟨hbc, hle'⟩
    · left
      omega
    · exact .inr ⟨hab.trans hbc, String.le_trans hle hle'⟩

theorem before_of_precedes (h : precedes a b = true) (hne : a ≠ b) : Before a b := by
  rcases precedes_iff.mp h with hline | ⟨hline, hname⟩
  · exact .inl hline
  · refine .inr ⟨hline, String.not_le.mp fun hname' => hne ?_⟩
    obtain ⟨name, number⟩ := a
    obtain rfl : name = b.name := String.le_antisymm hname hname'
    obtain rfl : number = b.line := hline
    rfl

theorem mem_arrange : d ∈ arrange xs ↔ d ∈ xs := by
  rw [arrange, List.mem_mergeSort, List.mem_eraseDups]

theorem pairwise_mergeSort (h : xs.Nodup) : (xs.mergeSort precedes).Pairwise Before := by
  have hsorted := List.pairwise_mergeSort precedes_trans precedes_total xs
  have hnodup : (xs.mergeSort precedes).Nodup := (List.mergeSort_perm _ _).nodup_iff.mpr h
  exact (hsorted.and hnodup).imp fun h => before_of_precedes h.1 h.2

theorem pairwise_arrange (declarations : List Declaration) :
    (arrange declarations).Pairwise Before :=
  pairwise_mergeSort (nodup_eraseDups declarations)

theorem arrange_append (h : ∀ a ∈ xs, ∀ b ∈ ys, Before a b) :
    arrange (xs ++ ys) = arrange xs ++ arrange ys := by
  refine eq_of_pairwise_before (pairwise_arrange _) ?_ fun d => by
    simp only [List.mem_append, mem_arrange]
  refine List.pairwise_append.mpr ⟨pairwise_arrange _, pairwise_arrange _, fun a ha b hb => ?_⟩
  exact h a (mem_arrange.mp ha) b (mem_arrange.mp hb)

/-! ### Declarations further down -/

/-- A declaration that many lines further down. -/
def shift (lines : Nat) (d : Declaration) : Declaration :=
  { d with line := d.line + lines }

theorem Before.shift (h : Before a b) (lines : Nat) : Before (a.shift lines) (b.shift lines) := by
  rcases h with h | ⟨h, hname⟩
  · exact .inl (Nat.add_lt_add_right h lines)
  · exact .inr ⟨congrArg (· + lines) h, hname⟩

theorem arrange_map_shift (lines : Nat) (xs : List Declaration) :
    arrange (xs.map (shift lines)) = (arrange xs).map (shift lines) := by
  refine eq_of_pairwise_before (pairwise_arrange _) ?_ fun d => ?_
  · exact List.pairwise_map.mpr ((pairwise_arrange xs).imp fun h => h.shift lines)
  · simp only [mem_arrange, List.mem_map]

/-! ### What a line declares -/

/-- A line is read if there is something in it behind its blanks, and this does not begin like a
comment. -/
def IsRead (language : Language) (line : List Char) : Prop :=
  ∃ blanks c rest, line = blanks ++ c :: rest ∧ (∀ b ∈ blanks, Text.isBlank b = true) ∧
    Text.isBlank c = false ∧ ∀ mark ∈ language.commentMarks, ¬ mark.toList <+: c :: rest

/-- A form names a declaration in a line: it captures the name, which is no keyword, and if it
captures a word in front of it, that is no keyword either. -/
def Names (form : Pattern) (line : List Char) (name : String) : Prop :=
  ∃ found, form.search line = some found ∧ captured? found Form.nameLabel = some name ∧
    name ∉ keywords ∧ ∀ lead, captured? found Form.leadLabel = some lead → lead ∉ keywords

/-- A line declares a name by some of the forms. -/
def Declares (language : Language) (forms : List Pattern) (line : List Char) (name : String) : Prop :=
  IsRead language line ∧ ∃ form ∈ forms, Names form line name

theorem isPassedOver_eq_false_iff : isPassedOver language line = false ↔ IsRead language line := by
  have hmark : ∀ start : List Char, (language.commentMarks.any fun mark =>
      mark.toList.isPrefixOf start) = false ↔
        ∀ mark ∈ language.commentMarks, ¬ mark.toList <+: start := by
    intro start
    simp [List.isPrefixOf_iff_prefix]
  rw [isPassedOver, Bool.or_eq_false_iff, hmark]
  constructor
  · rintro ⟨hstart, hmarks⟩
    obtain ⟨c, rest, hrest⟩ : ∃ c rest, Text.trimLeft line = c :: rest :=
      List.exists_cons_of_ne_nil (by simpa using hstart)
    refine ⟨line.takeWhile Text.isBlank, c, rest, ?_, fun _ => List.mem_takeWhile_imp, ?_, ?_⟩
    · rw [← hrest]
      exact List.takeWhile_append_dropWhile.symm
    · have hhead := List.head?_dropWhile_not Text.isBlank line
      rw [Text.trimLeft] at hrest
      simpa [hrest] using hhead
    · rwa [hrest] at hmarks
  · rintro ⟨blanks, c, rest, rfl, hblanks, hc, hmarks⟩
    have hstart : Text.trimLeft (blanks ++ c :: rest) = c :: rest := by
      rw [Text.trimLeft, List.dropWhile_append_of_pos hblanks,
        List.dropWhile_cons_of_neg (by rw [hc]; exact Bool.false_ne_true)]
    rw [hstart]
    exact ⟨rfl, hmarks⟩

theorem nameIn?_eq_some_iff : nameIn? form line = some name ↔ Names form line name := by
  unfold nameIn? Names
  simp only [Option.bind_eq_bind, Option.bind_eq_some_iff, Option.ite_none_left_eq_some,
    Bool.or_eq_true, Option.any_eq_true, List.contains_iff_mem, not_or, Option.some.injEq,
    not_exists, not_and]
  constructor
  · rintro ⟨found, hfound, _, hname, hwords, rfl⟩
    exact ⟨found, hfound, hname, hwords⟩
  · rintro ⟨found, hfound, hname, hwords⟩
    exact ⟨found, hfound, name, hname, hwords, rfl⟩

theorem mem_inLine {number : Nat} :
    (d ∈ if isPassedOver language line then []
      else (forms.filterMap (nameIn? · line)).map fun name => ⟨name, number⟩) ↔
      d.line = number ∧ Declares language forms line d.name := by
  obtain ⟨name, own⟩ := d
  rw [Declares, ← isPassedOver_eq_false_iff]
  cases isPassedOver language line with
  | true => simp
  | false =>
    simp only [Bool.false_eq_true, if_false, List.mem_map, List.mem_filterMap,
      nameIn?_eq_some_iff, mk.injEq, true_and]
    constructor
    · rintro ⟨_, hname, rfl, rfl⟩
      exact ⟨rfl, hname⟩
    · rintro ⟨rfl, hname⟩
      exact ⟨name, hname, rfl, rfl⟩

/-- The lines of a text declare what each of them declares. -/
theorem mem_inLines {number : Nat} {lines : List (List Char)} :
    d ∈ inLines language forms number lines ↔
      ∃ line, (line, d.line) ∈ lines.zipIdx number ∧ Declares language forms line d.name := by
  induction lines generalizing number with
  | nil => simp [inLines]
  | cons first rest ih =>
    rw [inLines, List.mem_append, ih, mem_inLine, List.zipIdx_cons]
    constructor
    · rintro (⟨hline, hdeclares⟩ | ⟨line, hline, hdeclares⟩)
      · exact ⟨first, List.mem_cons.mpr (.inl (Prod.ext rfl hline)), hdeclares⟩
      · exact ⟨line, List.mem_cons_of_mem _ hline, hdeclares⟩
    · rintro ⟨line, hline, hdeclares⟩
      rcases List.mem_cons.mp hline with heq | hline
      · obtain ⟨rfl, hnumber⟩ := Prod.mk.inj heq
        exact .inl ⟨hnumber, hdeclares⟩
      · exact .inr ⟨line, hline, hdeclares⟩

theorem line_of_mem_inLines {number : Nat} {lines : List (List Char)}
    (h : d ∈ inLines language forms number lines) :
    number ≤ d.line ∧ d.line < number + lines.length := by
  obtain ⟨line, hline, -⟩ := mem_inLines.mp h
  obtain ⟨hle, hlt, -⟩ := List.mem_zipIdx hline
  exact ⟨hle, hlt⟩

theorem inLines_append (number : Nat) (front back : List (List Char)) :
    inLines language forms number (front ++ back) =
      inLines language forms number front ++
        inLines language forms (number + front.length) back := by
  induction front generalizing number with
  | nil => rfl
  | cons first rest ih =>
    rw [List.cons_append, inLines, inLines, ih, List.append_assoc, List.length_cons,
      Nat.add_right_comm, Nat.add_assoc number]

theorem inLines_add (number count : Nat) (lines : List (List Char)) :
    inLines language forms (number + count) lines =
      (inLines language forms number lines).map (shift count) := by
  induction lines generalizing number with
  | nil => rfl
  | cons first rest ih =>
    rw [inLines, inLines, List.map_append, Nat.add_right_comm, ih (number + 1)]
    congr 1
    split
    · rfl
    · rw [List.map_map]
      rfl

/-! ### What a text declares -/

/-- What a text declares by some forms. -/
def inText (language : Language) (forms : List Pattern) (text : List Char) : List Declaration :=
  arrange (inLines language forms 1 (Text.lines text))

theorem mem_inText {text : List Char} :
    d ∈ inText language forms text ↔
      ∃ line, (line, d.line) ∈ (Text.lines text).zipIdx 1 ∧
        Declares language forms line d.name := by
  rw [inText, mem_arrange, mem_inLines]

theorem line_of_mem_inText {text : List Char} (h : d ∈ inText language forms text) :
    1 ≤ d.line ∧ d.line ≤ (Text.lines text).length := by
  obtain ⟨hle, hlt⟩ := line_of_mem_inLines (mem_arrange.mp h)
  omega

/-- What stands behind complete lines declares the same as alone, so many lines further down. -/
theorem inText_append {front : List Char} (h : Text.EndsLine front) (back : List Char) :
    inText language forms (front ++ back) =
      inText language forms front ++
        (inText language forms back).map (shift (front.count '\n')) := by
  rw [inText, Text.lines_append h, inLines_append, Text.length_lines h, inLines_add,
    arrange_append, arrange_map_shift]
  · rfl
  intro a ha b hb
  obtain ⟨own, hown, rfl⟩ := List.mem_map.mp hb
  obtain ⟨-, hlt⟩ := line_of_mem_inLines ha
  obtain ⟨hle, -⟩ := line_of_mem_inLines hown
  rw [Text.length_lines h] at hlt
  refine .inl (?_ : a.line < own.line + front.count '\n')
  omega

end Declaration

namespace Analysis

/-- The declarations of a kind. -/
def ofKind (analysis : Analysis) : Declaration.Kind → List Declaration
  | .function => analysis.functions
  | .type => analysis.classes

variable {limit : Nat} {path text : String} {kind : Declaration.Kind} {language : Language}

/-- A file of an unknown language declares nothing. -/
theorem ofKind_ofText_of_none (h : Language.ofPath? path = none) :
    (ofText limit path text).ofKind kind = [] := by
  rw [ofText, h]
  cases kind with
  | function | type => rfl

theorem ofKind_ofText_of_some (h : Language.ofPath? path = some language) :
    (ofText limit path text).ofKind kind =
      Declaration.inText language (kind.forms language) (Text.cut limit text.toList) := by
  rw [ofText, h]
  cases kind with
  | function | type => rfl

theorem mem_ofKind_ofText {d : Declaration} :
    d ∈ (ofText limit path text).ofKind kind ↔
      ∃ language line, Language.ofPath? path = some language ∧
        (line, d.line) ∈ (Text.lines (Text.cut limit text.toList)).zipIdx 1 ∧
        Declaration.Declares language (kind.forms language) line d.name := by
  cases hlanguage : Language.ofPath? path with
  | none => simp [ofKind_ofText_of_none hlanguage]
  | some language => simp [ofKind_ofText_of_some hlanguage, Declaration.mem_inText]

end Analysis

/-- What a file declares is settled line by line. Both lists of an analysis are in strict order, and
contain what some form of the language finds in some line, within the cut, that is neither blank nor
a comment. So a file that begins with complete lines declares what these declare and then what the
rest declares alone, so many lines further down. -/
theorem declarations_are_line_local (limit : Nat) (path : String) (kind : Declaration.Kind) :
    (∀ text,
      ((Analysis.ofText limit path text).ofKind kind).Pairwise Declaration.Before ∧
        ((Analysis.ofText limit path text).ofKind kind).Nodup ∧
        (∀ d ∈ (Analysis.ofText limit path text).ofKind kind,
          1 ≤ d.line ∧ d.line ≤ (Text.lines (Text.cut limit text.toList)).length) ∧
        ∀ d, d ∈ (Analysis.ofText limit path text).ofKind kind ↔
          ∃ language line, Language.ofPath? path = some language ∧
            (line, d.line) ∈ (Text.lines (Text.cut limit text.toList)).zipIdx 1 ∧
            Declaration.Declares language (kind.forms language) line d.name) ∧
      ∀ a b : String, a.toList.getLast? = some '\n' → (a ++ b).utf8ByteSize ≤ limit →
        (Analysis.ofText limit path (a ++ b)).ofKind kind =
          (Analysis.ofText limit path a).ofKind kind ++
            ((Analysis.ofText limit path b).ofKind kind).map
              (Declaration.shift (a.toList.count '\n')) := by
  constructor
  · intro text
    have hpairwise : ((Analysis.ofText limit path text).ofKind kind).Pairwise Declaration.Before := by
      cases hlanguage : Language.ofPath? path with
      | none =>
        rw [Analysis.ofKind_ofText_of_none hlanguage]
        exact .nil
      | some language =>
        rw [Analysis.ofKind_ofText_of_some hlanguage]
        exact Declaration.pairwise_arrange _
    refine ⟨hpairwise, Declaration.nodup_of_pairwise_before hpairwise, fun d hd => ?_,
      fun d => Analysis.mem_ofKind_ofText⟩
    obtain ⟨language, line, -, hline, -⟩ := Analysis.mem_ofKind_ofText.mp hd
    obtain ⟨hle, hlt, -⟩ := List.mem_zipIdx hline
    exact ⟨hle, by omega⟩
  · intro a b ha hfits
    cases hlanguage : Language.ofPath? path with
    | none => simp only [Analysis.ofKind_ofText_of_none hlanguage, List.map_nil, List.append_nil]
    | some language =>
      rw [String.utf8ByteSize_append, ← String.utf8Len_toList, ← String.utf8Len_toList] at hfits
      have hcut : ∀ cs : List Char, String.utf8Len cs ≤ limit → Text.cut limit cs = cs :=
        fun _ => Text.cut_of_fits
      simp only [Analysis.ofKind_ofText_of_some hlanguage, String.toList_append]
      rw [hcut _ (by rw [String.utf8Len_append]; omega), hcut a.toList (by omega),
        hcut b.toList (by omega)]
      exact Declaration.inText_append (.inr ha) b.toList

/-- A comment declares nothing, but its line is counted, and so is one that ends in a carriage return
and a line feed. -/
theorem declarations_are_line_local_counted :
    "fn main() {}\r\n// fn x\n".toList.getLast? = some '\n' ∧
      ("fn main() {}\r\n// fn x\n" ++ "\n  pub fn later() {}").utf8ByteSize ≤ 64 ∧
      (Analysis.ofText 64 "a.rs" ("fn main() {}\r\n// fn x\n" ++ "\n  pub fn later() {}")).ofKind
          .function = [⟨"main", 1⟩, ⟨"later", 4⟩] := by
  have hend : "fn main() {}\r\n// fn x\n".toList.getLast? = some '\n' := by decide
  have hfits : ("fn main() {}\r\n// fn x\n" ++ "\n  pub fn later() {}").utf8ByteSize ≤ 64 := by
    decide
  refine ⟨hend, hfits, ?_⟩
  obtain ⟨-, hmoved⟩ := declarations_are_line_local 64 "a.rs" .function
  rw [hmoved _ _ hend hfits]
  decide +kernel

end ContextSets
