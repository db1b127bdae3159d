import ContextSets.Proofs.LineDeclarations
import ContextSets.Proofs.PatternMatches

/-!
# Declared names are whole words

From the shape of a pattern one can read whether what it captures must begin where a word may begin:
at the start of the line or behind a character that is in no name. This is so for the names in all
forms of declarations but one. A function of JavaScript may have its name directly behind the word
that announces it, so that the end of a longer word is taken for a name.
-/

namespace ContextSets

/-- A character that may be in a name. -/
def isNameChar (c : Char) : Bool :=
  Pattern.isWordChar c || c == '$'

/-- A text behind which a word begins: it does not end in a character of a name. -/
def StandsApart (front : List Char) : Prop :=
  ∀ c ∈ front.getLast?, isNameChar c = false

theorem standsApart_nil : StandsApart [] :=
  fun _ hc => nomatch hc

theorem standsApart_concat {front : List Char} {c : Char} (h : isNameChar c = false) :
    StandsApart (front ++ [c]) := by
  intro last hlast
  rw [List.getLast?_concat] at hlast
  exact Option.some.inj hlast ▸ h

namespace Pattern

/-! ### Reading off where captures begin -/

/-- What is read off a pattern for a word to begin behind each of its matches, given what is known
of the place before it. -/
@[simp]
def EndsApart : Pattern → Prop → Prop
  | nothing, known | textEnd, known | wordEdge, known => known
  | one test, _ => ∀ c, test c = true → isNameChar c = false
  | textStart, _ => True
  | seq first second, known => second.EndsApart (first.EndsApart known)
  | either first second, known => first.EndsApart known ∧ second.EndsApart known
  | many body, known => known ∧ body.EndsApart known
  | capture _ body, known => body.EndsApart known

/-- What is read off a pattern for all that is captured under a label to begin where a word may
begin. -/
@[simp]
def CapturesApart (label : String) : Pattern → Prop → Prop
  | nothing, _ | one _, _ | textStart, _ | textEnd, _ | wordEdge, _ => True
  | seq first second, known =>
    first.CapturesApart label known ∧ second.CapturesApart label (first.EndsApart known)
  | either first second, known =>
    first.CapturesApart label known ∧ second.CapturesApart label known
  | many body, known => body.CapturesApart label (known ∧ body.EndsApart known)
  | capture other body, known => (other = label → known) ∧ body.CapturesApart label known

variable {pattern first second body : Pattern} {start stop : Progress} {label : String}
  {known : Prop} {P : List Char → Prop}

/-- A repetition does not change what is known before each of its turns. -/
theorem endsApart_again :
    ((known ∧ body.EndsApart known) ∧ body.EndsApart (known ∧ body.EndsApart known)) ↔
      known ∧ body.EndsApart known := by
  refine ⟨And.left, fun h => ⟨h, ?_⟩⟩
  have hknown : (known ∧ body.EndsApart known) = known := propext ⟨And.left, fun hk => ⟨hk, h.2⟩⟩
  rw [hknown]
  exact h.2

/-- What is read off of the place behind a match is right, also for a weaker property of what is
before it. -/
theorem Matches.endsApart (h : Matches pattern start stop)
    (hP : ∀ front, StandsApart front → P front) (hknown : known → P start.place.before.reverse)
    (hends : pattern.EndsApart known) : P stop.place.before.reverse := by
  induction h generalizing known with
  | nothing | textEnd | wordEdge => exact hknown hends
  | one htest =>
    rw [List.reverse_cons]
    exact hP _ (standsApart_concat (hends _ htest))
  | textStart hbefore =>
    rw [hbefore]
    exact hP _ standsApart_nil
  | seq hfirst hsecond ihfirst ihsecond => exact ihsecond (ihfirst hknown) hends
  | left hfirst ih => exact ih hknown hends.1
  | right hsecond ih => exact ih hknown hends.2
  | enough => exact hknown hends.1
  | again hbody hmore ihbody ihmore => exact ihmore (fun _ => ihbody hknown hends.2) hends
  | capture hbody ih => exact ih hknown hends

/-- What a match adds to the captures stands in the text, and under the label it begins where the
property holds. -/
theorem Matches.capturesApart (h : Matches pattern start stop)
    (hP : ∀ front, StandsApart front → P front) (hknown : known → P start.place.before.reverse)
    (happart : pattern.CapturesApart label known) {c : Capture} (hc : c ∈ stop.captures) :
    c ∈ start.captures ∨ c.start.Leads c.stop ∧ c.start.text = start.place.text ∧
      (c.label = label → P c.start.before.reverse) := by
  induction h generalizing known with
  | nothing | one | textStart | textEnd | wordEdge | enough => exact .inl hc
  | seq hfirst hsecond ihfirst ihsecond =>
    rcases ihsecond (hfirst.endsApart hP hknown) happart.2 hc with hc | ⟨hleads, htext, hbegins⟩
    · exact ihfirst hknown happart.1 hc
    · exact .inr ⟨hleads, htext.trans hfirst.leads.text_eq, hbegins⟩
  | left hfirst ih => exact ih hknown happart.1 hc
  | right hsecond ih => exact ih hknown happart.2 hc
  | @again body start middle stop hbody hmore ihbody ihmore =>
    -- what is known before the repetition is right before each turn
    have hmiddle : known ∧ body.EndsApart known → P middle.place.before.reverse :=
      fun hends => hbody.endsApart hP hknown hends.2
    have hmoreApart : (many body).CapturesApart label (known ∧ body.EndsApart known) := by
      rw [Pattern.CapturesApart, endsApart_again]
      exact happart
    rcases ihmore hmiddle hmoreApart hc with hc | ⟨hleads, htext, hbegins⟩
    · exact ihbody (fun hends => hknown hends.1) happart hc
    · exact .inr ⟨hleads, htext.trans hbody.leads.text_eq, hbegins⟩
  | @capture other body start stop hbody ih =>
    rcases List.mem_cons.mp hc with rfl | hc
    · exact .inr ⟨hbody.leads, rfl, fun heq => hknown (happart.1 heq)⟩
    · exact ih hknown happart.2 hc

/-! ### What is read off built patterns -/

@[simp] theorem endsApart_append :
    (first ++ second).EndsApart known ↔ second.EndsApart (first.EndsApart known) := Iff.rfl

@[simp] theorem capturesApart_append :
    (first ++ second).CapturesApart label known ↔
      first.CapturesApart label known ∧ second.CapturesApart label (first.EndsApart known) :=
  Iff.rfl

@[simp] theorem endsApart_maybe :
    (maybe pattern).EndsApart known ↔ pattern.EndsApart known ∧ known := Iff.rfl

@[simp] theorem capturesApart_maybe :
    (maybe pattern).CapturesApart label known ↔ pattern.CapturesApart label known :=
  and_iff_left trivial

@[simp] theorem endsApart_char {c : Char} :
    (char c).EndsApart known ↔ isNameChar c = false := by
  simp [char]

@[simp] theorem capturesApart_char {c : Char} : (char c).CapturesApart label known :=
  trivial

theorem endsApart_oneOf {chars : String} :
    (oneOf chars).EndsApart known ↔ chars.toList.any isNameChar = false := by
  simp [oneOf]

@[simp] theorem capturesApart_oneOf {chars : String} : (oneOf chars).CapturesApart label known :=
  trivial

@[simp] theorem capturesApart_noneOf {chars : String} : (noneOf chars).CapturesApart label known :=
  trivial

@[simp] theorem capturesApart_wordChar : wordChar.CapturesApart label known :=
  trivial

@[simp] theorem capturesApart_some1 :
    (some1 pattern).CapturesApart label known ↔ pattern.CapturesApart label known ∧
      pattern.CapturesApart label
        (pattern.EndsApart known ∧ pattern.EndsApart (pattern.EndsApart known)) :=
  Iff.rfl

@[simp] theorem endsApart_blank : blank.EndsApart known := by
  rw [blank, endsApart_oneOf]
  decide

@[simp] theorem endsApart_gap : gap.EndsApart known ↔ known :=
  and_iff_left endsApart_blank

@[simp] theorem capturesApart_gap : gap.CapturesApart label known :=
  trivial

@[simp] theorem endsApart_space : space.EndsApart known :=
  ⟨endsApart_blank, endsApart_blank⟩

@[simp] theorem capturesApart_space : space.CapturesApart label known :=
  ⟨trivial, trivial⟩

theorem endsApart_exactly {text : String} {front : List Char} {c : Char}
    (h : text.toList = front ++ [c]) (hc : isNameChar c = false) :
    (exactly text).EndsApart known := by
  rw [exactly, h]
  clear h
  induction front generalizing known with
  | nil =>
    show (char c).EndsApart known
    exact endsApart_char.mpr hc
  | cons d front ih => exact ih

@[simp] theorem capturesApart_exactly {text : String} :
    (exactly text).CapturesApart label known := by
  unfold exactly
  induction text.toList generalizing known with
  | nil => trivial
  | cons c rest ih => exact ⟨trivial, ih⟩

@[simp] theorem capturesApart_anyOf {patterns : List Pattern} :
    (anyOf patterns).CapturesApart label known ↔
      ∀ pattern ∈ patterns, pattern.CapturesApart label known := by
  induction patterns with
  | nil => simp [anyOf]
  | cons pattern rest ih =>
    cases rest with
    | nil => simp [anyOf]
    | cons next rest =>
      rw [anyOf, CapturesApart, ih, List.forall_mem_cons (a := pattern)]
      simp

@[simp] theorem capturesApart_words {texts : List String} :
    (words texts).CapturesApart label known := by
  simp [words]

end Pattern

namespace Form

open Pattern

/-! ### What is read off the parts of forms -/

@[simp] theorem endsApart_optionalWord {word : String} {known : Prop} :
    (optionalWord word).EndsApart known ↔ known := by
  simp [optionalWord]

@[simp] theorem capturesApart_optionalWord {word label : String} {known : Prop} :
    (optionalWord word).CapturesApart label known := by
  simp [optionalWord]

@[simp] theorem endsApart_modifiers {texts : List String} {known : Prop} :
    (modifiers texts).EndsApart known ↔ known :=
  and_iff_left endsApart_space

@[simp] theorem capturesApart_modifiers {texts : List String} {label : String} {known : Prop} :
    (modifiers texts).CapturesApart label known :=
  ⟨capturesApart_words, capturesApart_space⟩

@[simp] theorem capturesApart_name {known : Prop} :
    name.CapturesApart nameLabel known ↔ known := by
  simp [name, nameStart, wordChar]

@[simp] theorem capturesApart_dollarName {known : Prop} :
    dollarName.CapturesApart nameLabel known ↔ known := by
  simp [dollarName, dollarWord, dollarStart, dollarChar]

@[simp] theorem capturesApart_bracketed {label : String} {known : Prop} :
    bracketed.CapturesApart label known := by
  simp [bracketed]

@[simp] theorem endsApart_bracketed {known : Prop} : bracketed.EndsApart known := by
  simpa [bracketed] using (by decide : isNameChar ')' = false)

@[simp] theorem capturesApart_angled {label : String} {known : Prop} :
    angled.CapturesApart label known := by
  simp [angled]

@[simp] theorem endsApart_angled {known : Prop} : angled.EndsApart known := by
  simpa [angled] using (by decide : isNameChar '>' = false)

/-! ### The forms of declarations -/

/-- What a form captures as a name begins where a word may begin. -/
def NamesApart (form : Pattern) : Prop :=
  form.CapturesApart nameLabel False

theorem namesApart_types {language : Language} : ∀ form ∈ classes language, NamesApart form := by
  cases language <;>
    simp [classes, NamesApart, JavaScript.type, JavaScript.interface, Rust.type, Rust.visibility,
      Go.type, CLike.type, Kotlin.type, Python.type, Ruby.type, Php.type, Swift.type]

theorem namesApart_assigned : NamesApart JavaScript.assigned := by
  simp [NamesApart, JavaScript.assigned, annotation, dollarWord, dollarStart, dollarChar]

theorem namesApart_method : NamesApart JavaScript.method := by
  simp [NamesApart, JavaScript.method]

theorem namesApart_functions {language : Language} (h : language ≠ .javaScript) :
    ∀ form ∈ functions language, NamesApart form := by
  cases language with
  | javaScript => exact absurd rfl h
  | rust =>
    simp [functions, NamesApart, Rust.function, Rust.visibility]
  | go => simp [functions, NamesApart, Go.function]
  | cLike =>
    have hsigns : "*&".toList.any isNameChar = false := by decide
    have hends : ∀ known, (oneOf "*&").EndsApart known := fun _ => endsApart_oneOf.mpr hsigns
    simp [functions, NamesApart, CLike.function, hends, nameStart, CLike.leadChar]
  | kotlin =>
    have hdot : isNameChar '.' = false := by decide
    simp [functions, NamesApart, Kotlin.function, hdot]
  | python => simp [functions, NamesApart, Python.function]
  | ruby =>
    have htext : "self.".toList = ['s', 'e', 'l', 'f'] ++ ['.'] := by decide
    have hself : ∀ known, (exactly "self.").EndsApart known := fun _ =>
      endsApart_exactly htext (by decide)
    simp [functions, NamesApart, Ruby.method, hself, nameStart]
  | php =>
    have hsign : isNameChar '&' = false := by decide
    simp [functions, NamesApart, Php.function, hsign]
  | swift => simp [functions, NamesApart, Swift.function]

/-- Whatever a form captures as a name stands in the text behind a start with a property. -/
def NamesBehind (form : Pattern) (P : List Char → Prop) : Prop :=
  ∀ start stop, Matches form start stop → ∀ c ∈ stop.captures,
    c ∈ start.captures ∨ c.start.Leads c.stop ∧ c.start.text = start.place.text ∧
      (c.label = nameLabel → P c.start.before.reverse)

theorem NamesApart.namesBehind {form : Pattern} {P : List Char → Prop} (h : NamesApart form)
    (hP : ∀ front, StandsApart front → P front) : NamesBehind form P :=
  fun _ _ hmatches _ hc => hmatches.capturesApart hP False.elim h hc

/-- A text behind which a word begins, or that ends in the whole word before a function's name. -/
def Announces (front : List Char) : Prop :=
  StandsApart front ∨ ∃ ahead, front = ahead ++ "function".toList ∧ StandsApart ahead

/-- Between the word before a function's name and the name nothing need stand. -/
theorem namesBehind_javaScript_function : NamesBehind JavaScript.function Announces := by
  intro start stop h c hc
  obtain ⟨nameStart, hfront, hname⟩ := matches_append.mp h
  obtain ⟨behindStar, hstar, hgap⟩ := matches_append.mp hfront
  obtain ⟨beforeStar, hword, hstar⟩ := matches_append.mp hstar
  obtain ⟨behindWord, hword, hspace⟩ := matches_append.mp hword
  obtain ⟨beforeWord, hahead, hword⟩ := matches_append.mp hword
  have hbefore : StandsApart beforeWord.place.before.reverse :=
    hahead.endsApart (fun _ => id) False.elim (by simp)
  have hbehind : Announces behindWord.place.before.reverse := by
    refine .inr ⟨_, ?_, hbefore⟩
    rw [hword.before_exactly, List.reverse_append, List.reverse_reverse]
  -- what may stand between keeps the name behind the word or apart from all words
  have hkeep : ∀ {pattern : Pattern} {a b : Progress}, Matches pattern a b →
      pattern.EndsApart True → Announces a.place.before.reverse →
      Announces b.place.before.reverse :=
    fun hmatches hends ha => hmatches.endsApart (fun _ => .inl) (fun _ => ha) hends
  have hsign : isNameChar '*' = false := by decide
  have hstart : Announces nameStart.place.before.reverse :=
    hkeep hgap (endsApart_gap.mpr trivial) (hkeep hstar ⟨endsApart_char.mpr hsign, trivial⟩
      (hkeep hspace (endsApart_gap.mpr trivial) hbehind))
  have happart : dollarName.CapturesApart nameLabel True := capturesApart_dollarName.mpr trivial
  rcases hname.capturesApart (fun _ => .inl) (fun _ => hstart) happart hc with
    hc | ⟨hleads, htext, hbegins⟩
  · refine NamesApart.namesBehind ?_ (fun _ => .inl) _ _ hfront c hc
    simp [NamesApart]
  · exact .inr ⟨hleads, htext.trans hfront.leads.text_eq, hbegins⟩

/-- All forms but one capture names that begin where a word may begin. -/
theorem namesApart_of_mem {language : Language} {kind : Declaration.Kind} {form : Pattern}
    (hform : form ∈ kind.forms language) (hother : language = .javaScript → kind ≠ .function) :
    NamesApart form := by
  cases kind with
  | type => exact namesApart_types form hform
  | function => exact namesApart_functions (fun heq => hother heq rfl) form hform

theorem namesBehind_of_mem_javaScript {form : Pattern}
    (hform : form ∈ functions .javaScript) : NamesBehind form Announces := by
  simp only [functions, List.mem_cons, List.not_mem_nil, or_false] at hform
  rcases hform with rfl | rfl | rfl
  · exact namesBehind_javaScript_function
  · exact namesApart_assigned.namesBehind fun _ => .inl
  · exact namesApart_method.namesBehind fun _ => .inl

end Form

namespace Declaration

/-- The name that a form finds stands in the line behind a start with the property. -/
theorem Names.exists_front {form : Pattern} {line : List Char} {name : String}
    {P : List Char → Prop} (h : Names form line name) (hform : Form.NamesBehind form P) :
    ∃ front back, line = front ++ name.toList ++ back ∧ P front := by
  obtain ⟨found, hsearch, hname, -⟩ := h
  obtain ⟨place, rfl, hmatches⟩ := Pattern.exists_matches_of_search hsearch
  obtain ⟨c, hc, rfl⟩ := Option.map_eq_some_iff.mp hname
  have hlabel : c.label = Form.nameLabel := by simpa using List.find?_some hc
  rcases hform _ _ hmatches c (List.mem_of_find?_eq_some hc) with hnone | ⟨hleads, htext, hbegins⟩
  · cases hnone
  · refine ⟨_, c.stop.rest, ?_, hbegins hlabel⟩
    rw [String.toList_ofList, ← htext, Capture.text_eq hleads, List.append_assoc]

end Declaration

/-- Every declared name stands in its line where a word may begin, so that it is no end of a longer
word, unless it is the name of a function of JavaScript that stands directly behind the word
"function". -/
theorem declared_names_are_whole {limit : Nat} {path text : String} {kind : Declaration.Kind}
    {d : Declaration} (h : d ∈ (Analysis.ofText limit path text).ofKind kind) :
    ∃ language line front back, Language.ofPath? path = some language ∧
      (line, d.line) ∈ (Text.lines (Text.cut limit text.toList)).zipIdx 1 ∧
      line = front ++ d.name.toList ++ back ∧
      (StandsApart front ∨ language = .javaScript ∧ kind = .function ∧
        ∃ ahead, front = ahead ++ "function".toList ∧ StandsApart ahead) := by
  obtain ⟨language, line, hlanguage, hline, -, form, hform, hnames⟩ :=
    Analysis.mem_ofKind_ofText.mp h
  by_cases hother : language = .javaScript ∧ kind = .function
  · obtain ⟨rfl, rfl⟩ := hother
    obtain ⟨front, back, heq, hfront⟩ :=
      hnames.exists_front (Form.namesBehind_of_mem_javaScript hform)
    exact ⟨_, line, front, back, hlanguage, hline, heq, hfront.imp_right fun h => ⟨rfl, rfl, h⟩⟩
  · have happart := Form.namesApart_of_mem hform (not_and.mp hother)
    obtain ⟨front, back, heq, hfront⟩ := hnames.exists_front (happart.namesBehind fun _ => id)
    exact ⟨language, line, front, back, hlanguage, hline, heq, .inl hfront⟩

/-- A name behind a dot begins where a word may begin. -/
theorem declared_names_are_whole_extension :
    ⟨"first", 2⟩ ∈ (Analysis.ofText 64 "a.kt" "\nfun String.first() {}").ofKind .function ∧
      ∃ front back, "fun String.first() {}".toList = front ++ "first".toList ++ back ∧
        StandsApart front := by
  have hmem : ⟨"first", 2⟩ ∈
      (Analysis.ofText 64 "a.kt" "\nfun String.first() {}").ofKind .function := by decide +kernel
  refine ⟨hmem, ?_⟩
  obtain ⟨language, line, front, back, hlanguage, hline, heq, hfront⟩ :=
    declared_names_are_whole hmem
  have hkotlin : Language.ofPath? "a.kt" = some .kotlin := by decide +kernel
  obtain rfl : language = .kotlin := Option.some.inj (hlanguage.symm.trans hkotlin)
  have hlines : (Text.lines (Text.cut 64 "\nfun String.first() {}".toList)).zipIdx 1 =
      [([], 1), ("fun String.first() {}".toList, 2)] := by decide +kernel
  rw [hlines] at hline
  obtain rfl : line = "fun String.first() {}".toList := by simpa using hline
  exact ⟨front, back, heq, hfront.resolve_right fun h => nomatch h.1⟩

/-- A call of something whose name begins with "function" is taken for a function with the rest of
that name. -/
theorem end_of_word_taken_for_name :
    ⟨"al", 1⟩ ∈ (Analysis.ofText 64 "a.js" "functional(x);").ofKind .function ∧
      (Text.lines (Text.cut 64 "functional(x);".toList)) = ["functional(x);".toList] ∧
      ∀ front back, "functional(x);".toList = front ++ "al".toList ++ back →
        ¬ StandsApart front := by
  refine ⟨by decide +kernel, by decide +kernel, fun front back heq hfront => ?_⟩
  have hplaces : ∀ n < 15, ("functional(x);".toList.drop n).take 2 = "al".toList →
      "functional(x);".toList.take n = "function".toList := by decide
  have hlength := congrArg List.length heq
  rw [List.length_append, List.length_append] at hlength
  have hword : "function".toList = front := by
    rw [← hplaces front.length (by simp at hlength; omega), heq]
    · simp
    · rw [heq]
      simp
  have hend : isNameChar 'n' = false := hfront 'n' (hword ▸ rfl)
  exact absurd hend (by decide)

end ContextSets
