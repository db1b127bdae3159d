import ContextSets.Pattern
import Mathlib.Logic.Basic

/-!
# Ways of matching

A pattern relates the states between which it may match. Every match that is found is one of these
ways, whichever alternatives and repetitions were tried before: so what holds of all ways holds of
what is found. A match moves through the text without changing it, and what it captures stands
between two places of the text.
-/

namespace ContextSets

/-! ### Places -/

/-- The whole text around a place. -/
def Place.text (place : Place) : List Char :=
  place.before.reverse ++ place.rest

/-- One place is reached from another by passing some characters. -/
def Place.Leads (start stop : Place) : Prop :=
  ∃ passed, start.rest = passed ++ stop.rest ∧ stop.before = passed.reverse ++ start.before

namespace Place.Leads

variable {start middle stop : Place}

theorem refl (place : Place) : place.Leads place :=
  ⟨[], rfl, rfl⟩

theorem trans (h : start.Leads middle) (h' : middle.Leads stop) : start.Leads stop := by
  obtain ⟨passed, hrest, hbefore⟩ := h
  obtain ⟨passed', hrest', hbefore'⟩ := h'
  refine ⟨passed ++ passed', ?_, ?_⟩
  · rw [hrest, hrest', List.append_assoc]
  · rw [hbefore', hbefore, List.reverse_append, List.append_assoc]

theorem text_eq (h : start.Leads stop) : stop.text = start.text := by
  obtain ⟨passed, hrest, hbefore⟩ := h
  simp only [Place.text, hrest, hbefore, List.reverse_append, List.reverse_reverse,
    List.append_assoc]

end Place.Leads

/-- What is captured stands in the text between what is before it and what follows it. -/
theorem Capture.text_eq {capture : Capture} (h : capture.start.Leads capture.stop) :
    capture.start.text = capture.start.before.reverse ++ (capture.text ++ capture.stop.rest) := by
  obtain ⟨passed, hrest, -⟩ := h
  have htext : capture.text = passed := by
    rw [Capture.text, hrest, List.length_append, Nat.add_sub_cancel, List.take_left]
  rw [Place.text, hrest, htext]

namespace Pattern

/-! ### Matches -/

/-- A way in which a pattern may match, from the state before to the state behind it. -/
inductive Matches : Pattern → Progress → Progress → Prop
  | nothing {start : Progress} : Matches .nothing start start
  | one {test : Char → Bool} {before rest : List Char} {c : Char} {captures : List Capture}
      (h : test c = true) :
      Matches (.one test) ⟨⟨before, c :: rest⟩, captures⟩ ⟨⟨c :: before, rest⟩, captures⟩
  | textStart {start : Progress} (h : start.place.before = []) : Matches .textStart start start
  | textEnd {start : Progress} (h : start.place.rest = []) : Matches .textEnd start start
  | wordEdge {start : Progress} (h : atWordEdge start.place = true) : Matches .wordEdge start start
  | seq {first second : Pattern} {start middle stop : Progress} (h : Matches first start middle)
      (h' : Matches second middle stop) : Matches (.seq first second) start stop
  | left {first second : Pattern} {start stop : Progress} (h : Matches first start stop) :
      Matches (.either first second) start stop
  | right {first second : Pattern} {start stop : Progress} (h : Matches second start stop) :
      Matches (.either first second) start stop
  | enough {body : Pattern} {start : Progress} : Matches (.many body) start start
  | again {body : Pattern} {start middle stop : Progress} (h : Matches body start middle)
      (h' : Matches (.many body) middle stop) : Matches (.many body) start stop
  | capture {label : String} {body : Pattern} {start stop : Progress}
      (h : Matches body start stop) :
      Matches (.capture label body) start
        { stop with captures := ⟨label, start.place, stop.place⟩ :: stop.captures }

variable {pattern body first second : Pattern} {start stop found : Progress}
  {next : Progress → Option Progress}

theorem matches_append :
    Matches (first ++ second) start stop ↔
      ∃ middle, Matches first start middle ∧ Matches second middle stop := by
  constructor
  · intro h
    cases (h : Matches (.seq first second) start stop) with
    | seq h h' => exact ⟨_, h, h'⟩
  · rintro ⟨middle, h, h'⟩
    exact .seq h h'

/-- Repetitions that are found are one after another. -/
theorem exists_matches_of_repeated
    (hbody : ∀ {next start}, body.run next start = some found →
      ∃ stop, Matches body start stop ∧ next stop = some found)
    {count : Nat} (h : repeated body.run next count start = some found) :
    ∃ stop, Matches (.many body) start stop ∧ next stop = some found := by
  induction count generalizing start with
  | zero => exact ⟨start, .enough, h⟩
  | succ count ih =>
    unfold repeated at h
    split at h
    · rename_i again hagain
      obtain rfl := Option.some.inj h
      obtain ⟨middle, hfirst, hrest⟩ := hbody hagain
      obtain ⟨stop, hmore, hnext⟩ := ih hrest
      exact ⟨stop, .again hfirst hmore, hnext⟩
    · exact ⟨start, .enough, h⟩

/-- What a run finds, it finds behind a match of the pattern. -/
theorem exists_matches_of_run (h : pattern.run next start = some found) :
    ∃ stop, Matches pattern start stop ∧ next stop = some found := by
  induction pattern generalizing next start with
  | nothing => exact ⟨start, .nothing, h⟩
  | one test =>
    obtain ⟨⟨before, rest⟩, captures⟩ := start
    cases rest with
    | nil => cases h
    | cons c rest =>
      obtain ⟨htest, hnext⟩ := Option.ite_none_right_eq_some.mp h
      exact ⟨_, .one htest, hnext⟩
  | textStart =>
    obtain ⟨hbefore, hnext⟩ := Option.ite_none_right_eq_some.mp h
    exact ⟨start, .textStart (List.isEmpty_iff.mp hbefore), hnext⟩
  | textEnd =>
    obtain ⟨hrest, hnext⟩ := Option.ite_none_right_eq_some.mp h
    exact ⟨start, .textEnd (List.isEmpty_iff.mp hrest), hnext⟩
  | wordEdge =>
    obtain ⟨hedge, hnext⟩ := Option.ite_none_right_eq_some.mp h
    exact ⟨start, .wordEdge hedge, hnext⟩
  | seq first second ihfirst ihsecond =>
    obtain ⟨middle, hfirst, hmiddle⟩ := ihfirst h
    obtain ⟨stop, hsecond, hnext⟩ := ihsecond hmiddle
    exact ⟨stop, .seq hfirst hsecond, hnext⟩
  | either first second ihfirst ihsecond =>
    unfold run at h
    split at h
    · rename_i found' hfound
      obtain rfl := Option.some.inj h
      obtain ⟨stop, hfirst, hnext⟩ := ihfirst hfound
      exact ⟨stop, .left hfirst, hnext⟩
    · obtain ⟨stop, hsecond, hnext⟩ := ihsecond h
      exact ⟨stop, .right hsecond, hnext⟩
  | many body ih => exact exists_matches_of_repeated ih h
  | capture label body ih =>
    obtain ⟨stop, hbody, hnext⟩ := ih h
    exact ⟨_, .capture hbody, hnext⟩

theorem exists_matches_of_searchFrom {before rest : List Char}
    (h : pattern.searchFrom before rest = some found) :
    ∃ place : Place, place.text = before.reverse ++ rest ∧ Matches pattern ⟨place, []⟩ found := by
  have hhere : ∀ {place : Place}, pattern.matchAt place = some found →
      Matches pattern ⟨place, []⟩ found := by
    intro place hplace
    obtain ⟨stop, hmatches, hstop⟩ := exists_matches_of_run hplace
    obtain rfl := Option.some.inj hstop
    exact hmatches
  induction rest generalizing before with
  | nil => exact ⟨_, rfl, hhere h⟩
  | cons c rest ih =>
    unfold searchFrom at h
    split at h
    · rename_i found' hfound
      obtain rfl := Option.some.inj h
      exact ⟨_, rfl, hhere hfound⟩
    · obtain ⟨place, htext, hmatches⟩ := ih h
      refine ⟨place, ?_, hmatches⟩
      rw [htext, List.reverse_cons, List.append_assoc, List.singleton_append]

/-- What is found in a text is a match from some place of the text on. -/
theorem exists_matches_of_search {text : List Char} (h : pattern.search text = some found) :
    ∃ place : Place, place.text = text ∧ Matches pattern ⟨place, []⟩ found :=
  exists_matches_of_searchFrom h

/-- A match passes some characters. -/
theorem Matches.leads (h : Matches pattern start stop) : start.place.Leads stop.place := by
  induction h with
  | nothing => exact .refl _
  | one htest => exact ⟨[_], rfl, rfl⟩
  | textStart hbefore => exact .refl _
  | textEnd hrest => exact .refl _
  | wordEdge hedge => exact .refl _
  | seq hfirst hsecond ihfirst ihsecond => exact ihfirst.trans ihsecond
  | left hfirst ih => exact ih
  | right hsecond ih => exact ih
  | enough => exact .refl _
  | again hbody hmore ihbody ihmore => exact ihbody.trans ihmore
  | capture hbody ih => exact ih

/-- A given text is what its pattern passes. -/
theorem Matches.before_exactly {text : String} (h : Matches (exactly text) start stop) :
    stop.place.before = text.toList.reverse ++ start.place.before := by
  unfold exactly at h
  generalize text.toList = cs at h ⊢
  induction cs generalizing start with
  | nil =>
    cases h with
    | nothing => rfl
  | cons c rest ih =>
    rw [List.foldr_cons] at h
    obtain ⟨middle, hc, hrest⟩ := matches_append.mp h
    rw [ih hrest, List.reverse_cons, List.append_assoc, List.singleton_append]
    cases hc with
    | one hc =>
      obtain rfl : _ = c := eq_of_beq hc
      rfl

end Pattern

end ContextSets
