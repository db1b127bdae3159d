import ContextSets.Json.Printer
import ContextSets.Json.Reader
import Mathlib.Data.List.TakeWhile

/-!
# Printed JSON is read back

The indented text of a value is read as that value, whatever its strings are, as long as its numbers
are natural.
-/

namespace ContextSets.Json

/-! ### Blanks -/

theorem skipGap_append {gap cs : List Char} (h : ∀ c ∈ gap, isGap c) :
    skipGap (gap ++ cs) = skipGap cs :=
  List.dropWhile_append_of_pos h

theorem skipGap_cons {c : Char} {cs : List Char} (h : isGap c = false) :
    skipGap (c :: cs) = c :: cs := by
  simp [skipGap, h]

theorem isGap_newLine (level : Nat) : ∀ c ∈ newLine level, isGap c := by
  intro c hc
  rcases List.mem_cons.mp hc with rfl | hc
  · rfl
  · rw [List.eq_of_mem_replicate hc]
    rfl

theorem skipGap_newLine (level : Nat) (cs : List Char) :
    skipGap (newLine level ++ cs) = skipGap cs :=
  skipGap_append (isGap_newLine level)

section

variable {join : List Piece → Option String} {gap : List Char} (h : ∀ c ∈ gap, isGap c)
  (fuel : Nat) (cs : List Char)

include h

theorem readValue_gap : readValue join fuel (gap ++ cs) = readValue join fuel cs := by
  cases fuel with
  | zero => simp only [readValue]
  | succ fuel => simp only [readValue, skipGap_append h]

theorem readItems_gap : readItems join fuel (gap ++ cs) = readItems join fuel cs := by
  cases fuel with
  | zero => simp only [readItems]
  | succ fuel => simp only [readItems, readValue_gap h]

theorem readMembers_gap : readMembers join fuel (gap ++ cs) = readMembers join fuel cs := by
  cases fuel with
  | zero => simp only [readMembers]
  | succ fuel => simp only [readMembers, skipGap_append h]

end

/-! ### Strings -/

/-- What makes a piece one with a character: it is read off what is written for the character, and
it stands for the character among other pieces. -/
structure Piece.Spells (piece : Piece) (c : Char) : Prop where
  read : ∀ rest, readPieces (escaped c ++ rest) =
    (readPieces rest).map fun (pieces, rest) => (piece :: pieces, rest)
  join : ∀ pieces, joinPieces ([·]) ([·]) (piece :: pieces) =
    (joinPieces ([·]) ([·]) pieces).map (c :: ·)

theorem hexDigit?_digitChar {n : Nat} (h : n < 16) : hexDigit? (Nat.digitChar n) = some n := by
  revert n
  decide

theorem hexUnit?_digitChar {n : Nat} (h : n < 0x100) :
    hexUnit? '0' '0' (Nat.digitChar (n / 16)) (Nat.digitChar (n % 16)) = some n := by
  have hhigh : hexDigit? (Nat.digitChar (n / 16)) = some (n / 16) := hexDigit?_digitChar (by omega)
  have hlow : hexDigit? (Nat.digitChar (n % 16)) = some (n % 16) := hexDigit?_digitChar (by omega)
  have hzero : hexDigit? '0' = some 0 := rfl
  simp [hexUnit?, hhigh, hlow, hzero]
  omega

/-- A character that an escape of one letter stands for. -/
theorem Piece.Spells.short {c letter : Char} (h : escaped c = ['\\', letter])
    (hletter : letter ≠ 'u') (hshort : shortEscape? letter = some c) : (Piece.char c).Spells c where
  read rest := by
    rw [h, List.cons_append, List.cons_append, List.nil_append, readPieces]
    · rw [hshort]
      cases readPieces rest <;> rfl
    · intro _ _ _ _ _ hu _
      exact hletter hu
  join pieces := by
    simp [joinPieces]

theorem Piece.Spells.unit {c : Char} (h : c.toNat < 0x20)
    (hescaped : escaped c =
      ['\\', 'u', '0', '0', Nat.digitChar (c.toNat / 16), Nat.digitChar (c.toNat % 16)]) :
    (Piece.unit c.toNat).Spells c where
  read rest := by
    rw [hescaped]
    simp only [List.cons_append, List.nil_append, readPieces]
    rw [hexUnit?_digitChar (by omega)]
    cases readPieces rest <;> rfl
  join pieces := by
    have hhigh : isHighUnit c.toNat = false := by simp [isHighUnit]; omega
    have hlow : isLowUnit c.toNat = false := by simp [isLowUnit]; omega
    conv => lhs; unfold joinPieces
    simp [hhigh, hlow]

theorem Piece.Spells.plain {c : Char} (h : 0x20 ≤ c.toNat) (hquote : c ≠ '"') (hslash : c ≠ '\\')
    (hescaped : escaped c = [c]) : (Piece.char c).Spells c where
  read rest := by
    rw [hescaped, List.cons_append, List.nil_append, readPieces]
    · rw [if_neg (by simp [hslash]; omega)]
      cases readPieces rest <;> rfl
    all_goals simp [hquote, hslash]
  join pieces := by
    simp [joinPieces]

/-- Every character is written so that it is read. -/
theorem exists_spells (c : Char) : ∃ piece : Piece, piece.Spells c := by
  have hescaped : escaped c = escaped c := rfl
  conv at hescaped => rhs; unfold escaped
  -- seven characters have a letter of their own, the other control characters are written in digits
  split at hescaped
  case h_8 hquote hslash _ _ _ _ _ =>
    split at hescaped
    · rename_i hcontrol
      exact ⟨_, .unit hcontrol hescaped⟩
    · exact ⟨_, .plain (by omega) hquote hslash hescaped⟩
  all_goals exact ⟨_, .short hescaped (by decide) rfl⟩

theorem readPieces_escaped (cs : List Char) :
    ∃ pieces, joinPieces ([·]) ([·]) pieces = some cs ∧
      ∀ rest, readPieces (cs.flatMap escaped ++ '"' :: rest) = some (pieces, rest) := by
  induction cs with
  | nil => exact ⟨[], rfl, fun rest => rfl⟩
  | cons c cs ih =>
    obtain ⟨pieces, hjoin, hread⟩ := ih
    obtain ⟨piece, hpiece⟩ := exists_spells c
    refine ⟨piece :: pieces, ?_, fun rest => ?_⟩
    · rw [hpiece.join, hjoin]
      rfl
    · rw [List.flatMap_cons, List.append_assoc, hpiece.read, hread]
      rfl

/-- A printed string is read back, also one that stands for no text. -/
theorem exists_printString (text : Option String) :
    ∃ body, printString text = '"' :: body ∧
      ∀ rest, readString textOfPieces? (body ++ rest) = some (text, rest) := by
  cases text with
  | none => exact ⟨_, rfl, fun rest => rfl⟩
  | some text =>
    obtain ⟨pieces, hjoin, hread⟩ := readPieces_escaped text.toList
    refine ⟨text.toList.flatMap escaped ++ ['"'], rfl, fun rest => ?_⟩
    rw [List.append_assoc, List.singleton_append, readString, hread]
    simp [textOfPieces?, hjoin]

/-! ### Natural numbers -/

/-- What may stand behind a number, so that the number ends there. -/
def EndsNumber (rest : List Char) : Prop :=
  ∀ c ∈ rest.head?, c.isDigit = false ∧ c ≠ '.' ∧ c ≠ 'e' ∧ c ≠ 'E'

theorem endsNumber_comma (rest : List Char) : EndsNumber (',' :: rest) := by
  simp [EndsNumber]

theorem endsNumber_newLine (level : Nat) (rest : List Char) :
    EndsNumber (newLine level ++ rest) := by
  simp [EndsNumber, newLine]

theorem readDigits_append {digits rest : List Char} (h : ∀ c ∈ digits, c.isDigit)
    (hne : digits ≠ []) (hrest : EndsNumber rest) :
    readDigits (digits ++ rest) = some (digits, rest) := by
  have htake : rest.takeWhile Char.isDigit = [] := by
    cases rest with
    | nil => rfl
    | cons c rest => simp [(hrest c rfl).1]
  have hdrop : rest.dropWhile Char.isDigit = rest := by
    cases rest with
    | nil => rfl
    | cons c rest => simp [(hrest c rfl).1]
  rw [readDigits, List.takeWhile_append_of_pos h, List.dropWhile_append_of_pos h, htake, hdrop,
    List.append_nil]
  cases digits with
  | nil => exact absurd rfl hne
  | cons c digits => rfl

theorem readFraction_of_ends {rest : List Char} (h : EndsNumber rest) :
    readFraction rest = some ([], rest) := by
  unfold readFraction
  split
  · exact absurd rfl (h '.' rfl).2.1
  · rfl

theorem readExponent_of_ends {rest : List Char} (h : EndsNumber rest) :
    readExponent rest = some ([], rest) := by
  cases rest with
  | nil => rfl
  | cons c rest =>
    obtain ⟨-, -, he, hE⟩ := h c rfl
    simp [readExponent, he, hE]

theorem isDigit_toDigits (n : Nat) : ∀ c ∈ Nat.toDigits 10 n, c.isDigit :=
  fun _ => Nat.isDigit_of_mem_toDigits (by decide) (by decide)

/-- The digits of a positive number do not start with a zero. -/
theorem toDigits_eq_cons {n : Nat} (h : 0 < n) :
    ∃ c digits, Nat.toDigits 10 n = c :: digits ∧ c ≠ '0' := by
  induction n using Nat.strongRecOn with
  | ind n ih =>
    rcases Nat.lt_or_ge n 10 with hlt | hge
    · refine ⟨_, [], Nat.toDigits_of_lt_base hlt, ?_⟩
      simp only [ne_eq, Nat.digitChar_eq_zero]
      omega
    · obtain ⟨c, digits, hdigits, hc⟩ := ih (n / 10) (by omega) (by omega)
      refine ⟨c, digits ++ [(n % 10).digitChar], ?_, hc⟩
      rw [Nat.toDigits_of_base_le (by decide) hge, hdigits, List.cons_append]

theorem readWhole_toDigits (n : Nat) {rest : List Char} (hrest : EndsNumber rest) :
    readWhole (Nat.toDigits 10 n ++ rest) = some (Nat.toDigits 10 n, rest) := by
  rcases Nat.eq_zero_or_pos n with rfl | hpos
  · rfl
  · rw [← readDigits_append (isDigit_toDigits n) Nat.toDigits_ne_nil hrest]
    obtain ⟨c, digits, hdigits, hc⟩ := toDigits_eq_cons hpos
    rw [hdigits, List.cons_append, readWhole]
    exact fun _ heq => hc (List.cons.inj heq).1

theorem readUnsigned_toDigits (n : Nat) {rest : List Char} (hrest : EndsNumber rest) :
    readUnsigned (Nat.toDigits 10 n ++ rest) = some (Nat.toDigits 10 n, rest) := by
  rw [readUnsigned, readWhole_toDigits n hrest]
  simp [readFraction_of_ends hrest, readExponent_of_ends hrest]

theorem ne_of_isDigit {c other : Char} (h : c.isDigit) (hother : other.isDigit = false) :
    c ≠ other := by
  rintro rfl
  exact Bool.false_ne_true (hother.symm.trans h)

/-- A value that starts with a digit is a number without a sign. -/
theorem readValue_digit {join : List Piece → Option String} {c : Char} (h : c.isDigit) (fuel : Nat)
    (cs : List Char) :
    readValue join (fuel + 1) (c :: cs) = (readUnsigned (c :: cs)).map fun (literal, rest) =>
      (.number (String.ofList literal), rest) := by
  have hgap : isGap c = false := by
    simp [isGap, ne_of_isDigit h (show ' '.isDigit = false by rfl),
      ne_of_isDigit h (show '\t'.isDigit = false by rfl),
      ne_of_isDigit h (show '\n'.isDigit = false by rfl),
      ne_of_isDigit h (show '\r'.isDigit = false by rfl)]
  rw [readValue.eq_def]
  simp only [skipGap_cons hgap]
  split
  case h_7 =>
    rw [readNumber]
    · cases readUnsigned (c :: cs) <;> rfl
    · exact fun _ heq => ne_of_isDigit h rfl (List.cons.inj heq).1
  all_goals rename_i heq; exact absurd (List.cons.inj heq).1 (ne_of_isDigit h rfl)

theorem printPretty_nat (level n : Nat) : (nat n).printPretty level = Nat.toDigits 10 n := by
  rw [nat, printPretty, Nat.toString_eq_ofList_toDigits, String.toList_ofList]

theorem readValue_nat (join : List Piece → Option String) (fuel n : Nat) {rest : List Char}
    (hrest : EndsNumber rest) :
    readValue join (fuel + 1) (Nat.toDigits 10 n ++ rest) = some (.nat n, rest) := by
  have hdigits := isDigit_toDigits n
  have hread := readUnsigned_toDigits n hrest
  rw [nat, Nat.toString_eq_ofList_toDigits]
  cases hcase : Nat.toDigits 10 n with
  | nil => exact absurd hcase Nat.toDigits_ne_nil
  | cons c digits =>
    rw [hcase] at hdigits hread
    rw [List.cons_append, readValue_digit (hdigits c List.mem_cons_self), ← List.cons_append, hread]
    rfl

/-! ### Values -/

section

variable {join : List Piece → Option String} {fuel : Nat} {cs rest after : List Char}

/-- Nothing that starts with a closing bracket is a value. -/
theorem readValue_closing (h : skipGap cs = ']' :: rest) : readValue join fuel cs = none := by
  cases fuel with
  | zero => rw [readValue]
  | succ fuel => simp [readValue, h, readNumber, readUnsigned, readWhole, readDigits]

theorem readItems_last {value : Json} (h : readValue join fuel cs = some (value, rest))
    (hrest : skipGap rest = ']' :: after) :
    readItems join (fuel + 1) cs = some ([value], after) := by
  simp [readItems, h, hrest]

theorem readItems_cons {value : Json} {items : List Json}
    (h : readValue join fuel cs = some (value, ',' :: rest))
    (hitems : readItems join fuel rest = some (items, after)) :
    readItems join (fuel + 1) cs = some (value :: items, after) := by
  simp [readItems, h, hitems, skipGap_cons (c := ',') rfl]

theorem readValue_array {items : List Json} (h : readItems join fuel cs = some (items, rest)) :
    readValue join (fuel + 1) ('[' :: cs) = some (.array items, rest) := by
  -- what has items does not begin with the end of an array
  have hopen : ∀ more, skipGap cs ≠ ']' :: more := by
    intro more hmore
    cases fuel with
    | zero => simp [readItems] at h
    | succ fuel => simp [readItems, readValue_closing hmore] at h
  rw [readValue, skipGap_cons rfl]
  simp only
  rw [h]
  rfl

variable {key : Option String} {value : Json} {body : List Char}

theorem readMembers_last (hkey : readString join body = some (key, ':' :: rest))
    (h : readValue join fuel rest = some (value, after)) {more : List Char}
    (hafter : skipGap after = '}' :: more) :
    readMembers join (fuel + 1) ('"' :: body) = some ([(key, value)], more) := by
  simp [readMembers, skipGap_cons (c := '"') rfl, skipGap_cons (c := ':') rfl, hkey, h, hafter]

theorem readMembers_cons (hkey : readString join body = some (key, ':' :: rest))
    (h : readValue join fuel rest = some (value, ',' :: after))
    {members : List (Option String × Json)} {more : List Char}
    (hmembers : readMembers join fuel after = some (members, more)) :
    readMembers join (fuel + 1) ('"' :: body) = some ((key, value) :: members, more) := by
  simp [readMembers, skipGap_cons (c := '"') rfl, skipGap_cons (c := ':') rfl,
    skipGap_cons (c := ',') rfl, hkey, h, hmembers]

theorem readValue_object {members : List (Option String × Json)}
    (h : readMembers join fuel cs = some (members, rest)) :
    readValue join (fuel + 1) ('{' :: cs) = some (.object members, rest) := by
  have hopen : ∀ more, skipGap cs ≠ '}' :: more := by
    intro more hmore
    cases fuel with
    | zero => simp [readMembers] at h
    | succ fuel => simp [readMembers, hmore] at h
  rw [readValue, skipGap_cons rfl]
  simp only
  rw [h]
  rfl

end

/-- The values all of whose numbers are natural. -/
inductive Legible : Json → Prop where
  | null : Legible .null
  | bool (value : Bool) : Legible (.bool value)
  | nat (n : Nat) : Legible (.nat n)
  | string (text : Option String) : Legible (.string text)
  | array {items : List Json} (h : ∀ value ∈ items, Legible value) : Legible (.array items)
  | object {members : List (Option String × Json)} (h : ∀ member ∈ members, Legible member.2) :
    Legible (.object members)

/-- The indented text of a value is read back, within as many steps as it has characters. -/
def Readable (value : Json) : Prop :=
  ∀ level fuel rest, (value.printPretty level).length ≤ fuel → EndsNumber rest →
    readValue textOfPieces? fuel (value.printPretty level ++ rest) = some (value, rest)

theorem readItems_prettyItems {items : List Json} (hne : items ≠ [])
    (h : ∀ value ∈ items, value.Readable) (level outer fuel : Nat) (rest : List Char)
    (hfuel : (prettyItems level items).length < fuel) :
    readItems textOfPieces? fuel (prettyItems level items ++ (newLine outer ++ ']' :: rest)) =
      some (items, rest) := by
  induction items generalizing fuel with
  | nil => exact absurd rfl hne
  | cons value others ih =>
    obtain ⟨fuel, rfl⟩ : ∃ less, fuel = less + 1 := ⟨fuel - 1, by omega⟩
    have hvalue := h value List.mem_cons_self
    cases others with
    | nil =>
      rw [prettyItems] at hfuel ⊢
      exact readItems_last (hvalue level fuel _ (by omega) (endsNumber_newLine _ _))
        (skipGap_newLine _ _)
    | cons next others =>
      rw [prettyItems] at hfuel ⊢
      · simp only [List.length_append, List.length_singleton] at hfuel
        simp only [List.append_assoc, List.singleton_append]
        refine readItems_cons (hvalue level fuel _ (by omega) (endsNumber_comma _))
          ((readItems_gap (isGap_newLine level) fuel _).trans ?_)
        exact ih (List.cons_ne_nil _ _) (fun value hmem => h value (List.mem_cons_of_mem _ hmem))
          fuel (by omega)
      all_goals exact List.cons_ne_nil _ _

theorem readMembers_prettyMembers {members : List (Option String × Json)} (hne : members ≠ [])
    (h : ∀ member ∈ members, member.2.Readable) (level outer fuel : Nat) (rest : List Char)
    (hfuel : (prettyMembers level members).length < fuel) :
    readMembers textOfPieces? fuel
      (prettyMembers level members ++ (newLine outer ++ '}' :: rest)) = some (members, rest) := by
  induction members generalizing fuel with
  | nil => exact absurd rfl hne
  | cons member others ih =>
    obtain ⟨fuel, rfl⟩ : ∃ less, fuel = less + 1 := ⟨fuel - 1, by omega⟩
    obtain ⟨key, value⟩ := member
    obtain ⟨body, hprint, hread⟩ := exists_printString key
    have hvalue : ∀ rest, (value.printPretty level).length ≤ fuel → EndsNumber rest →
        readValue textOfPieces? fuel (' ' :: (value.printPretty level ++ rest)) =
          some (value, rest) := fun rest hlength hrest =>
      (readValue_gap (show ∀ c ∈ [' '], isGap c by simp [isGap]) fuel _).trans
        (h _ List.mem_cons_self level fuel rest hlength hrest)
    cases others with
    | nil =>
      rw [prettyMembers] at hfuel ⊢
      simp only [List.length_append, List.length_cons] at hfuel
      simp only [hprint, List.append_assoc, List.cons_append, List.nil_append]
      exact readMembers_last (hread _) (hvalue _ (by omega) (endsNumber_newLine _ _))
        (skipGap_newLine _ _)
    | cons next others =>
      rw [prettyMembers] at hfuel ⊢
      · simp only [List.length_append, List.length_cons] at hfuel
        simp only [hprint, List.append_assoc, List.cons_append, List.nil_append]
        refine readMembers_cons (hread _) (hvalue _ (by omega) (endsNumber_comma _))
          ((readMembers_gap (isGap_newLine level) fuel _).trans ?_)
        exact ih (List.cons_ne_nil _ _) (fun member hmem => h member (List.mem_cons_of_mem _ hmem))
          fuel (by omega)
      all_goals exact List.cons_ne_nil _ _

theorem Legible.length_pos {value : Json} (h : value.Legible) (level : Nat) :
    0 < (value.printPretty level).length := by
  cases h with
  | null => simp [printPretty]
  | bool value => cases value <;> simp [printPretty]
  | nat n => simpa [printPretty_nat] using Nat.length_toDigits_pos
  | string text => cases text <;> simp [printPretty, printString]
  | @array items _ => cases items <;> simp [printPretty]
  | @object members _ => cases members <;> simp [printPretty]

theorem Legible.readable_of_succ {value : Json} (h : value.Legible)
    (hread : ∀ level fuel rest, (value.printPretty level).length ≤ fuel + 1 → EndsNumber rest →
      readValue textOfPieces? (fuel + 1) (value.printPretty level ++ rest) = some (value, rest)) :
    value.Readable := by
  intro level fuel rest hfuel hrest
  cases fuel with
  | zero => exact absurd (h.length_pos level) (by omega)
  | succ fuel => exact hread level fuel rest hfuel hrest

/-- Every value whose numbers are natural is read back from its indented text. -/
theorem Legible.readable {value : Json} (h : value.Legible) : value.Readable := by
  induction h with
  | null => exact Legible.null.readable_of_succ fun _ _ _ _ _ => rfl
  | bool value =>
    refine (Legible.bool value).readable_of_succ fun _ _ _ _ _ => ?_
    cases value <;> rfl
  | nat n =>
    refine (Legible.nat n).readable_of_succ fun level fuel rest _ hrest => ?_
    rw [printPretty_nat]
    exact readValue_nat _ fuel n hrest
  | string text =>
    refine (Legible.string text).readable_of_succ fun level fuel rest _ _ => ?_
    obtain ⟨body, hprint, hread⟩ := exists_printString text
    rw [printPretty, hprint, List.cons_append, readValue, skipGap_cons rfl]
    simp [hread]
  | @array items hitems ih =>
    refine (Legible.array hitems).readable_of_succ fun level fuel rest hfuel _ => ?_
    cases items with
    | nil => rfl
    | cons item others =>
      rw [printPretty] at hfuel ⊢
      simp only [List.length_append, List.length_cons, List.length_nil] at hfuel
      simp only [List.append_assoc, List.cons_append, List.nil_append]
      exact readValue_array ((readItems_gap (isGap_newLine _) fuel _).trans
        (readItems_prettyItems (List.cons_ne_nil _ _) ih _ _ fuel rest (by omega)))
  | @object members hmembers ih =>
    refine (Legible.object hmembers).readable_of_succ fun level fuel rest hfuel _ => ?_
    cases members with
    | nil => rfl
    | cons member others =>
      rw [printPretty] at hfuel ⊢
      simp only [List.length_append, List.length_cons, List.length_nil] at hfuel
      simp only [List.append_assoc, List.cons_append, List.nil_append]
      exact readValue_object ((readMembers_gap (isGap_newLine _) fuel _).trans
        (readMembers_prettyMembers (List.cons_ne_nil _ _) ih _ _ fuel rest (by omega)))

/-- The indented text of a value with a line break behind it denotes the value. -/
theorem Legible.read?_pretty {value : Json} (h : value.Legible) :
    read? (value.pretty ++ "\n") = some value := by
  have hends : EndsNumber ['\n'] := endsNumber_newLine 0 []
  have hlength : (value.printPretty 0).length ≤
      2 * (value.printPretty 0 ++ ['\n']).length + 2 := by
    rw [List.length_append]
    omega
  have htext : (value.pretty ++ "\n").toList = value.printPretty 0 ++ ['\n'] := by
    rw [String.toList_append, pretty, String.toList_ofList]
    rfl
  rw [read?, htext, readAll?, h.readable 0 _ _ hlength hends]
  rfl

end ContextSets.Json
