import ContextSets.Document
import ContextSets.Proofs.JsonText
import ContextSets.Proofs.Table
import Mathlib

/-!
# Documents are read back from their text

A JSON form is faithful if it is legible and read back as what it was made of. The forms of all
parts of a set are faithful, and so is the text of a whole document.
-/

namespace ContextSets

namespace Json

/-! ### Numbers in range -/

theorem Number.takeDigits_eq {taken : Nat} {cs : List Char}
    (h : Nat.ofDigitChars 10 cs taken < UInt64.size) :
    takeDigits taken cs = (Nat.ofDigitChars 10 cs taken, []) := by
  induction cs generalizing taken with
  | nil => rw [takeDigits, Nat.ofDigitChars_nil]
  | cons c rest ih =>
    rw [Nat.ofDigitChars_cons, Nat.mul_comm] at h ⊢
    -- what is taken in on the way never exceeds the number of all digits
    have hnext : taken * 10 + (c.toNat - 48) < UInt64.size := by
      refine Nat.lt_of_le_of_lt ?_ h
      rw [Nat.ofDigitChars_eq_ofDigitChars_zero]
      exact Nat.le_trans (Nat.le_mul_of_pos_left _ (Nat.pow_pos (by decide))) (Nat.le_add_right _ _)
    rw [takeDigits]
    simp only [if_pos hnext]
    exact ih h

theorem Number.split_digits {digits : List Char} (h : ∀ c ∈ digits, c.isDigit) :
    split digits = (digits, [], none) := by
  have hmark : ∀ c ∈ digits, (!(c == 'e' || c == 'E')) = true := fun c hc => by
    simp [ne_of_isDigit (h c hc) (show 'e'.isDigit = false by rfl),
      ne_of_isDigit (h c hc) (show 'E'.isDigit = false by rfl)]
  have hpoint : ∀ c ∈ digits, (c != '.') = true := fun c hc =>
    bne_iff_ne.mpr (ne_of_isDigit (h c hc) rfl)
  simp only [split]
  rw [List.takeWhile_eq_self_iff.mpr hmark, List.dropWhile_eq_nil_iff.mpr hmark,
    List.takeWhile_eq_self_iff.mpr hpoint, List.dropWhile_eq_nil_iff.mpr hpoint]
  rfl

/-- A natural number of 64 bits is kept as it is. -/
theorem Number.ofLiteral?_nat {n : Nat} (h : n < UInt64.size) :
    ofLiteral? (toString n) = some (.whole false (UInt64.ofNat n)) := by
  have hdigits := isDigit_toDigits n
  have hsplit := split_digits hdigits
  have htake : takeDigits 0 (Nat.toDigits 10 n) = (n, []) := by
    rw [takeDigits_eq (by rwa [Nat.ofDigitChars_ten_toDigits]), Nat.ofDigitChars_ten_toDigits]
  rw [ofLiteral?, Nat.toString_eq_ofList_toDigits, String.toList_ofList]
  cases hcase : Nat.toDigits 10 n with
  | nil => exact absurd hcase Nat.toDigits_ne_nil
  | cons c rest =>
    rw [hcase] at hdigits hsplit htake
    have hc : c ≠ '-' := ne_of_isDigit (hdigits c List.mem_cons_self) rfl
    simp [hc, hsplit, htake]

/-! ### Members of objects -/

theorem legible_obj {members : List (String × Json)} (h : ∀ member ∈ members, member.2.Legible) :
    (obj members).Legible := by
  refine .object fun member hmember => ?_
  obtain ⟨source, hsource, rfl⟩ := List.mem_map.mp hmember
  exact h source hsource

@[simp]
theorem find_member? (key other : String) (value : Option Json) :
    Table.find key (member? other value) = if other = key then value else none := by
  cases value <;> simp [member?, Table.find]

theorem forall_mem_member? {α : Type} {write : α → Json} {p : Json → Prop} (h : ∀ a, p (write a))
    (key : String) (value : Option α) : ∀ member ∈ member? key (value.map write), p member.2 := by
  cases value with
  | none => nofun
  | some a => exact List.forall_mem_singleton.mpr (h a)

theorem find_append (key : String) (members more : List (String × Json)) :
    Table.find key (members ++ more) = (Table.find key members).or (Table.find key more) := by
  induction members with
  | nil => rfl
  | cons member rest ih =>
    by_cases heq : member.1 = key <;> simp [Table.find, heq, ih]

/-- Of members without repetitions only the one that is looked up has the key. -/
theorem filter_eq_find {members : List (String × Json)} (h : (members.map Prod.fst).Nodup)
    (key : String) :
    (members.map fun member => (some member.1, member.2)).filter (·.1 == some key) =
      ((Table.find key members).map fun json => (some key, json)).toList := by
  induction members with
  | nil => rfl
  | cons member rest ih =>
    obtain ⟨name, json⟩ := member
    obtain ⟨hnew, hrest⟩ := List.nodup_cons.mp h
    by_cases heq : name = key
    · subst heq
      -- the key does not come again, so nothing else passes the filter
      have hnone : Table.find name rest = none := by
        cases hfind : Table.find name rest with
        | none => rfl
        | some other => exact absurd (List.mem_map_of_mem (Table.mem_of_find hfind)) hnew
      simp [Table.find, ih hrest, hnone]
    · simp [Table.find, heq, ih hrest]

theorem mapM_eq_some {α β : Type} {f : α → Option β} {g : α → β} {items : List α}
    (h : ∀ item ∈ items, f item = some (g item)) : items.mapM f = some (items.map g) := by
  induction items with
  | nil => rfl
  | cons item rest ih =>
    rw [List.mapM_cons, h item List.mem_cons_self,
      ih fun item hitem => h item (List.mem_cons_of_mem _ hitem)]
    rfl

/-- The known members of an object without repetitions are looked up. -/
theorem members?_obj {members : List (String × Json)} (h : (members.map Prod.fst).Nodup)
    (known : List String) :
    members? known (obj members) = some (known.map fun key => Table.find key members) := by
  have hkeys : (members.map fun member => (some member.1, member.2)).all (·.1.isSome) = true := by
    simp
  rw [obj, members?, if_pos hkeys]
  refine mapM_eq_some fun key _ => ?_
  rw [filter_eq_find h]
  cases Table.find key members <;> rfl

theorem record?_obj {members : List (String × Json)} (h : (members.map Prod.fst).Nodup)
    (known : List String) :
    record? known (obj members) = some (known.map fun key => Table.find key members) :=
  members?_obj h known

/-! ### Limits on references -/

/-- A value whose strings and numbers are in order, and in which no more arrays and objects than a
limit are open anywhere. -/
structure Shallow (limit : Nat) (json : Json) : Prop where
  plain : json.isPlain
  depth_le : json.depth ≤ limit

section

variable {limit : Nat}

theorem shallow_text (s : String) : (text s).Shallow limit :=
  ⟨rfl, Nat.zero_le limit⟩

theorem shallow_nat {n : Nat} (h : n < UInt64.size) : (nat n).Shallow limit := by
  refine ⟨?_, Nat.zero_le limit⟩
  rw [nat, isPlain, Number.ofLiteral?_nat h, Option.isSome_some]

theorem shallow_array {items : List Json} (h : ∀ item ∈ items, item.Shallow limit) :
    (array items).Shallow (limit + 1) := by
  suffices hitems : plainItems items ∧ depthItems items ≤ limit by
    exact ⟨hitems.1, Nat.succ_le_succ hitems.2⟩
  induction items with
  | nil => exact ⟨rfl, Nat.zero_le limit⟩
  | cons item rest ih =>
    obtain ⟨hitem, hrest⟩ := List.forall_mem_cons.mp h
    obtain ⟨hplain, hdepth⟩ := ih hrest
    rw [plainItems, depthItems, hitem.plain, hplain]
    exact ⟨rfl, Nat.max_le.mpr ⟨hitem.depth_le, hdepth⟩⟩

theorem shallow_obj {members : List (String × Json)}
    (h : ∀ member ∈ members, member.2.Shallow limit) : (obj members).Shallow (limit + 1) := by
  suffices hmembers : plainMembers (members.map fun member => (some member.1, member.2)) ∧
      depthMembers (members.map fun member => (some member.1, member.2)) ≤ limit by
    exact ⟨hmembers.1, Nat.succ_le_succ hmembers.2⟩
  induction members with
  | nil => exact ⟨rfl, Nat.zero_le limit⟩
  | cons member rest ih =>
    obtain ⟨hmember, hrest⟩ := List.forall_mem_cons.mp h
    obtain ⟨hplain, hdepth⟩ := ih hrest
    rw [List.map_cons, plainMembers, depthMembers, hmember.plain, hplain]
    exact ⟨rfl, Nat.max_le.mpr ⟨hmember.depth_le, hdepth⟩⟩

end

/-! ### Faithful forms -/

/-- What makes a form of some values one that can be relied on: it can be printed, it is told from a
missing value, and it is read as what was written. -/
structure Faithful {α : Type} (write : α → Json) (read : Decoder α) : Prop where
  legible : ∀ a, (write a).Legible
  ne_null : ∀ a, write a ≠ .null
  read_write : ∀ a, read (write a) = some a

namespace Faithful

variable {α : Type} {write : α → Json} {read : Decoder α}

theorem text : Faithful .text text? where
  legible s := .string s
  ne_null _ := nofun
  read_write _ := rfl

theorem word : Faithful (fun n : UInt32 => .nat n.toNat) word? where
  legible n := .nat n.toNat
  ne_null _ := nofun
  read_write n := by
    have hdigits : (toString n.toNat).toList.all Char.isDigit = true := by
      rw [Nat.toString_eq_ofList_toDigits, String.toList_ofList, List.all_eq_true]
      exact isDigit_toDigits n.toNat
    have hvalue : (toString n.toNat).toNat? = some n.toNat := Nat.toNat?_repr n.toNat
    have hbound : n.toNat < UInt32.size := n.toNat_lt
    rw [word?, nat, natBelow?, if_pos hdigits, hvalue, Option.bind_eq_bind, Option.bind_some]
    simp only [if_pos hbound, Option.map_some, UInt32.ofNat_toNat]

theorem list (h : Faithful write read) :
    Faithful (fun items : List α => .array (items.map write)) (list? read) where
  legible items := .array (List.forall_mem_map.mpr fun item _ => h.legible item)
  ne_null _ := nofun
  read_write items := by
    rw [list?, List.mapM_map]
    exact (mapM_eq_some fun item _ => h.read_write item).trans (by rw [List.map_id'])

theorem legible_member (h : Faithful write read) (key : String) (value : Option α) :
    ∀ member ∈ member? key (value.map write), member.2.Legible :=
  forall_mem_member? h.legible key value

theorem required_some (h : Faithful write read) (a : α) : required read (some (write a)) = some a :=
  h.read_write a

theorem orEmpty_some (h : Faithful write read) (items : List α) :
    orEmpty read (some (.array (items.map write))) = some items :=
  h.list.read_write items

/-- A value under a known key is read, and left out it is missing. -/
theorem optional_map (h : Faithful write read) (value : Option α) :
    optional read (value.map write) = some value := by
  cases value with
  | none => rfl
  | some a =>
    rw [Option.map_some, optional, nullable?]
    · rw [h.read_write, Option.map_some]
    · exact h.ne_null a

theorem table (h : Faithful write read) :
    Faithful (fun table : Table α => obj (table.map write).entries) (table? read) where
  legible table := legible_obj fun member hmember => by
    obtain ⟨entry, -, rfl⟩ := List.mem_map.mp hmember
    exact h.legible entry.2
  ne_null _ := nofun
  read_write table := by
    have hentries : ∀ readEntry : Option String × Json → Option (String × α),
        (∀ entry : String × α, readEntry (some entry.1, write entry.2) = some entry) →
        ((table.map write).entries.map fun member => (some member.1, member.2)).mapM readEntry =
          some table.entries := by
      intro readEntry hread
      rw [List.mapM_map, Table.map, List.mapM_map]
      exact (mapM_eq_some fun entry _ => hread entry).trans (by rw [List.map_id'])
    rw [obj, table?, hentries _ fun entry => by simp [h.read_write], Option.bind_eq_bind,
      Option.bind_some, Table.ofList_entries]
    rfl

end Faithful

end Json

open Json (Faithful)

/-! ### The parts of a set -/

theorem FunctionRef.faithful : Faithful FunctionRef.toJson FunctionRef.ofJson? where
  legible ref := by
    refine Json.legible_obj ?_
    simp only [List.forall_mem_append, List.forall_mem_singleton]
    exact ⟨⟨.string _, Faithful.text.legible_member _ _⟩, Faithful.word.legible_member _ _⟩
  ne_null _ := nofun
  read_write ref := by
    rw [ofJson?, toJson, Json.record?_obj]
    · simp [Table.find, Json.find_append, Faithful.text.required_some, Faithful.text.optional_map,
        Faithful.word.optional_map]
    · cases ref.comment <;> cases ref.line <;> simp [Json.member?]

theorem WorkflowStep.faithful : Faithful WorkflowStep.toJson WorkflowStep.ofJson? where
  legible step := by
    refine Json.legible_obj ?_
    simp only [List.forall_mem_append, List.forall_mem_singleton]
    exact ⟨.string _, Faithful.text.legible_member _ _⟩
  ne_null _ := nofun
  read_write step := by
    rw [ofJson?, toJson, Json.record?_obj]
    · simp [Table.find, Faithful.text.required_some, Faithful.text.optional_map]
    · cases step.file <;> simp [Json.member?]

theorem FileEntry.faithful : Faithful FileEntry.toJson FileEntry.ofJson? where
  legible entry := by
    refine Json.legible_obj ?_
    simp only [List.forall_mem_append, List.forall_mem_singleton]
    exact ⟨.string _, Faithful.text.legible_member _ _⟩
  ne_null _ := nofun
  read_write entry := by
    rw [ofJson?, toJson, Json.record?_obj]
    · simp [Table.find, Faithful.text.required_some, Faithful.text.optional_map]
    · cases entry.comment <;> simp [Json.member?]

/-- Words are read as what they name. -/
theorem Json.Faithful.word_of_named {α : Type} {name : α → String} {named? : String → Option α}
    (h : ∀ a, named? (name a) = some a) :
    Faithful (fun a => .text (name a)) (Json.word named?) where
  legible a := .string (name a)
  ne_null _ := nofun
  read_write := h

theorem Protocol.faithful : Faithful (fun protocol => .text protocol.name) (Json.word named?) :=
  .word_of_named fun protocol => by cases protocol <;> rfl

theorem EntryPoint.faithful : Faithful EntryPoint.toJson EntryPoint.ofJson? where
  legible entry := by
    refine Json.legible_obj ?_
    simp only [List.forall_mem_append, List.forall_mem_cons]
    exact ⟨⟨.string _, .string _, .string _, .string _, nofun⟩, Faithful.text.legible_member _ _⟩
  ne_null _ := nofun
  read_write entry := by
    rw [ofJson?, toJson, Json.record?_obj]
    · simp [Table.find, Faithful.text.required_some, Faithful.text.optional_map,
        Protocol.faithful.required_some]
    · cases entry.identifier <;> simp [Json.member?]

theorem ProcessingMode.faithful_name :
    Faithful (fun mode => .text mode.name) (Json.word named?) :=
  .word_of_named fun mode => by cases mode <;> rfl

theorem ProcessingMode.faithful : Faithful ProcessingMode.toJson ProcessingMode.ofJson? where
  legible mode := by
    have hprocessing : (Json.obj [("mode", .text mode.name)]).Legible :=
      Json.legible_obj (List.forall_mem_singleton.mpr (.string _))
    exact Json.legible_obj (List.forall_mem_singleton.mpr hprocessing)
  ne_null _ := nofun
  read_write mode := by
    have hprocessing : Json.record? ["mode"] (.obj [("mode", .text mode.name)]) =
        some [some (.text mode.name)] := Json.record?_obj (by simp) _
    rw [ofJson?, toJson, Json.record?_obj (by simp)]
    simp [Table.find, Json.required, hprocessing, faithful_name.read_write]

theorem FunctionRef.shallow (ref : FunctionRef) : ref.toJson.Shallow 1 := by
  refine Json.shallow_obj ?_
  simp only [List.forall_mem_append, List.forall_mem_singleton]
  have hline : ∀ n : UInt32, (Json.nat n.toNat).Shallow 0 := fun n =>
    Json.shallow_nat (Nat.lt_trans n.toNat_lt (by decide))
  exact ⟨⟨Json.shallow_text _, Json.forall_mem_member? Json.shallow_text _ _⟩,
    Json.forall_mem_member? hline _ _⟩

theorem FileReference.shallow (id : String) (first : FunctionRef) (others : List FunctionRef)
    (comment : Option String) : (part id first others comment).toJson.Shallow 3 := by
  refine Json.shallow_obj ?_
  simp only [List.forall_mem_append, List.forall_mem_cons]
  have hrefs := Json.shallow_array (List.forall_mem_map.mpr fun ref (_ : ref ∈ first :: others) =>
    ref.shallow)
  exact ⟨⟨Json.shallow_text _, hrefs, nofun⟩, Json.forall_mem_member? Json.shallow_text _ _⟩

/-- A reference is read where the objects and the array of its functions stay within the limit. -/
theorem FileReference.faithful {opened : Nat} (h : opened + 3 ≤ depthLimit) :
    Faithful toJson (ofJson? opened) where
  legible reference := by
    cases reference with
    | whole id => exact .string _
    | part id first others comment =>
      refine Json.legible_obj ?_
      simp only [List.forall_mem_append, List.forall_mem_cons]
      exact ⟨⟨.string _, FunctionRef.faithful.list.legible _, nofun⟩,
        Faithful.text.legible_member _ _⟩
  ne_null reference := by cases reference <;> simp [toJson, Json.text, Json.obj]
  read_write reference := by
    cases reference with
    | whole id => rfl
    | part id first others comment =>
      have hshallow := shallow id first others comment
      have hlimit : ¬(depthLimit < opened + (part id first others comment).toJson.depth ∨
          !(part id first others comment).toJson.isPlain) := by
        have hdepth := hshallow.depth_le
        simp only [hshallow.plain, Bool.not_true, Bool.false_eq_true, or_false, not_lt]
        omega
      have hmembers : Json.members? ["fileRef", "functionRefs", "comment"]
          (part id first others comment).toJson = some [some (.text id),
            some (.array ((first :: others).map FunctionRef.toJson)), comment.map .text] := by
        rw [toJson, Json.members?_obj]
        · simp [Table.find]
        · cases comment <;> simp [Json.member?]
      rw [ofJson?]
      · rw [if_neg hlimit, hmembers]
        simp [Faithful.text.required_some, Faithful.text.optional_map,
          FunctionRef.faithful.orEmpty_some, ofRefs, -List.map_cons]
      · simp [toJson, Json.obj]

/-- A set opens an object and an array around its references. -/
theorem SetContent.faithful {opened : Nat} (h : opened + 5 ≤ FileReference.depthLimit) :
    Faithful toJson (ofJson? opened) where
  legible set := by
    have hfile := FileReference.faithful (show opened + 2 + 3 ≤ FileReference.depthLimit from h)
    refine Json.legible_obj ?_
    rw [members]
    simp only [List.forall_mem_append, List.forall_mem_cons]
    exact ⟨⟨Faithful.text.legible_member _ _, hfile.list.legible _,
        WorkflowStep.faithful.list.legible _, Faithful.text.list.legible _,
        EntryPoint.faithful.list.legible _, nofun⟩,
      ProcessingMode.faithful.legible_member _ _⟩
  ne_null _ := nofun
  read_write set := by
    have hfile := FileReference.faithful (show opened + 2 + 3 ≤ FileReference.depthLimit from h)
    rw [ofJson?, toJson, Json.record?_obj]
    · simp [members, keys, ofMembers?, Table.find, Json.find_append, Faithful.text.optional_map,
        hfile.orEmpty_some, WorkflowStep.faithful.orEmpty_some, Faithful.text.orEmpty_some,
        EntryPoint.faithful.orEmpty_some, ProcessingMode.faithful.optional_map]
    · rw [members]
      cases set.description <;> cases set.mode <;> simp [Json.member?]

/-! ### Documents -/

theorem Document.faithful : Faithful Document.toJson Document.ofJson? where
  legible document := by
    have hset := SetContent.faithful (show 2 + 5 ≤ FileReference.depthLimit by decide)
    refine Json.legible_obj ?_
    simp only [List.forall_mem_cons]
    exact ⟨hset.table.legible _, FileEntry.faithful.table.legible _, nofun⟩
  ne_null _ := nofun
  read_write document := by
    have hset := SetContent.faithful (show 2 + 5 ≤ FileReference.depthLimit by decide)
    rw [ofJson?, toJson, Json.record?_obj (by simp)]
    simp [Table.find, Json.required, hset.table.read_write, FileEntry.faithful.table.read_write]

/-- A document is read back from its text, whatever texts its sets and files hold and whatever they
leave out. -/
theorem Document.ofText_text (document : Document) :
    Document.ofText document.text = .ok document := by
  rw [ofText, text, (faithful.legible document).read?_pretty, Option.bind_some,
    faithful.read_write document]

end ContextSets
