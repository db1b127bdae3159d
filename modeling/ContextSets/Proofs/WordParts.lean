import ContextSets.Embedding.Features
import ContextSets.Proofs.LetterCases
import ContextSets.Proofs.TextParts
import Mathlib.Data.List.SplitBy

/-!
# Parts of words

For feature hashing a word is cut into pieces, each up to where a capital follows a small letter or a
digit, and the lower case of a piece is a token. Only the last piece of a word is asked for a second
byte. A capital is neither a small letter nor a digit, so a piece of one letter in front of a capital
can only be the first of its word.
-/

namespace ContextSets.Text

theorem lowerChar_ne_nil (c : Char) : lowerChar c ≠ [] := by
  unfold lowerChar
  split
  · nofun
  · split
    · nofun
    · split
      · nofun
      · split <;> nofun

end ContextSets.Text

namespace ContextSets.Features

open Text

variable {c d : Char} {text word front piece token : List Char}

/-! ### Pieces of a word -/

/-- Whether a capital follows a small letter or a digit. -/
def turns (c next : Char) : Bool :=
  (isLower c || c.isDigit) && isUpper next

/-- No turn follows directly on another. -/
theorem turns_of_turns {b : Char} (h : turns b c = true) : turns c d = false := by
  rw [turns, not_small_of_isUpper (Bool.and_eq_true_iff.mp h).2, Bool.false_and]

/-- The pieces of a word, each up to the next turn. -/
def pieces (word : List Char) : List (List Char) :=
  word.splitBy (!turns · ·)

/-- The lower case of a piece, character by character. -/
def lowered (piece : List Char) : List Char :=
  piece.flatMap lowerChar

/-- All of some texts but the last, and the last if it has a second byte. -/
def kept : List (List Char) → List (List Char)
  | [] => []
  | [last] => if 1 < byteCount last then [last] else []
  | piece :: next :: rest => piece :: kept (next :: rest)

theorem kept_cons {others : List (List Char)} (h : others ≠ []) (piece : List Char) :
    kept (piece :: others) = piece :: kept others := by
  obtain ⟨next, rest, rfl⟩ := List.exists_cons_of_ne_nil h
  rfl

theorem mem_kept {texts : List (List Char)} :
    token ∈ kept texts ↔
      token ∈ texts.dropLast ∨ (token ∈ texts.getLast? ∧ 1 < byteCount token) := by
  fun_induction kept texts with
  | case1 => simp
  | case2 last hlong => simp +contextual [hlong, eq_comm]
  | case3 last hshort =>
    simp only [List.not_mem_nil, List.dropLast_singleton, false_or, List.getLast?_singleton,
      Option.mem_some_iff, false_iff, not_and]
    rintro rfl
    exact hshort
  | case4 piece next rest ih =>
    rw [List.mem_cons, ih, List.dropLast_cons_cons, List.mem_cons, List.getLast?_cons_cons, or_assoc]

@[simp] theorem lowered_singleton (c : Char) : lowered [c] = lowerChar c :=
  List.append_nil _

theorem isEmpty_lowered (h : piece ≠ []) : (lowered piece).isEmpty = false := by
  obtain ⟨c, rest, rfl⟩ := List.exists_cons_of_ne_nil h
  simp [lowered, lowerChar_ne_nil]

/-- A piece ends where a turn follows. -/
theorem pieces_append_cons (hfront : front.IsChain fun a b => (!turns a b) = true)
    (hlast : c ∈ front.getLast?) (hturn : turns c d = true) (rest : List Char) :
    pieces (front ++ d :: rest) = front :: pieces (d :: rest) := by
  have hne : front ≠ [] := List.ne_nil_of_mem (List.mem_of_getLast? hlast)
  unfold pieces
  rw [List.splitBy_append_cons, List.splitBy_of_isChain hne hfront]
  · rfl
  · intro x hx
    obtain rfl := Option.mem_unique hx hlast
    rw [hturn, Bool.not_true]

/-- What has been read of the current piece has no turn in it, and its last character tells whether
one can follow. -/
theorem partsFrom_lowered (hfront : front.IsChain fun a b => (!turns a b) = true)
    (hlast : c ∈ front.getLast?) (rest : List Char) :
    partsFrom (lowered front) (isLower c || c.isDigit) rest =
      kept ((pieces (front ++ rest)).map lowered) := by
  have hne : front ≠ [] := List.ne_nil_of_mem (List.mem_of_getLast? hlast)
  induction rest generalizing front c with
  | nil =>
    rw [List.append_nil, pieces, List.splitBy_of_isChain hne hfront]
    rfl
  | cons d rest ih =>
    have hsingle : [d].IsChain fun a b => (!turns a b) = true := List.isChain_singleton d
    rw [partsFrom, isEmpty_lowered hne, Bool.not_false, Bool.and_true, Bool.and_comm]
    show (if turns c d = true then _ else _) = _
    split
    · -- the piece ends here, and the next one starts with the capital
      rename_i hturn
      have hmore : (pieces (d :: rest)).map lowered ≠ [] := by simp [pieces]
      have hnext : partsFrom (lowered [d]) (isLower d || d.isDigit) rest =
          kept ((pieces (d :: rest)).map lowered) := ih hsingle rfl (List.cons_ne_nil d [])
      rw [pieces_append_cons hfront hlast hturn, List.map_cons, kept_cons hmore, ← hnext,
        lowered_singleton]
    · rename_i hturn
      have hchain : (front ++ [d]).IsChain fun a b => (!turns a b) = true := by
        refine hfront.append hsingle fun x hx y hy => ?_
        obtain rfl := Option.mem_unique hx hlast
        obtain rfl := Option.mem_some_iff.mp hy
        simpa using hturn
      have hend : d ∈ (front ++ [d]).getLast? := by simp
      rw [List.append_cons, ← ih hchain hend (by simp)]
      simp [lowered]

theorem partsFrom_nil (word : List Char) :
    partsFrom [] false word = kept ((pieces word).map lowered) := by
  cases word with
  | nil => rfl
  | cons c rest =>
    have h := partsFrom_lowered (List.isChain_singleton c) (c := c) rfl rest
    simpa [partsFrom, lowered] using h

/-! ### Single bytes -/

theorem byteCount_append (cs ds : List Char) : byteCount (cs ++ ds) = byteCount cs + byteCount ds := by
  rw [byteCount, String.ofList_append, String.utf8ByteSize_append]
  rfl

theorem byteCount_pos {cs : List Char} (h : cs ≠ []) : 0 < byteCount cs := by
  refine Nat.pos_of_ne_zero fun hzero => h ?_
  have hempty : String.ofList cs = "" := String.utf8ByteSize_eq_zero_iff.mp hzero
  simpa using hempty

theorem length_le_byteCount_lowered (piece : List Char) : piece.length ≤ byteCount (lowered piece) := by
  induction piece with
  | nil => exact Nat.zero_le _
  | cons c rest ih =>
    have hc := byteCount_pos (lowerChar_ne_nil c)
    rw [lowered, List.flatMap_cons, byteCount_append, List.length_cons]
    exact Nat.add_comm _ 1 ▸ Nat.add_le_add hc ih

/-- A token is the lower case of a piece in front of another, or it has a second byte. -/
theorem mem_tokens :
    token ∈ tokens text ↔ ∃ word ∈ splitBy (!isLetterOrNumber ·) text,
      (∃ piece ∈ (pieces word).dropLast, lowered piece = token) ∨
        (∃ piece ∈ (pieces word).getLast?, lowered piece = token) ∧ 1 < byteCount token := by
  simp only [tokens, List.mem_flatMap, partsFrom_nil, mem_kept, ← List.map_dropLast, List.mem_map,
    List.getLast?_map, Option.mem_def, Option.map_eq_some_iff]

/-- A piece of one character behind which another follows is the first of its word: it does not start
at a turn, as a turn follows it. -/
theorem eq_cons_of_mem_dropLast (h : [c] ∈ (pieces word).dropLast) :
    ∃ d rest, word = c :: d :: rest ∧ turns c d = true := by
  have hne : pieces word ≠ [] := by
    intro hnil
    rw [hnil] at h
    cases h
  obtain ⟨front, others, hsplit⟩ := List.append_of_mem h
  obtain ⟨next, after, hmore⟩ : ∃ next after, others ++ [(pieces word).getLast hne] = next :: after :=
    List.exists_cons_of_ne_nil (by simp)
  have hall : pieces word = front ++ [c] :: next :: after := by
    rw [← List.dropLast_append_getLast hne, hsplit, ← hmore]
    simp
  have hchain := List.isChain_getLast_head_splitBy (!turns · ·) word
  have hflat := List.flatten_splitBy (!turns · ·) word
  rw [show word.splitBy (!turns · ·) = _ from hall] at hchain hflat
  obtain ⟨hbefore, ⟨_, hnext, hstep⟩, -⟩ := List.isChain_append_cons_cons.mp hchain
  obtain ⟨d, tail, rfl, hturn⟩ : ∃ d tail, next = d :: tail ∧ turns c d = true :=
    ⟨_, _, (List.cons_head_tail hnext).symm, by simpa using hstep⟩
  cases hlast : front.getLast? with
  | none =>
    rw [List.getLast?_eq_none_iff.mp hlast] at hflat
    exact ⟨d, tail ++ after.flatten, by simpa using hflat.symm, hturn⟩
  | some before =>
    -- the piece before ends at a turn to this one
    rw [← List.dropLast_append_getLast? before hlast, List.append_assoc] at hbefore
    obtain ⟨-, ⟨_, _, hearlier⟩, -⟩ := List.isChain_append_cons_cons.mp hbefore
    rw [turns_of_turns (by simpa using hearlier)] at hturn
    cases hturn

/-- A word of a text starts with a character that stands alone: a small letter or digit in front of a
capital. -/
def StartsAlone (text : List Char) (c : Char) : Prop :=
  ∃ d rest position, RunAt (!isLetterOrNumber ·) text position (c :: d :: rest) ∧ turns c d = true

theorem byteCount_pos_of_mem_tokens (h : token ∈ tokens text) : 0 < byteCount token := by
  obtain ⟨word, -, ⟨piece, hpiece, rfl⟩ | ⟨-, hlong⟩⟩ := mem_tokens.mp h
  · have hne : piece ≠ [] :=
      List.ne_nil_of_mem_splitBy ((List.dropLast_prefix _).subset hpiece)
    exact lt_of_lt_of_le (List.length_pos_of_ne_nil hne) (length_le_byteCount_lowered piece)
  · omega

theorem short_token_iff :
    token ∈ tokens text ∧ byteCount token < 2 ↔
      ∃ c, StartsAlone text c ∧ token = lowerChar c ∧ byteCount (lowerChar c) < 2 := by
  constructor
  · intro hgiven
    obtain ⟨hmem, hshort⟩ := hgiven
    obtain ⟨word, hword, ⟨piece, hpiece, rfl⟩ | ⟨-, hlong⟩⟩ := mem_tokens.mp hmem
    · have hne : piece ≠ [] :=
        List.ne_nil_of_mem_splitBy ((List.dropLast_prefix _).subset hpiece)
      have hlength := length_le_byteCount_lowered piece
      obtain ⟨c, rfl⟩ : ∃ c, piece = [c] := by
        have hpos := List.length_pos_of_ne_nil hne
        exact List.length_eq_one_iff.mp (by omega)
      obtain ⟨d, rest, rfl, hturn⟩ := eq_cons_of_mem_dropLast hpiece
      obtain ⟨position, hrun⟩ := (mem_splitBy_iff (List.cons_ne_nil _ _)).mp hword
      rw [lowered_singleton] at hshort ⊢
      exact ⟨c, ⟨d, rest, position, hrun, hturn⟩, rfl, hshort⟩
    · omega
  · intro hgiven
    obtain ⟨c, ⟨d, rest, position, hrun, hturn⟩, rfl, hshort⟩ := hgiven
    have hpieces : pieces (c :: d :: rest) = [c] :: pieces (d :: rest) :=
      pieces_append_cons (List.isChain_singleton c) rfl hturn rest
    have hfirst : [c] ∈ (pieces (c :: d :: rest)).dropLast := by
      rw [hpieces, List.dropLast_cons_of_ne_nil (by simp [pieces])]
      exact List.mem_cons_self
    exact ⟨mem_tokens.mpr ⟨_, (mem_splitBy_iff (List.cons_ne_nil _ _)).mpr ⟨position, hrun⟩,
      .inl ⟨[c], hfirst, lowered_singleton c⟩⟩, hshort⟩

end ContextSets.Features

namespace ContextSets

open Features

/-- Tokens have two bytes or more, except where a word starts with a small letter or a digit that stands
alone in front of a capital and has one byte in lower case. These, in lower case, are the tokens of a
single byte; no token is empty. -/
theorem short_tokens_stand_alone (text : String) :
    (∀ token ∈ tokens text.toList, 0 < byteCount token) ∧
    (∀ token, token ∈ tokens text.toList ∧ byteCount token < 2 ↔
      ∃ c, StartsAlone text.toList c ∧ token = Text.lowerChar c ∧
        byteCount (Text.lowerChar c) < 2) ∧
    ((∀ token ∈ tokens text.toList, 2 ≤ byteCount token) ↔
      ∀ c, StartsAlone text.toList c → 2 ≤ byteCount (Text.lowerChar c)) := by
  refine ⟨fun token => byteCount_pos_of_mem_tokens, fun token => short_token_iff, ?_, ?_⟩
  · intro hlong c hc
    by_contra hshort
    obtain ⟨hmem, -⟩ := short_token_iff.mpr ⟨c, hc, rfl, Nat.lt_of_not_le hshort⟩
    exact hshort (hlong _ hmem)
  · intro hlong token htoken
    by_contra hshort
    obtain ⟨c, hc, -, hone⟩ := short_token_iff.mp ⟨htoken, Nat.lt_of_not_le hshort⟩
    exact Nat.not_le_of_lt hone (hlong c hc)

theorem short_tokens_stand_alone_phone :
    tokens "iPhone2Go".toList = ["i".toList, "phone2".toList, "go".toList] ∧
      byteCount "i".toList < 2 ∧
      ∃ c, StartsAlone "iPhone2Go".toList c ∧ "i".toList = Text.lowerChar c := by
  have htokens : tokens "iPhone2Go".toList = ["i".toList, "phone2".toList, "go".toList] := by decide
  have hshort : byteCount "i".toList < 2 := by decide
  have hmem : "i".toList ∈ tokens "iPhone2Go".toList := by
    rw [htokens]
    exact List.mem_cons_self
  obtain ⟨-, halone, -⟩ := short_tokens_stand_alone "iPhone2Go"
  obtain ⟨c, hc, heq, -⟩ := (halone _).mp ⟨hmem, hshort⟩
  exact ⟨htokens, hshort, c, hc, heq⟩

/-- The letter in front of the first capital of a word becomes a token of one byte. -/
theorem lone_letter_is_token :
    tokens "xValue".toList = ["x".toList, "value".toList] ∧
      ¬ ∀ token ∈ tokens "xValue".toList, 2 ≤ byteCount token := by
  decide

end ContextSets
