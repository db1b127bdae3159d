import ContextSets.Embedding.Features
import ContextSets.Proofs.TextParts
import Mathlib.Algebra.BigOperators.Group.List.Basic
import Mathlib.Algebra.Ring.Int.Defs

/-!
# Counts of tokens

The counts by which a text is embedded are sums over its tokens: each token adds its sign to the one
component that its hash falls to. No word reaches over a character that is neither letter nor number,
so a text that such a character divides has the tokens of both halves and the sums of their counts. For
the embedding a text is a bag of words.
-/

namespace ContextSets.Features

variable {dimension component : Nat} {ts us : List (List Char)} {c : Char}

/-! ### Tokens of a text in two halves -/

theorem tokens_append (hc : Text.isLetterOrNumber c = false) (a b : List Char) :
    tokens (a ++ c :: b) = tokens a ++ tokens b := by
  have hcut : (!Text.isLetterOrNumber c) = true := by rw [hc, Bool.not_false]
  unfold tokens
  rw [Text.splitBy_append_cons hcut, List.flatMap_append]

/-- A text in two halves has the same tokens whichever half comes first. -/
theorem tokens_append_perm (hc : Text.isLetterOrNumber c = false) (a b : List Char) :
    (tokens (a ++ c :: b)).Perm (tokens (b ++ c :: a)) := by
  rw [tokens_append hc, tokens_append hc]
  exact List.perm_append_comm

/-! ### Counts as sums -/

theorem bucket_lt (h : 0 < dimension) (hash : UInt64) : bucket dimension hash < dimension :=
  Nat.mod_lt _ h

/-- What a token adds to a component. -/
def share (dimension component : Nat) (token : List Char) : Int :=
  if bucket dimension (hashOf token) = component then sign (hashOf token) else 0

@[simp] theorem size_count (counts : Array Int) (token : List Char) :
    (count counts token).size = counts.size :=
  Array.size_modify

theorem getElem?_count (counts : Array Int) (token : List Char) (component : Nat) :
    (count counts token)[component]? =
      counts[component]?.map (· + share counts.size component token) := by
  unfold count share
  dsimp only
  rw [Array.getElem?_modify]
  split
  · rfl
  · simp

/-- Behind some tokens, each component has what it had before and all that the tokens add to it. -/
theorem getElem?_foldl_count (counts : Array Int) (ts : List (List Char)) (component : Nat) :
    (ts.foldl count counts)[component]? =
      counts[component]?.map (· + (ts.map (share counts.size component)).sum) := by
  induction ts generalizing counts with
  | nil => simp
  | cons token rest ih =>
    rw [List.foldl_cons, ih, size_count, getElem?_count, Option.map_map, List.map_cons,
      List.sum_cons]
    congr 1
    funext value
    exact Int.add_assoc _ _ _

theorem getElem?_counts (dimension : Nat) (ts : List (List Char)) (component : Nat) :
    (counts dimension ts)[component]? =
      if component < dimension then some (ts.map (share dimension component)).sum else none := by
  rw [counts, getElem?_foldl_count, Array.size_replicate, Array.getElem?_replicate]
  split
  · simp
  · rfl

theorem counts_append (dimension : Nat) (ts us : List (List Char)) :
    counts dimension (ts ++ us) =
      Array.zipWith (· + ·) (counts dimension ts) (counts dimension us) := by
  refine Array.ext_getElem? fun component => ?_
  rw [Array.getElem?_zipWith]
  simp only [getElem?_counts, List.map_append, List.sum_append]
  split <;> rfl

/-- The counts do not depend on the order of the tokens. -/
theorem counts_perm (h : ts.Perm us) (dimension : Nat) : counts dimension ts = counts dimension us := by
  refine Array.ext_getElem? fun component => ?_
  rw [getElem?_counts, getElem?_counts, (h.map _).sum_eq]

/-- Nor does the answer to a request. -/
theorem response_perm {text other : String} (h : (tokens text.toList).Perm (tokens other.toList))
    (dimension : Nat) (request : EmbeddingRequest) :
    response dimension { request with text := text } =
      response dimension { request with text := other } := by
  unfold response
  dsimp only
  rw [counts_perm h, h.length_eq]

end ContextSets.Features

namespace ContextSets

open Features

/-- For the embedding by feature hashing a text is a bag of words. Where a character that is neither
letter nor number divides a text, its tokens are those of the first half and then those of the second.
The counts have one component or more, each token falls to one of them, and what a component counts is
the sum of what the tokens of the text add to it. So the counts of both halves add up, and texts with
the same tokens in any order, as the same halves the other way round, have the same counts and the
same embedding. -/
theorem hashed_texts_are_bags_of_words (dimension : Nat) (request : EmbeddingRequest) :
    let size := max 1 (request.dimensions.getD dimension)
    let countsOf := fun text : String => counts size (tokens text.toList)
    let answer := fun text : String => response dimension { request with text := text }
    (∀ text, (answer text).embedding =
      Embedding.normalize ((countsOf text).toList.map Float32.ofInt)) ∧
    (∀ token, bucket size (hashOf token) < size) ∧
    (∀ text component, (countsOf text)[component]? = if component < size then
      some ((tokens text.toList).map (share size component)).sum else none) ∧
    (∀ text other, (tokens text.toList).Perm (tokens other.toList) →
      countsOf text = countsOf other ∧ answer text = answer other) ∧
    ∀ (a b : String) (c : Char), Text.isLetterOrNumber c = false →
      let both := a ++ String.singleton c ++ b
      let turned := b ++ String.singleton c ++ a
      tokens both.toList = tokens a.toList ++ tokens b.toList ∧
      countsOf both = Array.zipWith (· + ·) (countsOf a) (countsOf b) ∧
      countsOf both = countsOf turned ∧ answer both = answer turned := by
  intro size countsOf answer
  have hsize : 0 < size := Nat.lt_of_lt_of_le Nat.one_pos (Nat.le_max_left _ _)
  have hperm : ∀ text other : String, (tokens text.toList).Perm (tokens other.toList) →
      countsOf text = countsOf other ∧ answer text = answer other := fun text other h =>
    ⟨counts_perm h size, response_perm h dimension request⟩
  refine ⟨fun text => rfl, fun token => bucket_lt hsize _,
    fun text component => getElem?_counts size _ component, hperm, ?_⟩
  intro a b c hc both turned
  have hboth : both.toList = a.toList ++ c :: b.toList := by simp [both]
  have hturned : turned.toList = b.toList ++ c :: a.toList := by simp [turned]
  have htokens : tokens both.toList = tokens a.toList ++ tokens b.toList := by
    rw [hboth, tokens_append hc]
  refine ⟨htokens, ?_, hperm both turned ?_⟩
  · show counts size (tokens both.toList) = _
    rw [htokens, counts_append]
  · rw [hboth, hturned]
    exact tokens_append_perm hc _ _

theorem hashed_texts_are_bags_of_words_login :
    Text.isLetterOrNumber '(' = false ∧
      tokens "loginUser(user_id".toList =
        ["login".toList, "user".toList, "user".toList, "id".toList] ∧
      counts 256 (tokens "loginUser(user_id".toList) =
        counts 256 (tokens "user_id(loginUser".toList) ∧
      (tokens "loginUser".toList).Perm (tokens "User login".toList) ∧
      counts 256 (tokens "loginUser".toList) = counts 256 (tokens "User login".toList) := by
  have hbar : Text.isLetterOrNumber '(' = false := by decide
  have hperm : (tokens "loginUser".toList).Perm (tokens "User login".toList) := by decide
  have hhalves : tokens "loginUser".toList ++ tokens "user_id".toList =
      ["login".toList, "user".toList, "user".toList, "id".toList] := by decide
  obtain ⟨-, -, -, hbags, hcut⟩ := hashed_texts_are_bags_of_words 256 { text := "" }
  obtain ⟨htokens, -, hturned, -⟩ := hcut "loginUser" "user_id" '(' hbar
  exact ⟨hbar, htokens.trans hhalves, hturned, hperm, (hbags _ _ hperm).1⟩

end ContextSets
