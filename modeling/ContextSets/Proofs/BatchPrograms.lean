import ContextSets.Proofs.BatchRuns
import ContextSets.Proofs.KeptVectors

/-!
# Batches as programs

The program that works off a batch has one item in flight at a time. What it does is one of the ways
in which a batch in flight can go: whenever it looks whether the batch has been cancelled, and between
any two items, it has come as far as a batch in flight, with the same index and the same reports.
-/

namespace ContextSets

/-! ### Updates that end -/

section

variable {m : Type → Type} [Monad m] [LawfulMonad m]

/-- A reply that has come, be it an answer or an error. -/
def Reply.HasCome {α : Type} (reply : Reply α) : Prop :=
  ∃ result, reply = .done result

theorem Cache.settle_hasCome {V : Type} (shelf : Option (Shelf m V)) (key : CacheKey) (ticket : Nat)
    (vector : V) (cache : Cache V) :
    Ensures ((settle shelf key ticket vector).run cache) fun r => r.1.HasCome := by
  unfold settle
  refine Ensures.get_bind ?_
  split
  · refine Ensures.lift_bind (Ensures.trivial _) fun entry _ => ?_
    refine Ensures.lift_bind (Ensures.trivial _) fun written _ => ?_
    cases written with
    | ok => exact Ensures.modify_bind (Ensures.run_pure ⟨_, rfl⟩)
    | error fault => exact Ensures.modify_bind (Ensures.run_pure ⟨_, rfl⟩)
  · exact Ensures.run_pure ⟨_, rfl⟩

theorem Cache.getOrCompute_hasCome {V : Type} (shelf : Option (Shelf m V)) (key : CacheKey)
    {compute : m (Reply V)} (hcompute : Ensures compute Reply.HasCome) (cache : Cache V) :
    Ensures ((getOrCompute shelf key (StateT.lift compute)).run cache) fun r => r.1.HasCome := by
  unfold getOrCompute
  refine Ensures.modifyGet_bind ?_
  split
  · exact Ensures.run_pure ⟨_, rfl⟩
  · unfold computeInto
    refine Ensures.lift_bind hcompute ?_
    rintro _ ⟨result, rfl⟩
    cases result with
    | error e => exact Ensures.modify_bind (Ensures.run_pure ⟨_, rfl⟩)
    | ok vector => exact settle_hasCome shelf key _ vector _

namespace EmbeddingIndex

variable {embedder : Embedder m}
  (hanswers : ∀ request, Ensures (embedder.provider.embed request) Reply.HasCome)

include hanswers

theorem takeIn_hasCome (path fingerprint text : String) (index : EmbeddingIndex) :
    Ensures ((takeIn embedder path fingerprint text).run index) fun r => r.1.HasCome := by
  have hembed : Ensures (embed embedder text) Reply.HasCome := by
    refine (hanswers _).bind ?_
    rintro _ ⟨result, rfl⟩
    exact .pure ⟨_, rfl⟩
  unfold takeIn getOrEmbed
  refine Ensures.run_bind (onCache_ensures (Cache.getOrCompute_hasCome embedder.shelf _ hembed _)) ?_
  rintro reply index ⟨-, hreply⟩
  split
  · exact Ensures.modify_bind (Ensures.run_pure hreply)
  · exact Ensures.run_pure hreply

/-- If the provider always answers, updates end. -/
theorem update_hasCome (path text : String) (index : EmbeddingIndex) :
    Ensures ((update embedder path text).run index) fun r => r.1.HasCome := by
  unfold update
  refine Ensures.get_bind ?_
  split
  · exact takeIn_hasCome hanswers path _ text index
  · split
    · exact Ensures.run_pure ⟨_, rfl⟩
    · refine Ensures.run_bind (Ensures.trivial _) fun released index _ => ?_
      cases released with
      | error e => exact Ensures.run_pure ⟨_, rfl⟩
      | ok => exact takeIn_hasCome hanswers path _ text index

end EmbeddingIndex

end

namespace Batch

variable {W : Type}

/-- What an update of the index with an item may come to in a program. -/
def updatingBy {m : Type → Type} [Monad m] (embedder : Embedder m) : Updating :=
  fun item index result after =>
    Yields ((EmbeddingIndex.update embedder item.path item.text).run index) (.done result, after)

/-- Nothing has been reported, and what has been cancelled stays so. -/
structure Onward (cancelled : W → Bool) (reports : W → List BatchProgress) (before after : W) :
    Prop where
  reports : reports after = reports before
  cancelled : cancelled before = true → cancelled after = true

/-- The world of a program tells whether the batch has been cancelled and what has been reported. The
monitor answers and reports accordingly; updates end, and leave the reports to it. The batch may be
cancelled at any time. -/
structure Watched (embedder : Embedder (StateM W)) (monitor : Monitor (StateM W))
    (cancelled : W → Bool) (reports : W → List BatchProgress) : Prop where
  asks : ∀ w, Ensures (monitor.isCancelled.run w) fun r =>
    r.1 = cancelled r.2 ∧ Onward cancelled reports w r.2
  tells : ∀ progress w, Ensures ((monitor.report progress).run w) fun r =>
    reports r.2 = reports w ++ [progress] ∧ (cancelled w = true → cancelled r.2 = true)
  updates : ∀ path text index w, Ends (EmbeddingIndex.update embedder path text) index w
    fun reply _ w' => reply.HasCome ∧ Onward cancelled reports w w'

/-- A provider that always answers and files that have nothing to do with the batch do not keep it
from being watched. -/
theorem watched_of_spares {embedder : Embedder (StateM W)} {monitor : Monitor (StateM W)}
    {cancelled : W → Bool} {reports : W → List BatchProgress}
    (hanswers : ∀ request, Ensures (embedder.provider.embed request) Reply.HasCome)
    (hspares : embedder.Spares (fun w => (cancelled w, reports w)) Set.univ)
    (hasks : ∀ w, Ensures (monitor.isCancelled.run w) fun r =>
      r.1 = cancelled r.2 ∧ Onward cancelled reports w r.2)
    (htells : ∀ progress w, Ensures ((monitor.report progress).run w) fun r =>
      reports r.2 = reports w ++ [progress] ∧ (cancelled w = true → cancelled r.2 = true)) :
    Watched embedder monitor cancelled reports where
  asks := hasks
  tells := htells
  updates := by
    intro path text index w
    have hfiled : index.Filed Set.univ := fun _ _ _ => Set.mem_univ _
    have hnames : (embedder.keyOf text).WrittenAs Set.univ := ⟨Set.mem_univ _, Set.mem_univ _⟩
    have hkeeps := EmbeddingIndex.update_keeps hspares path hnames hfiled
    obtain ⟨-, hsame⟩ := (hkeeps w).of_id
    obtain ⟨hflag, hreports⟩ := Prod.mk.inj hsame
    have hcame := Yields.run_state ((EmbeddingIndex.update embedder path text).run index) w _
      (EmbeddingIndex.update_hasCome hanswers path text index)
    exact Ensures.pure (m := Id) ⟨hcame, hreports, fun h => hflag.trans h⟩

/-- A program ends as a batch in flight has ended: with the same answer and the same index, having
reported the same, and cancelled if and only if the other is. -/
structure EndsAs (cancelled : W → Bool) (reports : W → List BatchProgress) (state : InFlight)
    (before : W) (reply : Reply BatchReport) (index : EmbeddingIndex) (after : W) : Prop where
  reply : ∃ result, state.result = some result ∧ reply = .done result
  index : state.index = index
  flag : state.isCancelled = cancelled after
  reports : reports after = reports before ++ state.reports

namespace InFlight

variable {updating : Updating} {state : InFlight}

/-! ### Steps between two items -/

/-- Nothing is in flight. -/
structure Idle (state : InFlight) : Prop where
  running : state.batch.running = []
  pending : state.pending = []
  answered : state.answered = []
  result : state.result = none

/-- A batch that may have been cancelled in the meantime. -/
def flagged (state : InFlight) (flag : Bool) : InFlight :=
  { state with isCancelled := flag }

theorem Idle.flagged (h : state.Idle) (flag : Bool) : (state.flagged flag).Idle :=
  ⟨h.running, h.pending, h.answered, h.result⟩

theorem runs_flagged (workers : Nat) {flag : Bool} (hopen : state.result = none)
    (hflag : state.isCancelled = true → flag = true) :
    Runs updating workers state (state.flagged flag) := by
  unfold InFlight.flagged
  cases hgoes : state.isCancelled with
  | true => rw [hflag hgoes, ← hgoes]
  | false =>
    cases flag with
    | true => exact .single (.cancel hgoes hopen)
    | false => rw [← hgoes]

/-- All that waits is skipped. -/
theorem runs_skipping (workers : Nat) {rest : List BatchItem} (hidle : state.Idle)
    (hstopped : state.isCancelled = true) (hwaiting : state.batch.waiting = rest) :
    Runs updating workers state
      { state with batch := state.batch.skipWaiting, skipped := state.skipped ++ rest } := by
  induction rest generalizing state with
  | nil =>
    unfold skipWaiting
    rw [List.append_nil, ← hwaiting]
  | cons item rest ih =>
    have hroom := room_of_idle hidle.running workers
    have hstep : Step updating workers state _ := .skip hwaiting hroom hstopped
    refine .head hstep ?_
    have hidle' : ({ state with
        batch := { state.batch with waiting := rest }
        skipped := state.skipped ++ [item] } : InFlight).Idle :=
      ⟨hidle.running, hidle.pending, hidle.answered, hidle.result⟩
    have hrest := ih hidle' hstopped rfl
    rw [List.append_assoc] at hrest
    exact hrest

/-- A batch after an item has been started, updated and taken in. -/
def through (state : InFlight) (item : BatchItem) (result : Except EmbeddingError Embedding)
    (last : EmbeddingIndex) : InFlight :=
  { state with
    batch := state.batch.start.finish item result
    index := last
    started := state.started ++ [item]
    pending := []
    updated := state.updated ++ [⟨item, result⟩]
    answered := []
    taken := state.taken ++ [⟨item, result⟩]
    reports := state.reports ++ [(state.batch.start.finish item result).progress] }

theorem runs_through (workers : Nat) {item : BatchItem} {rest : List BatchItem}
    {last : EmbeddingIndex} {result : Except EmbeddingError Embedding} (hidle : state.Idle)
    (hgoes : state.isCancelled = false) (hwaiting : state.batch.waiting = item :: rest)
    (hupdate : updating item state.index result last) :
    Runs updating workers state (state.through item result last) := by
  have hpending : state.pending ++ [item] = [] ++ item :: [] := by
    rw [hidle.pending]
  have hanswered : state.answered ++ [⟨item, result⟩] = [] ++ ⟨item, result⟩ :: [] := by
    rw [hidle.answered]
  have hroom := room_of_idle hidle.running workers
  refine .head (.start hwaiting hroom hgoes) ?_
  refine .head (.update hpending hupdate) ?_
  exact .single (@Step.finish _ _ _ [] [] ⟨item, result⟩ hanswered)

theorem Idle.through {item : BatchItem} {rest : List BatchItem} {last : EmbeddingIndex}
    {result : Except EmbeddingError Embedding} (hidle : state.Idle)
    (hwaiting : state.batch.waiting = item :: rest) : (state.through item result last).Idle where
  running := by
    show (state.batch.start.finish item result).running = []
    rw [running_finish, start_of_waiting hwaiting, hidle.running]
    exact List.erase_cons_head item []
  pending := rfl
  answered := rfl
  result := hidle.result

theorem waiting_through {item : BatchItem} {rest : List BatchItem}
    (hwaiting : state.batch.waiting = item :: rest) (result : Except EmbeddingError Embedding)
    (last : EmbeddingIndex) :
    (state.through item result last).batch.waiting = rest := by
  show (state.batch.start.finish item result).waiting = rest
  rw [waiting_finish, start_of_waiting hwaiting]

end InFlight

/-! ### The program -/

namespace Watched

variable {embedder : Embedder (StateM W)} {monitor : Monitor (StateM W)} {cancelled : W → Bool}
  {reports : W → List BatchProgress}

/-- What an update ends with is what it may come to. -/
theorem update_ends (h : Watched embedder monitor cancelled reports) (item : BatchItem)
    (index : EmbeddingIndex) (w : W) :
    Ends (EmbeddingIndex.update embedder item.path item.text) index w fun reply after w' =>
      ∃ result, reply = .done result ∧ updatingBy embedder item index result after ∧
        Onward cancelled reports w w' := by
  have hyields :=
    Yields.run_state ((EmbeddingIndex.update embedder item.path item.text).run index) w
  obtain ⟨⟨result, hresult⟩, honward⟩ := (h.updates item.path item.text index w).of_id
  apply Ensures.pure (m := Id)
  refine ⟨result, hresult, ?_, honward⟩
  unfold updatingBy
  rw [← hresult]
  exact hyields

/-- A program between two items has come as far as a batch in flight. -/
structure Follows (cancelled : W → Bool) (reports : W → List BatchProgress)
    (earlier : List BatchProgress) (state : InFlight) (index : EmbeddingIndex) (w : W) : Prop where
  idle : state.Idle
  index : state.index = index
  flag : state.isCancelled = cancelled w
  reports : reports w = earlier ++ state.reports

namespace Follows

variable {earlier : List BatchProgress} {state : InFlight} {index : EmbeddingIndex}
  {w w' w'' : W}

/-- While nothing is reported, the batch can at most have been cancelled. -/
theorem onward (h : Follows cancelled reports earlier state index w)
    (honward : Onward cancelled reports w w') (updating : Updating) (workers : Nat) :
    InFlight.Runs updating workers state (state.flagged (cancelled w')) ∧
      Follows cancelled reports earlier (state.flagged (cancelled w')) index w' := by
  have hflag : state.isCancelled = true → cancelled w' = true := by
    rw [h.flag]
    exact honward.cancelled
  exact ⟨InFlight.runs_flagged workers h.idle.result hflag, h.idle.flagged _, h.index, rfl,
    honward.reports.trans h.reports⟩

theorem skip (rest : List BatchItem) (h : Follows cancelled reports earlier state index w) :
    Follows cancelled reports earlier
      { state with batch := state.batch.skipWaiting, skipped := state.skipped ++ rest } index w :=
  ⟨⟨h.idle.running, h.idle.pending, h.idle.answered, h.idle.result⟩, h.index, h.flag, h.reports⟩

/-- An item goes through, and then it is reported. -/
theorem through {item : BatchItem} {rest : List BatchItem}
    {result : Except EmbeddingError Embedding}
    (h : Follows cancelled reports earlier state index w)
    (hwaiting : state.batch.waiting = item :: rest) (honward : Onward cancelled reports w w')
    (htold : reports w'' = reports w' ++ [(state.batch.start.finish item result).progress])
    (hstays : cancelled w' = true → cancelled w'' = true) (updating : Updating) (workers : Nat)
    (after : EmbeddingIndex) :
    InFlight.Runs updating workers (state.through item result after)
        ((state.through item result after).flagged (cancelled w'')) ∧
      Follows cancelled reports earlier
        ((state.through item result after).flagged (cancelled w'')) after w'' := by
  have hidle : (state.through item result after).Idle := h.idle.through hwaiting
  have hflag : state.isCancelled = true → cancelled w'' = true := by
    rw [h.flag]
    exact fun hcancelled => hstays (honward.cancelled hcancelled)
  refine ⟨InFlight.runs_flagged workers hidle.result hflag, hidle.flagged _, rfl, rfl, ?_⟩
  rw [htold, honward.reports, h.reports, List.append_assoc]
  rfl

end Follows

theorem work_follows (h : Watched embedder monitor cancelled reports) (workers : Nat) {count : Nat}
    (hcount : count ≠ 0) {earlier : List BatchProgress} (rest : List BatchItem) {state : InFlight}
    {index : EmbeddingIndex} {w : W} (hwaiting : state.batch.waiting = rest)
    (hfollows : Follows cancelled reports earlier state index w) :
    Ends (work embedder monitor count rest state.batch) index w fun answer after w' =>
      ∃ last, InFlight.Runs (updatingBy embedder) workers state last ∧ last.batch = answer.1 ∧
        last.batch.waiting = [] ∧ Follows cancelled reports earlier last after w' := by
  induction rest generalizing state index w with
  | nil => exact Ends.pure ⟨state, .refl, rfl, hwaiting, hfollows⟩
  | cons item rest ih =>
    unfold work
    rw [if_neg hcount]
    refine Ends.lift_bind (h.asks w) ?_
    intro answer w₁ hasked
    obtain ⟨hanswer, honward⟩ := hasked
    obtain ⟨hahead, hasked⟩ := hfollows.onward honward (updatingBy embedder) workers
    cases hstopped : cancelled w₁ with
    | true =>
      obtain rfl : answer = true := hanswer.trans hstopped
      have hskip : InFlight.Runs (updatingBy embedder) workers (state.flagged (cancelled w₁)) _ :=
        InFlight.runs_skipping workers hasked.idle hstopped hwaiting
      rw [if_pos rfl]
      exact Ends.pure ⟨_, hahead.trans hskip, rfl, rfl, hasked.skip _⟩
    | false =>
      obtain rfl : answer = false := hanswer.trans hstopped
      rw [if_neg Bool.false_ne_true]
      refine Ends.bind (h.update_ends item index w₁) ?_
      intro reply after w₂ hupdated
      obtain ⟨result, rfl, hupdate, honward'⟩ := hupdated
      refine Ends.lift_bind (h.tells _ w₂) ?_
      intro _ w₃ htold
      have hitem := InFlight.runs_through workers hasked.idle hstopped hwaiting
        (hasked.index.symm ▸ hupdate)
      obtain ⟨hcaught, hnext⟩ := hasked.through hwaiting honward' htold.1 htold.2
        (updatingBy embedder) workers after
      have hrest : (((state.flagged (cancelled w₁)).through item result after).flagged
          (cancelled w₃)).batch.waiting = rest := InFlight.waiting_through hwaiting result after
      refine (ih hrest hnext).mono ?_
      intro answer index w' hends
      obtain ⟨last, hruns, hlast⟩ := hends
      exact ⟨last, hahead.trans (hitem.trans (hcaught.trans hruns)), hlast⟩

/-- The program that embeds all items ends as a batch in flight may end. -/
theorem run_follows (h : Watched embedder monitor cancelled reports) (workers : Nat)
    (items : List BatchItem) (index : EmbeddingIndex) (w : W) :
    Ends (run embedder monitor workers items) index w fun reply after w' =>
      ∃ state, InFlight.Runs (updatingBy embedder) workers (.fresh items index) state ∧
        EndsAs cancelled reports state w reply after w' := by
  have hcount : max 1 workers ≠ 0 := by omega
  unfold run
  refine Ends.lift_bind (h.tells _ w) ?_
  intro _ w₁ htold
  have hfresh : Follows cancelled reports (reports w)
      ((InFlight.fresh items index).flagged (cancelled w₁)) index w₁ :=
    ⟨⟨rfl, rfl, rfl, rfl⟩, rfl, rfl, htold.1⟩
  have hstart : InFlight.Runs (updatingBy embedder) workers (.fresh items index)
      ((InFlight.fresh items index).flagged (cancelled w₁)) :=
    InFlight.runs_flagged workers rfl nofun
  have hworked := h.work_follows workers hcount items rfl hfresh
  refine Ends.bind hworked ?_
  intro answer after w₂ hends
  obtain ⟨batch, count⟩ := answer
  obtain ⟨last, hruns, rfl, hwaiting, hlast⟩ := hends
  simp only [hlast.idle.running, List.isEmpty_nil, Bool.not_true, Bool.false_eq_true, if_false]
  refine Ends.lift_bind (h.asks w₂) ?_
  intro answer w₃ hasked
  obtain ⟨hanswer, honward⟩ := hasked
  obtain rfl : answer = cancelled w₃ := hanswer
  obtain ⟨hahead, hasked⟩ := hlast.onward honward (updatingBy embedder) workers
  have hend : InFlight.Step (updatingBy embedder) workers (last.flagged (cancelled w₃)) _ :=
    .conclude hwaiting hasked.idle.running hasked.idle.result
  have hall := hstart.trans (hruns.trans (hahead.tail hend))
  by_cases hstopped : cancelled w₃ = true
  · rw [if_pos hstopped]
    refine Ends.pure ⟨_, hall, ⟨_, rfl, ?_⟩, hasked.index, rfl, hasked.reports⟩
    show Reply.error _ = .done (if cancelled w₃ then _ else _)
    rw [if_pos hstopped]
    rfl
  · rw [if_neg hstopped]
    refine Ends.pure ⟨_, hall, ⟨_, rfl, ?_⟩, hasked.index, rfl, hasked.reports⟩
    show Reply.ok _ = .done (if cancelled w₃ then _ else _)
    rw [if_neg hstopped]
    rfl

end Watched

/-! ### An example -/

/-- What a program sees that does nothing but work off a batch. -/
structure Watch where
  isCancelled : Bool
  heard : List BatchProgress

namespace Watch

/-- A monitor that cancels the batch when a given number of items have ended. -/
def monitor (limit : Nat) : Monitor (StateM Watch) where
  isCancelled := return (← get).isCancelled
  report progress := modify fun watch =>
    ⟨watch.isCancelled || progress.completed == limit, watch.heard ++ [progress]⟩

/-- An embedder that cannot embed one text. -/
def embedder : Embedder (StateM Watch) where
  provider := {
    name := "picky"
    model := "picky"
    dimension := 0
    isAvailable := true
    embed request := pure <|
      if request.text = "y" then .error (.rateLimited 60)
      else .ok { embedding := [], model := "picky", dimension := 0, tokensUsed := none } }
  shelf := none

theorem watched (limit : Nat) : Watched embedder (monitor limit) isCancelled heard := by
  apply watched_of_spares
  · intro request
    apply Ensures.pure
    by_cases htext : request.text = "y"
    · rw [if_pos htext]
      exact ⟨_, rfl⟩
    · rw [if_neg htext]
      exact ⟨_, rfl⟩
  · exact ⟨fun _ => spares_pure _, fun _ h => nomatch h⟩
  · intro watch
    exact Ensures.get_bind (Ensures.run_pure ⟨rfl, rfl, id⟩)
  · intro progress watch
    refine Ensures.pure (m := Id) ⟨rfl, fun h => ?_⟩
    show (watch.isCancelled || _) = true
    rw [h, Bool.true_or]

end Watch

end Batch

end ContextSets
