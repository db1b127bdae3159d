import ContextSets.Embedding.Batch
import ContextSets.Proofs.ResultOrder
import ContextSets.Proofs.VectorUpkeep

/-!
# Runs over sources

Ranking and batches take in sources whose paths are not in the index yet. Both keep the invariant of
the vectors. A batch that ends with a report has failures if and only if a source is missing from the
index.
-/

namespace ContextSets

/-! ### Batches -/

namespace Batch

/-- An item has failed or does not end. -/
def Troubled (batch : Batch) : Prop :=
  batch.running ≠ [] ∨ batch.failed ≠ []

variable {batch : Batch} {item : BatchItem} {rest : List BatchItem}

/-- An item that ends makes no more and no less room than it took. -/
theorem troubled_finish_ok {α : Type} {value : α} (h : batch.waiting = item :: rest)
    (htroubled : batch.Troubled) : (batch.start.finish item (.ok value)).Troubled := by
  rw [start_of_waiting h]
  refine htroubled.imp (fun hrunning => ?_) id
  show (batch.running ++ [item]).erase item ≠ []
  have hlength := List.length_erase_of_mem (List.mem_append_right batch.running
    (List.mem_singleton_self item))
  rw [List.length_append, List.length_singleton, Nat.add_sub_cancel] at hlength
  exact List.ne_nil_of_length_pos (hlength ▸ List.length_pos_of_ne_nil hrunning)

/-- How a batch is watched: neither question nor report touches the files, and a batch that has just
been found to be cancelled is found so again. -/
structure Heeds {n : Type → Type} [Monad n] {σ : Type} (monitor : Monitor (StateT σ n))
    (files : σ → Contents) (cancelled : σ → Prop) : Prop where
  asked : ∀ s, Ensures (monitor.isCancelled.run s) fun r => files r.2 = files s ∧
    (r.1 = true → cancelled r.2) ∧ (cancelled s → r.1 = true)
  told : ∀ progress, Spares files (monitor.report progress)

end Batch

/-- A source as an item of a batch. -/
def SourceFile.item (source : SourceFile) : BatchItem :=
  ⟨source.path, source.content⟩

namespace Upkeep

variable {n : Type → Type} {σ : Type} {upkeep : Upkeep n σ} {index after : EmbeddingIndex}
  {source : SourceFile} {sources : List SourceFile}

/-- Sources with distinct paths, none of which is in the index. -/
structure Unseen (index : EmbeddingIndex) (sources : List SourceFile) : Prop where
  distinct : (sources.map (·.path)).Nodup
  missing : ∀ source ∈ sources, index.entries.get? source.path = none

/-- The index has the same entry for every path but that of a source. -/
def SameBut (source : SourceFile) (index after : EmbeddingIndex) : Prop :=
  ∀ path, source.path ≠ path → after.entries.get? path = index.entries.get? path

theorem Unseen.rest (h : Unseen index (source :: sources)) (hsame : SameBut source index after) :
    Unseen after sources := by
  obtain ⟨hhead, hrest⟩ := List.nodup_cons.mp h.distinct
  refine ⟨hrest, fun other hother => ?_⟩
  have hne : source.path ≠ other.path :=
    fun heq => hhead (List.mem_map.mpr ⟨other, hother, heq.symm⟩)
  rw [hsame other.path hne]
  exact h.missing other (List.mem_cons_of_mem _ hother)

/-- What comes of working off sources as items of a batch: if no item fails or is left running, then
all are indexed unless the batch has been cancelled, and if all are indexed, then none has failed. -/
structure Worked (upkeep : Upkeep n σ) (cancelled : σ → Prop) (sources : List SourceFile)
    (batch : Batch) (index : EmbeddingIndex) (result : Batch) (after : EmbeddingIndex) (s : σ) :
    Prop where
  tended : upkeep.Tended after (upkeep.files s)
  others : ∀ path, path ∉ sources.map (·.path) →
    after.entries.get? path = index.entries.get? path
  troubled : batch.Troubled → result.Troubled
  finished : ¬ result.Troubled → (∀ source ∈ sources, after.Has source) ∨ cancelled s
  failed : (∀ source ∈ sources, after.Has source) → result.failed = batch.failed

section Worked

variable {cancelled : σ → Prop} {batch next result : Batch} {last : EmbeddingIndex} {s : σ}

theorem Worked.nil (h : upkeep.Tended index (upkeep.files s)) :
    upkeep.Worked cancelled [] batch index batch index s where
  tended := h
  others := fun _ _ => rfl
  troubled := id
  finished := fun _ => .inl nofun
  failed := fun _ => rfl

/-- Nothing more is worked off. -/
theorem Worked.stop (h : upkeep.Tended index (upkeep.files s)) (hnew : Unseen index (source :: sources))
    (htroubled : batch.Troubled → result.Troubled) (hwhy : ¬ result.Troubled → cancelled s) :
    upkeep.Worked cancelled (source :: sources) batch index result index s where
  tended := h
  others := fun _ _ => rfl
  troubled := htroubled
  finished := fun hfine => .inr (hwhy hfine)
  failed := by
    intro hall
    obtain ⟨entry, hentry, -⟩ := hall source List.mem_cons_self
    rw [hnew.missing source List.mem_cons_self] at hentry
    cases hentry

/-- The first source is indexed, or it has failed or is left running. -/
theorem Worked.cons (hnew : Unseen index (source :: sources)) (hsame : SameBut source index after)
    (hfirst : after.Has source ∧ (batch.Troubled → next.Troubled) ∧ next.failed = batch.failed ∨
      ¬ after.Has source ∧ next.Troubled)
    (h : upkeep.Worked cancelled sources next after result last s) :
    upkeep.Worked cancelled (source :: sources) batch index result last s := by
  have hnotin : source.path ∉ sources.map (·.path) := (List.nodup_cons.mp hnew.distinct).1
  have hhas : last.Has source ↔ after.Has source := by
    unfold EmbeddingIndex.Has
    rw [h.others source.path hnotin]
  refine ⟨h.tended, fun path hpath => ?_, fun htroubled => ?_, fun hfine => ?_, fun hall => ?_⟩
  · rw [List.map_cons, List.mem_cons, not_or] at hpath
    rw [h.others path hpath.2, hsame path (Ne.symm hpath.1)]
  · obtain ⟨-, hkeeps, -⟩ | ⟨-, hnext⟩ := hfirst
    · exact h.troubled (hkeeps htroubled)
    · exact h.troubled hnext
  · obtain ⟨hfirst, -, -⟩ | ⟨-, hnext⟩ := hfirst
    · exact (h.finished hfine).imp_left fun hrest => List.forall_mem_cons.mpr ⟨hhas.mpr hfirst, hrest⟩
    · exact absurd (h.troubled hnext) hfine
  · obtain ⟨hhead, hrest⟩ := List.forall_mem_cons.mp hall
    obtain ⟨-, -, hfailed⟩ | ⟨hmissed, -⟩ := hfirst
    · rw [h.failed hrest, hfailed]
    · exact absurd (hhas.mp hhead) hmissed

end Worked

variable [Monad n] [LawfulMonad n] {s : σ} (hsound : upkeep.Sound)

include hsound

/-! ### Ranking -/

theorem similarity_tends (h : upkeep.Tended index (upkeep.files s)) (query : Embedding)
    (hsource : source ∈ upkeep.sources) (hnew : index.entries.get? source.path = none) :
    Ends (Ranker.similarity upkeep.embedder query source) index s fun _ after s' =>
      upkeep.Tended after (upkeep.files s') ∧ SameBut source index after := by
  unfold Ranker.similarity
  refine (update_tends hsound h hsource hnew).bind ?_
  rintro reply after s' ⟨htended, htook⟩
  have hpost : upkeep.Tended after (upkeep.files s') ∧ SameBut source index after :=
    ⟨htended, fun _ => htook.get?_of_ne⟩
  split
  · exact .pure hpost
  · exact .pure hpost
  · split
    · exact .pure hpost
    · exact .pure hpost

theorem score_tends (h : upkeep.Tended index (upkeep.files s)) (config : RankerConfig)
    (terms : List String) (query : Option Embedding) (hsource : source ∈ upkeep.sources)
    (hnew : index.entries.get? source.path = none) :
    Ends (Ranker.score upkeep.embedder config terms query source) index s fun _ after s' =>
      upkeep.Tended after (upkeep.files s') ∧ SameBut source index after := by
  unfold Ranker.score
  cases query with
  | none => exact Ends.bind (.pure ⟨h, fun _ _ => rfl⟩) fun _ _ _ hpost => .pure hpost
  | some query => exact (similarity_tends hsound h query hsource hnew).bind fun _ _ _ hpost => .pure hpost

theorem scoreAll_tends (h : upkeep.Tended index (upkeep.files s)) (config : RankerConfig)
    (terms : List String) (query : Option Embedding) (workers : Nat)
    (hsources : ∀ source ∈ sources, source ∈ upkeep.sources) (hnew : Unseen index sources) :
    Ends (Ranker.scoreAll upkeep.embedder config terms query workers sources) index s
      fun _ after s' => upkeep.Tended after (upkeep.files s') := by
  induction sources generalizing workers index s with
  | nil =>
    unfold Ranker.scoreAll
    exact .pure h
  | cons source rest ih =>
    obtain ⟨hsource, hrest⟩ := List.forall_mem_cons.mp hsources
    cases workers with
    | zero => exact .pure h
    | succ workers =>
      unfold Ranker.scoreAll
      refine (score_tends hsound h config terms query hsource
        (hnew.missing source List.mem_cons_self)).bind ?_
      rintro scores after s' ⟨htended, hsame⟩
      have hunseen := hnew.rest hsame
      cases scores with
      | none => exact (ih htended workers hrest hunseen).bind fun _ _ _ hpost => .pure hpost
      | some scores =>
        exact (ih htended (workers + 1) hrest hunseen).bind fun _ _ _ hpost => .pure hpost

theorem rank_tends (h : upkeep.Tended index (upkeep.files s)) (config : RankerConfig)
    (isCancelled : Bool) {query : String} (hquery : upkeep.embedder.keyOf query ∈ upkeep.keys)
    (hnew : Unseen index upkeep.sources) :
    Ends (Ranker.rank upkeep.embedder config isCancelled query upkeep.sources) index s
      fun _ after s' => upkeep.Tended after (upkeep.files s') := by
  unfold Ranker.rank
  rw [Ranker.distinct_of_nodup hnew.distinct]
  split
  · exact .pure h
  refine (getOrEmbed_tends hsound h hquery).bind ?_
  rintro reply mid s' ⟨hmid, hentries, -⟩
  have hunseen : Unseen mid upkeep.sources := ⟨hnew.distinct, hentries ▸ hnew.missing⟩
  split
  · exact .pure hmid
  -- with the vector of the query, or without
  all_goals
    refine Ends.bind (P := fun _ after s' => upkeep.Tended after (upkeep.files s') ∧
      Unseen after upkeep.sources) (.pure ⟨hmid, hunseen⟩) ?_
    rintro vector after s'' ⟨hafter, hunseen⟩
    refine (scoreAll_tends hsound hafter config _ vector _ (fun _ => id) hunseen).bind ?_
    intro scored last s''' hlast
    cases scored with
    | none => exact .pure hlast
    | some scored => exact .pure hlast

/-! ### Working off a batch -/

section Work

variable {monitor : Batch.Monitor (StateT σ n)} {cancelled : σ → Prop}
  (hmonitor : Batch.Heeds monitor upkeep.files cancelled)

include hmonitor

theorem work_ends (h : upkeep.Tended index (upkeep.files s)) (workers : Nat) {batch : Batch}
    (hsources : ∀ source ∈ sources, source ∈ upkeep.sources) (hnew : Unseen index sources)
    (hwaiting : batch.waiting = sources.map SourceFile.item)
    (hworkers : workers = 0 → batch.running ≠ []) :
    Ends (Batch.work upkeep.embedder monitor workers (sources.map SourceFile.item) batch) index s
      fun r after s' => upkeep.Worked cancelled sources batch index r.1 after s' := by
  induction sources generalizing workers batch index s with
  | nil =>
    unfold Batch.work
    exact .pure (.nil h)
  | cons source rest ih =>
    obtain ⟨hsource, hrest⟩ := List.forall_mem_cons.mp hsources
    have hmissing := hnew.missing source List.mem_cons_self
    rw [List.map_cons] at hwaiting ⊢
    unfold Batch.work
    split
    · rename_i hzero
      exact .pure (.stop h hnew id fun hfine => absurd (.inl (hworkers hzero)) hfine)
    rename_i hsome
    refine Ends.lift_bind (hmonitor.asked s) ?_
    rintro asked s₁ ⟨hsame, hcancelled, -⟩
    rw [← hsame] at h
    cases asked with
    | true => exact .pure (.stop h hnew id fun _ => hcancelled rfl)
    | false =>
      refine (update_tends hsound h hsource hmissing).bind ?_
      rintro reply after s₂ ⟨hafter, htook⟩
      have hsame : SameBut source index after := fun path => htook.get?_of_ne
      have hhas := htook.has_iff hmissing
      have hunseen := hnew.rest hsame
      have hstart := Batch.start_of_waiting hwaiting
      have hmore : ∀ {s' : σ} {next : Batch} (workers : Nat),
          upkeep.Tended after (upkeep.files s') → next.waiting = rest.map SourceFile.item →
          (workers = 0 → next.running ≠ []) →
          (after.Has source ∧ (batch.Troubled → next.Troubled) ∧ next.failed = batch.failed ∨
            ¬ after.Has source ∧ next.Troubled) →
          Ends (Batch.work upkeep.embedder monitor workers (rest.map SourceFile.item) next) after s'
            fun r last s' => upkeep.Worked cancelled (source :: rest) batch index r.1 last s' :=
        fun workers hnext hwait hwork hfirst =>
          (ih hnext workers hrest hunseen hwait hwork).mono fun _ _ _ => .cons hnew hsame hfirst
      cases reply with
      | pending =>
        have hrunning : batch.start.running ≠ [] := by
          rw [hstart]
          exact List.append_ne_nil_of_right_ne_nil _ (List.cons_ne_nil _ _)
        refine hmore _ hafter (by rw [hstart]) (fun _ => hrunning) (.inr ⟨?_, .inl hrunning⟩)
        rw [hhas]
        rintro ⟨vector, hvector⟩
        cases hvector
      | done result =>
        refine Ends.lift_bind (hmonitor.told _ s₂) fun _ s₃ (hsame : _ = _) => ?_
        rw [← hsame] at hafter
        cases result with
        | error e =>
          refine hmore workers hafter ?_ (absurd · hsome) (.inr ⟨?_, .inr ?_⟩)
          · rw [hstart]
            rfl
          · rw [hhas]
            rintro ⟨vector, hvector⟩
            cases hvector
          · exact List.append_ne_nil_of_right_ne_nil _ (List.cons_ne_nil _ _)
        | ok vector =>
          refine hmore workers hafter ?_ (absurd · hsome) (.inl ⟨hhas.mpr ⟨vector, rfl⟩, ?_, ?_⟩)
          · rw [hstart]
            rfl
          · exact Batch.troubled_finish_ok hwaiting
          · rw [hstart]
            rfl

theorem run_ends (h : upkeep.Tended index (upkeep.files s)) (workers : Nat)
    (hnew : Unseen index upkeep.sources) :
    Ends (Batch.run upkeep.embedder monitor workers (upkeep.sources.map SourceFile.item)) index s
      fun reply after s' => upkeep.Tended after (upkeep.files s') ∧
        (∀ e, reply = .error e → e = .cancelled) ∧
        ∀ report, reply = .ok report → (report.failed = [] ↔ upkeep.Complete after) := by
  unfold Batch.run
  refine Ends.lift_bind (hmonitor.told _ s) fun _ s₁ (hsame : _ = _) => ?_
  rw [← hsame] at h
  refine (work_ends hsound hmonitor h (max 1 workers) (fun _ => id) hnew rfl ?_).bind ?_
  · omega
  rintro ⟨batch, left⟩ after s₂ hworked
  dsimp only
  split
  · exact .pure ⟨hworked.tended, nofun, nofun⟩
  rename_i hrunning
  refine Ends.lift_bind (hmonitor.asked s₂) ?_
  rintro asked s₃ ⟨hsame, -, hcancelled⟩
  have htended := hworked.tended
  rw [← hsame] at htended
  cases asked with
  | true =>
    refine .pure ⟨htended, ?_, nofun⟩
    rintro _ ⟨⟩
    rfl
  | false =>
    refine .pure ⟨htended, nofun, ?_⟩
    rintro _ ⟨⟩
    have hfailed : batch.report.failed = [] ↔ batch.failed = [] := by
      unfold Batch.report
      rw [← List.length_eq_zero_iff, List.length_mergeSort, List.length_eq_zero_iff]
    rw [hfailed]
    constructor
    · intro hfine
      have htroubled : ¬ batch.Troubled := by
        rintro (hleft | hmissed)
        · simp [hleft] at hrunning
        · exact hmissed hfine
      exact (hworked.finished htroubled).resolve_right fun h => nomatch hcancelled h
    · exact hworked.failed

end Work

end Upkeep

end ContextSets
