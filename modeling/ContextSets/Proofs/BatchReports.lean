import ContextSets.Proofs.BatchPrograms
import ContextSets.Proofs.Sorting

/-!
# What a batch reports

The outcomes of a batch arrive in any order, and each of them is counted, reported and put into one of
two lists. Neither the progress that is reported nor the report at the end tells the order.
-/

namespace ContextSets

/-! ### Percentages -/

namespace BatchProgress

variable {completed other total : Nat}

theorem percent_mono (h : completed ≤ other) :
    percent ⟨completed, total⟩ ≤ percent ⟨other, total⟩ := by
  unfold percent
  split
  · exact Nat.le_refl 100
  · apply Nat.div_le_div_right
    apply Nat.mul_le_mul_right
    show min completed total ≤ min other total
    omega

theorem percent_le (progress : BatchProgress) : progress.percent ≤ 100 := by
  unfold percent
  split
  · exact Nat.le_refl 100
  · rename_i hsome
    have hpart : min progress.completed progress.total * 100 ≤ 100 * progress.total := by
      rw [Nat.mul_comm 100]
      exact Nat.mul_le_mul_right 100 (Nat.min_le_right ..)
    calc min progress.completed progress.total * 100 / progress.total
        ≤ 100 * progress.total / progress.total := Nat.div_le_div_right hpart
      _ = 100 := Nat.mul_div_cancel 100 (Nat.pos_of_ne_zero hsome)

/-- Rounding down does not complete anything. -/
theorem percent_eq_iff (h : completed ≤ total) :
    percent ⟨completed, total⟩ = 100 ↔ completed = total := by
  unfold percent
  split
  · rename_i hnone
    have hzero : total = 0 := hnone
    constructor
    · intro _
      omega
    · intro _
      rfl
  · rename_i hsome
    have hpos : 0 < total := Nat.pos_of_ne_zero hsome
    show min completed total * 100 / total = 100 ↔ completed = total
    rw [Nat.min_eq_left h]
    constructor
    · intro hall
      have hwhole : 100 * total ≤ completed * 100 := (Nat.le_div_iff_mul_le hpos).mp hall.ge
      omega
    · rintro rfl
      exact Nat.mul_div_cancel_left 100 hpos

/-- The percentage as it is found with words of a given width, where products may overflow, and kept
in a byte. -/
def percentInWords (width : Nat) (progress : BatchProgress) : BitVec 8 :=
  let completed := BitVec.ofNat width progress.completed
  let total := BitVec.ofNat width progress.total
  if total = 0 then 100
  else ((if completed ≤ total then completed else total) * BitVec.ofNat width 100 / total).setWidth 8

/-- As long as a hundred times the total fits a word, nothing overflows. -/
theorem toNat_percentInWords {width : Nat} (h : completed ≤ total)
    (hfits : total * 100 < 2 ^ width) :
    (percentInWords width ⟨completed, total⟩).toNat = percent ⟨completed, total⟩ := by
  have hbyte := percent_le ⟨completed, total⟩
  have htotal : (BitVec.ofNat width total).toNat = total := by
    rw [BitVec.toNat_ofNat, Nat.mod_eq_of_lt (by omega)]
  have hcompleted : (BitVec.ofNat width completed).toNat = completed := by
    rw [BitVec.toNat_ofNat, Nat.mod_eq_of_lt (by omega)]
  have hle : BitVec.ofNat width completed ≤ BitVec.ofNat width total := by
    rw [BitVec.le_def, htotal, hcompleted]
    exact h
  unfold percentInWords percent at *
  by_cases hnone : total = 0
  · subst hnone
    rfl
  · have hhundred : (BitVec.ofNat width 100).toNat = 100 := by
      rw [BitVec.toNat_ofNat, Nat.mod_eq_of_lt (by omega)]
    have hword : ¬ BitVec.ofNat width total = 0 := by
      intro hzero
      rw [hzero] at htotal
      exact hnone htotal.symm
    simp only [if_neg hnone, if_neg hword, if_pos hle, Nat.min_eq_left h] at hbyte ⊢
    rw [BitVec.toNat_setWidth, BitVec.toNat_udiv, BitVec.toNat_mul, htotal, hcompleted, hhundred,
      Nat.mod_eq_of_lt (by omega : completed * 100 < 2 ^ width), Nat.mod_eq_of_lt (by omega)]

end BatchProgress

namespace Batch

/-! ### Reports -/

/-- The error of an outcome. -/
def errorOf? {α : Type} : Except EmbeddingError α → Option EmbeddingError
  | .ok _ => none
  | .error e => some e

/-- The report on items that fail with given errors. -/
def reportOf (error? : BatchItem → Option EmbeddingError) (items : List BatchItem) : BatchReport where
  embedded := (items.filterMap fun item =>
    if (error? item).isNone then some item.path else none).mergeSort fun a b => decide (a ≤ b)
  failed := (items.filterMap fun item =>
    (error? item).map (⟨item.path, ·⟩)).mergeSort fun a b => decide (a.path ≤ b.path)

/-- All has been heard of a batch that ends with a report. -/
structure ReportedInFull (items : List BatchItem) (heard : List BatchProgress)
    (report : BatchReport) : Prop where
  progress : heard = (List.range (items.length + 1)).map (⟨·, items.length⟩)
  ascending : (heard.map (·.percent)).Pairwise (· ≤ ·)
  bounded : ∀ progress ∈ heard, progress.percent ≤ 100
  complete : ∀ progress ∈ heard, progress.percent = 100 ↔ progress.completed = items.length
  words : ∀ width, items.length * 100 < 2 ^ width → ∀ progress ∈ heard,
    (progress.percentInWords width).toNat = progress.percent
  paths : (report.embedded ++ report.failed.map (·.path)).Perm (items.map (·.path))
  embedded_sorted : report.embedded.Pairwise (· ≤ ·)
  failed_sorted : (report.failed.map (·.path)).Pairwise (· ≤ ·)

section

variable {taken : List Outcome} {items : List BatchItem}

/-- Every outcome counts in one of the two lists. -/
theorem paths_perm (taken : List Outcome) :
    (taken.filterMap (·.embedded?) ++ (taken.filterMap (·.failure?)).map (·.path)).Perm
      (taken.map (·.item.path)) := by
  induction taken with
  | nil => exact .refl []
  | cons outcome rest ih =>
    obtain ⟨item, result⟩ := outcome
    cases result with
    | ok vector => exact ih.cons item.path
    | error e => exact List.perm_middle.trans (ih.cons item.path)

/-- Where the error depends on the item alone, so does what becomes of it. -/
theorem embedded?_eq {error? : BatchItem → Option EmbeddingError} {outcome : Outcome}
    (h : errorOf? outcome.result = error? outcome.item) :
    outcome.embedded? = if (error? outcome.item).isNone then some outcome.item.path else none := by
  rw [← h]
  unfold Outcome.embedded? errorOf?
  cases outcome.result with
  | ok _ => rfl
  | error _ => rfl

theorem failure?_eq {error? : BatchItem → Option EmbeddingError} {outcome : Outcome}
    (h : errorOf? outcome.result = error? outcome.item) :
    outcome.failure? = (error? outcome.item).map (⟨outcome.item.path, ·⟩) := by
  rw [← h]
  unfold Outcome.failure? errorOf?
  cases outcome.result with
  | ok _ => rfl
  | error _ => rfl

theorem embedded_sorted (batch : Batch) : batch.report.embedded.Pairwise (· ≤ ·) := by
  have hsorted := List.pairwise_mergeSort string_le_trans string_le_total batch.embedded
  exact hsorted.imp of_decide_eq_true

theorem failed_sorted (batch : Batch) :
    (batch.report.failed.map (·.path)).Pairwise (· ≤ ·) := by
  have hsorted := List.pairwise_mergeSort (fun a b c => string_le_trans a.path b.path c.path)
    (fun a b => string_le_total a.path b.path) batch.failed
  exact List.pairwise_map.mpr (hsorted.imp of_decide_eq_true)

/-- Failures of items with distinct paths are told apart by their paths. -/
theorem failure_eq {error? : BatchItem → Option EmbeddingError} {a b : BatchFailure}
    (hdistinct : (items.map (·.path)).Nodup)
    (ha : a ∈ items.filterMap fun item => (error? item).map (⟨item.path, ·⟩))
    (hb : b ∈ items.filterMap fun item => (error? item).map (⟨item.path, ·⟩))
    (hpath : a.path = b.path) : a = b := by
  obtain ⟨item, hitem, ha⟩ := List.mem_filterMap.mp ha
  obtain ⟨other, hother, hb⟩ := List.mem_filterMap.mp hb
  obtain ⟨e, he, rfl⟩ := Option.map_eq_some_iff.mp ha
  obtain ⟨e', he', rfl⟩ := Option.map_eq_some_iff.mp hb
  obtain rfl : item = other := List.inj_on_of_nodup_map hdistinct hitem hother hpath
  rw [Option.some.inj (he.symm.trans he')]

/-- Items with distinct paths are reported in one way, in whatever order their outcomes come. -/
theorem report_eq {batch : Batch} {error? : BatchItem → Option EmbeddingError}
    (hembedded : batch.embedded = taken.filterMap (·.embedded?))
    (hfailed : batch.failed = taken.filterMap (·.failure?))
    (hitems : (taken.map (·.item)).Perm items) (hdistinct : (items.map (·.path)).Nodup)
    (herror : ∀ outcome ∈ taken, errorOf? outcome.result = error? outcome.item) :
    batch.report = reportOf error? items := by
  have hpaths : batch.embedded.Perm
      (items.filterMap fun item => if (error? item).isNone then some item.path else none) := by
    have hplain := List.filterMap_congr fun outcome houtcome =>
      embedded?_eq (herror outcome houtcome)
    have hperm := hitems.filterMap fun item =>
      if (error? item).isNone then some item.path else none
    rw [List.filterMap_map] at hperm
    rw [hembedded, hplain]
    exact hperm
  have hfailures : batch.failed.Perm
      (items.filterMap fun item => (error? item).map (⟨item.path, ·⟩)) := by
    have hplain := List.filterMap_congr fun outcome houtcome =>
      failure?_eq (herror outcome houtcome)
    have hperm := hitems.filterMap fun item =>
      (error? item).map fun e => (⟨item.path, e⟩ : BatchFailure)
    rw [List.filterMap_map] at hperm
    rw [hfailed, hplain]
    exact hperm
  unfold report reportOf
  congr 1
  · apply mergeSort_congr string_le_trans string_le_total _ hpaths
    intro a _ b _ hab hba
    exact String.le_antisymm (of_decide_eq_true hab) (of_decide_eq_true hba)
  · apply mergeSort_congr (fun a b c => string_le_trans a.path b.path c.path)
      (fun a b => string_le_total a.path b.path) _ hfailures
    intro a ha b hb hab hba
    apply failure_eq hdistinct (hfailures.mem_iff.mp ha) (hfailures.mem_iff.mp hb)
    exact String.le_antisymm (of_decide_eq_true hab) (of_decide_eq_true hba)

/-- The percentages of the progress of a batch that is reported step by step. -/
theorem reportedInFull_of_taken {batch : Batch} {heard : List BatchProgress}
    (hembedded : batch.embedded = taken.filterMap (·.embedded?))
    (hfailed : batch.failed = taken.filterMap (·.failure?))
    (hitems : (taken.map (·.item)).Perm items)
    (hheard : heard = (List.range (items.length + 1)).map (⟨·, items.length⟩)) :
    ReportedInFull items heard batch.report := by
  have hmem : ∀ progress ∈ heard, ∃ completed, completed ≤ items.length ∧
      progress = ⟨completed, items.length⟩ := by
    intro progress hprogress
    rw [hheard] at hprogress
    obtain ⟨completed, hcompleted, rfl⟩ := List.mem_map.mp hprogress
    exact ⟨completed, Nat.le_of_lt_succ (List.mem_range.mp hcompleted), rfl⟩
  refine ⟨hheard, ?_, fun progress _ => progress.percent_le, ?_, ?_, ?_, embedded_sorted batch,
    failed_sorted batch⟩
  · rw [hheard, List.map_map, List.pairwise_map]
    exact List.pairwise_lt_range.imp fun hlt => BatchProgress.percent_mono hlt.le
  · intro progress hprogress
    obtain ⟨completed, hcompleted, rfl⟩ := hmem progress hprogress
    exact BatchProgress.percent_eq_iff hcompleted
  · intro width hfits progress hprogress
    obtain ⟨completed, hcompleted, rfl⟩ := hmem progress hprogress
    exact BatchProgress.toNat_percentInWords hcompleted hfits
  · have hlists : (batch.report.embedded ++ batch.report.failed.map (·.path)).Perm
        (batch.embedded ++ batch.failed.map (·.path)) :=
      (List.mergeSort_perm _ _).append ((List.mergeSort_perm _ _).map _)
    have hperm := hitems.map (·.path)
    rw [List.map_map] at hperm
    rw [hembedded, hfailed] at hlists
    exact hlists.trans ((paths_perm taken).trans hperm)

end

namespace InFlight

/-- What comes of a batch that has not been cancelled by the time it ends: all is reported, and what
the report says depends on nothing but the outcomes of the items. -/
structure Completed (items : List BatchItem) (state : InFlight) (report : BatchReport) : Prop where
  full : ReportedInFull items state.reports report
  fixed : ∀ error? : BatchItem → Option EmbeddingError, (items.map (·.path)).Nodup →
    (∀ outcome ∈ state.updated, errorOf? outcome.result = error? outcome.item) →
    report = reportOf error? items

theorem Sound.completed {updating : Updating} {items : List BatchItem} {index : EmbeddingIndex}
    {state : InFlight} {result : Except EmbeddingError BatchReport}
    (h : Sound updating items index state) (hresult : state.result = some result)
    (hgoes : state.isCancelled = false) :
    ∃ report, result = .ok report ∧ Completed items state report := by
  obtain ⟨-, -, hreport⟩ := h.result result hresult
  rw [hgoes] at hreport
  obtain ⟨hupdated, hstarted⟩ := h.taken_perm hresult
  have hall := h.started_skipped hresult
  rw [h.skipped hgoes, List.append_nil] at hall
  have htaken : (state.taken.map (·.item)).Perm items := by
    rw [← hall]
    exact (hupdated.map _).symm.trans hstarted
  have hheard := h.reports
  rw [h.length_taken hresult, hall] at hheard
  refine ⟨state.batch.report, hreport,
    reportedInFull_of_taken h.embedded h.failed htaken hheard, ?_⟩
  intro error? hdistinct herror
  apply report_eq h.embedded h.failed htaken hdistinct
  intro outcome houtcome
  exact herror outcome (hupdated.mem_iff.mpr houtcome)

end InFlight

end Batch

open Batch in
/-- Whatever the updates come to, in whatever order, and however many run together: if they end, so
does the batch. If it has not been cancelled by then, it ends with a report, and everything has been
reported on the way; when the paths are distinct, the report tells the outcomes of the items and
nothing else. The program that embeds all items goes one of these ways. -/
theorem batches_report_in_full (items : List BatchItem) (workers : Nat) :
    (∀ (updating : Updating) (index : EmbeddingIndex),
      ((∀ item index, ∃ result last, updating item index result last) →
        Inevitable (InFlight.Step updating workers) (fun state => ∃ result, state.result = some result)
          (.fresh items index)) ∧
      ∀ state result, InFlight.Runs updating workers (.fresh items index) state →
        state.result = some result → state.isCancelled = false →
        ∃ report, result = .ok report ∧ InFlight.Completed items state report) ∧
    ∀ (W : Type) (embedder : Embedder (StateM W)) (monitor : Monitor (StateM W))
      (cancelled : W → Bool) (reports : W → List BatchProgress),
      Watched embedder monitor cancelled reports → ∀ index w,
      Ends (Batch.run embedder monitor workers items) index w fun reply after w' =>
        ∃ state, InFlight.Runs (updatingBy embedder) workers (.fresh items index) state ∧
          EndsAs cancelled reports state w reply after w' := by
  constructor
  · intro updating index
    have hfresh : InFlight.Sound updating items index (.fresh items index) :=
      InFlight.Sound.fresh items index
    refine ⟨hfresh.inevitable, ?_⟩
    intro state result hruns hresult hgoes
    exact (hfresh.runs hruns).completed hresult hgoes
  · intro W embedder monitor cancelled reports hwatched index w
    exact hwatched.run_follows workers items index w

namespace Batch

/-! ### An example -/

/-- Two items, of which one cannot be embedded. -/
def twoItems : List BatchItem := [⟨"b", "x"⟩, ⟨"a", "y"⟩]

/-- Which of the two it is. -/
def twoErrors? (item : BatchItem) : Option EmbeddingError :=
  if item.text = "y" then some (.rateLimited 60) else none

/-- Updates that do not touch the index. -/
def lightly : Updating := fun item before result after =>
  after = before ∧ result = match twoErrors? item with
    | some e => .error e
    | none => .ok []

/-- The two items run together, and the second ends before the first. -/
theorem runs_twoItems : ∃ state, InFlight.Runs lightly 2 (.fresh twoItems ∅) state ∧
    state.updated = [⟨⟨"a", "y"⟩, .error (.rateLimited 60)⟩, ⟨⟨"b", "x"⟩, .ok []⟩] ∧
    state.result.isSome = true ∧ state.isCancelled = false := by
  have hfresh : InFlight.Runs lightly 2 (.fresh twoItems ∅) (.fresh twoItems ∅) := .refl
  have hfirst := hfresh.tail (.start rfl (by decide) rfl)
  have hsecond := hfirst.tail (.start rfl (by decide) rfl)
  have hupdated := hsecond.tail (@InFlight.Step.update _ _ _ [⟨"b", "x"⟩] [] ⟨"a", "y"⟩
    (.error (.rateLimited 60)) ∅ rfl ⟨rfl, rfl⟩)
  have hboth := hupdated.tail (@InFlight.Step.update _ _ _ [] [] ⟨"b", "x"⟩ (.ok []) ∅ rfl
    ⟨rfl, rfl⟩)
  have htaken := hboth.tail (@InFlight.Step.finish _ _ _ [] _ _ rfl)
  have hall := htaken.tail (@InFlight.Step.finish _ _ _ [] _ _ rfl)
  have hend := hall.tail (.conclude rfl rfl rfl)
  exact ⟨_, hend, rfl, rfl, rfl⟩

end Batch

open Batch in
theorem batches_report_in_full_two :
    (∃ state report, InFlight.Runs lightly 2 (.fresh twoItems ∅) state ∧
      state.result = some (.ok report) ∧ report.embedded = ["b"] ∧
      report.failed = [⟨"a", .rateLimited 60⟩]) ∧
    ∃ report, (((Batch.run Watch.embedder (Watch.monitor 9) 1 twoItems).run ∅).run
      ⟨false, []⟩).run.1.1 = .ok report ∧
      (report.embedded ++ report.failed.map (·.path)).Perm ["b", "a"] := by
  constructor
  · obtain ⟨state, hruns, hupdated, hsome, hgoes⟩ := runs_twoItems
    obtain ⟨result, hresult⟩ := Option.isSome_iff_exists.mp hsome
    obtain ⟨report, rfl, hcompleted⟩ :=
      ((batches_report_in_full twoItems 2).1 lightly ∅).2 state result hruns hresult hgoes
    have hreport := hcompleted.fixed twoErrors? (by decide) (by rw [hupdated]; decide)
    refine ⟨state, report, hruns, hresult, ?_, ?_⟩
    · rw [hreport]
      exact List.mergeSort_singleton "b"
    · rw [hreport]
      exact List.mergeSort_singleton (⟨"a", .rateLimited 60⟩ : BatchFailure)
  · have hends := (batches_report_in_full twoItems 1).2 Watch Watch.embedder (Watch.monitor 9)
      Watch.isCancelled Watch.heard (Watch.watched 9) ∅ ⟨false, []⟩
    obtain ⟨state, hruns, ⟨result, hresult, hreply⟩, -, hflag, -⟩ := hends.of_id
    have hgoes : (((Batch.run Watch.embedder (Watch.monitor 9) 1 twoItems).run ∅).run
      ⟨false, []⟩).run.2.isCancelled = false := by decide +kernel
    obtain ⟨report, rfl, hcompleted⟩ := ((batches_report_in_full twoItems 1).1 _ ∅).2 state result
      hruns hresult (hflag.trans hgoes)
    exact ⟨report, hreply, hcompleted.full.paths⟩

end ContextSets
