import ContextSets.Proofs.Ensures
import ContextSets.Ranking.Session

/-!
# Searches that overlap

Any number of searches run in a session at once. Each starts, ranks, and then tries to publish; in
between, others may start, publish or be cancelled. A history records what the searches have come to
and which results were sent out, event by event. The session knows only the number of the newest
search and whether that one was cancelled, and this is enough to tell every search whether it has been
told to stop.
-/

namespace ContextSets

namespace Session

/-- A search that has ranked the files publishes its results if it is still the newest, and ends with
nothing otherwise. -/
theorem conclude_results (session : Session) (generation : Nat) (query : String)
    (files : List RankedFile) :
    session.conclude generation query (.results files) =
      if session.generation = generation then
        (.results ⟨generation, query, files⟩,
          { session with latest := some ⟨generation, query, files⟩ })
      else (.superseded, session) := by
  simp only [conclude, Session.publish]
  split
  · rename_i hsent
    split at hsent <;> cases hsent
    rw [if_pos ‹_›]
  · rename_i hsent
    split at hsent <;> cases hsent
    rw [if_neg ‹_›]

/-! ### Histories -/

/-- How far a search has come. A search that has ranked the files has not yet looked again whether it
is still the newest. -/
inductive Stage where
  | ranking
  | ranked (files : List RankedFile)
  | finished (outcome : SearchOutcome SearchResults)

/-- A search of a session. It is told to stop when a newer search starts or when it is cancelled. -/
structure Search where
  generation : Nat
  query : String
  isStopped : Bool
  stage : Stage

/-- A session with its searches in the order in which they started, and all results that were
published, the latest last. -/
structure History where
  session : Session
  searches : List Search
  published : List SearchResults

/-- What can happen next. Searches go by their positions. -/
inductive Event where
  | start (query : String)
  | cancel
  | rank (position : Nat) (files : List RankedFile)
  | giveUp (position : Nat)
  | publish (position : Nat)

namespace History

/-- A history in which nothing has happened. -/
def fresh : History := ⟨Session.fresh, [], []⟩

/-- Tells the newest search to stop. -/
def stopNewest (searches : List Search) : List Search :=
  searches.modify (searches.length - 1) ({ · with isStopped := true })

/-- The search at a position comes to another stage. -/
def advance (history : History) (position : Nat) (stage : Stage) : History :=
  { history with searches := history.searches.modify position ({ · with stage := stage }) }

/-- The history after a further event. One that is out of turn changes nothing. -/
def after (history : History) : Event → History
  | .start query =>
    { history with
      session := history.session.start.2
      searches := stopNewest history.searches ++
        [{ generation := history.session.start.1, query, isStopped := false, stage := .ranking }] }
  | .cancel =>
    { history with
      session := history.session.cancel
      searches := stopNewest history.searches }
  | .rank position files =>
    match history.searches[position]? with
    | some ⟨_, _, _, .ranking⟩ => history.advance position (.ranked files)
    | _ => history
  | .giveUp position =>
    match history.searches[position]? with
    | some ⟨generation, query, _, .ranking⟩ =>
      match (history.session.conclude generation query .pending).1 with
      | .pending => history
      | outcome => history.advance position (.finished outcome)
    | _ => history
  | .publish position =>
    match history.searches[position]? with
    | some ⟨generation, query, _, .ranked files⟩ =>
      let concluded := history.session.conclude generation query (.results files)
      let sent := (history.session.publish ⟨generation, query, files⟩).1
      { history.advance position (.finished concluded.1) with
        session := concluded.2
        published := history.published ++ sent.toList }
    | _ => history

/-- The history after events one after another. -/
def afterAll (history : History) (events : List Event) : History :=
  events.foldl after history

/-! ### What a history keeps to -/

variable {history : History} {position : Nat} {search : Search}

/-- What is true of a search between any two events: its number is its place in the order of starts,
it has been told to stop exactly if the session says so, and it has ended with results exactly if
these were published, and otherwise only after it was told to stop. -/
structure Accounted (history : History) (position : Nat) (search : Search) : Prop where
  numbered : search.generation = position + 1
  stopped : search.isStopped = history.session.hasStopped search.generation
  answered : ∀ results, search.stage = .finished (.results results) ↔
    results ∈ history.published ∧ results.generation = search.generation
  ended : ∀ outcome, search.stage = .finished outcome →
    (∃ results, outcome = .results results ∧ results.query = search.query) ∨
      (outcome = .superseded ∧ search.isStopped = true)

/-- What is true between any two events. Published results come with ascending numbers, and the last
of them is the latest. -/
structure Coherent (history : History) : Prop where
  started : history.session.generation = history.searches.length
  accounted : ∀ (position : Nat) search, history.searches[position]? = some search →
    Accounted history position search
  ascending : (history.published.map (·.generation)).Pairwise (· < ·)
  current : ∀ results ∈ history.published, results.generation ≤ history.session.generation
  latest : history.session.latest = history.published.getLast?

theorem coherent_fresh : fresh.Coherent := by
  constructor <;> simp [fresh, Session.fresh]

/-- The number of a search is at most that of the newest. -/
theorem Coherent.generation_le (h : history.Coherent)
    (hsearch : history.searches[position]? = some search) :
    search.generation ≤ history.session.generation := by
  obtain ⟨hposition, -⟩ := List.getElem?_eq_some_iff.mp hsearch
  rw [(h.accounted position search hsearch).numbered, h.started]
  exact hposition

/-- The searches before the newest have been told to stop already. -/
theorem Coherent.stopNewest_eq (h : history.Coherent) :
    stopNewest history.searches = history.searches.map ({ · with isStopped := true }) := by
  refine List.ext_getElem? fun position => ?_
  rw [stopNewest, List.getElem?_modify, List.getElem?_map]
  cases hsearch : history.searches[position]? with
  | none => rfl
  | some search =>
    obtain ⟨hposition, -⟩ := List.getElem?_eq_some_iff.mp hsearch
    have haccounted := h.accounted position search hsearch
    by_cases hnewest : history.searches.length - 1 = position
    · simp [hnewest]
    · have holder : history.session.generation ≠ search.generation := by
        rw [haccounted.numbered, h.started]
        omega
      have hstopped : search.isStopped = true := by
        simp [haccounted.stopped, hasStopped, holder]
      simp [hnewest, ← hstopped]

/-- A search that has been told to stop is accounted for like before. -/
theorem Accounted.stop {session : Session} (h : Accounted history position search)
    (hstopped : session.hasStopped search.generation = true) (searches : List Search) :
    Accounted ⟨session, searches, history.published⟩ position { search with isStopped := true } where
  numbered := h.numbered
  stopped := hstopped.symm
  answered := h.answered
  ended := fun outcome hstage => (h.ended outcome hstage).imp_right fun hended => ⟨hended.1, rfl⟩

theorem Coherent.start (h : history.Coherent) (query : String) :
    (history.after (.start query)).Coherent where
  started := by
    simp [after, h.stopNewest_eq, Session.start, h.started]
  accounted := by
    intro position search hsearch
    simp only [after, h.stopNewest_eq, List.getElem?_append, List.length_map] at hsearch
    split at hsearch
    · rw [List.getElem?_map, Option.map_eq_some_iff] at hsearch
      obtain ⟨old, hold, rfl⟩ := hsearch
      refine (h.accounted position old hold).stop ?_ _
      have holder : history.session.generation + 1 ≠ old.generation :=
        Nat.ne_of_gt (Nat.lt_succ_of_le (h.generation_le hold))
      simp [Session.start, hasStopped, holder]
    -- the new search
    · rename_i hposition
      obtain ⟨hlast, rfl⟩ := List.getElem?_eq_some_iff.mp hsearch
      obtain rfl : position = history.searches.length := by
        rw [List.length_singleton] at hlast
        omega
      simp only [Nat.sub_self, List.getElem_cons_zero]
      refine ⟨congrArg (· + 1) h.started, ?_, fun results => ?_, fun outcome hstage => ?_⟩
      · simp [after, Session.start, hasStopped]
      · refine iff_of_false (fun hstage => nomatch hstage) fun ⟨hresults, hgeneration⟩ => ?_
        have hcurrent := h.current results hresults
        rw [hgeneration] at hcurrent
        exact Nat.not_succ_le_self _ hcurrent
      · cases hstage
  ascending := h.ascending
  current := fun results hresults => Nat.le_succ_of_le (h.current results hresults)
  latest := h.latest

theorem Coherent.cancel (h : history.Coherent) : (history.after .cancel).Coherent where
  started := by
    simp [after, h.stopNewest_eq, Session.cancel, h.started]
  accounted := by
    intro position search hsearch
    simp only [after, h.stopNewest_eq, List.getElem?_map, Option.map_eq_some_iff] at hsearch
    obtain ⟨old, hold, rfl⟩ := hsearch
    refine (h.accounted position old hold).stop ?_ _
    simp [Session.cancel, hasStopped]
  ascending := h.ascending
  current := h.current
  latest := h.latest

/-- A search that is not finished may rank, and it may give up once it has been told to stop. -/
theorem Coherent.advance (h : history.Coherent)
    (hsearch : history.searches[position]? = some search)
    (hopen : ∀ outcome, search.stage ≠ .finished outcome) {stage : Stage}
    (hstage : ∀ outcome, stage = .finished outcome →
      outcome = .superseded ∧ search.isStopped = true) :
    (history.advance position stage).Coherent where
  started := by
    simp [History.advance, h.started]
  accounted := by
    intro other found hfound
    simp only [History.advance, List.getElem?_modify, Option.map_eq_map, Option.map_eq_some_iff]
      at hfound
    obtain ⟨old, hold, rfl⟩ := hfound
    have haccounted := h.accounted other old hold
    split
    · rename_i hsame
      subst hsame
      obtain rfl : search = old := Option.some.inj (hsearch.symm.trans hold)
      refine ⟨haccounted.numbered, haccounted.stopped, fun results => ?_, fun outcome hended =>
        .inr (hstage outcome hended)⟩
      -- neither before nor after has the search ended with results
      refine iff_of_false (fun hended => nomatch (hstage _ hended).1) fun hgiven => ?_
      exact hopen _ ((haccounted.answered results).mpr hgiven)
    · exact ⟨haccounted.numbered, haccounted.stopped, haccounted.answered, haccounted.ended⟩
  ascending := h.ascending
  current := h.current
  latest := h.latest

theorem Coherent.rank (h : history.Coherent) (position : Nat) (files : List RankedFile) :
    (history.after (.rank position files)).Coherent := by
  simp only [after]
  split
  · rename_i hsearch
    exact h.advance hsearch (fun _ hended => nomatch hended) fun _ hended => nomatch hended
  · exact h

theorem Coherent.giveUp (h : history.Coherent) (position : Nat) :
    (history.after (.giveUp position)).Coherent := by
  simp only [after]
  split
  · rename_i generation query isStopped hsearch
    have hstopped := (h.accounted position _ hsearch).stopped
    cases hstop : history.session.hasStopped generation with
    | false =>
      simp only [conclude, hstop]
      exact h
    | true =>
      simp only [conclude, hstop]
      refine h.advance hsearch (fun _ hended => nomatch hended) fun outcome hended => ?_
      cases hended
      exact ⟨rfl, hstopped.trans hstop⟩
  · exact h

/-- The newest search ends with its results, which are published after all others. -/
theorem Coherent.send (h : history.Coherent) {generation : Nat} {query : String}
    {isStopped : Bool} {files : List RankedFile}
    (hsearch : history.searches[position]? = some ⟨generation, query, isStopped, .ranked files⟩)
    (hnewest : history.session.generation = generation) :
    Coherent { history.advance position (.finished (.results ⟨generation, query, files⟩)) with
      session := { history.session with latest := some ⟨generation, query, files⟩ }
      published := history.published ++ [⟨generation, query, files⟩] } := by
  have haccounted := h.accounted position _ hsearch
  -- what was published under this number would have ended this very search
  have hbelow : ∀ results ∈ history.published, results.generation < generation := by
    intro results hresults
    refine Nat.lt_of_le_of_ne (hnewest ▸ h.current results hresults) fun hsame => ?_
    exact nomatch (haccounted.answered results).mpr ⟨hresults, hsame⟩
  refine ⟨?_, fun other found hfound => ?_, ?_, ?_, ?_⟩
  · simp [History.advance, h.started]
  · simp only [History.advance, List.getElem?_modify, Option.map_eq_map, Option.map_eq_some_iff]
      at hfound
    obtain ⟨old, hold, rfl⟩ := hfound
    have hother := h.accounted other old hold
    split
    · rename_i hsame
      subst hsame
      obtain rfl := Option.some.inj (hsearch.symm.trans hold)
      refine ⟨hother.numbered, hother.stopped, fun results => ?_, fun outcome hended => ?_⟩
      · simp only [Stage.finished.injEq, SearchOutcome.results.injEq, List.mem_append,
          List.mem_singleton]
        constructor
        · rintro rfl
          exact ⟨.inr rfl, rfl⟩
        · rintro ⟨hresults | rfl, hgeneration⟩
          · exact absurd hgeneration (Nat.ne_of_lt (hbelow results hresults))
          · rfl
      · cases hended
        exact .inl ⟨_, rfl, rfl⟩
    · rename_i hdiffers
      refine ⟨hother.numbered, hother.stopped, fun results => ?_, hother.ended⟩
      have hnumber : generation ≠ old.generation := by
        have hposition : generation = position + 1 := haccounted.numbered
        rw [hposition, hother.numbered]
        exact fun hsame => hdiffers (Nat.succ.inj hsame)
      rw [hother.answered results, List.mem_append, List.mem_singleton, or_and_right]
      refine (or_iff_left ?_).symm
      rintro ⟨rfl, hsame⟩
      exact hnumber hsame
  · simpa [List.pairwise_append] using ⟨h.ascending, hbelow⟩
  · intro results hresults
    rcases List.mem_append.mp hresults with hold | hnew
    · exact h.current results hold
    · rw [List.mem_singleton.mp hnew]
      exact Nat.le_of_eq hnewest.symm
  · simp

theorem Coherent.publish (h : history.Coherent) (position : Nat) :
    (history.after (.publish position)).Coherent := by
  simp only [after]
  split
  · rename_i generation query isStopped files hsearch
    by_cases hnewest : history.session.generation = generation
    · simp only [conclude_results, Session.publish, if_pos hnewest, Option.toList_some]
      exact h.send hsearch hnewest
    · simp only [conclude_results, Session.publish, if_neg hnewest, Option.toList_none,
        List.append_nil]
      refine h.advance hsearch (fun _ hended => nomatch hended) fun outcome hended => ?_
      cases hended
      refine ⟨rfl, (h.accounted position _ hsearch).stopped.trans ?_⟩
      simp [hasStopped, hnewest]
  · exact h

theorem Coherent.after (h : history.Coherent) (event : Event) : (history.after event).Coherent := by
  cases event with
  | start query => exact h.start query
  | cancel => exact h.cancel
  | rank position files => exact h.rank position files
  | giveUp position => exact h.giveUp position
  | publish position => exact h.publish position

theorem Coherent.afterAll (h : history.Coherent) (events : List Event) :
    (history.afterAll events).Coherent := by
  induction events generalizing history with
  | nil => exact h
  | cons event rest ih => exact ih (h.after event)

/-- An event publishes nothing, or the results of the search that started last. -/
theorem Coherent.published_after (h : history.Coherent) (event : Event) :
    (history.after event).published = history.published ∨
      ∃ results, (history.after event).published = history.published ++ [results] ∧
        results.generation = history.searches.length := by
  cases event with
  | start _ | cancel => exact .inl rfl
  | rank position files =>
    simp only [History.after]
    split <;> exact .inl rfl
  | giveUp position =>
    simp only [History.after]
    split
    · split <;> exact .inl rfl
    · exact .inl rfl
  | publish position =>
    simp only [History.after]
    split
    · rename_i generation query isStopped files hsearch
      by_cases hnewest : history.session.generation = generation
      · right
        refine ⟨⟨generation, query, files⟩, ?_, hnewest ▸ h.started⟩
        simp only [Session.publish, if_pos hnewest, Option.toList_some]
      · left
        simp only [Session.publish, if_neg hnewest, Option.toList_none, List.append_nil]
    · exact .inl rfl

/-! ### Searches as programs -/

variable {m : Type → Type} [Monad m] [LawfulMonad m]

/-- A ranking that has not been cancelled before is not superseded by itself. -/
theorem rank_not_superseded (embedder : Embedder m) (config : RankerConfig) (query : String)
    (files : List SourceFile) (index : EmbeddingIndex) :
    Ensures ((Ranker.rank embedder config false query files).run index) fun r =>
      r.1 ≠ .superseded := by
  unfold Ranker.rank
  simp only [Bool.false_eq_true, if_false]
  refine Ensures.run_bind (.trivial _) fun reply index _ => ?_
  split
  · exact .run_pure nofun
  all_goals
    refine Ensures.run_bind (.trivial _) fun vector index _ => ?_
    refine Ensures.run_bind (.trivial _) fun scored index _ => ?_
    cases scored with
    | none => exact .run_pure nofun
    | some scored => exact .run_pure nofun

/-- A search that ranks and publishes at once ends like the session says. -/
theorem rank_publish {generation : Nat} {query : String} {isStopped : Bool}
    (hsearch : history.searches[position]? = some ⟨generation, query, isStopped, .ranking⟩)
    (files : List RankedFile) :
    let concluded := history.session.conclude generation query (.results files)
    let after := history.afterAll [.rank position files, .publish position]
    after.session = concluded.2 ∧ after.searches[position]? =
      some ⟨generation, query, isStopped, .finished concluded.1⟩ := by
  have hranked : (history.advance position (.ranked files)).searches[position]? =
      some ⟨generation, query, isStopped, .ranked files⟩ := by
    simp [advance, hsearch]
  simp only [afterAll, List.foldl_cons, List.foldl_nil, after, hsearch, hranked]
  refine ⟨rfl, ?_⟩
  simp [advance, hsearch]

/-- The program of a search does what some events do: the search starts and ends without any other in
between, unless it waits. -/
theorem search_takes_events (embedder : Embedder m) (config : RankerConfig)
    (files : List SourceFile) (query : String) (history : History) (index : EmbeddingIndex) :
    Ensures ((Session.search embedder config files query).run (history.session, index)) fun r =>
      ∃ events search, (history.afterAll (.start query :: events)).session = r.2.1 ∧
        (history.afterAll (.start query :: events)).searches[history.searches.length]? =
          some search ∧ search.query = query ∧
        (r.1 = .pending ∧ search.stage = .ranking ∨ search.stage = .finished r.1) := by
  have hnew : (history.after (.start query)).searches[history.searches.length]? =
      some ⟨history.session.start.1, query, false, .ranking⟩ := by
    have hlength : (stopNewest history.searches).length = history.searches.length :=
      List.length_modify ..
    simp [after, ← hlength]
  unfold Session.search
  refine Ensures.get_bind ?_
  dsimp only
  refine Ensures.lift_bind (rank_not_superseded embedder config query files index) ?_
  rintro ⟨outcome, index⟩ houtcome
  refine Ensures.set_bind (.run_pure ?_)
  dsimp only
  cases outcome with
  | superseded => exact absurd rfl houtcome
  | pending =>
    have hgoing : history.session.start.2.conclude history.session.start.1 query .pending =
        (.pending, history.session.start.2) := by
      simp [conclude, hasStopped, Session.start]
    rw [hgoing]
    exact ⟨[], _, rfl, hnew, rfl, .inl ⟨rfl, rfl⟩⟩
  | results ranked =>
    obtain ⟨hsession, hsearch⟩ := rank_publish hnew ranked
    exact ⟨[.rank history.searches.length ranked, .publish history.searches.length], _, hsession,
      hsearch, rfl, .inr rfl⟩

end History

end Session

open Session in
/-- However searches start, rank, give up, publish and are cancelled in a session: results are
published with ascending numbers, none twice, and only those of the search that has started last. A
search ends with results exactly if they were published, and every other search that has ended was
superseded, after it had been told to stop. -/
theorem session_publishes_the_newest (events : List Event) :
    let history := History.fresh.afterAll events
    (history.published.map (·.generation)).Pairwise (· < ·) ∧ history.published.Nodup ∧
    history.session.latest = history.published.getLast? ∧
    (∀ event, (history.after event).published = history.published ∨
      ∃ results, (history.after event).published = history.published ++ [results] ∧
        results.generation = history.searches.length) ∧
    ∀ (position : Nat) search, history.searches[position]? = some search →
      search.generation = position + 1 ∧
      (∀ results, search.stage = .finished (.results results) ↔
        results ∈ history.published ∧ results.generation = search.generation) ∧
      ∀ outcome, search.stage = .finished outcome →
        (∃ results, outcome = .results results ∧ results.query = search.query) ∨
          (outcome = .superseded ∧ search.isStopped = true) := by
  intro history
  have h : history.Coherent := History.coherent_fresh.afterAll events
  refine ⟨h.ascending, ?_, h.latest, h.published_after, fun position search hsearch => ?_⟩
  · refine (List.pairwise_map.mp h.ascending).imp fun hless hsame => ?_
    exact Nat.ne_of_lt hless (congrArg _ hsame)
  · have haccounted := h.accounted position search hsearch
    exact ⟨haccounted.numbered, haccounted.answered, haccounted.ended⟩

/-- A search that ranks while a newer one starts, the newer one, and one that is cancelled. -/
def overlapping : List Session.Event :=
  [.start "slow", .start "login", .rank 0 [], .rank 1 [], .publish 0, .publish 1, .start "late",
    .cancel, .giveUp 2]

theorem session_publishes_the_newest_overlapping :
    let history := Session.History.fresh.afterAll overlapping
    history.searches = [⟨1, "slow", true, .finished .superseded⟩,
      ⟨2, "login", true, .finished (.results ⟨2, "login", []⟩)⟩,
      ⟨3, "late", true, .finished .superseded⟩] ∧
    history.session.latest = some ⟨2, "login", []⟩ ∧
    ⟨2, "login", []⟩ ∈ history.published ∧ history.published.Nodup := by
  intro history
  obtain ⟨-, hnodup, -, -, hsearches⟩ := session_publishes_the_newest overlapping
  have hlogin : history.searches[1]? =
      some ⟨2, "login", true, .finished (.results ⟨2, "login", []⟩)⟩ := rfl
  obtain ⟨-, hanswered, -⟩ := hsearches 1 _ hlogin
  exact ⟨rfl, rfl, ((hanswered _).mp rfl).1, hnodup⟩

end ContextSets
