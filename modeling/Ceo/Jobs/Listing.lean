import Ceo.Jobs.Readers
import Ceo.Jobs.Immutable

/-!
# A page of jobs under concurrency

`listJobsForHost` reads two records a row, over as many rows and batches as it
takes. One torn pair fails the page; a page without one shows each job in a
state it had at one of the two reads of its row.
-/

namespace Ceo.Jobs

open Ceo.Lib Function

/-! ### one row of listJobsForHost -/

/-- The row's job is loaded and gets as far as deriving a state. -/
structure RowReads (query : ListJobsQuery) (row : JobStreamEntryV2) (atJob : Redis)
    (job : JobRecordV2) : Prop where
  stored : atJob.jobs row.jobId = some job
  accepted : job.Accepted
  matching : job.jobId = row.jobId ∧ job.userId = row.userId ∧ job.workspaceId = row.workspaceId ∧
    job.targetId = row.targetId ∧ job.createdAtMs = row.createdAtMs
  target : targetFilter query job = true

theorem listedRow_consistent_iff {atJob atAttempt : Redis} {l : List (Nat × Call)}
    (L : Linkage atJob) (run : scripts.Run atJob l atAttempt) (control : Control)
    (query : ListJobsQuery) (nowMs : Nat) (row : JobStreamEntryV2) :
    Consistent (listedRow control query nowMs row atJob atAttempt)
        (fun o state => ∃ summary, o = some summary ∧ summary.state = state) row.jobId nowMs
        atJob atAttempt ↔
      ¬∃ job, RowReads query row atJob job ∧ TornRead job atAttempt := by
  unfold listedRow listedJob
  cases hj : atJob.jobs row.jobId with
  | none =>
    simp only [getJob_of_none hj, bind, Except.bind]
    exact ⟨fun _ ⟨_, h, _⟩ => by simp [h.stored] at hj, fun _ => .of_error rfl⟩
  | some job =>
    have same {j : JobRecordV2} (hr : RowReads query row atJob j) : job = j := by
      have hst := hr.stored
      rwa [hj, Option.some.injEq] at hst
    rcases getJob_of_some hj with ⟨h, hok⟩ | ⟨⟨m, h⟩, hrej⟩
    swap
    · simp only [h, bind, Except.bind]
      exact ⟨fun _ ⟨j, hr, _⟩ => hrej (same hr ▸ hr.accepted), fun _ => .of_error rfl⟩
    simp only [h, bind, Except.bind]
    by_cases hm : job.jobId ≠ row.jobId ∨ job.userId ≠ row.userId ∨
        job.workspaceId ≠ row.workspaceId ∨ job.targetId ≠ row.targetId ∨
        job.createdAtMs ≠ row.createdAtMs
    · rw [if_pos hm]
      refine ⟨fun _ ⟨j, hr, _⟩ => ?_, fun _ => .of_error rfl⟩
      obtain ⟨h1, h2, h3, h4, h5⟩ := (same hr ▸ hr).matching
      simp [h1, h2, h3, h4, h5] at hm
    rw [if_neg hm]
    simp only [not_or, not_not] at hm
    simp only [pure, Except.pure]
    by_cases htar : targetFilter query job = true
    swap
    · rw [if_pos (by simpa using htar)]
      refine ⟨fun _ ⟨j, hr, _⟩ => htar (same hr ▸ hr.target), fun _ => ⟨fun _ he => (by cases he), ?_⟩⟩
      rintro a st ⟨⟩ ⟨_, h, _⟩
      cases h
    rw [if_neg (by simpa using htar)]
    rw [hostAttempt_eq L run hj]
    rcases reads_spec L run hj nowMs with ⟨torn, att, ha, hd⟩ | ⟨whole, hread⟩
    · rw [ha]
      dsimp only
      rw [hd]
      exact ⟨fun hc => absurd hc (Consistent.not_torn rfl),
        fun hn => absurd ⟨job, ⟨hj, hok, hm, htar⟩, torn⟩ hn⟩
    · refine ⟨fun _ ⟨j, hr, ht⟩ => whole (same hr ▸ ht), fun _ => ?_⟩
      rcases hread with ⟨m, hm⟩ | ⟨att, state, ha, hd, hat⟩
      · rw [hm]
        exact .of_error rfl
      rw [ha]
      dsimp only
      rw [hd]
      dsimp only
      by_cases hf : listFilter query att state = true
      swap
      · rw [if_neg hf]
        refine ⟨fun _ he => (by cases he), ?_⟩
        rintro a st ⟨⟩ ⟨_, h, _⟩
        cases h
      rw [if_pos hf]
      cases hs : hostSummary control job att state with
      | error e => rcases hostSummary_error hs with rfl | rfl <;> exact .of_error rfl
      | ok summary =>
        refine ⟨fun _ he => (by cases he), ?_⟩
        rintro a st ⟨⟩ ⟨_, ⟨⟩, rfl⟩
        rw [(hostSummary_state hs).1]
        exact hat

theorem listedRow_torn {atJob atAttempt : Redis} {l : List (Nat × Call)} (L : Linkage atJob)
    (run : scripts.Run atJob l atAttempt) {control : Control} {query : ListJobsQuery} {nowMs : Nat}
    {row : JobStreamEntryV2} {job : JobRecordV2} (hr : RowReads query row atJob job)
    (torn : TornRead job atAttempt) :
    listedRow control query nowMs row atJob atAttempt = .error (.store .corruptJobState) := by
  obtain ⟨h1, h2, h3, h4, h5⟩ := hr.matching
  have hg : getJob atJob row.jobId = .ok (some job) := by
    rcases getJob_of_some hr.stored with ⟨hg, -⟩ | ⟨-, hrej⟩
    · exact hg
    · exact absurd hr.accepted hrej
  rcases reads_spec L run hr.stored nowMs with ⟨-, att, ha, hd⟩ | ⟨hw, -⟩
  · simp [listedRow, listedJob, hg, bind, Except.bind, pure, Except.pure, h1, h2, h3, h4, h5,
      hr.target, hostAttempt_eq L run hr.stored, ha, hd]
  · exact absurd torn hw

theorem listedRow_jobId {atJob atAttempt : Redis} {control : Control} {query : ListJobsQuery}
    {nowMs : Nat} {row : JobStreamEntryV2} {summary : HostJobSummary}
    (h : listedRow control query nowMs row atJob atAttempt = .ok (some summary)) :
    summary.jobId = row.jobId := by
  obtain ⟨job, hjob, h⟩ := bind_eq_ok.1 h
  have hid : job.jobId = row.jobId := by
    obtain ⟨o, -, ho⟩ := bind_eq_ok.1 hjob
    cases o with
    | none => cases ho
    | some j =>
      dsimp only at ho
      split_ifs at ho with hm
      simp only [not_or, not_not] at hm
      cases ho
      exact hm.1
  split_ifs at h
  · cases h
  · obtain ⟨att, -, h⟩ := bind_eq_ok.1 h
    obtain ⟨state, -, h⟩ := bind_eq_ok.1 h
    split_ifs at h
    · obtain ⟨s, hs, h⟩ := bind_eq_ok.1 h
      cases h
      rw [(hostSummary_state hs).2, hid]
    · cases h

/-! ### a page of listJobsForHost -/

section page

variable (control : Control) (scope : Scope) (query : ListJobsQuery) (nowMs limit : Nat)
  (stores : Nat → Redis)

/-- The loop over a batch gets to this row, as the scan stands there. -/
inductive RowsReach : List (StreamId × JobStreamEntryV2) → Scan → StreamId × JobStreamEntryV2 →
    Scan → Prop where
  | here {row : StreamId × JobStreamEntryV2} {rows : List (StreamId × JobStreamEntryV2)} {s : Scan} :
    RowsReach (row :: rows) s row s
  | next {row row' : StreamId × JobStreamEntryV2} {rows : List (StreamId × JobStreamEntryV2)}
    {s s' t : Scan} : scanRow control scope query nowMs limit stores row s = .ok (s', false) →
    RowsReach rows s' row' t → RowsReach (row :: rows) s row' t

/-- The loop over the batches gets to this row. -/
inductive Reach : Nat → Scan → StreamId × JobStreamEntryV2 → Scan → Prop where
  | here {fuel : Nat} {s t : Scan} {row : StreamId × JobStreamEntryV2} :
    s.jobs.length < limit → s.totalScanned < jobListMaxScanned →
    RowsReach control scope query nowMs limit stores
      (readJobStreamReverse (stores s.moment) s.cursor
        (min jobListScanBatch (jobListMaxScanned - s.totalScanned)))
      { s with moment := s.moment + 1 } row t →
    Reach (fuel + 1) s row t
  | next {fuel : Nat} {s s' t : Scan} {row : StreamId × JobStreamEntryV2}
    {rows : List (StreamId × JobStreamEntryV2)} :
    s.jobs.length < limit → s.totalScanned < jobListMaxScanned →
    rows = readJobStreamReverse (stores s.moment) s.cursor
      (min jobListScanBatch (jobListMaxScanned - s.totalScanned)) → rows ≠ [] →
    scanRows control scope query nowMs limit stores rows { s with moment := s.moment + 1 } =
      .ok s' →
    ¬(rows.length < min jobListScanBatch (jobListMaxScanned - s.totalScanned) ∧
      s'.jobs.length < limit ∧ s'.totalScanned < jobListMaxScanned) →
    Reach fuel s' row t → Reach (fuel + 1) s row t

/-- The row is the caller's own, loads its job, and reads a torn pair. -/
structure TornRow (row : StreamId × JobStreamEntryV2) (s : Scan) : Prop where
  tenant : tenantIdOk row.2.workspaceId = true
  own : row.2.workspaceId = scope.workspaceId
  valid : Guard.run (streamEntryGuards row.2) = .ok ()
  torn : ∃ job, RowReads query row.2 (stores s.moment) job ∧ TornRead job (stores (s.moment + 1))

/-- Every summary comes from a row whose job is read at a moment of the call and whose
attempt is read at the next, and shows a state the job has at one of the two. -/
def Shown (jobs : List HostJobSummary) : Prop :=
  ∀ summary ∈ jobs, ∃ row k,
    listedRow control query nowMs row (stores k) (stores (k + 1)) = .ok (some summary) ∧
    (StateAt (stores k) summary.jobId nowMs summary.state ∨
      StateAt (stores (k + 1)) summary.jobId nowMs summary.state)

variable {control scope query nowMs stores}

theorem Shown.nil : Shown control query nowMs stores [] := by
  intro x hx
  cases hx

theorem Shown.snoc {jobs : List HostJobSummary} (h : Shown control query nowMs stores jobs)
    {summary : HostJobSummary} (row : JobStreamEntryV2) (k : Nat)
    (hrow : listedRow control query nowMs row (stores k) (stores (k + 1)) = .ok (some summary))
    (hk : StateAt (stores k) summary.jobId nowMs summary.state ∨
      StateAt (stores (k + 1)) summary.jobId nowMs summary.state) :
    Shown control query nowMs stores (jobs ++ [summary]) := by
  intro x hx
  rcases List.mem_append.1 hx with hx | hx
  · exact h x hx
  · obtain rfl := List.mem_singleton.1 hx
    exact ⟨row, k, hrow, hk⟩

variable (control scope query nowMs)

/-- One row fails on a torn pair exactly when it reads one; otherwise it adds at most one
summary, with a state of its job. -/
theorem scanRow_spec (L : ∀ k, Linkage (stores k))
    (runs : ∀ k, ∃ l, scripts.Run (stores k) l (stores (k + 1)))
    (row : StreamId × JobStreamEntryV2) (s : Scan) :
    ((∃ e, scanRow control scope query nowMs limit stores row s = .error e ∧ e.isTorn = true) ↔
      TornRow scope query stores row s) ∧
    ∀ s' stop, scanRow control scope query nowMs limit stores row s = .ok (s', stop) →
      Shown control query nowMs stores s.jobs → Shown control query nowMs stores s'.jobs := by
  obtain ⟨l, run⟩ := runs s.moment
  have hrow := listedRow_consistent_iff (L s.moment) run control query nowMs row.2
  have skipped {t s' : Scan} {b : Bool}
      (h : (pure (t.skip row.1) : Except V2Error (Scan × Bool)) = .ok (s', b)) :
      s'.jobs = t.jobs := by
    have h' := Except.ok.inj h
    unfold Scan.skip at h'
    split_ifs at h' <;> (cases h'; rfl)
  unfold scanRow
  by_cases ht : tenantIdOk row.2.workspaceId = true
  swap
  · simp only [ht, Bool.not_false, if_true]
    refine ⟨⟨?_, fun h => absurd h.tenant ht⟩, fun s' b h => by cases h⟩
    rintro ⟨e, ⟨⟩, htorn⟩
    cases htorn
  simp only [ht, Bool.not_true, Bool.false_eq_true, if_false]
  by_cases hown : row.2.workspaceId = scope.workspaceId
  swap
  · rw [if_pos hown]
    refine ⟨⟨?_, fun h => absurd h.own hown⟩, fun s' b h hs => ?_⟩
    · rintro ⟨e, ⟨⟩, -⟩
    · rw [skipped h]
      exact hs
  rw [if_neg (not_not.2 hown)]
  cases hg : Guard.run (streamEntryGuards row.2) with
  | error m =>
    refine ⟨⟨?_, fun h => by simp [h.valid] at hg⟩, fun s' b h => by cases h⟩
    rintro ⟨e, ⟨⟩, htorn⟩
    cases htorn
  | ok u =>
    dsimp only
    cases hl : listedRow control query nowMs row.2 (stores s.moment) (stores (s.moment + 1)) with
    | error e =>
      rw [hl] at hrow
      refine ⟨⟨?_, fun h => ?_⟩, fun s' b h => by cases h⟩
      · rintro ⟨e', ⟨⟩, htorn⟩
        exact ⟨ht, hown, hg, by_contra fun hn => Consistent.not_torn htorn (hrow.2 hn)⟩
      · by_contra hn
        refine hrow.1 (.of_error ?_) h.torn
        by_contra he
        exact hn ⟨e, rfl, by simpa using he⟩
    | ok found =>
      rw [hl] at hrow
      have nottorn : ¬TornRow scope query stores row s := by
        intro h
        obtain ⟨job, hreads, htorn⟩ := h.torn
        rw [listedRow_torn (L s.moment) run hreads htorn] at hl
        cases hl
      refine ⟨⟨?_, fun h => absurd h nottorn⟩, fun s' b h hs => ?_⟩
      · rintro ⟨e, he, -⟩
        cases found with
        | none => cases he
        | some summary =>
          simp only [bind, Except.bind] at he
          split_ifs at he <;> cases he
      · have hc := hrow.2 fun h => nottorn ⟨ht, hown, hg, h⟩
        cases found with
        | none =>
          rw [skipped h]
          exact hs
        | some summary =>
          have hstate := hc.2 (some summary) summary.state rfl ⟨summary, rfl, rfl⟩
          rw [← listedRow_jobId hl] at hstate
          have hsnoc := hs.snoc _ _ hl hstate
          simp only [bind, Except.bind] at h
          split_ifs at h
          · cases h
            exact hsnoc
          · rw [skipped h]
            exact hsnoc

theorem scanRows_spec (L : ∀ k, Linkage (stores k))
    (runs : ∀ k, ∃ l, scripts.Run (stores k) l (stores (k + 1)))
    (rows : List (StreamId × JobStreamEntryV2)) (s : Scan) :
    ((∃ e, scanRows control scope query nowMs limit stores rows s = .error e ∧ e.isTorn = true) ↔
      ∃ row t, RowsReach control scope query nowMs limit stores rows s row t ∧
        TornRow scope query stores row t) ∧
    ∀ s', scanRows control scope query nowMs limit stores rows s = .ok s' →
      Shown control query nowMs stores s.jobs → Shown control query nowMs stores s'.jobs := by
  induction rows generalizing s with
  | nil =>
    refine ⟨⟨?_, ?_⟩, ?_⟩
    · rintro ⟨e, he, -⟩
      cases he
    · rintro ⟨row, t, hr, -⟩
      cases hr
    · rintro s' ⟨⟩ hs
      exact hs
  | cons row rows ih =>
    obtain ⟨hiff, hok⟩ := scanRow_spec control scope query nowMs limit L runs row s
    unfold scanRows
    cases hrow : scanRow control scope query nowMs limit stores row s with
    | error e =>
      rw [hrow] at hiff
      refine ⟨⟨?_, ?_⟩, fun s' h => by cases h⟩
      · rintro ⟨e', ⟨⟩, htorn⟩
        exact ⟨row, s, .here, hiff.1 ⟨e, rfl, htorn⟩⟩
      · rintro ⟨row', t, hr, htorn⟩
        cases hr with
        | here =>
          obtain ⟨e', he, ht⟩ := hiff.2 htorn
          cases he
          exact ⟨e, rfl, ht⟩
        | next h _ => simp [hrow] at h
    | ok found =>
      obtain ⟨s1, stop⟩ := found
      have hs1 := hok s1 stop hrow
      have nottorn : ¬TornRow scope query stores row s := by
        intro h
        obtain ⟨e, he, -⟩ := hiff.2 h
        simp [hrow] at he
      cases stop with
      | true =>
        refine ⟨⟨?_, ?_⟩, ?_⟩
        · rintro ⟨e, he, -⟩
          cases he
        · rintro ⟨row', t, hr, htorn⟩
          cases hr with
          | here => exact absurd htorn nottorn
          | next h _ => simp [hrow] at h
        · rintro s' ⟨⟩ hs
          exact hs1 hs
      | false =>
        obtain ⟨ihiff, ihok⟩ := ih s1
        refine ⟨⟨?_, ?_⟩, fun s' h hs => ihok s' h (hs1 hs)⟩
        · intro h
          obtain ⟨row', t, hr, htorn⟩ := ihiff.1 h
          exact ⟨row', t, .next hrow hr, htorn⟩
        · rintro ⟨row', t, hr, htorn⟩
          cases hr with
          | here => exact absurd htorn nottorn
          | next h hr =>
            rw [hrow] at h
            cases h
            exact ihiff.2 ⟨row', t, hr, htorn⟩

theorem scanBatches_spec (L : ∀ k, Linkage (stores k))
    (runs : ∀ k, ∃ l, scripts.Run (stores k) l (stores (k + 1))) (fuel : Nat) (s : Scan) :
    ((∃ e, scanBatches control scope query nowMs limit stores fuel s = .error e ∧
        e.isTorn = true) ↔
      ∃ row t, Reach control scope query nowMs limit stores fuel s row t ∧
        TornRow scope query stores row t) ∧
    ∀ s', scanBatches control scope query nowMs limit stores fuel s = .ok s' →
      Shown control query nowMs stores s.jobs → Shown control query nowMs stores s'.jobs := by
  induction fuel generalizing s with
  | zero =>
    refine ⟨⟨?_, ?_⟩, ?_⟩
    · rintro ⟨e, he, -⟩
      cases he
    · rintro ⟨row, t, hr, -⟩
      cases hr
    · rintro s' ⟨⟩ hs
      exact hs
  | succ fuel ih =>
    unfold scanBatches
    by_cases hgo : s.jobs.length < limit ∧ s.totalScanned < jobListMaxScanned
    swap
    · rw [if_neg hgo]
      refine ⟨⟨?_, ?_⟩, ?_⟩
      · rintro ⟨e, he, -⟩
        cases he
      · rintro ⟨row, t, hr, -⟩
        cases hr with
        | here h1 h2 _ => exact absurd ⟨h1, h2⟩ hgo
        | next h1 h2 _ _ _ _ _ => exact absurd ⟨h1, h2⟩ hgo
      · rintro s' ⟨⟩ hs
        exact hs
    rw [if_pos hgo]
    dsimp only
    generalize hrows : readJobStreamReverse (stores s.moment) s.cursor
      (min jobListScanBatch (jobListMaxScanned - s.totalScanned)) = rows
    obtain ⟨riff, rok⟩ := scanRows_spec control scope query nowMs limit L runs rows
      { s with moment := s.moment + 1 }
    by_cases hnil : rows = []
    · rw [if_pos hnil]
      refine ⟨⟨?_, ?_⟩, ?_⟩
      · rintro ⟨e, he, -⟩
        cases he
      · rintro ⟨row, t, hr, -⟩
        cases hr with
        | here _ _ h =>
          rw [hrows, hnil] at h
          cases h
        | next _ _ h hne _ _ _ => exact absurd (by rw [h, hrows, hnil]) hne
      · rintro s' ⟨⟩ hs
        exact hs
    rw [if_neg hnil]
    cases hscan : scanRows control scope query nowMs limit stores rows
        { s with moment := s.moment + 1 } with
    | error e =>
      rw [hscan] at riff
      refine ⟨⟨?_, ?_⟩, fun s' h => by cases h⟩
      · rintro ⟨e', ⟨⟩, htorn⟩
        obtain ⟨row, t, hr, ht⟩ := riff.1 ⟨e, rfl, htorn⟩
        exact ⟨row, t, .here hgo.1 hgo.2 (hrows ▸ hr), ht⟩
      · rintro ⟨row, t, hr, ht⟩
        cases hr with
        | here _ _ h =>
          obtain ⟨e', he, htorn⟩ := riff.2 ⟨row, t, hrows ▸ h, ht⟩
          cases he
          exact ⟨e, rfl, htorn⟩
        | next _ _ h _ hok _ _ =>
          rw [h, hrows, hscan] at hok
          cases hok
    | ok s1 =>
      have here {row : StreamId × JobStreamEntryV2} {t : Scan}
          (h : RowsReach control scope query nowMs limit stores rows
            { s with moment := s.moment + 1 } row t) : ¬TornRow scope query stores row t := by
        intro ht
        obtain ⟨e, he, -⟩ := riff.2 ⟨row, t, h, ht⟩
        simp [hscan] at he
      by_cases hend : rows.length < min jobListScanBatch (jobListMaxScanned - s.totalScanned) ∧
          s1.jobs.length < limit ∧ s1.totalScanned < jobListMaxScanned
      · simp only [bind, Except.bind]
        rw [if_pos hend]
        refine ⟨⟨?_, ?_⟩, ?_⟩
        · rintro ⟨e, he, -⟩
          cases he
        · rintro ⟨row, t, hr, ht⟩
          cases hr with
          | here _ _ h => exact absurd ht (here (hrows ▸ h))
          | next _ _ h _ hok hn _ =>
            rw [h, hrows, hscan] at hok
            cases hok
            rw [h, hrows] at hn
            exact absurd hend hn
        · rintro s' ⟨⟩ hs
          exact rok s1 hscan hs
      · simp only [bind, Except.bind]
        rw [if_neg hend]
        obtain ⟨ihiff, ihok⟩ := ih s1
        refine ⟨⟨?_, ?_⟩, fun s' h hs => ihok s' h (rok s1 hscan hs)⟩
        · intro h
          obtain ⟨row, t, hr, ht⟩ := ihiff.1 h
          exact ⟨row, t, .next hgo.1 hgo.2 hrows.symm hnil hscan hend hr, ht⟩
        · rintro ⟨row, t, hr, ht⟩
          cases hr with
          | here _ _ h => exact absurd ht (here (hrows ▸ h))
          | next _ _ h _ hok _ hr =>
            rw [h, hrows, hscan] at hok
            cases hok
            exact ihiff.2 ⟨row, t, hr, ht⟩

end page

/-! ### the readers -/

/-- The scan starts at the caller's cursor, before the first read. -/
def Scan.start (query : ListJobsQuery) : Scan :=
  { moment := 0, cursor := query.cursor, jobs := [], totalScanned := 0, nextCursor := none }

def listLimit (query : ListJobsQuery) : Nat :=
  (min (max 1 (query.limit.getD jobListDefaultLimit)) jobListMaxLimit).toNat

/-- The call gets to a row of the caller's whose pair of reads is torn. -/
structure TornPage (control : Control) (scope : Scope) (query : ListJobsQuery) (nowMs : Nat)
    (stores : Nat → Redis) : Prop where
  access : assertHostWorkspaceAccess control scope = .ok ()
  target : listTargetAllowed control scope query.targetId = .ok ()
  row : ∃ row s, Reach control scope query nowMs (listLimit query) stores jobListMaxScanned
    (Scan.start query) row s ∧ TornRow scope query stores row s

theorem listTargetAllowed_error {control : Control} {scope : Scope} {targetId : Option String}
    {e : V2Error} (h : listTargetAllowed control scope targetId = .error e) :
    e.isTorn = false := by
  unfold listTargetAllowed at h
  split at h
  · cases h
  · split_ifs at h
    · exact Except.error.inj h ▸ rfl
    · split at h
      · split_ifs at h
        exact Except.error.inj h ▸ rfl
      · cases h

/-- The list call's part of `readers_consistent_iff`. -/
theorem listJobsForHost_consistent_iff {stores : Nat → Redis} (L : ∀ k, Linkage (stores k))
    (runs : ∀ k, ∃ l, scripts.Run (stores k) l (stores (k + 1))) (control : Control)
    (scope : Scope) (query : ListJobsQuery) (nowMs : Nat) :
    ((∀ e, listJobsForHost control scope query nowMs stores = .error e → e.isTorn = false) ∧
      ∀ page, listJobsForHost control scope query nowMs stores = .ok page →
        Shown control query nowMs stores page.1) ↔
      ¬TornPage control scope query nowMs stores := by
  have h : listJobsForHost control scope query nowMs stores = (do
      assertHostWorkspaceAccess control scope
      listTargetAllowed control scope query.targetId
      let s ← scanBatches control scope query nowMs (listLimit query) stores jobListMaxScanned
        (Scan.start query)
      return (s.jobs, s.nextCursor)) := rfl
  rw [h]
  cases hacc : assertHostWorkspaceAccess control scope with
  | error e =>
    obtain ⟨m, rfl⟩ := assertHostWorkspaceAccess_error hacc
    refine ⟨fun _ t => by simp [t.access] at hacc, fun _ => ⟨fun e he => ?_, fun _ hok => ?_⟩⟩
    · exact Except.error.inj he ▸ rfl
    · cases hok
  | ok _ =>
  cases htar : listTargetAllowed control scope query.targetId with
  | error e =>
    refine ⟨fun _ t => by simp [t.target] at htar, fun _ => ⟨fun e' he => ?_, fun _ hok => ?_⟩⟩
    · exact Except.error.inj he ▸ listTargetAllowed_error htar
    · cases hok
  | ok _ =>
  obtain ⟨hiff, hok⟩ := scanBatches_spec control scope query nowMs (listLimit query) L runs
    jobListMaxScanned (Scan.start query)
  cases hscan : scanBatches control scope query nowMs (listLimit query) stores jobListMaxScanned
      (Scan.start query) with
  | error e =>
    rw [hscan] at hiff
    simp only [bind, Except.bind]
    constructor
    · rintro ⟨herr, -⟩ t
      obtain ⟨e', ⟨⟩, htorn⟩ := hiff.2 t.row
      have hok := herr e rfl
      simp [htorn] at hok
    · intro hn
      refine ⟨?_, fun _ hok => (by cases hok)⟩
      rintro e' ⟨⟩
      by_contra htorn
      exact hn ⟨hacc, htar, hiff.1 ⟨e, rfl, by simpa using htorn⟩⟩
  | ok s =>
    have hpage := hok s hscan .nil
    rw [hscan] at hiff
    constructor
    · rintro - t
      obtain ⟨e, he, -⟩ := hiff.2 t.row
      cases he
    · rintro -
      refine ⟨fun e he => (by cases he), ?_⟩
      rintro page ⟨⟩
      exact hpage

/-- The stores a call meets at its successive reads, with scripts run in between. -/
theorem linkage_reads {stores : Nat → Redis} (L : Linkage (stores 0))
    (runs : ∀ k, ∃ l, scripts.Run (stores k) l (stores (k + 1))) (k : Nat) :
    Linkage (stores k) := by
  induction k with
  | zero => exact L
  | succ k ih =>
    obtain ⟨l, run⟩ := runs k
    exact ih.run run

/-- **The readers are consistent except on a torn pair**: none fails with a code of an
inconsistent pair of records, and each shows states the jobs have at one of the two reads,
exactly when it does not read an active job whose attempt, read next, has ended. -/
theorem readers_consistent_iff {stores : Nat → Redis} (L : Linkage (stores 0))
    (runs : ∀ k, ∃ l, scripts.Run (stores k) l (stores (k + 1))) (control : Control) (nowMs : Nat) :
    (∀ scope jobId includeTask,
      Consistent (getJobForHost control scope jobId includeTask nowMs (stores 0) (stores 1))
        (fun d state => d.state = state) jobId nowMs (stores 0) (stores 1) ↔
      ¬∃ job, HostReads control scope jobId (stores 0) job ∧ TornRead job (stores 1)) ∧
    (∀ scope query,
      ((∀ e, listJobsForHost control scope query nowMs stores = .error e → e.isTorn = false) ∧
        ∀ page, listJobsForHost control scope query nowMs stores = .ok page →
          Shown control query nowMs stores page.1) ↔
      ¬TornPage control scope query nowMs stores) ∧
    ∀ deviceId jobId,
      Consistent (cancelPreRead control deviceId jobId nowMs (stores 0) (stores 1))
        (fun read state => read.2.2 = state) jobId nowMs (stores 0) (stores 1) ↔
      ¬∃ job, CancelReadsJob control deviceId jobId (stores 0) job ∧ TornRead job (stores 1) := by
  obtain ⟨l, run⟩ := runs 0
  refine ⟨fun scope jobId includeTask => ?_, fun scope query => ?_, fun deviceId jobId => ?_⟩
  · exact getJobForHost_consistent_iff L run control scope jobId includeTask nowMs
  · exact listJobsForHost_consistent_iff (linkage_reads L runs) runs control scope query nowMs
  · exact cancelPreRead_consistent_iff L run control deviceId jobId nowMs

/-! ### a claimed job, and a cancel between the reads -/

def sampleControl : Control :=
  { isUserActive := fun _ => true
    isMember := fun _ _ => true
    getExecutionTarget := fun _ => none
    boundTargets := fun _ => [sampleJob.targetId]
    eligibleTargets := fun _ => [sampleJob.targetId] }

def sampleScope : Scope := { userId := sampleJob.userId, workspaceId := sampleJob.workspaceId }

theorem claimed_not_torn {job : JobRecordV2}
    (h : (replay claimedCalls).jobs sampleJob.jobId = some job) :
    ¬TornRead job (replay claimedCalls) := by
  rintro ⟨-, aid, att, latest, stored, -, phase⟩
  rw [replay_claimed_jobs] at h
  obtain rfl := Option.some.inj h
  obtain rfl : sampleClaim.attemptId = aid := Option.some.inj latest
  rw [replay_claimed_attempts] at stored
  obtain rfl := Option.some.inj stored
  cases phase

theorem readers_consistent_claimed :
    Consistent (getJobForHost sampleControl sampleScope sampleJob.jobId false 3000
        (replay claimedCalls) (replay claimedCalls)) (fun d state => d.state = state)
      sampleJob.jobId 3000 (replay claimedCalls) (replay claimedCalls) := by
  have L : Linkage (replay claimedCalls) := linkage_reachable (replay_reachable _)
  have main := @readers_consistent_iff (fun _ => replay claimedCalls) L
    (fun _ => ⟨[], .nil _⟩) sampleControl 3000
  apply (main.1 sampleScope sampleJob.jobId false).2
  rintro ⟨job, reads, torn⟩
  exact claimed_not_torn reads.stored torn

def cancelledCalls : List (Nat × Call) := claimedCalls ++ [(3000, .cancel sampleCancel)]

/-- The attempt of `sampleJob` after the operator's cancel. -/
def cancelledSampleAttempt : AttemptRecordV1 :=
  Cjson.encodeAttempt (cancelledAttempt 3000 claimedSampleAttempt sampleCancel)

set_option maxRecDepth 10000 in
theorem getJob_claimed :
    getJob (replay claimedCalls) sampleJob.jobId = .ok (some claimedSample) := by
  decide +kernel

set_option maxRecDepth 10000 in
theorem getAttempt_cancelled :
    getAttempt (replay cancelledCalls) sampleClaim.attemptId =
      .ok (some cancelledSampleAttempt) := by
  decide +kernel

theorem hostAttempt_cancelled {r : Redis}
    (h : getAttempt r sampleClaim.attemptId = .ok (some cancelledSampleAttempt)) :
    hostAttempt claimedSample r = .ok (some cancelledSampleAttempt) := by
  have latest : claimedSample.latestAttemptId = some sampleClaim.attemptId := rfl
  have jobId : cancelledSampleAttempt.jobId = claimedSample.jobId := rfl
  have workspace : cancelledSampleAttempt.workspaceId = claimedSample.workspaceId := rfl
  have target : cancelledSampleAttempt.targetId = claimedSample.targetId := rfl
  have user : cancelledSampleAttempt.userId = claimedSample.userId := rfl
  simp [hostAttempt, latest, h, jobId, workspace, target, user, bind, Except.bind, pure,
    Except.pure]

theorem derive_torn :
    deriveHostJobState claimedSample (some cancelledSampleAttempt) 3000 =
      .error (.store .corruptJobState) := rfl

theorem getJobForHost_torn {atJob atAttempt : Redis}
    (hj : getJob atJob sampleJob.jobId = .ok (some claimedSample))
    (ha : getAttempt atAttempt sampleClaim.attemptId = .ok (some cancelledSampleAttempt)) :
    getJobForHost sampleControl sampleScope sampleJob.jobId false 3000 atJob atAttempt =
      .error (.store .corruptJobState) := by
  have access : assertHostWorkspaceAccess sampleControl sampleScope = .ok () := by decide
  have format : jobIdV2Re sampleJob.jobId = true := by decide +kernel
  have own : claimedSample.workspaceId = sampleScope.workspaceId := rfl
  rw [getJobForHost_eq]
  simp [access, format, hj, own, hostAttempt_cancelled ha, derive_torn, bind, Except.bind]

theorem cancelPreRead_torn {atJob atAttempt : Redis}
    (hj : getJob atJob sampleJob.jobId = .ok (some claimedSample))
    (ha : getAttempt atAttempt sampleClaim.attemptId = .ok (some cancelledSampleAttempt)) :
    cancelPreRead sampleControl sampleCancel.deviceId sampleJob.jobId 3000 atJob atAttempt =
      .error (.store .corruptJobState) := by
  have latest : claimedSample.latestAttemptId = some sampleClaim.attemptId := rfl
  have bound : assertDeviceTargetAccess sampleControl sampleCancel.deviceId
    claimedSample.targetId = .ok () := by decide
  simp [cancelPreRead, hj, bound, latest, ha, derive_torn, bind, Except.bind]

set_option maxRecDepth 10000 in
/-- An operator cancel between the reads fails each of the three readers. -/
theorem readers_torn :
    Linkage (replay claimedCalls) ∧
      scripts.Run (replay claimedCalls) [(3000, .cancel sampleCancel)] (replay cancelledCalls) ∧
      getJobForHost sampleControl sampleScope sampleJob.jobId false 3000 (replay claimedCalls)
        (replay cancelledCalls) = .error (.store .corruptJobState) ∧
      listJobsForHost sampleControl sampleScope ⟨none, none, none, none, none⟩ 3000
        (fun k => if k ≤ 1 then replay claimedCalls else replay cancelledCalls) =
          .error (.store .corruptJobState) ∧
      cancelPreRead sampleControl sampleCancel.deviceId sampleJob.jobId 3000
        (replay claimedCalls) (replay cancelledCalls) = .error (.store .corruptJobState) := by
  refine ⟨linkage_reachable (replay_reachable _), replay_append _ _,
    getJobForHost_torn getJob_claimed getAttempt_cancelled, ?_,
    cancelPreRead_torn getJob_claimed getAttempt_cancelled⟩
  decide +kernel

end Ceo.Jobs
