import Ceo.Lib.Paging
import Ceo.Jobs.DeviceList

/-!
# Following the pages of a list

A host lists its jobs page by page, each call at the `next_cursor` of the one
before, while jobs are appended at the other end of the stream. Every page
goes over the next entries below its cursor, 256 at most, so the pages go over
the stream the first call met exactly once, and show what passes the filters.
-/

namespace Ceo.Jobs

open Ceo.Lib Function

/-! ### the stream below a cursor -/

abbrev StreamRow := StreamId × JobStreamEntryV2

/-- The order of the stream ids, as `XREVRANGE` compares them. -/
def StreamId.before (i b : StreamId) : Bool := i.ms < b.ms || (i.ms == b.ms && i.seq < b.seq)

theorem StreamId.before_iff {i b : StreamId} :
    i.before b = true ↔ i.ms < b.ms ∨ i.ms = b.ms ∧ i.seq < b.seq := by
  simp [StreamId.before]

theorem StreamId.before_trans {a b c : StreamId} (h : a.before b = true) (h' : b.before c = true) :
    a.before c = true := by
  rw [before_iff] at *
  omega

theorem StreamId.not_before {a b : StreamId} (h : a.before b = true) : b.before a = false := by
  rw [Bool.eq_false_iff, Ne, before_iff]
  rw [before_iff] at h
  omega

def belowCursor (cursor : Option StreamId) (i : StreamId) : Bool := cursor.all fun b => i.before b

/-- What a list call at the cursor still has before it, newest first. -/
def remaining (r : Redis) (cursor : Option StreamId) : List StreamRow :=
  r.stream.reverse.filter fun row => belowCursor cursor row.1

theorem readJobStreamReverse_eq (r : Redis) (cursor : Option StreamId) (count : Nat) :
    readJobStreamReverse r cursor count = (remaining r cursor).take count := by
  cases cursor <;> rfl

theorem remaining_none (r : Redis) : remaining r none = r.stream.reverse := by
  simp [remaining, belowCursor]

theorem remaining_subset {r : Redis} {cursor : Option StreamId} {row : StreamRow}
    (h : row ∈ remaining r cursor) : row ∈ r.stream ∧ belowCursor cursor row.1 = true := by
  simpa [remaining] using h

/-- Redis gives the entries of a stream ascending ids. -/
def Ascending (stream : List StreamRow) : Prop :=
  stream.Pairwise fun a b => a.1.before b.1 = true

/-- Jobs have been appended to the stream, and nothing else happened to it. -/
structure Appended (r r' : Redis) : Prop where
  ascending : Ascending r'.stream
  grown : r.stream <+: r'.stream

theorem belowCursor_of_before {cursor : Option StreamId} {i j : StreamId}
    (h : belowCursor cursor i = true) (hj : j.before i = true) : belowCursor cursor j = true := by
  cases cursor with
  | none => rfl
  | some c => exact StreamId.before_trans hj h

theorem filter_descends {cursor : Option StreamId} {row : StreamRow} {l rest : List StreamRow}
    (desc : l.Pairwise fun a b => b.1.before a.1 = true)
    (h : l.filter (fun x => belowCursor cursor x.1) = row :: rest) :
    l.filter (fun x => x.1.before row.1) = rest := by
  induction l with
  | nil => cases h
  | cons a l ih =>
    rw [List.pairwise_cons] at desc
    by_cases hp : belowCursor cursor a.1 = true
    · rw [List.filter_cons_of_pos (by simpa using hp), List.cons.injEq] at h
      obtain ⟨rfl, rfl⟩ := h
      have self : a.1.before a.1 = false := by
        rw [Bool.eq_false_iff, Ne, StreamId.before_iff]
        omega
      rw [List.filter_cons_of_neg (by simp [self])]
      refine List.filter_congr fun x hx => ?_
      rw [desc.1 x hx, belowCursor_of_before hp (desc.1 x hx)]
    · rw [List.filter_cons_of_neg (by simpa using hp)] at h
      have hrow : belowCursor cursor row.1 = true := by
        have hm : row ∈ l.filter (fun x => belowCursor cursor x.1) := by simp [h]
        simpa using (List.mem_filter.1 hm).2
      rw [List.filter_cons_of_neg]
      · exact ih desc.2 h
      · exact fun ha => hp (belowCursor_of_before hrow ha)

/-- Below the first entry that is left are the others. -/
theorem remaining_descends {r : Redis} (asc : Ascending r.stream) {cursor : Option StreamId}
    {row : StreamRow} {rest : List StreamRow} (h : remaining r cursor = row :: rest) :
    remaining r (some row.1) = rest :=
  filter_descends (List.pairwise_reverse.2 asc) h

/-- An append changes nothing below an entry that was there. -/
theorem remaining_appended {r r' : Redis} (h : Appended r r') {row : StreamRow}
    (hrow : row ∈ r.stream) : remaining r' (some row.1) = remaining r (some row.1) := by
  obtain ⟨new, hnew⟩ := h.grown
  have asc := h.ascending
  rw [← hnew, Ascending, List.pairwise_append] at asc
  unfold remaining
  rw [← hnew, List.reverse_append, List.filter_append]
  have hnil : new.reverse.filter (fun x => belowCursor (some row.1) x.1) = [] := by
    refine List.filter_eq_nil_iff.2 fun x hx => ?_
    have hx := StreamId.not_before (asc.2.2 row hrow x (List.mem_reverse.1 hx))
    simp [belowCursor, hx]
  rw [hnil, List.nil_append]

/-! ### what one call goes over -/

section visits

variable (control : Control) (scope : Scope) (query : ListJobsQuery) (nowMs limit : Nat)
  (stores : Nat → Redis)

/-- The rows of a batch the loop body runs on. -/
def visitedRows : List StreamRow → Scan → List StreamRow
  | [], _ => []
  | row :: rows, s =>
    row :: match scanRow control scope query nowMs limit stores row s with
      | .ok (s, false) => visitedRows rows s
      | _ => []

/-- The rows of all batches the loop body runs on, by the loop of `scanBatches`. -/
def visitedBatches : Nat → Scan → List StreamRow
  | 0, _ => []
  | fuel + 1, s =>
    if s.jobs.length < limit ∧ s.totalScanned < jobListMaxScanned then
      let batchToFetch := min jobListScanBatch (jobListMaxScanned - s.totalScanned)
      let rows := readJobStreamReverse (stores s.moment) s.cursor batchToFetch
      let start := { s with moment := s.moment + 1 }
      if rows = [] then []
      else
        visitedRows control scope query nowMs limit stores rows start ++
          match scanRows control scope query nowMs limit stores rows start with
          | .error _ => []
          | .ok s =>
            if rows.length < batchToFetch ∧ s.jobs.length < limit ∧
                s.totalScanned < jobListMaxScanned then []
            else visitedBatches fuel s
    else []

/-- A row the loop body gets to the job of. -/
structure OwnRow (row : JobStreamEntryV2) : Prop where
  tenant : tenantIdOk row.workspaceId = true
  workspace : row.workspaceId = scope.workspaceId
  valid : Guard.run (streamEntryGuards row) = .ok ()

/-- What the loop body finds for a row: nothing in another workspace, and else what its job and
attempt, read at two moments of the call, come to. -/
inductive Finds (row : StreamRow) : Option HostJobSummary → Prop where
  | foreign : row.2.workspaceId ≠ scope.workspaceId → Finds row none
  | own {found : Option HostJobSummary} (k : Nat) : OwnRow scope row.2 →
    listedRow control query nowMs row.2 (stores k) (stores (k + 1)) = .ok found → Finds row found

variable {control scope query nowMs limit stores}

theorem Scan.skip_cases (s : Scan) (id : StreamId) :
    (s.skip id).1 = { s with nextCursor := (s.skip id).1.nextCursor } ∧
    ((s.skip id).2 = true ∧ jobListMaxScanned ≤ s.totalScanned ∧ (s.skip id).1.nextCursor = some id ∨
      (s.skip id).2 = false ∧ s.totalScanned < jobListMaxScanned ∧
        (s.skip id).1.nextCursor = s.nextCursor) := by
  unfold Scan.skip
  split_ifs with h
  · exact ⟨rfl, .inl ⟨rfl, h, rfl⟩⟩
  · exact ⟨rfl, .inr ⟨rfl, not_le.1 h, rfl⟩⟩

/-- The loop is done with the page: it is full, or has used up its rows. -/
def Scan.Stopped (limit : Nat) (s : Scan) : Prop :=
  s.nextCursor = s.cursor ∧ (limit ≤ s.jobs.length ∨ jobListMaxScanned ≤ s.totalScanned)

/-- The loop goes on. -/
def Scan.Open (limit : Nat) (s : Scan) : Prop :=
  s.nextCursor = none ∧ s.jobs.length < limit ∧ s.totalScanned < jobListMaxScanned

/-- After a row the loop breaks off or goes on. -/
def RowEnd (limit : Nat) (s s' : Scan) (stop : Bool) : Prop :=
  s.Open limit → stop = true ∧ s'.Stopped limit ∨ stop = false ∧ s'.Open limit

theorem scanRow_ok {row : StreamRow} {s s' : Scan} {stop : Bool}
    (h : scanRow control scope query nowMs limit stores row s = .ok (s', stop)) :
    s'.cursor = some row.1 ∧ s'.totalScanned = s.totalScanned + 1 ∧
      (∃ found, Finds control scope query nowMs stores row found ∧
        s'.jobs = s.jobs ++ found.toList) ∧ RowEnd limit s s' stop := by
  have skipped {t : Scan} {found : Option HostJobSummary}
      (ht : (pure (t.skip row.1) : Except V2Error (Scan × Bool)) = .ok (s', stop))
      (hc : t.cursor = some row.1) (hn : t.nextCursor = s.nextCursor)
      (htot : t.totalScanned = s.totalScanned + 1) (hj : t.jobs = s.jobs ++ found.toList)
      (hl : s.jobs.length < limit → t.jobs.length < limit)
      (hf : Finds control scope query nowMs stores row found) :
      s'.cursor = some row.1 ∧ s'.totalScanned = s.totalScanned + 1 ∧
        (∃ found, Finds control scope query nowMs stores row found ∧
          s'.jobs = s.jobs ++ found.toList) ∧ RowEnd limit s s' stop := by
    obtain ⟨hs, hend⟩ := t.skip_cases row.1
    rw [Except.ok.inj ht] at hs hend
    dsimp only at hs hend
    rw [hs]
    refine ⟨hc, htot, ⟨found, hf, hj⟩, fun ⟨hnext, hjobs, _⟩ => ?_⟩
    rcases hend with ⟨rfl, hmax, hn'⟩ | ⟨rfl, hmax, hn'⟩
    · exact .inl ⟨rfl, hn'.trans hc.symm, .inr hmax⟩
    · exact .inr ⟨rfl, (hn'.trans hn).trans hnext, hl hjobs, hmax⟩
  unfold scanRow at h
  by_cases htenant : tenantIdOk row.2.workspaceId = true
  swap
  · simp only [htenant, Bool.not_false, if_true] at h
    cases h
  simp only [htenant, Bool.not_true, Bool.false_eq_true, if_false] at h
  by_cases hown : row.2.workspaceId = scope.workspaceId
  swap
  · rw [if_pos hown] at h
    exact @skipped _ none h rfl rfl rfl (by simp) id (.foreign hown)
  rw [if_neg (not_not.2 hown)] at h
  cases hg : Guard.run (streamEntryGuards row.2) with
  | error m =>
    rw [hg] at h
    cases h
  | ok u =>
    rw [hg] at h
    obtain ⟨found, hl, h⟩ := bind_eq_ok.1 h
    have finds : Finds control scope query nowMs stores row found :=
      .own s.moment ⟨htenant, hown, hg⟩ hl
    cases found with
    | none => exact @skipped _ none h rfl rfl rfl (by simp) id finds
    | some summary =>
      dsimp only at h
      by_cases hfull : limit ≤ (s.jobs ++ [summary]).length
      · rw [if_pos hfull] at h
        cases h
        exact ⟨rfl, rfl, ⟨some summary, finds, rfl⟩, fun _ => .inl ⟨rfl, rfl, .inl hfull⟩⟩
      · rw [if_neg hfull] at h
        exact @skipped _ (some summary) h rfl rfl rfl rfl (fun _ => not_le.1 hfull) finds

/-! ### the loops go over the next rows -/

variable {left : Option StreamId → List StreamRow} {shows : StreamRow → Bool}

/-- From `s` to `s'` the scan has gone over these rows and found the ones that show. -/
structure Scanned (left : Option StreamId → List StreamRow) (shows : StreamRow → Bool)
    (s s' : Scan) (seen : List StreamRow) : Prop where
  goes : left s.cursor = seen ++ left s'.cursor
  ids : s'.jobs.map (·.jobId) = s.jobs.map (·.jobId) ++ (seen.filter shows).map (·.2.jobId)
  total : s'.totalScanned = s.totalScanned + seen.length
  stands : seen = [] ∧ s'.cursor = s.cursor ∨ ∃ row ∈ seen, s'.cursor = some row.1

theorem Scanned.refl (s : Scan) : Scanned left shows s s [] :=
  ⟨rfl, by simp, rfl, .inl ⟨rfl, rfl⟩⟩

theorem Scanned.trans {s s' s'' : Scan} {seen seen' : List StreamRow}
    (h : Scanned left shows s s' seen) (h' : Scanned left shows s' s'' seen') :
    Scanned left shows s s'' (seen ++ seen') where
  goes := by rw [h.goes, h'.goes, List.append_assoc]
  ids := by rw [h'.ids, h.ids, List.filter_append, List.map_append, List.append_assoc]
  total := by rw [h'.total, h.total, List.length_append, Nat.add_assoc]
  stands := by
    rcases h'.stands with ⟨rfl, hc⟩ | ⟨row, hrow, hc⟩
    · rw [List.append_nil, hc]
      exact h.stands
    · exact .inr ⟨row, List.mem_append_right _ hrow, hc⟩

/-- Below each row stand the rows after it. -/
def Descends (left : Option StreamId → List StreamRow) : Prop :=
  ∀ cursor row rest, left cursor = row :: rest → left (some row.1) = rest

variable (control scope query nowMs stores) in
/-- What the loop finds for these rows is their own job where they show, and nothing else. -/
def FindsOwn (shows : StreamRow → Bool) (rows : List StreamRow) : Prop :=
  ∀ row ∈ rows, ∀ found, Finds control scope query nowMs stores row found →
    found.map (·.jobId) = if shows row then some row.2.jobId else none

theorem scanRow_scanned {row : StreamRow} {rest : List StreamRow} {s s' : Scan} {stop : Bool}
    (desc : Descends left) (hl : left s.cursor = row :: rest)
    (hv : FindsOwn control scope query nowMs stores shows [row]) (opened : s.Open limit)
    (h : scanRow control scope query nowMs limit stores row s = .ok (s', stop)) :
    Scanned left shows s s' [row] ∧
      (stop = true ∧ s'.Stopped limit ∨ stop = false ∧ s'.Open limit) := by
  obtain ⟨hc, htot, ⟨found, hf, hj⟩, hend⟩ := scanRow_ok h
  refine ⟨⟨?_, ?_, htot, .inr ⟨row, by simp, hc⟩⟩, hend opened⟩
  · rw [hl, hc, desc _ _ _ hl, List.singleton_append]
  · have hid := hv row (by simp) found hf
    rw [hj, List.map_append, List.filter_singleton]
    congr 1
    cases found with
    | none =>
      cases hs : shows row with
      | true => simp [hs] at hid
      | false => simp
    | some summary =>
      cases hs : shows row with
      | true => simpa [hs] using hid
      | false => simp [hs] at hid

theorem scanRows_scanned {rows rest : List StreamRow} {s s' : Scan} (desc : Descends left)
    (hl : left s.cursor = rows ++ rest) (hv : FindsOwn control scope query nowMs stores shows rows)
    (opened : s.Open limit)
    (h : scanRows control scope query nowMs limit stores rows s = .ok s') :
    Scanned left shows s s' (visitedRows control scope query nowMs limit stores rows s) ∧
      (s'.Stopped limit ∧ (visitedRows control scope query nowMs limit stores rows s).length ≤
          rows.length ∧ visitedRows control scope query nowMs limit stores rows s ≠ [] ∨
        s'.Open limit ∧ visitedRows control scope query nowMs limit stores rows s = rows) := by
  induction rows generalizing s with
  | nil =>
    cases h
    exact ⟨.refl _, .inr ⟨opened, rfl⟩⟩
  | cons row rows ih =>
    unfold scanRows at h
    unfold visitedRows
    obtain ⟨⟨s1, stop⟩, hrow, h⟩ := bind_eq_ok.1 h
    obtain ⟨hone, hend⟩ := scanRow_scanned desc hl (fun r hr => hv r (by simp_all)) opened hrow
    rcases hend with ⟨rfl, hstop⟩ | ⟨rfl, hopen⟩
    · dsimp only at h
      rw [if_pos rfl] at h
      cases h
      simp only [hrow]
      exact ⟨hone, .inl ⟨hstop, by simp, by simp⟩⟩
    · simp only [Bool.false_eq_true, if_false] at h
      simp only [hrow]
      have hl1 : left s1.cursor = rows ++ rest := by
        have hgoes := hone.goes
        rw [hl, List.singleton_append, List.cons_append, List.cons.injEq] at hgoes
        exact hgoes.2.symm
      obtain ⟨hmore, hend⟩ := ih hl1 (fun r hr => hv r (by simp [hr])) hopen h
      refine ⟨hone.trans hmore, ?_⟩
      rcases hend with ⟨hstop, hlen, -⟩ | ⟨hopen', hall⟩
      · exact .inl ⟨hstop, by simpa using hlen, by simp⟩
      · exact .inr ⟨hopen', by rw [hall]⟩

/-- A batch read where the scan stands is the next part of what is left. -/
def Sees (stores : Nat → Redis) (left : Option StreamId → List StreamRow)
    (cursor : Option StreamId) (moment : Nat) : Prop :=
  remaining (stores moment) cursor = left cursor

/-- A scan that has stopped reads no further batch. -/
theorem scanBatches_stopped {s : Scan} (fuel : Nat)
    (h : limit ≤ s.jobs.length ∨ jobListMaxScanned ≤ s.totalScanned) :
    scanBatches control scope query nowMs limit stores fuel s = .ok s ∧
      visitedBatches control scope query nowMs limit stores fuel s = [] := by
  have hover : ¬(s.jobs.length < limit ∧ s.totalScanned < jobListMaxScanned) := by omega
  cases fuel with
  | zero => exact ⟨rfl, rfl⟩
  | succ fuel =>
    unfold scanBatches visitedBatches
    rw [if_neg hover, if_neg hover]
    exact ⟨rfl, rfl⟩

theorem scanBatches_scanned {fuel : Nat} {s s' : Scan} (desc : Descends left)
    (sees : Sees stores left s.cursor s.moment)
    (later : ∀ row ∈ left s.cursor, ∀ m, Sees stores left (some row.1) m)
    (hv : FindsOwn control scope query nowMs stores shows (left s.cursor)) (opened : s.Open limit)
    (enough : jobListMaxScanned ≤ s.totalScanned + fuel)
    (h : scanBatches control scope query nowMs limit stores fuel s = .ok s') :
    Scanned left shows s s' (visitedBatches control scope query nowMs limit stores fuel s) ∧
      s'.totalScanned ≤ jobListMaxScanned ∧
      (s'.Stopped limit ∧ visitedBatches control scope query nowMs limit stores fuel s ≠ [] ∨
        s'.nextCursor = none ∧ left s'.cursor = []) := by
  induction fuel generalizing s with
  | zero =>
    obtain ⟨-, -, hmax⟩ := opened
    omega
  | succ fuel ih =>
    have hgo := opened.2
    unfold scanBatches at h
    unfold visitedBatches
    rw [if_pos hgo] at h
    rw [if_pos hgo]
    dsimp only at h ⊢
    have hrows := readJobStreamReverse_eq (stores s.moment) s.cursor
      (min jobListScanBatch (jobListMaxScanned - s.totalScanned))
    rw [sees] at hrows
    have hcount : 0 < min jobListScanBatch (jobListMaxScanned - s.totalScanned) := by
      have hbatch : 0 < jobListScanBatch := by decide
      omega
    generalize readJobStreamReverse (stores s.moment) s.cursor
      (min jobListScanBatch (jobListMaxScanned - s.totalScanned)) = rows at h hrows
    have hsplit : left s.cursor = rows ++
        (left s.cursor).drop (min jobListScanBatch (jobListMaxScanned - s.totalScanned)) := by
      rw [hrows, List.take_append_drop]
    have hlen : rows.length ≤ min jobListScanBatch (jobListMaxScanned - s.totalScanned) := by
      rw [hrows]
      exact List.length_take_le ..
    by_cases hnil : rows = []
    · -- nothing is left below the cursor
      rw [if_pos hnil] at h
      cases h
      have hempty : left s.cursor = [] := by
        rw [hnil, eq_comm, List.take_eq_nil_iff] at hrows
        rcases hrows with h0 | h0
        · omega
        · exact h0
      rw [if_pos hnil]
      exact ⟨⟨rfl, by simp, rfl, .inl ⟨rfl, rfl⟩⟩, hgo.2.le, .inr ⟨rfl, hempty⟩⟩
    rw [if_neg hnil] at h
    rw [if_neg hnil]
    obtain ⟨s1, hscan, h⟩ := bind_eq_ok.1 h
    rw [hscan]
    dsimp only
    have hstart := @scanRows_scanned control scope query nowMs limit stores left shows rows _
      { s with moment := s.moment + 1 } s1 desc hsplit
      (fun row hrow => hv row (hsplit ▸ List.mem_append_left _ hrow)) opened hscan
    generalize visitedRows control scope query nowMs limit stores rows
      { s with moment := s.moment + 1 } = seen at hstart
    obtain ⟨⟨goes, ids, total, stands⟩, hend⟩ := hstart
    have hone : Scanned left shows s s1 seen := ⟨goes, ids, total, stands⟩
    rcases hend with ⟨hstop, hle, hne⟩ | ⟨hopen, rfl⟩
    · -- the page is full or the rows are used up: the loop condition fails
      have hover : ¬(s1.jobs.length < limit ∧ s1.totalScanned < jobListMaxScanned) := by
        have hfull := hstop.2
        omega
      obtain ⟨hsame, hv'⟩ := @scanBatches_stopped control scope query nowMs limit stores s1 fuel hstop.2
      rw [if_neg fun hc => hover hc.2, hsame] at h
      rw [if_neg fun hc => hover hc.2]
      obtain rfl := Except.ok.inj h
      rw [hv', List.append_nil]
      have htot := hone.total
      exact ⟨hone, by omega, .inl ⟨hstop, hne⟩⟩
    · by_cases hshort : seen.length < min jobListScanBatch (jobListMaxScanned - s.totalScanned) ∧
          s1.jobs.length < limit ∧ s1.totalScanned < jobListMaxScanned
      · -- a short batch: the stream has ended
        rw [if_pos hshort] at h
        rw [if_pos hshort, List.append_nil]
        cases h
        have hdrop : (left s.cursor).drop (min jobListScanBatch (jobListMaxScanned - s.totalScanned))
            = [] := by
          have hlt := hshort.1
          rw [hrows, List.length_take] at hlt
          exact List.drop_eq_nil_of_le (by omega)
        have hempty : left s1.cursor = [] := by
          have hgoes := hone.goes
          rw [hsplit, hdrop] at hgoes
          exact (List.append_cancel_left hgoes).symm
        exact ⟨⟨hone.goes, hone.ids, hone.total, hone.stands⟩, hopen.2.2.le, .inr ⟨rfl, hempty⟩⟩
      · rw [if_neg hshort] at h
        rw [if_neg hshort]
        obtain ⟨row, hrow, hcur⟩ : ∃ row ∈ seen, s1.cursor = some row.1 := by
          rcases hone.stands with ⟨h0, -⟩ | hr
          · exact absurd h0 hnil
          · exact hr
        have sub {x : StreamRow} (hx : x ∈ left s1.cursor) : x ∈ left s.cursor := by
          rw [hone.goes]
          exact List.mem_append_right _ hx
        have hmore := ih (s := s1)
          (by rw [hcur]; exact later row (hsplit ▸ List.mem_append_left _ hrow) _)
          (fun x hx => later x (sub hx)) (fun x hx => hv x (sub hx)) hopen
          (by have htot := hone.total; have hpos := List.length_pos_iff.2 hnil; omega) h
        refine ⟨hone.trans hmore.1, hmore.2.1, ?_⟩
        rcases hmore.2.2 with ⟨hstop, -⟩ | hdone
        · exact .inl ⟨hstop, by simp [hnil]⟩
        · exact .inr hdone

/-! ### where a summary comes from -/

theorem scanRows_finds {rows : List StreamRow} {s s' : Scan} {summary : HostJobSummary}
    (h : scanRows control scope query nowMs limit stores rows s = .ok s') (hm : summary ∈ s'.jobs) :
    summary ∈ s.jobs ∨
      ∃ row ∈ rows, Finds control scope query nowMs stores row (some summary) := by
  induction rows generalizing s with
  | nil =>
    cases h
    exact .inl hm
  | cons row rows ih =>
    unfold scanRows at h
    obtain ⟨⟨t, stop⟩, hrow, h⟩ := bind_eq_ok.1 h
    obtain ⟨-, -, ⟨found, hf, hj⟩, -⟩ := scanRow_ok hrow
    have here (ht : summary ∈ t.jobs) : summary ∈ s.jobs ∨
        ∃ r ∈ row :: rows, Finds control scope query nowMs stores r (some summary) := by
      rw [hj, List.mem_append, Option.mem_toList] at ht
      rcases ht with ht | rfl
      · exact .inl ht
      · exact .inr ⟨row, by simp, hf⟩
    cases stop with
    | true =>
      cases h
      exact here hm
    | false =>
      rcases ih h with ht | ⟨r, hr, hfr⟩
      · exact here ht
      · exact .inr ⟨r, by simp [hr], hfr⟩

theorem scanBatches_finds {fuel : Nat} {s s' : Scan} {summary : HostJobSummary}
    (h : scanBatches control scope query nowMs limit stores fuel s = .ok s')
    (hm : summary ∈ s'.jobs) :
    summary ∈ s.jobs ∨ ∃ k, ∃ row ∈ (stores k).stream,
      Finds control scope query nowMs stores row (some summary) := by
  induction fuel generalizing s with
  | zero =>
    cases h
    exact .inl hm
  | succ fuel ih =>
    unfold scanBatches at h
    dsimp only at h
    split_ifs at h with hgo hnil
    · cases h
      exact .inl hm
    · obtain ⟨t, hscan, h⟩ := bind_eq_ok.1 h
      have here (ht : summary ∈ t.jobs) : summary ∈ s.jobs ∨ ∃ k, ∃ row ∈ (stores k).stream,
          Finds control scope query nowMs stores row (some summary) := by
        rcases scanRows_finds hscan ht with ht | ⟨row, hrow, hf⟩
        · exact .inl ht
        · rw [readJobStreamReverse_eq] at hrow
          exact .inr ⟨s.moment, row, (remaining_subset (List.mem_of_mem_take hrow)).1, hf⟩
      split_ifs at h with hshort
      · cases h
        exact here hm
      · rcases ih h with ht | hf
        · exact here ht
        · exact .inr hf
    · cases h
      exact .inl hm

/-- Each summary of a page comes from an entry of the caller's that the filters let through. -/
theorem listJobsForHost_finds {found : List HostJobSummary × Option StreamId}
    {summary : HostJobSummary}
    (h : listJobsForHost control scope query nowMs stores = .ok found) (hm : summary ∈ found.1) :
    ∃ k, ∃ row ∈ (stores k).stream, Finds control scope query nowMs stores row (some summary) := by
  obtain ⟨_, -, h⟩ := bind_eq_ok.1 h
  obtain ⟨_, -, h⟩ := bind_eq_ok.1 h
  obtain ⟨s, hscan, h⟩ := bind_eq_ok.1 h
  obtain rfl := Except.ok.inj h
  rcases scanBatches_finds hscan hm with hs | hf
  · cases hs
  · exact hf

/-! ### where a call fails -/

theorem scanRows_error {rows : List StreamRow} {s : Scan} {e : V2Error}
    (h : scanRows control scope query nowMs limit stores rows s = .error e) :
    ∃ row ∈ rows, ∃ t, scanRow control scope query nowMs limit stores row t = .error e := by
  induction rows generalizing s with
  | nil => cases h
  | cons row rows ih =>
    unfold scanRows at h
    rcases bind_eq_error.1 h with h | ⟨⟨t, stop⟩, -, h⟩
    · exact ⟨row, by simp, s, h⟩
    · cases stop with
      | true => cases h
      | false =>
        obtain ⟨r, hr, t', ht⟩ := ih h
        exact ⟨r, by simp [hr], t', ht⟩

theorem scanBatches_error {fuel : Nat} {s : Scan} {e : V2Error}
    (h : scanBatches control scope query nowMs limit stores fuel s = .error e) :
    ∃ k, ∃ row ∈ (stores k).stream, ∃ t,
      scanRow control scope query nowMs limit stores row t = .error e := by
  induction fuel generalizing s with
  | zero => cases h
  | succ fuel ih =>
    unfold scanBatches at h
    dsimp only at h
    split_ifs at h with hgo hnil
    · cases h
    · rcases bind_eq_error.1 h with h | ⟨t, -, h⟩
      · obtain ⟨row, hrow, t, ht⟩ := scanRows_error h
        rw [readJobStreamReverse_eq] at hrow
        exact ⟨s.moment, row, (remaining_subset (List.mem_of_mem_take hrow)).1, t, ht⟩
      · split_ifs at h with hshort
        · cases h
        · exact ih h
    · cases h

end visits

/-! ### one call after the other -/

/-- The filters' verdict on an entry, from its job and the job's attempt: none when the two do not
fit together and the call fails. -/
def verdict (query : ListJobsQuery) (nowMs : Nat) (row : JobStreamEntryV2)
    (atJob atAttempt : Redis) : Option Bool :=
  match atJob.jobs row.jobId with
  | none => none
  | some job =>
    if targetFilter query job then
      match deriveHostJobState job (latestAttempt atAttempt job) nowMs with
      | .ok state => some (listFilter query (latestAttempt atAttempt job) state)
      | .error _ => none
    else some false

theorem listedJob_stored {row : JobStreamEntryV2} {r : Redis} {job : JobRecordV2}
    (h : listedJob row r = .ok job) : r.jobs row.jobId = some job ∧ job.jobId = row.jobId := by
  obtain ⟨o, ho, h⟩ := bind_eq_ok.1 h
  have hstored := getJob_stored ho
  cases o with
  | none => cases h
  | some j =>
    dsimp only at h
    split_ifs at h with hm
    cases h
    simp only [not_or, not_not] at hm
    exact ⟨hstored, hm.1⟩

theorem hostAttempt_stored {job : JobRecordV2} {r : Redis} {attempt : Option AttemptRecordV1}
    (h : hostAttempt job r = .ok attempt) : latestAttempt r job = attempt := by
  unfold hostAttempt at h
  unfold latestAttempt
  cases hl : job.latestAttemptId with
  | none =>
    rw [hl] at h
    cases h
    rfl
  | some aid =>
    rw [hl] at h
    obtain ⟨o, ho, h⟩ := bind_eq_ok.1 h
    cases o with
    | none => cases h
    | some att =>
      dsimp only at h
      split_ifs at h
      cases h
      rw [Option.bind_some]
      exact getAttempt_stored ho

theorem listedRow_verdict {control : Control} {query : ListJobsQuery} {nowMs : Nat}
    {row : JobStreamEntryV2} {atJob atAttempt : Redis} {found : Option HostJobSummary}
    (h : listedRow control query nowMs row atJob atAttempt = .ok found) :
    verdict query nowMs row atJob atAttempt = some found.isSome := by
  obtain ⟨job, hjob, h⟩ := bind_eq_ok.1 h
  unfold verdict
  rw [(listedJob_stored hjob).1]
  dsimp only
  by_cases htar : targetFilter query job = true
  swap
  · rw [if_pos (by simpa using htar)] at h
    cases h
    simp [htar]
  rw [if_neg (by simpa using htar)] at h
  obtain ⟨att, hatt, h⟩ := bind_eq_ok.1 h
  obtain ⟨state, hstate, h⟩ := bind_eq_ok.1 h
  rw [if_pos htar, hostAttempt_stored hatt, hstate]
  dsimp only
  by_cases hf : listFilter query att state = true
  · rw [if_pos hf] at h
    obtain ⟨summary, -, h⟩ := bind_eq_ok.1 h
    cases h
    simp [hf]
  · rw [if_neg hf] at h
    cases h
    simpa using hf

/-- One call of the host: its clock, and the stores it meets. -/
structure ListCall where
  control : Control
  nowMs : Nat
  stores : Nat → Redis

/-- The page a call answers with at a cursor, and the entries it has visited. -/
def ListCall.page (scope : Scope) (query : ListJobsQuery) (call : ListCall)
    (cursor : Option StreamId) : Except V2Error (Paging.Page StreamId StreamRow HostJobSummary) :=
  (listJobsForHost call.control scope { query with cursor := cursor } call.nowMs call.stores).map
    fun found =>
      { cursor := cursor
        visited := visitedBatches call.control scope { query with cursor := cursor } call.nowMs
          (listLimit query) call.stores jobListMaxScanned
          (Scan.start { query with cursor := cursor })
        shown := found.1
        next := found.2 }

/-- Nothing but appends happens to the stream the first call meets. -/
structure FirstMeets (r : Redis) (calls : List ListCall) : Prop where
  first : ∀ call ∈ calls.head?, (call.stores 0).stream = r.stream
  later : ∀ call ∈ calls, ∀ k, Appended r (call.stores k)

/-- Whenever the filters have a verdict on an entry of the caller's, it is this one. -/
def Steady (scope : Scope) (query : ListJobsQuery) (r : Redis) (calls : List ListCall)
    (verdicts : StreamRow → Bool) : Prop :=
  ∀ call ∈ calls, ∀ k, ∀ row ∈ r.stream, row.2.workspaceId = scope.workspaceId → ∀ b,
    verdict query call.nowMs row.2 (call.stores k) (call.stores (k + 1)) = some b →
    b = verdicts row

/-- The matching entries: the caller's own, those the filters let through. -/
def matching (scope : Scope) (verdicts : StreamRow → Bool) (row : StreamRow) : Bool :=
  row.2.workspaceId == scope.workspaceId && verdicts row

/-- What else holds of each page: what it shows, how far it scans, and where it goes on. -/
structure PageOk (scope : Scope) (verdicts : StreamRow → Bool)
    (page : Paging.Page StreamId StreamRow HostJobSummary) : Prop where
  shown : page.shown.map (·.jobId) =
    (page.visited.filter (matching scope verdicts)).map (·.2.jobId)
  scanned : page.visited.length ≤ jobListMaxScanned
  advances : ∀ c c', page.cursor = some c → page.next = some c' → c'.before c = true

section calls

variable {scope : Scope} {query : ListJobsQuery} {r : Redis} {calls : List ListCall}
  {verdicts : StreamRow → Bool}

/-- A cursor a call may be made at. -/
def Known (r : Redis) (c : StreamId) : Prop := ∃ row ∈ r.stream, row.1 = c

theorem shows_matching (steady : Steady scope query r calls verdicts) {call : ListCall}
    (hcall : call ∈ calls) (cursor : Option StreamId) {rows : List StreamRow}
    (hrows : ∀ row ∈ rows, row ∈ r.stream) :
    FindsOwn call.control scope { query with cursor := cursor } call.nowMs call.stores
      (matching scope verdicts) rows := by
  intro row hrow found hf
  cases hf with
  | foreign hw => simp [matching, hw]
  | own k hown hl =>
    have hw := hown.workspace
    have hv := steady call hcall k row (hrows row hrow) hw _
      (@listedRow_verdict _ query _ _ _ _ _ hl)
    cases found with
    | none => simp [matching, ← hv]
    | some summary =>
      have hid := listedRow_jobId hl
      simp [matching, hw, ← hv, hid]

theorem page_served (meets : FirstMeets r calls) (steady : Steady scope query r calls verdicts)
    {call : ListCall} (hcall : call ∈ calls) {cursor : Option StreamId}
    (sees : Sees call.stores (remaining r) cursor 0) :
    Paging.Serves (remaining r) (Known r) (PageOk scope verdicts) (call.page scope query) cursor := by
  intro page hpage
  unfold ListCall.page at hpage
  cases hlist : listJobsForHost call.control scope { query with cursor := cursor } call.nowMs
      call.stores with
  | error e =>
    rw [hlist] at hpage
    cases hpage
  | ok found =>
    rw [hlist] at hpage
    cases hpage
    obtain ⟨_, -, hlist⟩ := bind_eq_ok.1 hlist
    obtain ⟨_, -, hlist⟩ := bind_eq_ok.1 hlist
    obtain ⟨s, hscan, hlist⟩ := bind_eq_ok.1 hlist
    obtain rfl := Except.ok.inj hlist
    have asc : Ascending r.stream := by
      have happ := meets.later call hcall 0
      exact happ.ascending.sublist happ.grown.sublist
    have opened : (Scan.start { query with cursor := cursor }).Open (listLimit query) := by
      refine ⟨rfl, ?_, Nat.zero_lt_succ _⟩
      show 0 < (min (max 1 (query.limit.getD jobListDefaultLimit)) jobListMaxLimit).toNat
      have hmax : (1 : Int) ≤ jobListMaxLimit := by decide
      omega
    obtain ⟨hscanned, hmax, hend⟩ := scanBatches_scanned (fun _ _ _ => remaining_descends asc) sees
      (fun row hrow m => remaining_appended (meets.later call hcall m) (remaining_subset hrow).1)
      (shows_matching steady hcall cursor fun row hrow => (remaining_subset hrow).1) opened
      (Nat.le_add_left ..) hscan
    have mem {row : StreamRow} (hrow : row ∈ visitedBatches call.control scope
        { query with cursor := cursor } call.nowMs (listLimit query) call.stores jobListMaxScanned
        (Scan.start { query with cursor := cursor })) : row ∈ remaining r cursor := by
      have hgoes := hscanned.goes
      rw [show remaining r cursor = _ from hgoes]
      exact List.mem_append_left _ hrow
    -- the next cursor, where there is one, is the id of an entry the page has visited
    have hnext (c : StreamId) (hc : s.nextCursor = some c) : s.cursor = some c ∧
        visitedBatches call.control scope { query with cursor := cursor } call.nowMs
          (listLimit query) call.stores jobListMaxScanned
          (Scan.start { query with cursor := cursor }) ≠ [] ∧
        ∃ row ∈ remaining r cursor, row.1 = c := by
      rcases hend with ⟨⟨hsame, -⟩, hne⟩ | ⟨hnone, -⟩
      · have hcur : s.cursor = some c := hsame ▸ hc
        refine ⟨hcur, hne, ?_⟩
        rcases hscanned.stands with ⟨h0, -⟩ | ⟨row, hrow, hcur'⟩
        · exact absurd h0 hne
        · rw [hcur, Option.some.injEq] at hcur'
          exact ⟨row, mem hrow, hcur'.symm⟩
      · rw [hnone] at hc
        cases hc
    refine ⟨rfl, ⟨fun hnone => ?_, fun c hc => ?_⟩, fun c hc => ?_, ⟨?_, ?_, ?_⟩⟩
    · rcases hend with ⟨⟨hsame, -⟩, hne⟩ | ⟨-, hempty⟩
      · rcases hscanned.stands with ⟨h0, -⟩ | ⟨row, -, hcur⟩
        · exact absurd h0 hne
        · rw [hsame, hcur] at hnone
          cases hnone
      · have hgoes := hscanned.goes
        rw [hempty, List.append_nil] at hgoes
        exact hgoes.symm
    · obtain ⟨hcur, hne, -⟩ := hnext c hc
      exact ⟨hne, hcur ▸ hscanned.goes⟩
    · obtain ⟨-, -, row, hrow, rfl⟩ := hnext c hc
      exact ⟨row, (remaining_subset hrow).1, rfl⟩
    · exact hscanned.ids
    · have htotal := hscanned.total
      simp only [Scan.start, Nat.zero_add] at htotal
      rw [htotal] at hmax
      exact hmax
    · rintro c c' rfl hc
      obtain ⟨-, -, row, hrow, rfl⟩ := hnext c' hc
      exact (remaining_subset hrow).2

/-- A call that fails was refused, or fails on a row. -/
def Fails (scope : Scope) (query : ListJobsQuery) (call : ListCall) (e : V2Error) : Prop :=
  assertHostWorkspaceAccess call.control scope = .error e ∨
  listTargetAllowed call.control scope query.targetId = .error e ∨
  ∃ cursor k, ∃ row ∈ (call.stores k).stream, ∃ s,
    scanRow call.control scope { query with cursor := cursor } call.nowMs (listLimit query)
      call.stores row s = .error e

theorem page_error {call : ListCall} {cursor : Option StreamId} {e : V2Error}
    (h : call.page scope query cursor = .error e) : Fails scope query call e := by
  unfold ListCall.page at h
  cases hlist : listJobsForHost call.control scope { query with cursor := cursor } call.nowMs
      call.stores with
  | ok found =>
    rw [hlist] at h
    cases h
  | error e' =>
    rw [hlist] at h
    cases h
    rcases bind_eq_error.1 hlist with haccess | ⟨_, -, hlist⟩
    · exact .inl haccess
    rcases bind_eq_error.1 hlist with htarget | ⟨_, -, hlist⟩
    · exact .inr (.inl htarget)
    rcases bind_eq_error.1 hlist with hscan | ⟨_, -, hlist⟩
    · obtain ⟨k, row, hrow, t, ht⟩ := scanBatches_error hscan
      exact .inr (.inr ⟨cursor, k, row, hrow, t, ht⟩)
    · cases hlist

/-- **Paging is exact.** Whatever the stream holds and whatever is appended between the reads,
calls made at one `next_cursor` after the other get to its end, go over the entries the first call
met once each, newest first, and show the jobs of the matching ones in that order; each scans 256
entries at most and moves the cursor down. A call that fails has failed on a row, or was refused. -/
theorem pages_exact (scope : Scope) (query : ListJobsQuery) (r : Redis) (calls : List ListCall)
    (verdicts : StreamRow → Bool) (meets : FirstMeets r calls)
    (steady : Steady scope query r calls verdicts) (enough : r.stream.length < calls.length) :
    (∀ pages, Paging.follow (calls.map (ListCall.page scope query)) none = .ok pages →
      pages.getLast?.bind (·.next) = none ∧
      pages.flatMap (·.visited) = r.stream.reverse ∧
      (pages.flatMap (·.shown)).map (·.jobId) =
        (r.stream.reverse.filter (matching scope verdicts)).map (·.2.jobId) ∧
      ((r.stream.map (·.2.jobId)).Nodup → ((pages.flatMap (·.shown)).map (·.jobId)).Nodup) ∧
      ∀ page ∈ pages, PageOk scope verdicts page) ∧
    ∀ e, Paging.follow (calls.map (ListCall.page scope query)) none = .error e →
      ∃ call ∈ calls, Fails scope query call e := by
  have first : ∀ ask ∈ (calls.map (ListCall.page scope query)).head?,
      Paging.Serves (remaining r) (Known r) (PageOk scope verdicts) ask none := by
    intro ask hask
    rw [List.head?_map, Option.mem_map] at hask
    obtain ⟨call, hfirst, rfl⟩ := hask
    refine page_served meets steady (List.mem_of_mem_head? hfirst) ?_
    rw [Sees, remaining_none, remaining_none, meets.first call hfirst]
  have later : ∀ ask ∈ calls.map (ListCall.page scope query), ∀ c, Known r c →
      Paging.Serves (remaining r) (Known r) (PageOk scope verdicts) ask (some c) := by
    intro ask hask c hc
    obtain ⟨call, hmem, rfl⟩ := List.mem_map.1 hask
    obtain ⟨row, hrow, rfl⟩ := hc
    exact page_served meets steady hmem (remaining_appended (meets.later call hmem 0) hrow)
  refine ⟨fun pages h => ?_, fun e h => ?_⟩
  · have hlength : (remaining r none).length < (calls.map (ListCall.page scope query)).length := by
      rw [remaining_none, List.length_reverse, List.length_map]
      exact enough
    obtain ⟨hvisited, ⟨hlast, -⟩, hgood⟩ := Paging.follow_exact first later hlength h
    have hshown : (pages.flatMap (·.shown)).map (·.jobId) =
        (r.stream.reverse.filter (matching scope verdicts)).map (·.2.jobId) := by
      rw [← remaining_none, ← hvisited, List.map_flatMap, List.filter_flatMap, List.map_flatMap]
      exact List.flatMap_congr fun page hpage => (hgood page hpage).shown
    refine ⟨hlast, by rw [hvisited, remaining_none], hshown, fun hnodup => ?_, hgood⟩
    rw [hshown]
    refine List.Nodup.sublist (List.filter_sublist.map _) ?_
    rw [List.map_reverse]
    exact (List.reverse_perm _).nodup_iff.2 hnodup
  · obtain ⟨ask, hask, cursor, he⟩ := Paging.follow_error h
    obtain ⟨call, hcall, rfl⟩ := List.mem_map.1 hask
    exact ⟨call, hcall, page_error he⟩

end calls

/-! ### the scripts append -/

theorem createJob_appends (now : Nat) (job : JobRecordV2) (requestId : String) (r : Redis) :
    (createJob now job requestId r).2.stream = r.stream ∨ ∃ row, row.jobId = job.jobId ∧
      r.jobs job.jobId = none ∧
      (createJob now job requestId r).2.stream = r.stream ++ [(r.lastStreamId.next now, row)] ∧
      ((createJob now job requestId r).2.jobs job.jobId).isSome = true := by
  unfold createJob
  cases hs : serializeJobRecordV2 job with
  | error m => exact .inl rfl
  | ok record =>
    obtain ⟨rfl, -⟩ := parseJobRecordV2_ok hs
    simp only [v2CreateJobScript]
    cases r.requests (requestKeyV2 record.userId record.workspaceId requestId) with
    | some e => exact .inl rfl
    | none =>
      split_ifs with hf hj
      · exact .inl rfl
      · exact .inl rfl
      · exact .inr ⟨_, rfl, by simpa using hj, rfl, by simp [Redis.setJob]⟩

/-- The entries of a stream are of different jobs, each of which is stored. -/
structure OneEach (r : Redis) : Prop where
  ascending : Ascending r.stream
  nodup : (r.stream.map (·.2.jobId)).Nodup
  stored {row : StreamRow} : row ∈ r.stream → (r.jobs row.2.jobId).isSome = true

theorem before_next {r : Redis} (asc : Ascending r.stream) (now : Nat) {row : StreamRow}
    (hrow : row ∈ r.stream) : row.1.before (r.lastStreamId.next now) = true := by
  have last (i : StreamId) : i.before (i.next now) = true := by
    rw [StreamId.before_iff]
    unfold StreamId.next
    split_ifs
    · exact .inl ‹_›
    · exact .inr ⟨rfl, Nat.lt_succ_self _⟩
  unfold Redis.lastStreamId
  rcases List.eq_nil_or_concat r.stream with hnil | ⟨init, end', hend⟩
  · rw [hnil] at hrow
    cases hrow
  · rw [List.concat_eq_append] at hend
    rw [hend, Ascending, List.pairwise_append] at asc
    rw [hend] at hrow ⊢
    rw [List.getLast?_concat, Option.map_some, Option.getD_some]
    rcases List.mem_append.1 hrow with hrow | hrow
    · exact StreamId.before_trans (asc.2.2 row hrow end' (by simp)) (last _)
    · rw [List.mem_singleton.1 hrow]
      exact last _

theorem exec_appends (now : Nat) (r : Redis) (c : Call) :
    (exec now r c).stream = r.stream ∨ ∃ row : JobStreamEntryV2, r.jobs row.jobId = none ∧
      (exec now r c).stream = r.stream ++ [(r.lastStreamId.next now, row)] ∧
      ((exec now r c).jobs row.jobId).isSome = true := by
  cases c with
  | create job requestId =>
    rcases createJob_appends now job requestId r with h | ⟨row, hid, hfresh, hstream, hstored⟩
    · exact .inl h
    · exact .inr ⟨row, hid ▸ hfresh, hstream, hid ▸ hstored⟩
  | claim p => exact .inl (claimJob_stream now p r)
  | start p => exact .inl (startJob_recordsOnly now p r).stream
  | report p rep => exact .inl (reportJob_recordsOnly now p rep r).stream
  | cancel p => exact .inl (cancelJob_stream now p r)
  | recordResult p result mode => exact .inl (recordJobResult_recordsOnly now p result mode r).stream
  | setFence t f => exact .inl rfl
  | pruneTargetQueue t id => exact .inl rfl

/-- A call of the store appends at most one entry, of a job that is new. -/
theorem OneEach.exec {r : Redis} (h : OneEach r) (now : Nat) (c : Call) :
    OneEach (exec now r c) ∧ r.stream <+: (exec now r c).stream := by
  have kept {id : String} (hid : (r.jobs id).isSome = true) :
      ((Jobs.exec now r c).jobs id).isSome = true := by
    obtain ⟨job, hjob⟩ := Option.isSome_iff_exists.1 hid
    obtain ⟨job', hjob', -⟩ := keepsIds_of_effect (exec_effect now r c) id job hjob
    simp [hjob']
  rcases exec_appends now r c with hs | ⟨row, hfresh, hs, hstored⟩
  · rw [hs]
    refine ⟨⟨hs ▸ h.ascending, hs ▸ h.nodup, fun hrow => kept (h.stored (hs ▸ hrow))⟩, ?_⟩
    exact List.prefix_rfl
  · have other {x : StreamRow} (hx : x ∈ r.stream) : x.2.jobId ≠ row.jobId := by
      intro heq
      have hx := h.stored hx
      simp [heq, hfresh] at hx
    refine ⟨⟨?_, ?_, fun {x} hx => ?_⟩, ?_⟩
    · rw [hs, Ascending, List.pairwise_append]
      refine ⟨h.ascending, List.pairwise_singleton _ _, fun x hx y hy => ?_⟩
      rw [List.mem_singleton.1 hy]
      exact before_next h.ascending now hx
    · rw [hs, List.map_append, List.nodup_append]
      refine ⟨h.nodup, by simp, fun id hid id' hid' => ?_⟩
      obtain ⟨x, hx, rfl⟩ := List.mem_map.1 hid
      simp only [List.map_cons, List.map_nil, List.mem_singleton] at hid'
      exact hid' ▸ other hx
    · rw [hs] at hx
      rcases List.mem_append.1 hx with hx | hx
      · exact kept (h.stored hx)
      · rw [List.mem_singleton.1 hx]
        exact hstored
    · rw [hs]
      exact List.prefix_append _ _

theorem OneEach.run {r r' : Redis} {l : List (Nat × Call)} (h : OneEach r)
    (run : scripts.Run r l r') : OneEach r' ∧ r.stream <+: r'.stream := by
  induction run with
  | nil => exact ⟨h, List.prefix_rfl⟩
  | cons step run ih =>
    obtain rfl := step
    obtain ⟨h1, hp1⟩ := h.exec _ _
    obtain ⟨h2, hp2⟩ := ih h1
    exact ⟨h2, hp1.trans hp2⟩

theorem OneEach.reachable {r : Redis} (h : scripts.Reachable r) : OneEach r := by
  obtain ⟨s, l, rfl, run⟩ := h
  refine (OneEach.run ⟨?_, ?_, ?_⟩ run).1
  · exact List.Pairwise.nil
  · exact List.nodup_nil
  · rintro row hrow
    cases hrow

/-- Whatever the store's methods do between two reads, the stream only grows at its end. -/
theorem appended_of_run {r r' : Redis} {l : List (Nat × Call)} (h : scripts.Reachable r)
    (run : scripts.Run r l r') : Appended r r' := by
  obtain ⟨h', hp⟩ := (OneEach.reachable h).run run
  exact ⟨h'.ascending, hp⟩

/-! ### a job that comes in between two pages -/

def twoJobCalls : List (Nat × Call) := [(1000, .create sampleJob sampleJob.requestId)]

def secondJob : JobRecordV2 :=
  { sampleJob with
    jobId := "job-00000000-0000-4000-8000-000000000006"
    requestId := "00000000-0000-4000-8000-00000000000b" }

def secondCalls : List (Nat × Call) := twoJobCalls ++ [(1500, .create secondJob secondJob.requestId)]

/-- The first page is read before the second job comes in, the second page after. -/
def samplePages : List ListCall :=
  [⟨sampleControl, 3000, fun _ => replay twoJobCalls⟩,
   ⟨sampleControl, 4000, fun _ => replay secondCalls⟩]

/-- One job a page. -/
def onePerPage : ListJobsQuery := ⟨none, none, none, some 1, none⟩

set_option maxRecDepth 10000 in
theorem pages_exact_sample : ∃ pages,
    Paging.follow (samplePages.map (ListCall.page sampleScope onePerPage)) none = .ok pages ∧
    pages.flatMap (·.visited) = (replay twoJobCalls).stream.reverse ∧
    (pages.flatMap (·.shown)).map (·.jobId) = [sampleJob.jobId] := by
  have answers : (Paging.follow (samplePages.map (ListCall.page sampleScope onePerPage))
      none).toOption.isSome = true := by decide +kernel
  have meets : FirstMeets (replay twoJobCalls) samplePages := by
    refine ⟨by rintro call ⟨⟩; rfl, fun call hcall k => ?_⟩
    have hcalls : call = ⟨sampleControl, 3000, fun _ => replay twoJobCalls⟩ ∨
        call = ⟨sampleControl, 4000, fun _ => replay secondCalls⟩ := by
      simpa [samplePages] using hcall
    rcases hcalls with rfl | rfl
    · exact appended_of_run (replay_reachable _) (.nil _)
    · exact appended_of_run (replay_reachable _) (replay_append _ _)
  have steady : Steady sampleScope onePerPage (replay twoJobCalls) samplePages fun _ => true := by
    have each : ∀ row ∈ (replay twoJobCalls).stream,
        verdict onePerPage 3000 row.2 (replay twoJobCalls) (replay twoJobCalls) = some true ∧
        verdict onePerPage 4000 row.2 (replay secondCalls) (replay secondCalls) = some true := by
      decide +kernel
    intro call hcall k row hrow _ b hb
    have hcalls : call = ⟨sampleControl, 3000, fun _ => replay twoJobCalls⟩ ∨
        call = ⟨sampleControl, 4000, fun _ => replay secondCalls⟩ := by
      simpa [samplePages] using hcall
    rcases hcalls with rfl | rfl
    · exact Option.some.inj (hb.symm.trans (each row hrow).1)
    · exact Option.some.inj (hb.symm.trans (each row hrow).2)
  cases hpages : Paging.follow (samplePages.map (ListCall.page sampleScope onePerPage)) none with
  | error e =>
    rw [hpages] at answers
    cases answers
  | ok pages =>
    obtain ⟨-, hvisited, hshown, -, -⟩ := (pages_exact sampleScope onePerPage (replay twoJobCalls)
      samplePages (fun _ => true) meets steady (by decide +kernel)).1 pages hpages
    refine ⟨pages, rfl, hvisited, ?_⟩
    rw [hshown]
    decide +kernel

end Ceo.Jobs
