import Ceo.Attempt.Launch

/-!
# When a worker is launched

What the log of a `prepare` call says when it sends `worker_start` and when it
answers `Ready`. The absence of an earlier request is read off the text of a
retry, so an answer of Orca that has the text in it is taken for the absence:
`Misled` are the logs where that happens, and `launches_careful_iff` says that
they are the only ones without the evidence.
-/

namespace Ceo.Attempt.Launch

open Ceo.Lib Program

/-! ### what a log says -/

section Evidence

variable {Value : Type} (crates : Crates Value) (attempt : ActiveAttempt) (site : Resolved)

/-- The listing showed no run with the attempt's objective. -/
def NoRun (l : Calls Value) : Prop :=
  ∃ runs, ⟨.listRuns, .ok runs⟩ ∈ l ∧ ∀ r ∈ runs, r.objective ≠ some (runObjective attempt)

def RequestAbsent (l : Calls Value) : Prop :=
  ∃ shown, ⟨.requestShow (workerRetryId crates attempt), .ok shown⟩ ∈ l ∧ shown.isAbsent = true

def NoCandidates (runId : String) (l : Calls Value) : Prop :=
  ∃ workers, ⟨.listWorkers runId, .ok workers⟩ ∈ l ∧ candidateHandles workers = []

/-- What `worker_start` may be sent on. -/
def Justified (l : Calls Value) (w : WorkerStart) : Prop :=
  NoRun attempt l ∨ RequestAbsent crates attempt l ∧ NoCandidates w.runId l

def LiveIn (worktreeId terminalId : String) (l : Calls Value) : Prop :=
  ∃ term, ⟨.showTerminal terminalId, .ok (some term)⟩ ∈ l ∧ term.worktreeId = some worktreeId ∧
    term.liveness = .live

/-- The answer or receipt says that the run's worker is ready, in a live terminal of the
worktree. -/
structure ValidDispatch (result : OrcaWorkerStartResult) (runId worktreeId terminalId : String)
    (l : Calls Value) : Prop where
  run : trim (result.runId.getD "") = runId
  run_ne : runId.isEmpty = false
  task : (trim (result.taskId.getD "")).isEmpty = false
  dispatch : (trim (result.dispatchId.getD "")).isEmpty = false
  state : eqIgnoreAsciiCase (trim (result.state.getD "")) "ready" = true
  terminal : result.workerTerminalHandle = some terminalId
  live : LiveIn worktreeId terminalId l

/-- Orca said so in the answer to `worker_start` or in the receipt of the worker request. -/
def Reported (result : OrcaWorkerStartResult) (l : Calls Value) : Prop :=
  (∃ w, ⟨.workerStart w, .ok result⟩ ∈ l) ∨
    ∃ shown receipt, ⟨.requestShow (workerRetryId crates attempt), .ok shown⟩ ∈ l ∧
      shown.isCompleted = true ∧ shown.requestId = workerRetryId crates attempt ∧
      shown.receipt = some receipt ∧ crates.parseWorkerStartResult receipt = .ok result

/-- The run of the attempt: listed under its objective, created, or recovered from the request
that created it. -/
def MatchingRun (runId : String) (l : Calls Value) : Prop :=
  (∃ runs, ⟨.listRuns, .ok runs⟩ ∈ l ∧
    ∃ r ∈ runs, r.objective = some (runObjective attempt) ∧ r.id = runId) ∨
  (∃ handle r, ⟨.createRun handle (runObjective attempt) (runRetryId crates attempt), .ok r⟩ ∈ l ∧
    r.id = runId) ∨
  ∃ shown receipt r, ⟨.requestShow (runRetryId crates attempt), .ok shown⟩ ∈ l ∧
    shown.isCompleted = true ∧ shown.receipt = some receipt ∧ crates.receiptRun receipt = some r ∧
    r.id = runId

/-- What `prepare` may answer `Ready` on. -/
def Dispatched (prep : PreparedExecution) (l : Calls Value) : Prop :=
  ∃ runId result, MatchingRun crates attempt runId l ∧ Reported crates attempt result l ∧
    ValidDispatch result runId site.worktreeId prep.terminalId l ∧
    prep.worktreeId = site.worktreeId ∧
    ∀ t, recordedTerminal attempt = some t → t = prep.terminalId

/-- An answer about the worker request that `prepare` takes for its absence though it is not. -/
def Misleading (runId : String) : Except OrcaError (OrcaRequestShowResult Value) → Prop
  | .ok shown => shown.isPending = true ∧ contains runId absentText = true
  | .error e =>
    isTransient e = true ∧ (contains runId absentText = true ∨ contains e.text absentText = true)

/-- The calls up to a `worker_start` that is sent without the absence of the request. -/
def Misled (l : Calls Value) : Prop :=
  recordedTerminal attempt = none ∧ ∃ runs run workers answer anchor handle,
    (runs.filter fun r => decide (r.objective = some (runObjective attempt))) = [run] ∧
    candidateHandles workers = [] ∧ Misleading run.id answer ∧
    l = [⟨.supportsAgentSessionLaunch, true⟩, ⟨.listRuns, .ok runs⟩,
      ⟨.listWorkers run.id, .ok workers⟩,
      ⟨.requestShow (workerRetryId crates attempt), answer⟩,
      ⟨.resolveCoordinatorAnchorWorktree site.worktreeId, anchor⟩,
      ⟨.ensureCoordinatorTerminal anchor attempt.deviceId, .ok handle⟩]

end Evidence

/-! ### texts -/

/-- A piece without `c` lies on one side of it. -/
theorem infix_around {α : Type} {p a b : List α} {c : α} (hc : c ∉ p) :
    p <:+: a ++ c :: b ↔ p <:+: a ∨ p <:+: b := by
  constructor
  · rintro ⟨s, t, h⟩
    rw [List.append_assoc, List.append_eq_append_iff] at h
    rcases h with ⟨x, rfl, h⟩ | ⟨x, rfl, h⟩
    · rw [List.append_eq_append_iff] at h
      rcases h with ⟨y, rfl, -⟩ | ⟨y, rfl, h⟩
      · exact .inl ⟨s, y, by simp⟩
      · cases y with
        | nil => exact .inl ⟨s, [], by simp⟩
        | cons d y =>
          obtain ⟨rfl, -⟩ : c = d ∧ _ := by simpa using h
          simp at hc
    · cases x with
      | nil =>
        cases p with
        | nil => exact .inl ⟨[], a, by simp⟩
        | cons d p =>
          obtain ⟨rfl, -⟩ : c = d ∧ _ := by simpa using h
          simp at hc
      | cons d x =>
        obtain ⟨-, rfl⟩ : c = d ∧ b = x ++ (p ++ t) := by simpa using h
        exact .inr ⟨x, t, by simp⟩
  · rintro (h | h)
    · exact h.trans ⟨[], c :: b, by simp⟩
    · exact h.trans ⟨a ++ [c], [], by simp⟩

/-- A text that `prepare` takes for the absence of the request. -/
def Absent (s : String) : Prop := contains s absentText = true

theorem absent_iff {s : String} : Absent s ↔ absentText.toList <:+: s.toList := by
  simp [Absent, contains]

theorem absentText_ne : absentText.toList ≠ [] := by decide

/-- The two sides of a boundary with a character that the text for the absence does not have. -/
theorem absent_append {a b : String}
    (h : (∃ c t, b.toList = c :: t ∧ c ∉ absentText.toList) ∨
      ∃ c t, a.toList = t ++ [c] ∧ c ∉ absentText.toList) :
    Absent (a ++ b) ↔ Absent a ∨ Absent b := by
  rw [absent_iff, absent_iff, absent_iff, String.toList_append]
  rcases h with ⟨c, t, ht, hc⟩ | ⟨c, t, ht, hc⟩
  · have hb : absentText.toList <:+: c :: t ↔ absentText.toList <:+: t := by
      have := infix_around (a := []) (b := t) hc
      rwa [List.infix_nil, List.nil_append, or_iff_right absentText_ne] at this
    rw [ht, infix_around hc, hb]
  · have ha : absentText.toList <:+: t ++ [c] ↔ absentText.toList <:+: t := by
      have := infix_around (a := t) (b := []) hc
      rwa [List.infix_nil, or_iff_left absentText_ne] at this
    rw [ht, ha, List.append_assoc, List.singleton_append, infix_around hc]

theorem not_absent_quote : '\'' ∉ absentText.toList := by decide

theorem absent_quoted (a s : String) : Absent (a ++ quoted s) ↔ Absent a ∨ Absent s := by
  have quote : "'".toList = ['\''] := by decide
  have lone : ¬Absent "'" := by
    rw [absent_iff, quote]
    decide
  have inner : Absent (quoted s) ↔ Absent s := by
    rw [quoted, absent_append (.inl ⟨_, _, quote, not_absent_quote⟩),
      absent_append (.inr ⟨_, [], quote, not_absent_quote⟩)]
    simp [lone]
  rw [absent_append (.inl ⟨'\'', s.toList ++ ['\''], ?_, not_absent_quote⟩), inner]
  simp [quoted, quote]

theorem absent_colon (a x : String) : Absent (a ++ ": " ++ x) ↔ Absent a ∨ Absent x := by
  have colon : ": ".toList = [':', ' '] := by decide
  have hc : ':' ∉ absentText.toList := by decide
  have head : ¬absentText.toList <+: ' ' :: x.toList := by
    rintro ⟨t, ht⟩
    cases ht
  rw [absent_iff, absent_iff, absent_iff, String.toList_append, String.toList_append, colon,
    List.append_assoc, List.cons_append, List.singleton_append, infix_around hc,
    List.infix_cons_iff]
  simp [head]

/-- A text without the letter does not have the text for the absence in it. -/
theorem not_absent_of_letter {s : String} (h : 'b' ∉ s.toList) : ¬Absent s := by
  have letter : 'b' ∈ absentText.toList := by decide
  exact fun ha => h ((absent_iff.1 ha).subset letter)

theorem absent_existingRunErr (runId : String) :
    Absent (existingRunErr runId).text ↔ Absent runId := by
  have lead : ¬Absent ("Orca reported error: " ++ "reconcile_existing_run") := by
    refine not_absent_of_letter ?_
    rw [String.toList_append, List.mem_append, not_or]
    exact ⟨by decide, by decide⟩
  have run : ¬Absent "reconciling existing run " := not_absent_of_letter (by decide)
  have text : Absent (existingRunErr runId).text ↔
      Absent ("Orca reported error: " ++ "reconcile_existing_run") ∨
        Absent ("reconciling existing run " ++ quoted runId) := absent_colon _ _
  rw [text, or_iff_right lead, absent_quoted "reconciling existing run " runId, or_iff_right run]

theorem absent_stillPending (runId : String) :
    Absent (stillPending runId (existingRunErr runId)) ↔ Absent runId := by
  have lead : ¬Absent "worker-start mutation is still pending in Orca for run " :=
    not_absent_of_letter (by decide)
  have text : Absent (stillPending runId (existingRunErr runId)) ↔
      Absent ("worker-start mutation is still pending in Orca for run " ++ quoted runId) ∨
        Absent (existingRunErr runId).text := absent_colon _ _
  rw [text, absent_quoted "worker-start mutation is still pending in Orca for run " runId,
    or_iff_right lead, absent_existingRunErr, or_self]

theorem absent_lookupFailed (runId : String) (e : OrcaError) :
    Absent (lookupFailed (existingRunErr runId) e) ↔ Absent runId ∨ Absent e.text := by
  have lead : ¬Absent "worker-start failed (" := not_absent_of_letter (by decide)
  have after : ¬Absent ") and request-show lookup transiently failed" :=
    not_absent_of_letter (by decide)
  have text : Absent (lookupFailed (existingRunErr runId) e) ↔
      Absent ("worker-start failed (" ++ (existingRunErr runId).text ++
        ") and request-show lookup transiently failed") ∨ Absent e.text := absent_colon _ _
  have closing : ")".toList ++ " and request-show lookup transiently failed".toList =
    ") and request-show lookup transiently failed".toList := by decide
  have opening : "worker-start failed ".toList ++ "(".toList = "worker-start failed (".toList := by
    decide
  rw [text, absent_append (.inl ⟨')', _, closing.symm, by decide⟩), or_iff_left after,
    absent_append (.inr ⟨'(', _, opening.symm, by decide⟩), or_iff_right lead,
    absent_existingRunErr]

/-! ### what each step leaves in the log -/

section Steps

variable {Value : Type} {crates : Crates Value} {attempt : ActiveAttempt} {site : Resolved}

theorem LiveIn.mono {worktreeId terminalId : String} {l m : Calls Value} (hlm : l ⊆ m)
    (h : LiveIn worktreeId terminalId l) : LiveIn worktreeId terminalId m := by
  obtain ⟨term, ht, hrest⟩ := h
  exact ⟨term, hlm ht, hrest⟩

theorem ValidDispatch.mono {result : OrcaWorkerStartResult} {runId worktreeId terminalId : String}
    {l m : Calls Value} (hlm : l ⊆ m) (h : ValidDispatch result runId worktreeId terminalId l) :
    ValidDispatch result runId worktreeId terminalId m := { h with live := h.live.mono hlm }

theorem Reported.mono {result : OrcaWorkerStartResult} {l m : Calls Value} (hlm : l ⊆ m)
    (h : Reported crates attempt result l) : Reported crates attempt result m := by
  rcases h with ⟨w, hw⟩ | ⟨shown, receipt, hs, hrest⟩
  · exact .inl ⟨w, hlm hw⟩
  · exact .inr ⟨shown, receipt, hlm hs, hrest⟩

theorem MatchingRun.mono {runId : String} {l m : Calls Value} (hlm : l ⊆ m)
    (h : MatchingRun crates attempt runId l) : MatchingRun crates attempt runId m := by
  rcases h with ⟨runs, hr, hrest⟩ | ⟨handle, r, hr, hrest⟩ | ⟨shown, receipt, r, hs, hrest⟩
  · exact .inl ⟨runs, hlm hr, hrest⟩
  · exact .inr (.inl ⟨handle, r, hlm hr, hrest⟩)
  · exact .inr (.inr ⟨shown, receipt, r, hlm hs, hrest⟩)

/-- Every call but `worker_start` may be made at any time. -/
def Quiet (C : Calls Value → Call → Prop) : Prop :=
  ∀ l e, (∀ w, e ≠ .workerStart w) → C l e

variable {C : Calls Value → Call → Prop}

/-- The terminal was seen live in the worktree if the check passed. -/
def TerminalChecked (worktreeId terminalId : String) (l m : Calls Value) (a : Except String Unit) :
    Prop := l ⊆ m ∧ (a = .ok () → LiveIn worktreeId terminalId m)

theorem TerminalChecked.refused {worktreeId terminalId reason : String} {l m : Calls Value}
    (hlm : l ⊆ m) : TerminalChecked worktreeId terminalId l m (.error reason) := ⟨hlm, nofun⟩

theorem along_validateWorkerTerminal (hC : Quiet C) (terminalId worktreeId : String)
    (l : Calls Value) :
    Along C (TerminalChecked worktreeId terminalId l)
      (validateWorkerTerminal crates terminalId worktreeId) l := by
  refine Along.perform (e := .showTerminal terminalId) (hC _ _ (by simp)) fun r => ?_
  have hlm : l ⊆ l ++ [⟨.showTerminal terminalId, r⟩] := by simp
  rcases r with e | _ | term
  · dsimp only
    exact Along.ret (.refused hlm)
  · dsimp only
    exact Along.ret (.refused hlm)
  · dsimp only
    split_ifs with hw hl
    · exact Along.ret (.refused hlm)
    · exact Along.ret (.refused hlm)
    · exact Along.ret ⟨hlm, fun _ => ⟨term, by simp, not_not.1 hw, not_not.1 hl⟩⟩

def DispatchChecked (result : OrcaWorkerStartResult) (runId worktreeId : String)
    (l m : Calls Value) (a : Except String String) : Prop :=
  l ⊆ m ∧ ∀ terminalId, a = .ok terminalId → ValidDispatch result runId worktreeId terminalId m

theorem DispatchChecked.refused {result : OrcaWorkerStartResult} {runId worktreeId reason : String}
    {l m : Calls Value} (hlm : l ⊆ m) :
    DispatchChecked result runId worktreeId l m (.error reason) :=
  ⟨hlm, nofun⟩

theorem along_validateWorkerStartDispatch (hC : Quiet C) (result : OrcaWorkerStartResult)
    (runId worktreeId : String) (l : Calls Value) :
    Along C (DispatchChecked result runId worktreeId l)
      (validateWorkerStartDispatch crates result runId worktreeId) l := by
  have hll : l ⊆ l := fun _ h => h
  unfold validateWorkerStartDispatch
  dsimp only
  by_cases hrun : ((trim (result.runId.getD "")).isEmpty ||
      decide (trim (result.runId.getD "") ≠ runId)) = true
  · rw [if_pos hrun]
    exact Along.ret (.refused hll)
  rw [if_neg hrun]
  by_cases htask : (trim (result.taskId.getD "")).isEmpty = true
  · rw [if_pos htask]
    exact Along.ret (.refused hll)
  rw [if_neg htask]
  by_cases hdispatch : (trim (result.dispatchId.getD "")).isEmpty = true
  · rw [if_pos hdispatch]
    exact Along.ret (.refused hll)
  rw [if_neg hdispatch]
  by_cases hstate : (!eqIgnoreAsciiCase (trim (result.state.getD "")) "ready") = true
  · rw [if_pos hstate]
    exact Along.ret (.refused hll)
  rw [if_neg hstate]
  cases hterm : result.workerTerminalHandle with
  | none =>
    dsimp only
    exact Along.ret (.refused hll)
  | some handle =>
    dsimp only
    refine (along_validateWorkerTerminal hC handle worktreeId l).bind fun a m hm => ?_
    obtain ⟨hlm, hlive⟩ := hm
    cases a with
    | error reason =>
      dsimp only
      exact Along.ret (.refused hlm)
    | ok u =>
      dsimp only
      refine Along.ret ⟨hlm, fun terminalId ht => ?_⟩
      obtain rfl : handle = terminalId := Except.ok.inj ht
      rw [Bool.or_eq_true, decide_eq_true_eq, not_or, not_not] at hrun
      obtain ⟨hne, heq⟩ := hrun
      rw [heq] at hne
      exact ⟨heq, Bool.eq_false_of_not_eq_true hne, Bool.eq_false_of_not_eq_true htask,
        Bool.eq_false_of_not_eq_true hdispatch, by simpa using hstate, hterm, hlive rfl⟩

/-- A reconciled worker was validated. -/
def Validated (result : OrcaWorkerStartResult) (runId worktreeId : String) (l : Calls Value) :
    WorkerStartOutcome → Prop
  | .reconciled worker => ValidDispatch result runId worktreeId worker.terminalHandle l
  | .outcome out => ∃ reason, out = recovery reason

theorem along_reconcileDispatch (hC : Quiet C) (result : OrcaWorkerStartResult)
    (retryId runId worktreeId : String) (l : Calls Value) :
    Along C (fun m a => l ⊆ m ∧ Validated result runId worktreeId m a)
      (reconcileDispatch crates result retryId runId worktreeId) l := by
  unfold reconcileDispatch
  refine (along_validateWorkerStartDispatch hC result runId worktreeId l).bind fun a m hm => ?_
  obtain ⟨hlm, hvalid⟩ := hm
  cases a with
  | error reason =>
    dsimp only
    exact Along.ret ⟨hlm, reason, rfl⟩
  | ok handle =>
    dsimp only
    refine Along.perform (e := .now) (hC _ _ (by simp)) fun now => ?_
    exact Along.ret ⟨fun x hx => by simp [hlm hx], (hvalid handle rfl).mono (by simp)⟩

/-- The outcome is `Ready` never, and a reconciled worker was reported and validated. -/
def Sound (crates : Crates Value) (attempt : ActiveAttempt) (runId worktreeId : String)
    (l : Calls Value) : WorkerStartOutcome → Prop
  | .reconciled worker => ∃ result, Reported crates attempt result l ∧
      ValidDispatch result runId worktreeId worker.terminalHandle l
  | .outcome (.ready _) => False
  | .outcome _ => True

theorem Validated.sound {result : OrcaWorkerStartResult} {runId worktreeId : String}
    {l : Calls Value} {a : WorkerStartOutcome} (h : Validated result runId worktreeId l a)
    (hr : Reported crates attempt result l) : Sound crates attempt runId worktreeId l a := by
  cases a with
  | reconciled worker => exact ⟨result, hr, h⟩
  | outcome out =>
    obtain ⟨reason, rfl⟩ := h
    trivial

/-- A retry that `prepare` takes for the absence of the request. -/
def SaysAbsent : WorkerStartOutcome → Prop
  | .outcome (.retryable _ reason) => Absent reason
  | _ => False

theorem Validated.not_saysAbsent {result : OrcaWorkerStartResult} {runId worktreeId : String}
    {l : Calls Value} {a : WorkerStartOutcome} (h : Validated result runId worktreeId l a) :
    ¬SaysAbsent a := by
  cases a with
  | reconciled worker => exact id
  | outcome out =>
    obtain ⟨reason, rfl⟩ := h
    exact id

/-- The answers that leave the request's absence open, though the reason has the text for it. -/
def Open (runId : String) (originalErr : OrcaError) :
    Except OrcaError (OrcaRequestShowResult Value) → Prop
  | .ok shown => shown.isPending = true ∧ Absent (stillPending runId originalErr)
  | .error e => isTransient e = true ∧ Absent (lookupFailed originalErr e)

/-- What reconciling over a log leaves. -/
structure Reconciled (crates : Crates Value) (attempt : ActiveAttempt) (runId worktreeId : String)
    (originalErr : OrcaError) (l m : Calls Value) (a : WorkerStartOutcome) : Prop where
  grows : l ⊆ m
  sound : Sound crates attempt runId worktreeId m a
  absent : SaysAbsent a → RequestAbsent crates attempt m ∨ ∃ answer,
    m = l ++ [⟨.requestShow (workerRetryId crates attempt), answer⟩] ∧
      Open runId originalErr answer

theorem Reconciled.refused {runId worktreeId reason : String} {originalErr : OrcaError}
    {l m : Calls Value} (hlm : l ⊆ m) :
    Reconciled crates attempt runId worktreeId originalErr l m (.outcome (recovery reason)) :=
  ⟨hlm, trivial, False.elim⟩

theorem Reconciled.retry {runId worktreeId reason : String} {originalErr : OrcaError}
    {l m : Calls Value} (hlm : l ⊆ m) (h : Absent reason → RequestAbsent crates attempt m ∨
      ∃ answer, m = l ++ [⟨.requestShow (workerRetryId crates attempt), answer⟩] ∧
        Open runId originalErr answer) :
    Reconciled crates attempt runId worktreeId originalErr l m (.outcome (retryable reason)) :=
  ⟨hlm, trivial, h⟩

theorem along_reconcile (hC : Quiet C) (runId worktreeId : String) (originalErr : OrcaError)
    (l : Calls Value) :
    Along C (Reconciled crates attempt runId worktreeId originalErr l)
      (reconcileWorkerStartViaRequestShow crates (workerRetryId crates attempt) runId worktreeId
        originalErr) l := by
  unfold reconcileWorkerStartViaRequestShow
  refine Along.perform (e := .requestShow (workerRetryId crates attempt)) (hC _ _ (by simp))
    fun r => ?_
  have hlm : l ⊆ l ++ [⟨.requestShow (workerRetryId crates attempt), r⟩] := by simp
  cases r with
  | error e =>
    dsimp only
    split_ifs with ht
    · exact Along.ret (.retry hlm fun hc => .inr ⟨.error e, rfl, ht, hc⟩)
    · exact Along.ret (.refused hlm)
  | ok shown =>
    dsimp only
    by_cases hcomp : shown.isCompleted = true
    · rw [if_pos hcomp]
      by_cases hid : shown.requestId ≠ workerRetryId crates attempt
      · rw [if_pos hid]
        exact Along.ret (.refused hlm)
      · rw [if_neg hid]
        cases hr : shown.receipt with
        | none =>
          exact Along.ret (.refused hlm)
        | some receipt =>
          dsimp only
          cases hp : crates.parseWorkerStartResult receipt with
          | error reason => exact Along.ret (.refused hlm)
          | ok parsed =>
            refine (along_reconcileDispatch hC parsed _ runId worktreeId _).mono fun m a hm => ?_
            obtain ⟨hlm', hvalid⟩ := hm
            have hshown : (⟨.requestShow (workerRetryId crates attempt), .ok shown⟩ :
                Sigma (Answer Value)) ∈ m := hlm' (by simp)
            exact ⟨fun x hx => hlm' (hlm hx), hvalid.sound (.inr ⟨shown, receipt, hshown, hcomp,
              not_not.1 hid, hr, hp⟩), fun hs => absurd hs hvalid.not_saysAbsent⟩
    rw [if_neg hcomp]
    by_cases hpend : shown.isPending = true
    · rw [if_pos hpend]
      exact Along.ret (.retry hlm fun hc => .inr ⟨.ok shown, rfl, hpend, hc⟩)
    rw [if_neg hpend]
    by_cases habs : shown.isAbsent = true
    · rw [if_pos habs]
      by_cases hempty : runId.isEmpty = true
      · rw [if_pos hempty]
        exact Along.ret (.refused hlm)
      · rw [if_neg hempty]
        refine Along.perform (e := .listWorkers runId) (hC _ _ (by simp)) fun r => ?_
        have hln : l ⊆ l ++ [⟨.requestShow (workerRetryId crates attempt), .ok shown⟩] ++
            [⟨.listWorkers runId, r⟩] := fun x hx => List.mem_append_left _ (hlm hx)
        have absent : RequestAbsent crates attempt
            (l ++ [⟨.requestShow (workerRetryId crates attempt), .ok shown⟩] ++
              [⟨.listWorkers runId, r⟩]) := ⟨shown, by simp, habs⟩
        cases r with
        | ok workers =>
          dsimp only
          split_ifs with hw
          · exact Along.ret (.refused hln)
          · exact Along.ret (.retry hln fun _ => .inl absent)
        | error e =>
          dsimp only
          split_ifs with ht
          · exact Along.ret (.retry hln fun _ => .inl absent)
          · exact Along.ret (.refused hln)
    · rw [if_neg habs]
      exact Along.ret (.refused hlm)

/-- `Ready` only with its evidence. -/
def ReadyOnly (crates : Crates Value) (attempt : ActiveAttempt) (site : Resolved)
    (l : Calls Value) (a : Except String PrepareOutcome) : Prop :=
  ∀ prep, a = .ok (.ready prep) → Dispatched crates attempt site prep l

theorem ReadyOnly.refused {reason : String} {l : Calls Value} :
    ReadyOnly crates attempt site l (.ok (recovery reason)) := nofun

theorem ReadyOnly.error {e : String} {l : Calls Value} :
    ReadyOnly crates attempt site l (.error e) := nofun

theorem ReadyOnly.retry {execution : Option PreparedExecutionIdentity} {reason : String}
    {l : Calls Value} : ReadyOnly crates attempt site l (.ok (.retryable execution reason)) := nofun

theorem ReadyOnly.outcome {out : PrepareOutcome} {runId worktreeId : String} {l : Calls Value}
    (h : Sound crates attempt runId worktreeId l (.outcome out)) :
    ReadyOnly crates attempt site l (.ok out) := by
  intro prep hp
  obtain rfl : out = .ready prep := Except.ok.inj hp
  exact h.elim

theorem along_readyWith (hC : Quiet C) {terminalId runId : String}
    {evidence : PreparedDispatchEvidence} {result : OrcaWorkerStartResult} {l : Calls Value}
    (hrun : MatchingRun crates attempt runId l) (hr : Reported crates attempt result l)
    (hv : ValidDispatch result runId site.worktreeId terminalId l)
    (hrec : ∀ t, recordedTerminal attempt = some t → t = terminalId) :
    Along C (ReadyOnly crates attempt site) (readyWith site terminalId evidence) l := by
  unfold readyWith
  refine Along.perform (e := .now) (hC _ _ (by simp)) fun now => Along.ret ?_
  intro prep hp
  obtain rfl := PrepareOutcome.ready.inj (Except.ok.inj hp)
  have hlm : l ⊆ l ++ [⟨.now, now⟩] := by simp
  exact ⟨runId, result, hrun.mono hlm, hr.mono hlm, hv.mono hlm, rfl, hrec⟩

theorem along_launchOn (hC : Quiet C) {executionPrompt coordinatorHandle runId : String}
    {l : Calls Value} (hrec : recordedTerminal attempt = none)
    (hrun : MatchingRun crates attempt runId l)
    (hstart : ∀ w : WorkerStart, w.runId = runId → C l (.workerStart w)) :
    Along C (ReadyOnly crates attempt site)
      (launchOn crates attempt site executionPrompt coordinatorHandle runId) l := by
  have launched : Along C (fun m a => l ⊆ m ∧ Sound crates attempt runId site.worktreeId m a)
      (launchWorkerAndReconcile crates ⟨coordinatorHandle, runId, site.worktreeId,
        site.launchAgentId, site.model.filter (· ≠ "auto"), executionPrompt,
        workerRetryId crates attempt⟩) l := by
    unfold launchWorkerAndReconcile
    refine Along.perform (e := Call.workerStart _) (hstart _ rfl) fun r => ?_
    cases r with
    | ok result =>
      dsimp only
      refine (along_reconcileDispatch hC result _ runId site.worktreeId _).mono fun m a hm => ?_
      exact ⟨fun x hx => hm.1 (List.mem_append_left _ hx), hm.2.sound (.inl ⟨_, hm.1
        (List.mem_append_right _ (List.mem_singleton_self _))⟩)⟩
    | error e =>
      dsimp only
      refine (along_reconcile hC runId site.worktreeId e _).mono fun m a hm => ?_
      exact ⟨fun x hx => hm.grows (List.mem_append_left _ hx), hm.sound⟩
  unfold launchOn
  refine launched.bind fun a m hm => ?_
  obtain ⟨hlm, hsound⟩ := hm
  cases a with
  | reconciled worker =>
    dsimp only
    obtain ⟨result, hr, hv⟩ := hsound
    exact along_readyWith hC (hrun.mono hlm) hr hv fun t ht => by simp [hrec] at ht
  | outcome out =>
    dsimp only
    exact Along.ret (.outcome hsound)

theorem along_withCoordinator (hC : Quiet C)
    {next : String → Orca Value (Except String PrepareOutcome)} {l : Calls Value}
    (h : ∀ anchor handle, Along C (ReadyOnly crates attempt site) (next handle)
      (l ++ [⟨.resolveCoordinatorAnchorWorktree site.worktreeId, anchor⟩] ++
        [⟨.ensureCoordinatorTerminal anchor attempt.deviceId, .ok handle⟩])) :
    Along C (ReadyOnly crates attempt site) (withCoordinator attempt site next) l := by
  unfold withCoordinator
  refine Along.perform (e := .resolveCoordinatorAnchorWorktree site.worktreeId) (hC _ _ (by simp))
    fun anchor => ?_
  refine Along.perform (e := .ensureCoordinatorTerminal anchor attempt.deviceId) (hC _ _ (by simp))
    fun r => ?_
  cases r with
  | error e =>
    dsimp only
    exact Along.ret .error
  | ok handle =>
    dsimp only
    exact h anchor handle

end Steps

section Prepare

variable {Value : Type} {crates : Crates Value} {attempt : ActiveAttempt} {site : Resolved}
  {C : Calls Value → Call → Prop}

theorem along_prepareRecorded (hC : Quiet C) {existingTid : String} {l : Calls Value}
    (hrec : recordedTerminal attempt = some existingTid) {matchingRuns : List OrcaRunItem}
    (hruns : ∀ r ∈ matchingRuns, MatchingRun crates attempt r.id l) :
    Along C (ReadyOnly crates attempt site)
      (prepareRecorded crates attempt site existingTid matchingRuns) l := by
  cases matchingRuns with
  | nil => exact Along.ret .refused
  | cons existingRun rest =>
    unfold prepareRecorded
    refine (along_validateWorkerTerminal hC existingTid site.worktreeId l).bind fun a m hm => ?_
    obtain ⟨hlm, -⟩ := hm
    cases a with
    | error reason => exact Along.ret .refused
    | ok u =>
      dsimp only
      refine (along_reconcile hC existingRun.id site.worktreeId _ m).bind fun a n hn => ?_
      obtain ⟨hmn, hsound, -⟩ := hn
      cases a with
      | reconciled worker =>
        dsimp only
        by_cases heq : worker.terminalHandle = existingTid
        · rw [if_pos heq]
          subst heq
          obtain ⟨result, hr, hv⟩ := hsound
          have hrun := (hruns existingRun List.mem_cons_self).mono fun x hx => hmn (hlm hx)
          refine along_readyWith hC hrun hr hv fun t ht => ?_
          exact (Option.some.inj (hrec.symm.trans ht)).symm
        · rw [if_neg heq]
          exact Along.ret .refused
      | outcome out =>
        cases out with
        | ready prep => exact hsound.elim
        | notReady execution reason => exact Along.ret (.outcome hsound)
        | recoveryRequired execution reason => exact Along.ret (.outcome hsound)
        | retryable execution reason =>
          dsimp only
          by_cases hc : contains reason absentText = true
          · rw [if_pos hc]
            exact Along.ret .refused
          · rw [if_neg hc]
            exact Along.ret .retry

theorem along_prepareFresh (hC : Quiet C) {executionPrompt : String} {l : Calls Value}
    (hrec : recordedTerminal attempt = none)
    (hstart : ∀ m w, l ⊆ m → C m (.workerStart w)) :
    Along C (ReadyOnly crates attempt site)
      (prepareFresh crates attempt site executionPrompt) l := by
  unfold prepareFresh
  refine along_withCoordinator hC fun anchor handle => ?_
  refine Along.perform (e := .createRun handle (runObjective attempt) (runRetryId crates attempt))
    (hC _ _ (by simp)) fun r => ?_
  cases r with
  | ok run =>
    dsimp only
    exact along_launchOn hC hrec (.inr (.inl ⟨handle, run, by simp, rfl⟩))
      fun w _ => hstart _ w fun x hx => by simp [hx]
  | error e =>
    dsimp only
    refine Along.perform (e := .requestShow (runRetryId crates attempt)) (hC _ _ (by simp))
      fun r => ?_
    cases r with
    | error e' => exact Along.ret .error
    | ok shown =>
      dsimp only
      by_cases hcomp : shown.isCompleted = true
      · rw [if_pos hcomp]
        cases hr : shown.receipt with
        | none => exact Along.ret .error
        | some receipt =>
          dsimp only
          cases hrun : crates.receiptRun receipt with
          | none => exact Along.ret .error
          | some run =>
            exact along_launchOn hC hrec
              (.inr (.inr ⟨shown, receipt, run, by simp, hcomp, hr, hrun, rfl⟩))
              fun w _ => hstart _ w fun x hx => by simp [hx]
      rw [if_neg hcomp]
      by_cases hpend : shown.isPending = true
      · rw [if_pos hpend]
        exact Along.ret .retry
      · rw [if_neg hpend]
        exact Along.ret .error

/-- What `prepare` needs of the calls: a `worker_start` is justified or Orca misled it. -/
def Allowed (crates : Crates Value) (attempt : ActiveAttempt) (site : Resolved)
    (l : Calls Value) (e : Call) : Prop :=
  ∀ w, e = .workerStart w → Justified crates attempt l w ∨ Misled crates attempt site l

theorem quiet_allowed : Quiet (Allowed crates attempt site) :=
  fun _ _ he w hw => (he w hw).elim

theorem misleading_iff {runId : String}
    {answer : Except OrcaError (OrcaRequestShowResult Value)} :
    Misleading runId answer ↔ Open runId (existingRunErr runId) answer := by
  cases answer with
  | ok shown => exact and_congr_right fun _ => (absent_stillPending runId).symm
  | error e => exact and_congr_right fun _ => (absent_lookupFailed runId e).symm

theorem along_prepareExisting {executionPrompt : String} {runs : List OrcaRunItem}
    {run : OrcaRunItem} (hrec : recordedTerminal attempt = none)
    (hf : (runs.filter fun r => decide (r.objective = some (runObjective attempt))) = [run]) :
    Along (Allowed crates attempt site) (ReadyOnly crates attempt site)
      (prepareExisting crates attempt site executionPrompt run)
      [⟨.supportsAgentSessionLaunch, true⟩, ⟨.listRuns, .ok runs⟩] := by
  have hmem : run ∈ runs ∧ run.objective = some (runObjective attempt) := by
    have : run ∈ runs.filter fun r => decide (r.objective = some (runObjective attempt)) := by
      simp [hf]
    simpa using this
  unfold prepareExisting
  refine Along.perform (e := .listWorkers run.id) (quiet_allowed _ _ (by simp)) fun r => ?_
  cases r with
  | error e => exact Along.ret .refused
  | ok workers =>
    dsimp only
    by_cases hmany : (candidateHandles workers).length > 1
    · rw [if_pos hmany]
      exact Along.ret .refused
    rw [if_neg hmany]
    refine (along_reconcile quiet_allowed run.id site.worktreeId _ _).bind fun a m hm => ?_
    obtain ⟨hlm, hsound, hsays⟩ := hm
    have hrun : MatchingRun crates attempt run.id m :=
      .inl ⟨runs, hlm (by simp), run, hmem.1, hmem.2, rfl⟩
    cases a with
    | reconciled worker =>
      dsimp only
      obtain ⟨result, hr, hv⟩ := hsound
      cases (candidateHandles workers).head?.filter
          fun h => decide (trim h ≠ trim worker.terminalHandle) with
      | some inventoryHandle => exact Along.ret .refused
      | none => exact along_readyWith quiet_allowed hrun hr hv fun t ht => by simp [hrec] at ht
    | outcome out =>
      cases out with
      | ready prep => exact hsound.elim
      | notReady execution reason => exact Along.ret (.outcome hsound)
      | recoveryRequired execution reason => exact Along.ret (.outcome hsound)
      | retryable execution reason =>
        dsimp only
        by_cases hc : candidateHandles workers = [] ∧ contains reason absentText = true
        · rw [if_pos hc]
          obtain ⟨hhandles, hreason⟩ := hc
          refine along_withCoordinator quiet_allowed fun anchor handle => ?_
          refine along_launchOn quiet_allowed hrec (hrun.mono (by simp)) fun w hw w' hw' => ?_
          obtain rfl : w = w' := Call.workerStart.inj hw'
          rcases hsays hreason with habs | ⟨answer, rfl, hopen⟩
          · obtain ⟨shown, hs, habs⟩ := habs
            refine .inl (.inr ⟨⟨shown, by simp [hs], habs⟩, workers, ?_, hhandles⟩)
            rw [hw, List.append_assoc]
            exact List.mem_append_left _ (hlm (by simp))
          · exact .inr ⟨hrec, runs, run, workers, answer, anchor, handle, hf, hhandles,
              misleading_iff.2 hopen, by simp⟩
        · rw [if_neg hc]
          exact Along.ret .retry

theorem along_prepare (executionPrompt : String) :
    Along (Allowed crates attempt site) (ReadyOnly crates attempt site)
      (prepare crates attempt site executionPrompt) [] := by
  unfold prepare
  refine Along.perform (e := .supportsAgentSessionLaunch) (quiet_allowed _ _ (by simp))
    fun supported => ?_
  cases supported with
  | false => exact Along.ret .refused
  | true =>
    refine Along.perform (e := .listRuns) (quiet_allowed _ _ (by simp)) fun r => ?_
    cases r with
    | error e => exact Along.ret .refused
    | ok runs =>
      dsimp only
      generalize hf : runs.filter (fun r => decide (r.objective = some (runObjective attempt))) =
        matchingRuns
      by_cases hmany : matchingRuns.length > 1
      · rw [if_pos hmany]
        exact Along.ret .refused
      rw [if_neg hmany]
      have listed : ∀ r ∈ matchingRuns, r ∈ runs ∧ r.objective = some (runObjective attempt) := by
        intro r hr
        rw [← hf, List.mem_filter, decide_eq_true_eq] at hr
        exact hr
      cases hrec : recordedTerminal attempt with
      | some existingTid =>
        refine along_prepareRecorded quiet_allowed hrec fun r hr => ?_
        obtain ⟨hmem, hobj⟩ := listed r hr
        exact .inl ⟨runs, by simp, r, hmem, hobj, rfl⟩
      | none =>
        dsimp only
        cases matchingRuns with
        | nil =>
          refine along_prepareFresh quiet_allowed hrec fun m w hlm w' _ => .inl (.inl ?_)
          refine ⟨runs, hlm (by simp), fun r hr hobj => ?_⟩
          exact List.filter_eq_nil_iff.1 hf r hr (decide_eq_true hobj)
        | cons run rest =>
          obtain rfl : rest = [] := by
            cases rest with
            | nil => rfl
            | cons _ _ => simp at hmany
          exact along_prepareExisting hrec hf

/-- The answers that mislead `prepare` do make it send `worker_start`. -/
theorem misled_path {l : Calls Value} (executionPrompt : String)
    (h : Misled crates attempt site l) : ∃ w k,
      Path (prepare crates attempt site executionPrompt) l (.call (.workerStart w) k) := by
  obtain ⟨hrec, runs, run, workers, answer, anchor, handle, hf, hhandles, hmis, rfl⟩ := h
  have hopen := misleading_iff.1 hmis
  obtain ⟨reason, hreason, hpath⟩ : ∃ reason, contains reason absentText = true ∧
      Path (reconcileWorkerStartViaRequestShow crates (workerRetryId crates attempt) run.id
        site.worktreeId (existingRunErr run.id))
        [⟨.requestShow (workerRetryId crates attempt), answer⟩]
        (.done (.outcome (retryable reason))) := by
    cases answer with
    | ok shown =>
      refine ⟨_, hopen.2, Path.perform _ ?_⟩
      have hcomp := OrcaRequestShowResult.isCompleted_of_isPending hopen.1
      simp only [hcomp, hopen.1, if_true, Bool.false_eq_true, if_false]
      exact .here _
    | error e =>
      refine ⟨_, hopen.2, Path.perform _ ?_⟩
      simp only [hopen.1, if_true]
      exact .here _
  suffices reached : Path (prepare crates attempt site executionPrompt) _
      (launchOn crates attempt site executionPrompt handle run.id) from ⟨_, _, reached⟩
  unfold prepare
  refine Path.perform (R := Answer Value) (e := Call.supportsAgentSessionLaunch) true ?_
  refine Path.perform (R := Answer Value) (e := Call.listRuns) (Except.ok runs) ?_
  dsimp only
  rw [hf, if_neg (by simp), hrec]
  dsimp only
  unfold prepareExisting
  refine Path.perform (R := Answer Value) (e := Call.listWorkers run.id) (Except.ok workers) ?_
  dsimp only
  rw [hhandles, if_neg (by simp)]
  refine Path.bind hpath ?_
  dsimp only [retryable]
  rw [if_pos ⟨rfl, hreason⟩]
  unfold withCoordinator
  refine Path.perform (R := Answer Value)
    (e := Call.resolveCoordinatorAnchorWorktree site.worktreeId) anchor ?_
  refine Path.perform (R := Answer Value)
    (e := Call.ensureCoordinatorTerminal anchor attempt.deviceId) (Except.ok handle) ?_
  exact .here _

theorem not_justified_of_misled {l : Calls Value} {w : WorkerStart}
    (h : Misled crates attempt site l) : ¬Justified crates attempt l w := by
  obtain ⟨-, runs, run, workers, answer, anchor, handle, hf, -, hmis, rfl⟩ := h
  rintro (⟨runs', hmem, hnone⟩ | ⟨⟨shown, hmem, habs⟩, -⟩)
  · have hrun : run ∈ runs.filter fun r => decide (r.objective = some (runObjective attempt)) := by
      simp [hf]
    obtain rfl : runs' = runs := by simpa using hmem
    obtain ⟨hmem', hobj⟩ := List.mem_filter.1 hrun
    exact hnone run hmem' (by simpa using hobj)
  · obtain rfl : .ok shown = answer := by simpa using hmem
    rw [OrcaRequestShowResult.isAbsent_of_isPending hmis.1] at habs
    cases habs

end Prepare

/-! ### sequences of calls -/

/-- A call of `prepare`, as far as it has come: the answers so far, and what it does next. -/
structure PrepareCall {Value : Type} (crates : Crates Value) where
  attempt : ActiveAttempt
  site : Resolved
  executionPrompt : String
  log : Calls Value
  rest : Orca Value (Except String PrepareOutcome)
  path : Path (prepare crates attempt site executionPrompt) log rest

namespace PrepareCall

variable {Value : Type} {crates : Crates Value} (c : PrepareCall crates)

/-- `worker_start` is sent on its evidence only, and `Ready` is answered on its evidence only. -/
def Careful : Prop :=
  (∀ l w k, l <+: c.log →
    Path (prepare crates c.attempt c.site c.executionPrompt) l (.call (.workerStart w) k) →
    Justified crates c.attempt l w) ∧
  ∀ prep, c.rest = .done (.ok (.ready prep)) → Dispatched crates c.attempt c.site prep c.log

/-- The call's answers up to some point mislead `prepare`. -/
def Deceived : Prop := ∃ l, l <+: c.log ∧ Misled crates c.attempt c.site l

theorem careful_iff : c.Careful ↔ ¬c.Deceived := by
  constructor
  · rintro ⟨hstart, -⟩ ⟨l, hl, hmis⟩
    obtain ⟨w, k, hpath⟩ := misled_path c.executionPrompt hmis
    exact not_justified_of_misled hmis (hstart l w k hl hpath)
  · intro h
    refine ⟨fun l w k hl hpath => ?_, fun prep hprep => ?_⟩
    · have hallowed := (along_prepare c.executionPrompt).at_call hpath
      rcases hallowed w rfl with hjust | hmis
      · exact hjust
      · exact absurd ⟨l, hl, hmis⟩ h
    · have hpath := c.path
      rw [hprep] at hpath
      exact (along_prepare c.executionPrompt).at_end hpath prep rfl

end PrepareCall

/-- **Worker launch.** In any sequence of `prepare` calls, whatever Orca answers, every
`worker_start` is sent on evidence that no worker was started and every `Ready` is answered on
the worker's own, exactly when no call's answers are of the misleading kind. -/
theorem launches_careful_iff {Value : Type} {crates : Crates Value}
    (calls : List (PrepareCall crates)) :
    (∀ c ∈ calls, c.Careful) ↔ ∀ c ∈ calls, ¬c.Deceived :=
  forall₂_congr fun c _ => c.careful_iff

/-! A run is listed, its worker list is empty, and the lookup of the request fails for a while
with a message that has the text in it: the worker is started. -/

namespace Sample

def crates : Crates Unit where
  get _ _ := none
  toWorkerStart _ := .error "missing field"
  toRunCreate _ := none
  toRun _ := none
  debug s := "\"" ++ s ++ "\""
  deriveMutationRequestId kind _ :=
    if kind = "run-create" then "9de3b9b3-c5a2-536a-9eb7-24642b023542"
    else "53a7ba64-c169-5b22-a5bf-456e46e02f6b"

def attempt : ActiveAttempt where
  schemaVersion := 1
  serverOrigin := "https://ceo.example"
  deviceId := "device-1"
  jobId := "job-1"
  workspaceId := "workspace-1"
  targetId := "target-1"
  attemptId := "att-3f8e1c52-7b64-4d0a-9c1e-5a2b7d9f0e13"
  claimToken := ""
  phase := .prepareIntent
  resourceId := none
  prompt := none
  acceptance := none
  executionTimeoutSeconds := none
  resultTarget := none
  payloadSha256 := none
  claimedAtMs := none
  terminalReportSha256 := none
  frozenAgentId := some "codex"
  executor := none

def site : Resolved := ⟨"1.0", "worktree-1", "codex", none⟩

def run : OrcaRunItem := ⟨"run-1", some (runObjective attempt)⟩

def lookup : Except OrcaError (OrcaRequestShowResult Unit) :=
  .error (.orca "runtime_unavailable" absentText)

def log : Calls Unit :=
  [⟨.supportsAgentSessionLaunch, true⟩, ⟨.listRuns, .ok [run]⟩, ⟨.listWorkers run.id, .ok []⟩,
    ⟨.requestShow (workerRetryId crates attempt), lookup⟩,
    ⟨.resolveCoordinatorAnchorWorktree site.worktreeId, "worktree-1"⟩,
    ⟨.ensureCoordinatorTerminal "worktree-1" attempt.deviceId, .ok "term_coordinator"⟩]

theorem misled : Misled crates attempt site log := by
  have same : Absent absentText := absent_iff.2 (List.infix_refl _)
  have text : Absent (OrcaError.orca "runtime_unavailable" absentText).text :=
    (absent_colon _ _).2 (.inr same)
  exact ⟨rfl, [run], run, [], lookup, "worktree-1", "term_coordinator", by simp [run], rfl,
    ⟨by simp [isTransient], .inr text⟩, rfl⟩

theorem launched_unseen :
    ∃ c : PrepareCall crates, c.attempt = attempt ∧ c.log = log ∧ ¬c.Careful := by
  obtain ⟨w, k, path⟩ := misled_path "prompt" misled
  refine ⟨⟨attempt, site, "prompt", log, _, path⟩, rfl, rfl, fun h => ?_⟩
  exact not_justified_of_misled misled (h.1 _ w k (List.prefix_refl _) path)

end Sample

end Ceo.Attempt.Launch
