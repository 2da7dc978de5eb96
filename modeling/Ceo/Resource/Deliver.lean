import Ceo.Jobs.Coordinator
import Ceo.Resource.Managed
import Ceo.Workspace.Archive

/-!
# Delivering a managed result

`applyManagedJobResult` (`resource/service.ts`) over the workspace: the request
id is computed from the attempt and the payload digest, so each delivery of one
payload is the same transaction.
-/

namespace Ceo.Resource

open Ceo.Lib Ceo.Jobs Ceo.Workspace

/-- `uuid` is `deriveDeterministicUuid`, `oid` the text of a commit. -/
structure Names where
  uuid : String → String
  oid : Commit → String
  branch : String

section deliver

variable (n : Names) (printed : Json → String)

/-- `resultTxRequestId` -/
def requestIdOf (input : ManagedJobResult) : String :=
  n.uuid ("ceo:job:result:" ++ input.attemptId ++ ":" ++ input.payloadSha256)

def managedTransaction (input : ManagedJobResult) (baseCommit : Commit) : TransactionInput :=
  { requestId := requestIdOf n input
    baseCommit := baseCommit
    allowEmpty := false
    operationResult := some input.payloadSha256 }

/-- `applyManagedJobResult` from the transaction on. -/
def commitManaged (input : ManagedJobResult) (baseCommit : Commit) : Prog ManagedCommit := do
  let txResult ← CeoWorkspace.withAtomicWorkspaceTransaction n.branch
    (managedTransaction n input baseCommit)
  match txResult.operationResult with
  | none =>
    throw (.refused "VALIDATION_FAILED"
      "CORRUPT_MANAGED_RESULT_TRANSACTION: recorded digest is missing.")
  | some recordedDigest =>
    if recordedDigest ≠ input.payloadSha256 then
      throw (.refused "VALIDATION_FAILED"
        "RESULT_CONFLICT: Existing transaction has different payload digest.")
    else return ⟨n.oid txResult.commit, !txResult.pushed⟩

/-- A run of `applyManagedJobResult`. It gives the lock back between the base and the transaction,
and anything can happen there. -/
inductive Delivers (input : ManagedJobResult) :
    Disk → Except Failure ManagedCommit → Disk → Prop where
  | invalid {d : Disk} {e : CeoError} (checked : checkManagedJobResult printed input = .error e) :
    Delivers input d (.error (.refused e.code e.message)) d
  | unready {d t : Disk} {f : Failure} (checked : checkManagedJobResult printed input = .ok ())
    (ready : Ends surroundings .any CeoWorkspace.readyBase.run d (.error f) t) :
    Delivers input d (.error f) t
  | committed {d s s' t : Disk} {baseCommit : Commit} {r : Except Failure ManagedCommit}
    (checked : checkManagedJobResult printed input = .ok ())
    (ready : Ends surroundings .any CeoWorkspace.readyBase.run d (.ok baseCommit) s)
    (later : Later n.branch s s')
    (tx : Ends surroundings .any (commitManaged n input baseCommit).run s' r t) :
    Delivers input d r t

/-- What the caller of `applyManagedJobResult` sees. -/
def Reported : Except Failure ManagedCommit → Except CeoError ManagedCommit → Prop
  | .ok tx, r => r = .ok tx
  | .error (.ceo code message), r | .error (.refused code message), r => r = .error ⟨code, message⟩
  | .error .raw, r => ∃ e, r = .error e

/-- The answers a method gets from the store `d` on: those of the resource service are runs of it. -/
def AnsweredFrom (d : Disk) : (e : Ask) → Ask.Answer e → Prop
  | .applyManagedJobResult input, r =>
    ∃ s res t, Later n.branch d s ∧ Delivers n printed input s res t ∧ Reported res r
  | .getJob _, _ | .getAttempt _, _ | .dateNow, _ | .recordJobResult _ _ _, _ | .reportJob _ _, _ =>
    True

end deliver

/-- What `submitJobResult` passes on. -/
def managedOf (q : SubmitRequest) : ManagedJobResult :=
  { jobId := q.jobId
    attemptId := q.attemptId
    resourceId := q.result.resourceId
    summary := q.result.summary
    operations := q.result.operations
    payloadSha256 := q.payloadSha256 }

/-! ### what an archived payload gives -/

variable {n : Names} {printed : Json → String} {input : ManagedJobResult}

theorem commitManaged_archived {base : Commit} {s t : Disk}
    (h : Ends surroundings .any (commitManaged n input base).run s
      (.error (.movedDuring n.branch)) t) : Archived (requestIdOf n input) t := by
  rcases ends_except.1 h with ⟨completed, u, -, h⟩ | ⟨e, htx, he⟩
  · split at h
    · cases (ends_done.1 h).1
    · split at h
      · cases (ends_done.1 h).1
      · cases (ends_done.1 h).1
  · obtain rfl := Except.error.inj he
    exact @CeoWorkspace.moved_archived _ _ _ (managedTransaction n input base) htx

theorem commitManaged_throws {base : Commit} {s t : Disk} {r : Except Failure ManagedCommit}
    (hs : Archived (requestIdOf n input) s)
    (h : Ends surroundings .any (commitManaged n input base).run s r t) :
    (∃ f, r = .error f) ∧ surroundings.Rely .any s t := by
  have throws {res : Except Failure CompletedTransaction} {u : Disk} :=
    @CeoWorkspace.archived_throws n.branch _ u (managedTransaction n input base) res hs
  rcases ends_except.1 h with ⟨completed, u, htx, -⟩ | ⟨e, htx, rfl⟩
  · obtain ⟨h | h, -⟩ := throws htx <;> cases h
  · exact ⟨⟨e, rfl⟩, (throws htx).2⟩

theorem Delivers.archived {d t : Disk}
    (h : Delivers n printed input d (.error (.movedDuring n.branch)) t) :
    Archived (requestIdOf n input) t := by
  cases h with
  | unready _ ready => cases CeoWorkspace.readyBase_quiet.not_stale ready
  | committed _ _ _ tx => exact commitManaged_archived tx

theorem Delivers.fails {d t : Disk} {r : Except Failure ManagedCommit}
    (hd : Archived (requestIdOf n input) d) (h : Delivers n printed input d r t) :
    ∃ f, r = .error f := by
  cases h with
  | invalid _ => exact ⟨_, rfl⟩
  | unready _ _ => exact ⟨_, rfl⟩
  | committed _ ready later tx =>
    have hs := (Safe.ends archived_keeps (CeoWorkspace.readyBase_spared d) hd ready).1
    exact (commitManaged_throws (Archived.later hs later) tx).1

/-! ### the submission -/

section submit

variable {h : Digests} {q : SubmitRequest} {ok : (e : Ask) → Ask.Answer e → Prop}
  {p : AttemptParams} {result : PersistedJobResult} {mode : DeliveryMode}

theorem applySubmitted_records
    (asks : (JobCoordinatorV2.applySubmitted h q).Asks ok (.recordJobResult p result mode)) :
    ∃ tx, ok (.applyManagedJobResult (managedOf q)) (.ok tx) := by
  cases asks with
  | @later _ _ _ r answered asks =>
    match r, answered, asks with
    | .error _, _, asks => cases asks
    | .ok tx, answered, _ => exact ⟨tx, answered⟩

theorem replyAt_asks {reply : Nat → MethodReply} {ms : Nat} {e : Ask} :
    ¬(JobCoordinatorV2.replyAt reply ms).Asks ok e := by
  intro asks
  unfold JobCoordinatorV2.replyAt at asks
  split at asks <;> cases asks

theorem submitFor_records {attempt : AttemptRecordV1}
    (asks : (JobCoordinatorV2.submitFor h q attempt).Asks ok (.recordJobResult p result mode)) :
    ∃ tx, ok (.applyManagedJobResult (managedOf q)) (.ok tx) := by
  unfold JobCoordinatorV2.submitFor at asks
  split at asks
  · cases asks
  split at asks
  · cases asks
  split at asks
  · cases asks
  split at asks
  · exact applySubmitted_records asks
  split at asks
  · cases asks with
    | later _ asks => exact absurd asks replyAt_asks
  split at asks
  · cases asks
  · exact applySubmitted_records asks

/-- A submission comes to record a result only when the resource service has applied it. -/
theorem submitJobResult_records
    (asks : (JobCoordinatorV2.submitJobResult h q).Asks ok (.recordJobResult p result mode)) :
    ∃ tx, ok (.applyManagedJobResult (managedOf q)) (.ok tx) := by
  unfold JobCoordinatorV2.submitJobResult at asks
  split at asks
  · cases asks
  split at asks
  · cases asks
  split at asks
  · cases asks
  split at asks
  · cases asks
  cases asks with
  | @later _ _ _ found _ asks =>
  match found, asks with
  | .error _, asks => cases asks
  | .ok none, asks => cases asks
  | .ok (some job), asks =>
  dsimp only at asks
  split at asks
  · cases asks
  split at asks
  · cases asks
  cases asks with
  | @later _ _ _ found _ asks =>
  match found, asks with
  | .error _, asks => cases asks
  | .ok none, asks => cases asks
  | .ok (some attempt), asks => exact submitFor_records asks

end submit

/-! ### the retry -/

/-- From `d` on there is a run in which the payload of the submission is applied. -/
def Applies (n : Names) (printed : Json → String) (q : SubmitRequest) (d : Disk) : Prop :=
  ∃ s tx t, Later n.branch d s ∧ Delivers n printed (managedOf q) s (.ok tx) t

/-- From `d` on the submission can come to record its result. -/
def Records (n : Names) (printed : Json → String) (h : Digests) (q : SubmitRequest) (d : Disk) :
    Prop :=
  ∃ p result mode, (JobCoordinatorV2.submitJobResult h q).Asks (AnsweredFrom n printed d)
    (.recordJobResult p result mode)

section retry

variable {q : SubmitRequest} {d : Disk} (archived : Archived (requestIdOf n (managedOf q)) d)
include archived

theorem not_applies_of_archived : ¬Applies n printed q d := by
  rintro ⟨s, tx, t, later, delivers⟩
  obtain ⟨f, hf⟩ := delivers.fails (archived.later later)
  cases hf

theorem not_records_of_archived (h : Digests) : ¬Records n printed h q d := by
  rintro ⟨p, result, mode, asks⟩
  obtain ⟨tx, s, res, t, later, delivers, reported⟩ := submitJobResult_records asks
  obtain ⟨f, rfl⟩ := delivers.fails (archived.later later)
  match f, reported with
  | .ceo _ _, reported | .refused _ _, reported => cases reported
  | .raw, ⟨_, reported⟩ => cases reported

end retry

/-- **A payload whose transaction was overtaken is never applied and never recorded**: whatever
happens after, each delivery of it throws, and its transaction leaves the workspace as it is. -/
theorem overtaken_never_retried (h : Digests) {d t u : Disk} {q : SubmitRequest}
    (overtaken : Delivers n printed input d (.error (.movedDuring n.branch)) t)
    (later : Later n.branch t u)
    (same : q.attemptId = input.attemptId ∧ q.payloadSha256 = input.payloadSha256) :
    ¬Applies n printed q u ∧ ¬Records n printed h q u ∧
      ∀ base s r v, Later n.branch u s →
        Ends surroundings .any (commitManaged n (managedOf q) base).run s r v →
          surroundings.Rely .any s v := by
  have hid : requestIdOf n (managedOf q) = requestIdOf n input := by
    rw [requestIdOf, managedOf, same.1, same.2, requestIdOf]
  have archived : Archived (requestIdOf n (managedOf q)) u :=
    hid ▸ overtaken.archived.later later
  exact ⟨not_applies_of_archived archived, not_records_of_archived archived h,
    fun base s r v hs tx => (commitManaged_throws (archived.later hs) tx).2⟩

/-! ### a payload that is lost -/

def sampleNames : Names := ⟨id, fun _ => "c", "main"⟩

def sampleRoot : Commit := .root (.theirs 0)

def sampleDisk : Disk :=
  { remote := sampleRoot
    origin := sampleRoot
    head := sampleRoot
    pending := none
    completed := fun _ => none
    made := 0
    published := [sampleRoot] }

def sampleSubmit : SubmitRequest :=
  { deviceId := "dev_00000000-0000-4000-8000-000000000003"
    jobId := "job-00000000-0000-4000-8000-000000000001"
    attemptId := "att-00000000-0000-4000-8000-000000000005"
    claimToken := "t"
    result :=
      { schemaVersion := 1
        jobId := "job-00000000-0000-4000-8000-000000000001"
        attemptId := "att-00000000-0000-4000-8000-000000000005"
        resourceId := "res-00000000-0000-4000-8000-00000000000c"
        summary := "s"
        operations := [[("op", .str "upsert_content"), ("content", .str "c")]] }
    payloadSha256 := "0000000000000000000000000000000000000000000000000000000000000000"
    deliveryMode := .automatic }

/-- The commands up to the base, on a clean workspace. -/
def readyChoices : List (List Commit × Fate) :=
  [([], .ok), ([], .dirty false), ([], .ok), ([], .ok), ([], .ok), ([], .ok)]

/-- The commands up to the commit: the record is not there, and nothing is pending. -/
def preparedChoices : List (List Commit × Fate) :=
  [([], .ok), ([], .ok), ([], .ok), ([], .dirty false), ([], .ok), ([], .ok), ([], .ok), ([], .ok),
    ([], .ok), ([], .ok)]

/-- Somebody pushes before the commit is pushed: it is archived, and the branch followed. -/
def overtakenChoices : List (List Commit × Fate) :=
  preparedChoices ++ [([.child (.theirs 1) sampleRoot], .ok), ([], .ok), ([], .ok), ([], .ok),
    ([], .ok), ([], .dirty false), ([], .ok), ([], .ok), ([], .ok), ([], .ok)]

/-- Nobody pushes: the commit is, and the transaction finalized. -/
def pushedChoices : List (List Commit × Fate) :=
  preparedChoices ++ [([], .ok), ([], .ok), ([], .ok), ([], .ok), ([], .ok), ([], .dirty false),
    ([], .ok), ([], .ok), ([], .ok), ([], .ok)]

theorem sample_ready :
    Ends surroundings .any CeoWorkspace.readyBase.run sampleDisk (.ok sampleRoot) sampleDisk :=
  @Program.ends_of_runWith _ _ _ _ _ _ _ _ _ readyChoices _ _ rfl

theorem sampleSubmit_checked (printed : Json → String) :
    checkManagedJobResult printed (managedOf sampleSubmit) = .ok () := by
  refine (checkManagedJobResult_ok_iff printed _).2
    ⟨by decide, by decide, by decide +kernel, by decide +kernel, List.cons_ne_nil _ _, by decide +kernel,
      fun op hop => ?_⟩
  rw [List.mem_singleton.1 hop]
  exact .inl ⟨rfl, ⟨_, rfl⟩, .inl rfl⟩

def sampleTx : Prog ManagedCommit := commitManaged sampleNames (managedOf sampleSubmit) sampleRoot

def isMoved : Except Failure ManagedCommit → Bool
  | .error f => f == .movedDuring "main"
  | .ok _ => false

theorem sample_overtaken (printed : Json → String) :
    ∃ t, Delivers sampleNames printed (managedOf sampleSubmit) sampleDisk
      (.error (.movedDuring sampleNames.branch)) t := by
  obtain ⟨r, t, run, hr⟩ := @Program.exists_ends_of_runWith _ _ _ _ _ _ surroundings sampleTx.run
    sampleDisk overtakenChoices isMoved (by decide +kernel)
  match r, hr, run with
  | .error f, hr, run =>
    obtain rfl := eq_of_beq hr
    exact ⟨t, .committed (sampleSubmit_checked printed) sample_ready .refl run⟩

-- The same payload is applied when nobody pushes.
example : ∃ tx t, Delivers sampleNames (fun _ => "") (managedOf sampleSubmit) sampleDisk (.ok tx) t := by
  obtain ⟨r, t, run, hr⟩ := @Program.exists_ends_of_runWith _ _ _ _ _ _ surroundings sampleTx.run
    sampleDisk pushedChoices Except.isOk (by decide +kernel)
  match r, hr, run with
  | .ok tx, _, run => exact ⟨tx, t, .committed (sampleSubmit_checked _) sample_ready .refl run⟩

def sampleDigests : Digests := ⟨id, fun _ => sampleSubmit.payloadSha256⟩

/-- An overtaken delivery whose payload no later submission applies or records. -/
theorem overtaken_lost :
    ∃ t, Delivers sampleNames (fun _ => "") (managedOf sampleSubmit) sampleDisk
        (.error (.movedDuring sampleNames.branch)) t ∧
      ¬Applies sampleNames (fun _ => "") sampleSubmit t ∧
      ¬Records sampleNames (fun _ => "") sampleDigests sampleSubmit t := by
  obtain ⟨t, overtaken⟩ := sample_overtaken fun _ => ""
  exact ⟨t, overtaken, not_applies_of_archived overtaken.archived,
    not_records_of_archived overtaken.archived sampleDigests⟩

theorem overtaken_never_retried_sample :
    ∃ t, Delivers sampleNames (fun _ => "") (managedOf sampleSubmit) sampleDisk
        (.error (.movedDuring sampleNames.branch)) t ∧
      ¬Applies sampleNames (fun _ => "") sampleSubmit t ∧
      ¬Records sampleNames (fun _ => "") sampleDigests sampleSubmit t := by
  obtain ⟨t, overtaken⟩ := sample_overtaken fun _ => ""
  obtain ⟨applies, records, -⟩ :=
    overtaken_never_retried sampleDigests overtaken .refl (q := sampleSubmit) ⟨rfl, rfl⟩
  exact ⟨t, overtaken, applies, records⟩

end Ceo.Resource
