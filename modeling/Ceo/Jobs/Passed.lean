import Ceo.Jobs.Linkage
import Ceo.Jobs.Service

/-!
# Stores under the coordinator's calls

What holds of every stored attempt when each call has arguments the
coordinator can pass: the formats the claim was checked for.
-/

namespace Ceo.Jobs

open Ceo.Lib Function

/-- The store under calls the coordinator makes. -/
def coordinated : LTS Redis (Nat × Call) := scripts.guard fun _ a => a.2.Passed

theorem scripts_of_coordinated {r r' : Redis} {l : List (Nat × Call)}
    (h : coordinated.Run r l r') : scripts.Run r l r' := h.of_guard

structure AttemptRecordV1.IdsOk (att : AttemptRecordV1) : Prop where
  version : att.schemaVersion = 1
  attemptId : attemptIdV2Re att.attemptId
  device : deviceIdV2Re att.deviceId
  binding : targetBindingIdV2Re att.targetBindingId
  token : hex64Re att.claimTokenSha256

def IdsOk (r : Redis) : Prop := ∀ id att, r.attempts id = some att → att.IdsOk

namespace IdsOk

variable {r r' : Redis}

theorem empty : IdsOk Redis.empty := by
  intro id att h
  simp [Redis.empty] at h

theorem write (I : IdsOk r) {k : String} {a : AttemptRecordV1}
    (attempts : r'.attempts = update r.attempts k (some (Cjson.encodeAttempt a))) (ha : a.IdsOk) :
    IdsOk r' := by
  intro id att h
  rw [attempts, update_eq_some] at h
  rcases h with ⟨-, rfl⟩ | ⟨-, h⟩
  · obtain ⟨h1, h2, h3, h4, h5⟩ := ha
    refine ⟨?_, h2, h3, h4, h5⟩
    show Cjson.num a.schemaVersion = 1
    rw [h1, Cjson.num_of_lt (by decide)]
  · exact I id att h

theorem step (I : IdsOk r) {now : Nat} {c : Call} (e : Effect now r r' c) (passed : c.Passed) :
    IdsOk r' := by
  cases e with
  | frame _ attempts => exact fun id att h => I id att (attempts ▸ h)
  | created _ _ _ _ attempts => exact fun id att h => I id att (attempts ▸ h)
  | cancelledQueued _ _ _ _ attempts => exact fun id att h => I id att (attempts ▸ h)
  | claimed job job_at jobId workspace target isNew queued live fresh unfenced jobs attempts =>
    obtain ⟨hatt, hdev, htok, hbind⟩ := passed
    have hb := hbind.resolve_left (by simp [isNew])
    exact I.write attempts ⟨rfl, hatt, hdev, hb, htok⟩
  | started job att owns _ _ _ _ attempts =>
    obtain ⟨h1, h2, h3, h4, h5⟩ := I _ _ owns.attempt_at
    exact I.write attempts ⟨h1, h2, h3, h4, h5⟩
  | reported job att owns _ _ _ _ attempts =>
    obtain ⟨h1, h2, h3, h4, h5⟩ := I _ _ owns.attempt_at
    exact I.write attempts ⟨h1, h2, h3, h4, h5⟩
  | cancelledActive job att _ _ attempt_at _ _ _ _ _ attempts =>
    obtain ⟨h1, h2, h3, h4, h5⟩ := I _ _ attempt_at
    exact I.write attempts ⟨h1, h2, h3, h4, h5⟩
  | recorded job att owns _ attempts =>
    obtain ⟨h1, h2, h3, h4, h5⟩ := I _ _ owns.attempt_at
    exact I.write attempts ⟨h1, h2, h3, h4, h5⟩

theorem coordinated_step {a : Nat × Call} (I : IdsOk r) (h : coordinated.Step r a r') :
    IdsOk r' := by
  obtain ⟨passed, hs⟩ := h
  obtain rfl : r' = exec a.1 r a.2 := hs
  exact I.step (exec_effect _ _ _) passed

theorem run {l : List (Nat × Call)} (I : IdsOk r) (h : coordinated.Run r l r') : IdsOk r' :=
  h.inv coordinated_step I

/-- No attempt is stored under the key that stands in for a missing one. -/
theorem none_free (I : IdsOk r) (L : Linkage r) : r.attempts "none" = none := by
  cases h : r.attempts "none" with
  | none => rfl
  | some att =>
    have hid := (I _ _ h).attemptId
    rw [L.attempt_key h] at hid
    exact absurd hid (by decide)

/-- The shape checks of start and report pass on every stored attempt. -/
theorem shapeOk (I : IdsOk r) (L : Linkage r) {id : String} {att : AttemptRecordV1}
    (h : r.attempts id = some att) : attemptShapeOk att = true := by
  obtain ⟨h1, -, -, h4, h5⟩ := I _ _ h
  have hne : att.targetBindingId ≠ "" := by
    intro he
    rw [he] at h4
    exact absurd h4 (by decide)
  have hlen := utf8ByteLength_of_hex64Re h5
  have hst := L.staged h
  unfold AttemptRecordV1.Staged at hst
  unfold attemptShapeOk
  cases hp : att.phase <;> simp_all [Option.isSome_iff_ne_none]

end IdsOk

theorem idsOk_reachable {r : Redis} (h : coordinated.Reachable r) : IdsOk r := by
  refine h.inv ?_ IdsOk.coordinated_step
  rintro _ rfl
  exact IdsOk.empty

theorem coordinated_foldl {calls : List (Nat × Call)} (h : ∀ a ∈ calls, a.2.Passed) (r : Redis) :
    coordinated.Run r calls (calls.foldl (fun r a => exec a.1 r a.2) r) := by
  induction calls generalizing r with
  | nil => exact .nil r
  | cons a calls ih =>
    exact .cons ⟨h a (by simp), rfl⟩ (ih (fun b hb => h b (by simp [hb])) _)

theorem coordinated_replay {calls : List (Nat × Call)} (h : ∀ a ∈ calls, a.2.Passed) :
    coordinated.Reachable (replay calls) :=
  ⟨Redis.empty, calls, rfl, coordinated_foldl h Redis.empty⟩

theorem coordinated_append (calls : List (Nat × Call)) {more : List (Nat × Call)}
    (h : ∀ a ∈ more, a.2.Passed) : coordinated.Run (replay calls) more (replay (calls ++ more)) := by
  unfold replay
  rw [List.foldl_append]
  exact coordinated_foldl h _

theorem claimedCalls_passed : ∀ a ∈ claimedCalls, a.2.Passed := by
  intro a ha
  simp only [claimedCalls, List.mem_cons, List.not_mem_nil, or_false] at ha
  rcases ha with rfl | rfl
  · exact ⟨⟨sampleJob.userId, sampleJob.workspaceId⟩,
      ⟨sampleJob.requestId, sampleJob.targetId, sampleJob.prompt, sampleJob.acceptance, none, 60,
        .none⟩, sampleJob.jobId, sampleJob.requestDigest, 1000, by decide, rfl, rfl⟩
  · exact ⟨by decide, by decide, by decide, .inr (by decide)⟩

end Ceo.Jobs
