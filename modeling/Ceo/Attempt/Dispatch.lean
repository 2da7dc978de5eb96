import Ceo.Attempt.Chronicle

/-!
# Sends of the prompt

The prompt of an attempt is sent at most twice, each time by a pass that was
told by the adapter that it had not been sent, after the send was counted in
the file, and never again once the file has an ambiguous outcome.
-/

namespace Ceo.Attempt

open Ceo.Lib Ceo.Jobs
open Ceo.Connector (Phase)

def Entry.isSend (x : String) : Entry → Bool
  | .call (.dispatch a _) _ => a.attemptId == x
  | _ => false

/-- How often the prompt of the attempt was sent. -/
def sends (x : String) (log : List Entry) : Nat := log.countP (Entry.isSend x)

/-- The phases an attempt is in until its prompt is sent. -/
def beforeSend : Phase → Bool
  | .claimIntent | .claimed | .prepareIntent | .prepared | .dispatchIntent => true
  | _ => false

namespace ActiveAttempt

def sendCount (a : ActiveAttempt) : Nat := a.exec.dispatchSendCount

def isAmbiguous (a : ActiveAttempt) : Bool := a.exec.lastDispatchOutcome == some "ambiguous"

theorem sendCount_eq (a : ActiveAttempt) :
    a.sendCount = (a.executor.map (·.dispatchSendCount)).getD 0 := (sendCount_exec a).symm

theorem isAmbiguous_eq_false {a : ActiveAttempt} :
    a.isAmbiguous = false ↔ a.executor.bind (·.lastDispatchOutcome) ≠ some "ambiguous" := by
  rw [lastOutcome_exec]
  simp [isAmbiguous]

end ActiveAttempt

section

variable {dev : Device} {P : Policy World Call Reply Project} {Init : World → Prop}
  {w : World} {c a : ActiveAttempt}

/-- The count of sends never goes back. -/
theorem Edit.sendCount (h : Edit dev w c a) : c.sendCount ≤ a.sendCount := by
  refine h.elim (p := fun x _ => c.sendCount ≤ x.dispatchSendCount) fun x ph hx => ?_
  cases hx with
  | count hp baseline hn => exact Nat.le_succ _
  | running hp captured now =>
    unfold recoverRunning
    split_ifs <;> exact le_rfl
  | _ => exact le_rfl

/-- An attempt whose prompt was sent never comes back to the phases before. -/
theorem Edit.beforeSend_eq_false (h : Edit dev w c a) (hc : beforeSend c.phase = false) :
    beforeSend a.phase = false := by
  cases h
  case advance ph hA => cases hA <;> simp_all [beforeSend, ActiveAttempt.inPhase]
  case working | seen => exact hc
  all_goals simp_all [beforeSend, ActiveAttempt.inPhase, ActiveAttempt.finalized]

/-- An ambiguous outcome stays on record until the adapter has settled the matter. -/
theorem Edit.isAmbiguous (h : Edit dev w c a) (hc : c.isAmbiguous = true) :
    a.isAmbiguous = true ∨ beforeSend a.phase = false := by
  have hc' : c.exec.lastDispatchOutcome = some "ambiguous" := by
    simpa [ActiveAttempt.isAmbiguous] using hc
  refine h.elim (p := fun x ph => (x.lastDispatchOutcome == some "ambiguous") = true ∨
    beforeSend ph = false) fun x ph hx => ?_
  cases hx with
  | accept | reconcile => exact .inr rfl
  | outcome hp o ho => exact absurd hc' ho
  | running hp captured now => exact .inr rfl
  | _ => exact .inl hc

/-! ### what the log has of an attempt -/

/-- What came before the record: no more sends than it counts, and no ambiguous outcome that it
does not show, unless its prompt is out. -/
structure Accounted (log : List Entry) (c : ActiveAttempt) : Prop where
  count : sends c.attemptId log ≤ c.sendCount
  doubt : ∀ b, OnRecord log b → b.attemptId = c.attemptId → b.isAmbiguous = true →
    c.isAmbiguous = true ∨ beforeSend c.phase = false

theorem sends_cons (x : String) (e : Entry) (log : List Entry) :
    sends x (e :: log) = sends x log + if Entry.isSend x e then 1 else 0 := by
  unfold sends
  rw [List.countP_cons]

theorem sends_append (x : String) (l log : List Entry) :
    sends x (l ++ log) = sends x l + sends x log := List.countP_append

theorem sends_sendingPass (x : String) (a : ActiveAttempt) (tid : String)
    (target : Option LocalTarget) (baseline : Except String (Option Int)) :
    sends x (sendingPass a tid target baseline) = 0 := by
  simp [sends, sendingPass, Entry.isSend]

/-- The sends before the pass are no more than the pass has found on record. -/
theorem sends_le_of_ready {tid : String} {target : Option LocalTarget}
    {baseline : Except String (Option Int)} {rest : List Entry}
    (h : SendReady dev w a tid target baseline rest) (hc : Chronicle dev Accounted w) :
    sends a.attemptId w.log ≤ a.sendCount := by
  have hl : w.log = (sendingPass a tid target baseline).dropLast ++
      .call .loadActive (some (.ok (some a))) :: rest := h.log
  have := (hc.loads _ a rest hl).count
  rw [h.log, sends_append, sends_sendingPass]
  omega

theorem sends_eq_zero {x : String} (ht : Traced w) (hx : x ∉ w.used) : sends x w.log = 0 := by
  unfold sends
  rw [List.countP_eq_zero]
  intro e he hs
  refine hx (ht e he x ?_)
  unfold Entry.isSend at hs
  split at hs
  · exact .dispatch _ _ _ (by simpa using hs)
  · cases hs

theorem sendCount_counted {exec : AttemptExecutorState} (h : a.executor = some exec)
    (baseline : Option Int) : (a.mapExecutor (·.countSend baseline)).sendCount = a.sendCount + 1 := by
  simp [ActiveAttempt.sendCount, ActiveAttempt.exec, ActiveAttempt.mapExecutor, h,
    AttemptExecutorState.countSend]

theorem chronicled_accounted : Chronicled dev P Init (fun _ => True) Accounted where
  init w c _ _ := ⟨Nat.zero_le _, fun b h => by rcases h with h | h <;> cases h⟩
  stop log c h := by
    refine ⟨?_, fun b hb => ?_⟩
    · rw [sends_cons]
      exact h.count
    · refine h.doubt b ?_
      rcases hb.of_cons with hb | hb | hb
      · exact hb
      · cases hb
      · cases hb
  call w e r c _ hI hn ha hc hne := by
    have hR := hI.file c hc
    refine ⟨?_, fun b hb hid hamb => ?_⟩
    · rw [sends_cons]
      split_ifs with hs
      · cases e <;> try cases hs
        case dispatch a tid =>
        obtain ⟨target, baseline, rest, hr⟩ := hn.demand
        obtain rfl := hr.sound.of_holds hc
        have := sends_le_of_ready hr hI
        cases hx : a.executor with
        | none =>
          have := hr.terminal
          simp [hx] at this
        | some exec =>
          rw [sendCount_counted hx]
          show sends a.attemptId w.log + 1 ≤ _
          omega
      · exact hR.count
    · rcases hb.of_cons with hb | hb | hb
      · exact hR.doubt b hb hid hamb
      · exact absurd hb (hne b)
      · cases hb
        obtain ⟨x, -, hx⟩ := ha
        rw [hc.unique (answer_loadActive hx)] at hamb
        exact .inl hamb
  edit w c a r _ hI hn ha hc hr he := by
    have hR := hI.file c hc
    have hid := he.identity.1
    refine ⟨?_, fun b hb hb' hamb => ?_⟩
    · rw [sends_cons, hid]
      exact le_trans hR.count he.sendCount
    · rcases hb.of_cons with hb | hb | hb
      · rcases hR.doubt b hb (hb'.trans hid) hamb with h | h
        · exact he.isAmbiguous h
        · exact .inr (he.beforeSend_eq_false h)
      · cases hb
        exact .inl hamb
      · cases hb
  fresh w a r _ ht hf hu := by
    have hx : a.executor = none := by
      have : a = freshIntent dev a.jobId a.workspaceId a.targetId a.attemptId a.claimToken
        a.frozenAgentId := by simpa [isFreshIntent] using hf
      rw [this]
      rfl
    refine ⟨?_, fun b hb hb' hamb => ?_⟩
    · rw [sends_cons, sends_eq_zero ht hu]
      exact Nat.zero_le _
    · rcases hb.of_cons with hb | hb | hb
      · exact absurd (hb' ▸ hb.used ht) hu
      · cases hb
        simp [ActiveAttempt.isAmbiguous, ActiveAttempt.exec, hx, AttemptExecutorState.newOrca] at hamb
      · cases hb

/-- What is owed before the prompt of `a` is sent. -/
structure Justified (a : ActiveAttempt) (tid : String) (before : List Entry) : Prop where
  /-- The same pass read that the target is not logical, was told that the prompt had not been
  sent, and has the send counted on disk. -/
  pass : ∃ target baseline rest, before = sendingPass a tid target baseline ++ rest ∧
    isLogicalAgent target = false ∧
    (a.mapExecutor (·.countSend (baseline.toOption.getD none))).sendCount = a.sendCount + 1
  clear : ∀ b, OnRecord before b → b.attemptId = a.attemptId → b.isAmbiguous = false

theorem SendReady.justified {tid : String} {target : Option LocalTarget}
    {baseline : Except String (Option Int)} {rest : List Entry}
    (h : SendReady dev w a tid target baseline rest) (hc : Chronicle dev Accounted w) :
    Justified a tid w.log := by
  have hl : w.log = (sendingPass a tid target baseline).dropLast ++
      .call .loadActive (some (.ok (some a))) :: rest := h.log
  have hacc := hc.loads _ a rest hl
  have ha : a.isAmbiguous = false := ActiveAttempt.isAmbiguous_eq_false.2 h.clear
  obtain ⟨exec, hx⟩ : ∃ exec, a.executor = some exec := by
    cases hx : a.executor with
    | none =>
      have := h.terminal
      simp [hx] at this
    | some exec => exact ⟨exec, rfl⟩
  refine ⟨⟨target, baseline, rest, h.log, h.worker, sendCount_counted hx _⟩, fun b hb hid => ?_⟩
  have hcount : (a.mapExecutor (·.countSend (baseline.toOption.getD none))).isAmbiguous = false := by
    unfold ActiveAttempt.isAmbiguous ActiveAttempt.exec at ha ⊢
    simp only [ActiveAttempt.mapExecutor, hx] at ha ⊢
    exact ha
  have hcase : OnRecord rest b ∨ b = a ∨
      b = a.mapExecutor (·.countSend (baseline.toOption.getD none)) := by
    rw [h.log] at hb
    rcases hb with hb | hb <;> rcases List.mem_append.1 hb with hb | hb
    · simp only [sendingPass, List.mem_cons, List.not_mem_nil, or_false] at hb
      rcases hb with hb | hb | hb | hb | hb | hb | hb | hb <;> cases hb
      exact .inr (.inr rfl)
    · exact .inl (.inl hb)
    · simp only [sendingPass, List.mem_cons, List.not_mem_nil, or_false] at hb
      rcases hb with hb | hb | hb | hb | hb | hb | hb | hb <;> cases hb
      · exact .inr (.inl rfl)
      · exact .inr (.inl rfl)
    · exact .inl (.inr hb)
  rcases hcase with hb | rfl | rfl
  · by_contra hamb
    rcases hacc.doubt b hb hid (by simpa using hamb) with h1 | h1
    · rw [ha] at h1
      cases h1
    · rw [h.phase] at h1
      cases h1
  · exact ha
  · exact hcount

/-- Every send so far was justified, and there were at most two for an attempt. -/
structure SendsJustified (log : List Entry) : Prop where
  twice : ∀ x, sends x log ≤ 2
  justified : ∀ pre a tid r before, log = pre ++ .call (.dispatch a tid) r :: before →
    Justified a tid before

theorem SendsJustified.cons {e : Entry} {log : List Entry} (h : SendsJustified log)
    (he : ∀ x, Entry.isSend x e = true → sends x log < 2)
    (hj : ∀ a tid r, e = .call (.dispatch a tid) r → Justified a tid log) :
    SendsJustified (e :: log) := by
  refine ⟨fun x => ?_, fun pre a tid r before hl => ?_⟩
  · rw [sends_cons]
    split_ifs with hs
    · have := he x hs
      omega
    · exact h.twice x
  · rcases split_cons hl with ⟨rfl, rfl⟩ | ⟨pre, hl⟩
    · exact hj a tid r rfl
    · exact h.justified pre a tid r before hl

theorem sendsJustified_invariant (hstart : Starts Init) :
    Invariant dev P Init fun w => Chronicle dev Accounted w ∧ SendsJustified w.log := by
  refine log_invariant hstart (chronicle_invariant hstart chronicled_accounted)
    ⟨fun _ => Nat.zero_le _, fun pre a tid r before hl => by cases pre <;> cases hl⟩
    (fun log h => h.cons (fun x hx => by cases hx) fun a tid r hx => by cases hx) ?_
  intro w e r hc hn hallowed h
  refine h.cons (fun x hx => ?_) fun a tid r' hx => ?_
  · cases e <;> try cases hx
    case dispatch a tid =>
    obtain ⟨target, baseline, rest, hr⟩ := hn.demand
    obtain rfl : a.attemptId = x := by simpa [Entry.isSend] using hx
    exact lt_of_le_of_lt (sends_le_of_ready hr hc) (a.sendCount_eq ▸ hr.budget)
  · cases hx
    obtain ⟨target, baseline, rest, hr⟩ := hn.demand
    exact hr.justified hc

/-- **The prompt is sent at most twice**, and each time with every reason to. -/
theorem dispatch_bounded (hstart : Starts Init)
    {s : Machine.State World Call Answer Out} (hs : (daemon dev Init).system.Reachable s) :
    SendsJustified s.store.log :=
  (daemon_inv hstart (sendsJustified_invariant hstart) (Machine.reachable_any hs)).1.2

end

/-! ### a device for concrete runs -/

def hexDigit (n : Nat) : Char := "0123456789abcdef".toList.getD (n % 16) '0'

theorem hex_hexDigit (n : Nat) : Pattern.hex (hexDigit n) = true := by
  have h : ∀ m < 16, Pattern.hex ("0123456789abcdef".toList.getD m '0') = true := by decide
  exact h _ (Nat.mod_lt _ (by omega))

/-- A digest of 64 hex digits that stands for SHA-256. -/
def digest (s : String) : String :=
  let n := s.toList.foldl (fun h c => (h * 65599 + c.toNat) % 2 ^ 256) 7
  String.ofList ((List.range 64).map fun i => hexDigit (n / 16 ^ i))

theorem digest_hex (s : String) : isSha256Hex (digest s) = true := by
  unfold isSha256Hex digest
  have h := @Pattern.test_rep Pattern.hex ((List.range 64).map fun i => hexDigit
    ((s.toList.foldl (fun h c => (h * 65599 + c.toNat) % 2 ^ 256) 7) / 16 ^ i)) fun c hc => by
      obtain ⟨i, -, rfl⟩ := List.mem_map.1 hc
      exact hex_hexDigit _
  simpa using h

def joined (parts : List String) : String := String.intercalate "/" parts

def shown {α : Type} [ToString α] : Option α → String
  | none => "null"
  | some a => toString a

def Device.sample : Device where
  sha256 := digest
  sha256_hex := digest_hex
  payloadJson p := p.prompt
  normalizeServerOrigin := .ok
  parseUuid s := s != ""
  parseTimestampStrict s := if s = "" then .error "invalid timestamp" else .ok 1000
  serverOrigin := "https://ceo.test"
  deviceId := "device-1"
  reportJson r := joined [toString r.finishedAtMs, toString r.durationMs, r.receiptSha256]
  receiptJson r := joined [r.jobId, r.attemptId, r.orcaVersion, shown r.terminalId,
    shown r.dispatchRequestId, shown r.runtimeCompletionKind, shown r.runtimeCompletedAtMs,
    shown r.terminalClosedAtMs]

/-! ### concrete runs -/

abbrev Step := Machine.Label Reply Project

namespace Sample

def attemptId : String := "att-01234567-89ab-cdef-0123-456789abcdef"

def intent : ActiveAttempt :=
  freshIntent .sample "job-1" "workspace-1" "target-1" attemptId (digest "token") none

def job (resultTarget : String) : ClaimedJobWire where
  jobId := "job-1"
  workspaceId := "workspace-1"
  targetId := "target-1"
  resourceId := if resultTarget = "resource" then some "resource-1" else none
  prompt := "prompt"
  acceptance := "acceptance"
  timeoutSeconds := 600
  resultTarget := resultTarget

/-- A target whose worker is started with a command. -/
def target : LocalTarget := ⟨"/work", some ⟨"codex", some "codex"⟩⟩

/-- A target that is left to its logical agent. -/
def logicalTarget : LocalTarget := ⟨"/work", some ⟨"codex", none⟩⟩

def identity : PreparedExecutionIdentity := ⟨"1.0", "worktree-1", "terminal-1", "codex"⟩

/-- The attempt as a claim leaves it. -/
def claimed (resultTarget : String) : ActiveAttempt :=
  (intent.claimed .sample (job resultTarget) 1000).inPhase .claimed

/-- The attempt as a pass leaves it that has a terminal for it. -/
def prepared (resultTarget : String) : ActiveAttempt :=
  (claimed resultTarget).ready ⟨identity, some 1900, none⟩

/-- A state directory with nothing but the attempt. -/
def directory (a : ActiveAttempt) : World := ⟨some a, [], [], false, [a.attemptId], []⟩

/-- That many calls that work. -/
def oks (n : Nat) : List Step := List.replicate n (.reply .ok)

/-- The daemon is started and comes to its first pass. -/
def start : List Step := .boot :: oks 2

/-- The daemon is started with nothing to do, finds a job and has its claim intent on disk. -/
def found : List Step :=
  .boot :: oks 2 ++ .resume :: oks 2 ++ .reply (.candidate (some intent)) :: oks 4

/-- From one pass to the next. -/
def again : List Step := .resume :: oks 2

/-- From the first pass to the next; the outbox is empty. -/
def flushed : List Step := .resume :: oks 1 ++ again

def intend : List Step := .reply (.config (.ok (some target))) :: .reply (.time 3000) :: oks 4

/-- The pass is told that the prompt has not been sent, and sends it. -/
def send (baseline : Except String (Option Int)) (outcome : DispatchOutcome) : List Step :=
  .reply (.config (.ok (some target))) :: .reply (.reconcile (.ok .definitelyNotDispatched)) ::
    oks 2 ++ .reply (.baseline baseline) :: oks 2 ++ .reply (.dispatch (.ok outcome)) :: oks 4

/-- The runs of the device from a state directory. -/
def run (w : World) (steps : List Step) : Option (Machine.State World Call Answer Out) :=
  steps.foldlM (daemon .sample (· = w)).next ⟨w, none⟩

theorem starts_empty : Starts (· = World.empty) := by
  rintro w rfl
  exact ⟨fun a ha => (by cases ha), rfl⟩

theorem starts_directory (a : ActiveAttempt) : Starts (· = directory a) := by
  rintro w rfl
  exact ⟨fun b hb => (by cases hb; exact .head _), rfl⟩

theorem reachable (w : World) (steps : List Step) (check : World → Bool)
    (h : (run w steps).any (fun s => check s.store) = true) :
    ∃ s, (daemon .sample (· = w)).system.Reachable s ∧ check s.store = true := by
  cases hr : run w steps with
  | none => simp [hr] at h
  | some s =>
    rw [hr] at h
    exact ⟨s, ⟨⟨w, none⟩, steps, ⟨rfl, rfl⟩, LTS.run_ofOption _ hr⟩, h⟩

section

variable (P : Policy World Call Reply Project) [∀ s e x, Decidable (P.reply s e x)]
  [∀ s e, Decidable (P.lose s e)] [∀ s, Decidable (P.crash s)] [∀ s x, Decidable (P.surround s x)]

/-- The runs that keep to a policy. -/
def runUnder (w : World) (steps : List Step) : Option (Machine.State World Call Answer Out) :=
  steps.foldlM (fun s a =>
    if Machine.allows P s a then (daemon .sample (· = w)).next s a else none) ⟨w, none⟩

theorem reachable_under (w : World) (steps : List Step) (check : World → Bool)
    (h : (runUnder P w steps).any (fun s => check s.store) = true) :
    ∃ s, ((daemon .sample (· = w)).under P).Reachable s ∧ check s.store = true := by
  cases hr : runUnder P w steps with
  | none => simp [hr] at h
  | some s =>
    rw [hr] at h
    exact ⟨s, ⟨⟨w, none⟩, steps, ⟨rfl, rfl⟩, LTS.run_guard_ofOption _ hr⟩, h⟩

end

end Sample

set_option maxRecDepth 10000 in
/-- The bound for a run in which the prompt is sent. -/
theorem dispatch_bounded_sample :
    ∃ s, (daemon .sample (· = Sample.directory (Sample.prepared "result"))).system.Reachable s ∧
      sends Sample.attemptId s.store.log = 1 ∧ SendsJustified s.store.log := by
  obtain ⟨s, hs, hc⟩ := Sample.reachable (Sample.directory (Sample.prepared "result"))
    (Sample.start ++ Sample.intend ++ Sample.flushed ++
      Sample.send (.ok none) (.accepted "request-1" 4000 false))
    (fun w => decide (sends Sample.attemptId w.log = 1)) (by decide +kernel)
  exact ⟨s, hs, of_decide_eq_true hc, dispatch_bounded (Sample.starts_directory _) hs⟩

end Ceo.Attempt
