import Ceo.Attempt.Dispatch
import Ceo.Attempt.ManagedResult

/-!
# The preserved copy of a managed result

`durable_capture_managed_result` and `read_and_validate_from_file`
(`managed_result.rs`), the outbox record that carries the result
(`outbox.rs`), and the capture at the deadline with its read-back
(`daemon.rs`). The copy is written in the layout of `to_vec_pretty`.
-/

namespace Ceo.Attempt.Preserved

open Ceo.Lib Ceo.Jobs

/-! ### the pretty layout -/

def indent (depth : Nat) : String := String.ofList (List.replicate (2 * depth) ' ')

def escapeChar (c : Char) : String :=
  if c = '"' then "\\\""
  else if c = '\\' then "\\\\"
  else if c = '\n' then "\\n"
  else if c = '\r' then "\\r"
  else if c = '\t' then "\\t"
  else if c.toNat = 8 then "\\b"
  else if c.toNat = 12 then "\\f"
  else if c.toNat < 32 then
    "\\u00" ++ String.ofList [Nat.digitChar (c.toNat / 16), Nat.digitChar (c.toNat % 16)]
  else c.toString

def quote (s : String) : String := "\"" ++ String.join (s.toList.map escapeChar) ++ "\""

mutual

/-- A value that starts at the given depth. -/
def pretty (depth : Nat) : Json → String
  | .null => "null"
  | .bool b => if b then "true" else "false"
  | .num literal => literal
  | .str s => quote s
  | .arr [] => "[]"
  | .arr (v :: vs) => "[\n" ++ prettyItems (depth + 1) (v :: vs) ++ ("\n" ++ indent depth ++ "]")
  | .obj [] => "\x7b\x7d"
  | .obj (f :: fs) =>
    "\x7b\n" ++ prettyFields (depth + 1) (f :: fs) ++ ("\n" ++ indent depth ++ "\x7d")

def prettyItems (depth : Nat) : List Json → String
  | [] => ""
  | [v] => indent depth ++ pretty depth v
  | v :: w :: vs => indent depth ++ pretty depth v ++ (",\n" ++ prettyItems depth (w :: vs))

def prettyFields (depth : Nat) : List (String × Json) → String
  | [] => ""
  | [(k, v)] => indent depth ++ quote k ++ ": " ++ pretty depth v
  | (k, v) :: f :: fs =>
    indent depth ++ quote k ++ ": " ++ pretty depth v ++ (",\n" ++ prettyFields depth (f :: fs))

end

/-- The fields in the order of the structure. -/
def envelopeJson (env : ManagedResultEnvelope) : Json :=
  .obj [("schema_version", .num (toString env.schemaVersion)), ("job_id", .str env.jobId),
    ("attempt_id", .str env.attemptId), ("resource_id", .str env.resourceId),
    ("summary", .str env.summary), ("operations", .arr env.operations)]

/-- What `atomic_write_json` writes of an envelope. -/
def prettyEnvelope (env : ManagedResultEnvelope) : String := pretty 0 (envelopeJson env)

/-! ### what is called -/

def outboxSchemaVersion : Nat := 1

structure OutboxRecord where
  schemaVersion : Nat
  serverOrigin : String
  deviceId : String
  jobId : String
  attemptId : String
  claimToken : String
  report : ExecutionReport
  managedResult : Option ManagedResultEnvelope
  managedResultSha256 : Option String
  createdAtMs : Int

/-- `serde_json`, its canonicalizer and the digest. -/
structure Serde where
  parse : String → Except String ManagedResultEnvelope
  digest : ManagedResultEnvelope → Except String String
  display : Json → String
  parseRecord : String → Except String OutboxRecord
  recordText : OutboxRecord → String

/-! ### the files -/

inductive FileState where
  | absent
  | symlink (found : Bool)
  | notRegular
  | unreadable (bytes : Nat) (e : String)
  | regular (content : String)

def FileState.found : FileState → Bool
  | .absent => false
  | .symlink found => found
  | _ => true

structure Files where
  runtime : FileState
  preserved : FileState

inductive ReadError where
  | io (e : String)
  | json (e : String)
  | invalid (e : ManagedResultEnvelope.ManagedResultError)
  | securityViolation (message : String)
  | payloadTooLarge (bytes limit : Nat)
  | canonicalization (e : String)

def maxManagedResultBytes : Nat := 2 * 1024 * 1024

section

variable (serde : Serde)

def readAndValidateFromFile (file : FileState) (expectedJobId expectedAttemptId : String)
    (expectedResourceId : Option String) : Except ReadError (ManagedResultEnvelope × String) :=
  match file with
  | .absent => .error (.io "No such file or directory")
  | .symlink _ => .error (.securityViolation "managed result file cannot be a symlink")
  | .notRegular => .error (.securityViolation "managed result path must be a regular file")
  | .unreadable bytes e =>
    if maxManagedResultBytes < bytes then .error (.payloadTooLarge bytes maxManagedResultBytes)
    else .error (.io e)
  | .regular content =>
    if maxManagedResultBytes < content.utf8ByteSize then
      .error (.payloadTooLarge content.utf8ByteSize maxManagedResultBytes)
    else
      match serde.parse content with
      | .error e => .error (.json e)
      | .ok envelope =>
        match envelope.validateCorrelation serde.display expectedJobId expectedAttemptId
            expectedResourceId with
        | .error e => .error (.invalid e)
        | .ok () =>
          match serde.digest envelope with
          | .error e => .error (.canonicalization e)
          | .ok digest => .ok (envelope, digest)

/-- How the two writes of a capture end. -/
structure Writes where
  copy : Except String Unit
  redeliveryMeta : Except String Unit

def durableCaptureManagedResult (active : ActiveAttempt) (writes : Writes) (files : Files) :
    Except ReadError (ManagedResultEnvelope × String) × Files :=
  match readAndValidateFromFile serde files.runtime active.jobId active.attemptId
      active.resourceId with
  | .error e => (.error e, files)
  | .ok (envelope, payloadSha256) =>
    match writes.copy with
    | .error e => (.error (.io e), files)
    | .ok () =>
      let files := { files with preserved := .regular (prettyEnvelope envelope) }
      match if isResource active ∧ active.resourceId.isSome then writes.redeliveryMeta
          else .ok () with
      | .error e => (.error (.io e), files)
      | .ok () => (.ok (envelope, payloadSha256), files)

def OutboxRecord.save (record : OutboxRecord) : Except String String :=
  match record.report.validate with
  | .error e => .error e
  | .ok () => .ok (serde.recordText record)

def OutboxRecord.load (content : String) : Except String OutboxRecord :=
  match serde.parseRecord content with
  | .error e => .error e
  | .ok record =>
    if record.schemaVersion ≠ outboxSchemaVersion then
      .error ("Unsupported outbox schema_version: " ++ toString record.schemaVersion)
    else
      match record.report.validate with
      | .error e => .error e
      | .ok () => .ok record

/-! ### the deadline -/

structure Reported where
  status : ExecutionStatus
  outcome : BusinessOutcome
  err : Option ExecutionReportError
  managed : Option (ManagedResultEnvelope × String)

/-- The deadline of a resource job: what the runtime error becomes. -/
def deadlineCapture (active : ActiveAttempt) (writes : Writes) (files : Files) :
    Option ExecutionReportError × Files :=
  match durableCaptureManagedResult serde active writes files with
  | (.ok _, files) => (none, files)
  | (.error _, files) =>
    (some ⟨"runtime", "EXECUTION_TIMEOUT", "Execution exceeded durable timeout deadline"⟩, files)

/-- The recorded outcome `timed_out` of a resource job. -/
def timedOutReport (active : ActiveAttempt) (runtimeError : Option ExecutionReportError)
    (writes : Writes) (files : Files) : Reported :=
  let captured :=
    if files.preserved.found then
      (readAndValidateFromFile serde files.preserved active.jobId active.attemptId
        active.resourceId).toOption
    else (durableCaptureManagedResult serde active writes files).1.toOption
  match captured with
  | some result => ⟨.completed, .unverified, none, some result⟩
  | none =>
    ⟨.timedOut, .unverified,
      some (runtimeError.getD ⟨"runtime", "EXECUTION_TIMEOUT", "Execution timed out"⟩), none⟩

/-! ### survival -/

/-- The copy of the envelope is parsed as it was printed. -/
def Reparsed (env : ManagedResultEnvelope) : Prop := serde.parse (prettyEnvelope env) = .ok env

/-- What has been captured is there for whoever comes later; `files` are those before the
capture, and a record is one that is parsed as it was printed. -/
structure Survives (active : ActiveAttempt) (writes : Writes) (files : Files)
    (env : ManagedResultEnvelope) (digest : String) : Prop where
  copy : readAndValidateFromFile serde
    (durableCaptureManagedResult serde active writes files).2.preserved active.jobId
      active.attemptId active.resourceId = .ok (env, digest)
  record : ∀ record : OutboxRecord, record.schemaVersion = outboxSchemaVersion →
    record.managedResult = some env → record.managedResultSha256 = some digest →
    serde.parseRecord (serde.recordText record) = .ok record → ∀ content, record.save serde = .ok content →
      ∃ loaded env', OutboxRecord.load serde content = .ok loaded ∧
        loaded.managedResult = some env' ∧ serde.digest env' = .ok digest
  reported : ∀ later,
    timedOutReport serde active (deadlineCapture serde active writes files).1 later
      (deadlineCapture serde active writes files).2 =
        ⟨.completed, .unverified, none, some (env, digest)⟩

end

section

variable {serde : Serde} {active : ActiveAttempt} {writes : Writes} {files : Files}
  {env : ManagedResultEnvelope} {digest : String}

theorem read_ok_iff {content jobId attemptId : String} {resourceId : Option String} :
    readAndValidateFromFile serde (.regular content) jobId attemptId resourceId =
        .ok (env, digest) ↔
      content.utf8ByteSize ≤ maxManagedResultBytes ∧ serde.parse content = .ok env ∧
        env.validateCorrelation serde.display jobId attemptId resourceId = .ok () ∧
        serde.digest env = .ok digest := by
  unfold readAndValidateFromFile
  dsimp only
  split
  · next large => simp [Nat.not_le.2 large]
  · next fits =>
    cases parsed : serde.parse content with
    | error e => simp
    | ok envelope =>
      dsimp only
      cases valid : envelope.validateCorrelation serde.display jobId attemptId resourceId with
      | error e =>
        simp only [reduceCtorEq, Except.ok.injEq, false_iff, not_and]
        rintro - rfl
        simp [valid]
      | ok u =>
        cases hd : serde.digest envelope with
        | error e =>
          simp only [reduceCtorEq, Except.ok.injEq, false_iff, not_and]
          rintro - rfl
          simp [hd]
        | ok d =>
          simp only [Except.ok.injEq, Prod.mk.injEq]
          constructor
          · rintro ⟨rfl, rfl⟩
            exact ⟨Nat.not_lt.1 fits, rfl, valid, hd⟩
          · rintro ⟨-, rfl, -, hd'⟩
            rw [hd] at hd'
            exact ⟨rfl, Except.ok.inj hd'⟩

/-- An accepted file is within the limit and valid. -/
theorem read_ok {file : FileState} {jobId attemptId : String} {resourceId : Option String}
    (h : readAndValidateFromFile serde file jobId attemptId resourceId = .ok (env, digest)) :
    env.validateCorrelation serde.display jobId attemptId resourceId = .ok () ∧
      serde.digest env = .ok digest := by
  cases file with
  | absent => cases h
  | symlink found => cases h
  | notRegular => cases h
  | unreadable bytes e =>
    unfold readAndValidateFromFile at h
    dsimp only at h
    split at h <;> cases h
  | regular content => exact (read_ok_iff.1 h).2.2

theorem capture_ok (h : (durableCaptureManagedResult serde active writes files).1 =
    .ok (env, digest)) :
    (durableCaptureManagedResult serde active writes files).2 =
        { files with preserved := .regular (prettyEnvelope env) } ∧
      env.validateCorrelation serde.display active.jobId active.attemptId active.resourceId =
        .ok () ∧
      serde.digest env = .ok digest := by
  revert h
  unfold durableCaptureManagedResult
  cases read : readAndValidateFromFile serde files.runtime active.jobId active.attemptId
      active.resourceId with
  | error e => intro h; cases h
  | ok result =>
    obtain ⟨envelope, payloadSha256⟩ := result
    dsimp only
    cases writes.copy with
    | error e => intro h; cases h
    | ok u =>
      dsimp only
      split
      · intro h; cases h
      · intro h
        cases h
        exact ⟨rfl, read_ok read⟩

/-- The copy is read back exactly when it is within the limit of the original. -/
theorem copy_ok_iff (captured : (durableCaptureManagedResult serde active writes files).1 =
    .ok (env, digest)) (reparsed : Reparsed serde env) :
    readAndValidateFromFile serde (durableCaptureManagedResult serde active writes files).2.preserved
        active.jobId active.attemptId active.resourceId = .ok (env, digest) ↔
      (prettyEnvelope env).utf8ByteSize ≤ maxManagedResultBytes := by
  obtain ⟨after, valid, hd⟩ := capture_ok captured
  rw [after]
  exact read_ok_iff.trans (and_iff_left ⟨reparsed, valid, hd⟩)

theorem record_survives {record : OutboxRecord} (hd : serde.digest env = .ok digest)
    (unchanged : serde.parseRecord (serde.recordText record) = .ok record)
    (version : record.schemaVersion = outboxSchemaVersion)
    (carries : record.managedResult = some env) {content : String}
    (saved : record.save serde = .ok content) :
    ∃ loaded env', OutboxRecord.load serde content = .ok loaded ∧
      loaded.managedResult = some env' ∧ serde.digest env' = .ok digest := by
  unfold OutboxRecord.save at saved
  cases valid : record.report.validate with
  | error e =>
    rw [valid] at saved
    cases saved
  | ok u =>
    rw [valid] at saved
    cases saved
    refine ⟨record, env, ?_, carries, hd⟩
    unfold OutboxRecord.load
    rw [unchanged]
    simp only [version, ne_eq, not_true_eq_false, if_false, valid]

theorem reported_ok (captured : (durableCaptureManagedResult serde active writes files).1 =
      .ok (env, digest))
    (copy : readAndValidateFromFile serde
      (durableCaptureManagedResult serde active writes files).2.preserved active.jobId
        active.attemptId active.resourceId = .ok (env, digest)) (later : Writes) :
    timedOutReport serde active (deadlineCapture serde active writes files).1 later
      (deadlineCapture serde active writes files).2 =
        ⟨.completed, .unverified, none, some (env, digest)⟩ := by
  have found : (durableCaptureManagedResult serde active writes files).2.preserved.found = true := by
    rw [(capture_ok captured).1]
    rfl
  unfold deadlineCapture
  revert captured copy found
  generalize durableCaptureManagedResult serde active writes files = capture
  obtain ⟨result, after⟩ := capture
  rintro rfl copy found
  unfold timedOutReport
  simp only [found, if_true, copy, Except.toOption]

/-- A copy over the limit is not read, and the attempt has timed out. -/
theorem reported_large (captured : (durableCaptureManagedResult serde active writes files).1 =
      .ok (env, digest))
    (large : maxManagedResultBytes < (prettyEnvelope env).utf8ByteSize) (later : Writes) :
    timedOutReport serde active (deadlineCapture serde active writes files).1 later
      (deadlineCapture serde active writes files).2 =
        ⟨.timedOut, .unverified,
          some ⟨"runtime", "EXECUTION_TIMEOUT", "Execution timed out"⟩, none⟩ := by
  have after := (capture_ok captured).1
  unfold deadlineCapture
  revert captured after
  generalize durableCaptureManagedResult serde active writes files = capture
  obtain ⟨result, after⟩ := capture
  rintro rfl rfl
  unfold timedOutReport readAndValidateFromFile
  simp only [FileState.found, if_true, if_pos large, Except.toOption, Option.getD_none]

end

/-- A captured result that is printed and parsed unchanged survives exactly when its pretty copy
is within the byte limit. -/
theorem captured_result_survives_iff (serde : Serde) (active : ActiveAttempt) (writes : Writes)
    (files : Files) (env : ManagedResultEnvelope) (digest : String)
    (captured : (durableCaptureManagedResult serde active writes files).1 = .ok (env, digest))
    (reparsed : Reparsed serde env) :
    Survives serde active writes files env digest ↔
      (prettyEnvelope env).utf8ByteSize ≤ maxManagedResultBytes := by
  rw [← copy_ok_iff captured reparsed]
  constructor
  · exact fun survives => survives.copy
  · intro copy
    exact {
      copy := copy
      record := fun _ version carries _ unchanged _ saved =>
        record_survives (capture_ok captured).2.2 unchanged version carries saved
      reported := reported_ok captured copy }

/-! ### the size of the layout -/

theorem size_indent (depth : Nat) : (indent depth).utf8ByteSize = 2 * depth := by
  unfold indent
  rw [Pattern.utf8ByteSize_ofList, List.map_replicate, List.sum_replicate_nat]
  exact Nat.mul_one _

theorem size_prettyItems (depth : Nat) (items : List Json) :
    items.length * (2 * depth) ≤ (prettyItems depth items).utf8ByteSize := by
  induction items with
  | nil => simp
  | cons v vs ih =>
    cases vs with
    | nil =>
      simp only [prettyItems, String.utf8ByteSize_append, size_indent, List.length_singleton]
      omega
    | cons w vs =>
      rw [List.length_cons, Nat.add_mul]
      simp only [prettyItems, String.utf8ByteSize_append, size_indent]
      omega

theorem size_item {depth : Nat} {items : List Json} {v : Json} (h : v ∈ items) :
    (pretty depth v).utf8ByteSize ≤ (prettyItems depth items).utf8ByteSize := by
  induction items with
  | nil => cases h
  | cons w vs ih =>
    cases vs with
    | nil =>
      rw [List.mem_singleton.1 h]
      simp only [prettyItems, String.utf8ByteSize_append]
      omega
    | cons x vs =>
      simp only [prettyItems, String.utf8ByteSize_append]
      rcases List.mem_cons.1 h with rfl | h
      · omega
      · have := ih h
        omega

theorem size_field {depth : Nat} {fields : List (String × Json)} {k : String} {v : Json}
    (h : (k, v) ∈ fields) :
    (pretty depth v).utf8ByteSize ≤ (prettyFields depth fields).utf8ByteSize := by
  induction fields with
  | nil => cases h
  | cons f fs ih =>
    cases fs with
    | nil =>
      rw [← List.mem_singleton.1 h]
      simp only [prettyFields, String.utf8ByteSize_append]
      omega
    | cons g fs =>
      obtain ⟨k', v'⟩ := f
      simp only [prettyFields, String.utf8ByteSize_append]
      rcases List.mem_cons.1 h with h | h
      · cases h
        omega
      · have := ih h
        omega

theorem size_arr (depth : Nat) (items : List Json) :
    (prettyItems (depth + 1) items).utf8ByteSize ≤ (pretty depth (.arr items)).utf8ByteSize := by
  cases items with
  | nil => simp [prettyItems]
  | cons v vs =>
    simp only [pretty, String.utf8ByteSize_append]
    omega

theorem size_obj (depth : Nat) (fields : List (String × Json)) :
    (prettyFields (depth + 1) fields).utf8ByteSize ≤ (pretty depth (.obj fields)).utf8ByteSize := by
  cases fields with
  | nil => simp [prettyFields]
  | cons f fs =>
    simp only [pretty, String.utf8ByteSize_append]
    omega

/-- An array in an operation has a line of its own for each of its items. -/
theorem size_prettyEnvelope {env : ManagedResultEnvelope} {op : List (String × Json)} {k : String}
    {items : List Json} (hop : .obj op ∈ env.operations) (hitems : (k, .arr items) ∈ op) :
    items.length * 8 ≤ (prettyEnvelope env).utf8ByteSize := by
  have operations : ("operations", .arr env.operations) ∈
      [("schema_version", .num (toString env.schemaVersion)), ("job_id", .str env.jobId),
        ("attempt_id", .str env.attemptId), ("resource_id", .str env.resourceId),
        ("summary", Json.str env.summary), ("operations", .arr env.operations)] := by simp
  calc items.length * 8
      ≤ (prettyItems 4 items).utf8ByteSize := size_prettyItems 4 items
    _ ≤ (pretty 3 (.arr items)).utf8ByteSize := size_arr 3 items
    _ ≤ (prettyFields 3 op).utf8ByteSize := size_field hitems
    _ ≤ (pretty 2 (.obj op)).utf8ByteSize := size_obj 2 op
    _ ≤ (prettyItems 2 env.operations).utf8ByteSize := size_item hop
    _ ≤ (pretty 1 (.arr env.operations)).utf8ByteSize := size_arr 1 env.operations
    _ ≤ _ := size_field operations
    _ ≤ (prettyEnvelope env).utf8ByteSize := size_obj 0 _

/-! ### a long array -/

namespace Sample

/-- A result with a field the schema does not know: an array of zeros. -/
def envelope (zeros : Nat) : ManagedResultEnvelope where
  schemaVersion := 1
  jobId := "job-1"
  attemptId := Attempt.Sample.attemptId
  resourceId := "res-1"
  summary := "done"
  operations := [.obj [("op", .str "upsert_content"), ("content", .str "x"),
    ("pad", .arr (List.replicate (zeros + 1) (.num "0")))]]

def head : String :=
  "\x7b\"schema_version\":1,\"job_id\":\"job-1\",\"attempt_id\":\"" ++ Attempt.Sample.attemptId ++
    "\",\"resource_id\":\"res-1\",\"summary\":\"done\",\"operations\":[\x7b\"op\":\"upsert_content\"," ++
    "\"content\":\"x\",\"pad\":["

/-- The same as the agent wrote it. -/
def content (zeros : Nat) : String :=
  head ++ String.ofList ((List.replicate zeros ['0', ',']).flatten) ++ "0]\x7d]\x7d"

/-- `serde_json` on the two texts of the result. -/
def serde (zeros : Nat) : Serde where
  parse text :=
    if text = content zeros ∨ text = prettyEnvelope (envelope zeros) then .ok (envelope zeros)
    else .error "expected value at line 1 column 1"
  digest _ := .ok (Attempt.digest "managed result")
  display _ := ""
  parseRecord _ := .error "expected value at line 1 column 1"
  recordText _ := ""

def active : ActiveAttempt :=
  { Attempt.Sample.intent with resourceId := some "res-1", resultTarget := some "resource" }

def writes : Writes := ⟨.ok (), .ok ()⟩

def files (zeros : Nat) : Files := ⟨.regular (content zeros), .absent⟩

theorem size_content (zeros : Nat) : (content zeros).utf8ByteSize ≤ 400 + 2 * zeros := by
  have pad : (String.ofList ((List.replicate zeros ['0', ',']).flatten)).utf8ByteSize =
      2 * zeros := by
    rw [Pattern.utf8ByteSize_ofList]
    induction zeros with
    | zero => rfl
    | succ n ih =>
      rw [List.replicate_succ, List.flatten_cons, List.map_append, List.sum_append, ih]
      show 2 + 2 * n = 2 * (n + 1)
      omega
  have ends : head.utf8ByteSize + "0]\x7d]\x7d".utf8ByteSize ≤ 400 := by decide +kernel
  unfold content
  rw [String.utf8ByteSize_append, String.utf8ByteSize_append, pad]
  omega

theorem captured {zeros : Nat} (fits : (content zeros).utf8ByteSize ≤ maxManagedResultBytes) :
    (durableCaptureManagedResult (serde zeros) active writes (files zeros)).1 =
      .ok (envelope zeros, Attempt.digest "managed result") := by
  have parse : (serde zeros).parse (content zeros) = .ok (envelope zeros) := by
    simp [serde]
  have valid : (envelope zeros).validateCorrelation (serde zeros).display active.jobId
      active.attemptId active.resourceId = .ok () := by
    have summary : (trim "done").isEmpty = false := by decide +kernel
    refine (ManagedResultEnvelope.validateCorrelation_ok_iff ..).2
      ⟨rfl, rfl, rfl, .inr rfl, summary, List.cons_ne_nil _ _, fun op hop => ?_⟩
    rw [List.mem_singleton.1 hop]
    refine ⟨_, rfl, .inl ⟨rfl, ⟨_, rfl⟩, .inl rfl⟩, fun h => ?_⟩
    have kind : some (Json.str "upsert_content") = some (Json.str "merge_source_metadata") := h
    exact absurd (Json.str.inj (Option.some.inj kind)) (by decide)
  have read : readAndValidateFromFile (serde zeros) (.regular (content zeros)) active.jobId
      active.attemptId active.resourceId =
        .ok (envelope zeros, Attempt.digest "managed result") :=
    read_ok_iff.2 ⟨fits, parse, valid, rfl⟩
  unfold durableCaptureManagedResult files
  rw [read]
  rfl

theorem reparsed (zeros : Nat) : Reparsed (serde zeros) (envelope zeros) := by
  unfold Reparsed
  simp [serde]

theorem captured_of_le {zeros : Nat} (h : zeros ≤ 1000000) :
    (durableCaptureManagedResult (serde zeros) active writes (files zeros)).1 =
      .ok (envelope zeros, Attempt.digest "managed result") :=
  captured ((size_content zeros).trans (by
    unfold maxManagedResultBytes
    omega))

end Sample

/-- A file of less than 2 MiB whose copy is longer: it is captured at the deadline, and the report
says that the attempt timed out. -/
theorem captured_result_lost :
    (durableCaptureManagedResult (Sample.serde 700000) Sample.active Sample.writes
        (Sample.files 700000)).1 =
      .ok (Sample.envelope 700000, Attempt.digest "managed result") ∧
    Reparsed (Sample.serde 700000) (Sample.envelope 700000) ∧
    ¬Survives (Sample.serde 700000) Sample.active Sample.writes (Sample.files 700000)
      (Sample.envelope 700000) (Attempt.digest "managed result") ∧
    (timedOutReport (Sample.serde 700000) Sample.active
        (deadlineCapture (Sample.serde 700000) Sample.active Sample.writes (Sample.files 700000)).1
        Sample.writes
        (deadlineCapture (Sample.serde 700000) Sample.active Sample.writes
          (Sample.files 700000)).2).status = .timedOut := by
  have captured := @Sample.captured_of_le 700000 (by omega)
  have large : maxManagedResultBytes < (prettyEnvelope (Sample.envelope 700000)).utf8ByteSize := by
    have := @size_prettyEnvelope (Sample.envelope 700000) _ "pad"
      (List.replicate (700000 + 1) (.num "0")) (List.mem_singleton_self _)
      (List.mem_cons_of_mem _ (List.mem_cons_of_mem _ (List.mem_singleton_self _)))
    rw [List.length_replicate] at this
    unfold maxManagedResultBytes
    omega
  refine ⟨captured, Sample.reparsed _, fun survives => ?_, ?_⟩
  · exact absurd ((copy_ok_iff captured (Sample.reparsed _)).1 survives.copy) (Nat.not_le.2 large)
  · rw [reported_large captured large]

/-- A result whose copy fits. -/
theorem captured_result_survives_small :
    Survives (Sample.serde 0) Sample.active Sample.writes (Sample.files 0) (Sample.envelope 0)
        (Attempt.digest "managed result") ↔
      (prettyEnvelope (Sample.envelope 0)).utf8ByteSize ≤ maxManagedResultBytes :=
  captured_result_survives_iff (Sample.serde 0) Sample.active Sample.writes (Sample.files 0)
    (Sample.envelope 0) (Attempt.digest "managed result")
    (Sample.captured_of_le (by omega)) (Sample.reparsed 0)

end Ceo.Attempt.Preserved
