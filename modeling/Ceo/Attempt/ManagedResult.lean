import Ceo.Attempt.Validators
import Ceo.Jobs.Closure
import Ceo.Resource.Managed

/-!
# The connector's gate for a managed result

`ManagedResultEnvelope::validate_correlation` (`managed_result.rs`), and what
the server makes of a result it lets through.
-/

namespace Ceo.Attempt

open Ceo.Lib Ceo.Jobs Ceo.Resource

/-- The envelope as the connector reads it: an operation may be any JSON value. -/
structure ManagedResultEnvelope where
  schemaVersion : Nat
  jobId : String
  attemptId : String
  resourceId : String
  summary : String
  operations : List Json

namespace ManagedResultEnvelope

/-- The variants of `ManagedResultError` that `validate_correlation` returns. -/
inductive ManagedResultError where
  | unsupportedSchemaVersion (version : Nat)
  | correlationMismatch (field expected actual : String)
  | invalidContent (message : String)
  deriving DecidableEq, Repr

def managedResultSchemaVersion : Nat := 1

/-- `METADATA_FIELDS` -/
def metadataFields : List String := ["title", "author", "published_at", "language"]

def operation (idx : Nat) (message : String) : ManagedResultError :=
  .invalidContent ("operation[" ++ toString idx ++ "] " ++ message)

def checkField (idx : Nat) (obj : Fields) (hasNonempty : Bool) (field : String) :
    Except ManagedResultError Bool :=
  match obj.get field with
  | none | some .null => .ok hasNonempty
  | some (.str s) => .ok (hasNonempty || !(trim s).isEmpty)
  | some _ =>
    .error (operation idx
      ("'merge_source_metadata' field '" ++ field ++ "' must be a string or null"))

section validate

-- `display v` is the JSON text of a value.
variable (display : Json → String)

/-- The checks on one operation that is an object. -/
def checkObject (idx : Nat) (obj : Fields) : Except ManagedResultError Unit :=
  match obj.get "op" with
  | some (.str opKind) =>
    if opKind = "attach_source_asset" then
      .error (operation idx "'attach_source_asset' is unsupported in V1.8 managed results")
    else if opKind = "upsert_content" then
      match obj.get "content" with
      | some (.str _) =>
        match obj.get "provenance" with
        | none | some (.str "worker") => .ok ()
        | some provenance =>
          .error (operation idx ("forbidden provenance '" ++ display provenance ++
            "': only 'worker' is permitted in managed results"))
      | _ => .error (operation idx "'upsert_content' requires a string 'content' field")
    else if opKind = "merge_source_metadata" then do
      let hasNonempty ← metadataFields.foldlM (checkField idx obj) false
      if !hasNonempty then
        .error (operation idx ("'merge_source_metadata' requires at least one non-empty string " ++
          "field among: title, author, published_at, language"))
      else .ok ()
    else
      .error (operation idx ("op '" ++ opKind ++ "' is not permitted in managed results. " ++
        "Allowed ops: 'upsert_content', 'merge_source_metadata'"))
  | _ => .error (operation idx "missing 'op' discriminator string")

def checkOperation (idx : Nat) : Json → Except ManagedResultError Unit
  | .obj obj => checkObject display idx obj
  | _ => .error (operation idx "must be a JSON object")

def validateCorrelation (env : ManagedResultEnvelope) (expectedJobId expectedAttemptId : String)
    (expectedResourceId : Option String) : Except ManagedResultError Unit :=
  if env.schemaVersion ≠ managedResultSchemaVersion then
    .error (.unsupportedSchemaVersion env.schemaVersion)
  else if env.jobId ≠ expectedJobId then
    .error (.correlationMismatch "job_id" expectedJobId env.jobId)
  else if env.attemptId ≠ expectedAttemptId then
    .error (.correlationMismatch "attempt_id" expectedAttemptId env.attemptId)
  else if expectedResourceId.isSome ∧ expectedResourceId ≠ some env.resourceId then
    .error (.correlationMismatch "resource_id" (expectedResourceId.getD "") env.resourceId)
  else if (trim env.summary).isEmpty then
    .error (.invalidContent "summary cannot be empty or whitespace")
  else if env.operations.isEmpty then
    .error (.invalidContent "operations array cannot be empty")
  else env.operations.zipIdx.forM fun op => checkOperation display op.2 op.1

end validate

end ManagedResultEnvelope

/-! ### the server's reading -/

def asRecord : Json → Option Fields
  | .obj fields => some fields
  | _ => none

/-- The parsed envelope; `z.record` takes objects only. -/
def ManagedResultEnvelope.received (env : ManagedResultEnvelope) :
    Option Jobs.ManagedResultEnvelope :=
  (env.operations.mapM asRecord).map fun operations =>
    { schemaVersion := env.schemaVersion
      jobId := env.jobId
      attemptId := env.attemptId
      resourceId := env.resourceId
      summary := env.summary
      operations := operations }

/-- A job the server has stored, and an attempt id it has let claim it. -/
structure ClaimedJob where
  job : JobRecordV2
  accepted : job.Accepted
  attemptId : String
  attemptId_ok : attemptIdV2Re attemptId = true

section gate

variable (host : Host) (canonical : ManagedResultEnvelope → String) (display printed : Json → String)
  (urlProtocol : String → Option String) (c : ClaimedJob) (env : ManagedResultEnvelope)

/-- The connector lets the result through. -/
def LocallyAccepted : Prop :=
  env.validateCorrelation display c.job.jobId c.attemptId c.job.resourceId = .ok ()

/-- The input `submitJobResult` makes of the received envelope. -/
def managedJobResult (rec : Jobs.ManagedResultEnvelope) : ManagedJobResult :=
  { jobId := c.job.jobId
    attemptId := c.attemptId
    resourceId := rec.resourceId
    summary := rec.summary
    operations := rec.operations
    payloadSha256 := host.sha256 (canonical env) }

/-- The schema takes the envelope, and whatever the resource is the operations go through. -/
def RemotelyAccepted : Prop :=
  ∃ rec, env.received = some rec ∧ Guard.All (managedResultEnvelopeSchema rec) ∧
    ∀ now res, ∃ res',
      managedMutation urlProtocol printed (managedJobResult host canonical c env rec) now res = .ok res'

/-- What the connector does not look at, or not with the server's eyes. -/
structure Unseen : Prop where
  resourceId : c.job.resourceId = none → resourceIdV2Re env.resourceId = true
  summary : isWhitespaceOnly env.summary = false
  metadata : ∀ op : Fields, .obj op ∈ env.operations →
    op.get "op" = some (.str "merge_source_metadata") →
    textOrNull (op.get "description") = true ∧ textOrNull (op.get "thumbnail_url") = true ∧
      MetaField.allowedFields.any (fieldKept urlProtocol op) = true

end gate

/-! ### what each side asks of an operation -/

/-- The field has a text that Rust does not find blank. -/
def fieldNonempty (obj : Fields) (field : String) : Bool :=
  match obj.get field with
  | some (.str s) => !(trim s).isEmpty
  | _ => false

namespace ManagedResultEnvelope

theorem checkField_ok (idx : Nat) (obj : Fields) (hasNonempty : Bool) (field : String)
    (h : textOrNull (obj.get field) = true) :
    ∃ b, checkField idx obj hasNonempty field = .ok b ∧
      b = (hasNonempty || fieldNonempty obj field) := by
  unfold checkField fieldNonempty
  match hv : obj.get field with
  | none | some .null => exact ⟨_, rfl, by simp⟩
  | some (.str s) => exact ⟨_, rfl, rfl⟩
  | some (.bool b) | some (.num n) | some (.arr items) | some (.obj fields) =>
    rw [hv] at h
    cases h

theorem checkField_error (idx : Nat) (obj : Fields) (hasNonempty : Bool) (field : String)
    (h : textOrNull (obj.get field) = false) :
    ∃ e, checkField idx obj hasNonempty field = .error e := by
  unfold checkField
  match hv : obj.get field with
  | none | some .null | some (.str s) =>
    rw [hv] at h
    cases h
  | some (.bool b) | some (.num n) | some (.arr items) | some (.obj fields) => exact ⟨_, rfl⟩

/-- The metadata the connector lets through. -/
def metadataFieldsOk (obj : Fields) : Bool :=
  metadataFields.all (fun field => textOrNull (obj.get field)) &&
    metadataFields.any (fieldNonempty obj)

theorem checkMetadata_ok_iff (idx : Nat) (obj : Fields) (message : String) :
    (do
      let hasNonempty ← metadataFields.foldlM (checkField idx obj) false
      if !hasNonempty then Except.error (operation idx message) else Except.ok ()) = .ok () ↔
      metadataFieldsOk obj = true := by
  unfold metadataFieldsOk
  cases hall : metadataFields.all (fun field => textOrNull (obj.get field)) with
  | false =>
    obtain ⟨e, he⟩ := Scan.foldlM_error (checkField_error idx obj) hall false
    rw [he]
    exact ⟨fun h => (by cases h), fun h => (by cases h)⟩
  | true =>
    obtain ⟨b, hb, hflag⟩ := Scan.foldlM_ok id (checkField_ok idx obj) hall false
    rw [hb]
    rw [id, id, Bool.false_or] at hflag
    rw [Bool.true_and, ← hflag]
    cases b with
    | false => exact ⟨fun h => (by cases h), fun h => (by cases h)⟩
    | true => exact ⟨fun _ => rfl, fun _ => rfl⟩

theorem checkObject_ok_iff (display : Json → String) (idx : Nat) (obj : Fields) :
    checkObject display idx obj = .ok () ↔ operationOk obj ∧
      (obj.get "op" = some (.str "merge_source_metadata") → metadataFieldsOk obj = true) := by
  unfold checkObject operationOk
  match hop : obj.get "op" with
  | none | some .null | some (.bool _) | some (.num _) | some (.arr _) | some (.obj _) => simp
  | some (.str opKind) =>
    dsimp only
    split_ifs with hattach hupsert hmerge
    · simp [hattach]
    · subst hupsert
      match hcontent : obj.get "content" with
      | none | some .null | some (.bool _) | some (.num _) | some (.arr _) | some (.obj _) => simp
      | some (.str content) =>
        dsimp only
        split
        next hprov => simp [hprov]
        next hprov => simp [hprov]
        next provenance hne hprov =>
          have hother : provenance ≠ .str "worker" := fun h => hne (h ▸ rfl)
          simp [hprov, hother]
    · subst hmerge
      rw [checkMetadata_ok_iff]
      simp
    · simp [hupsert, hmerge]

theorem checkOperation_ok_iff (display : Json → String) (idx : Nat) (op : Json) :
    checkOperation display idx op = .ok () ↔ ∃ obj, op = .obj obj ∧ operationOk obj ∧
      (Fields.get obj "op" = some (.str "merge_source_metadata") → metadataFieldsOk obj = true) := by
  match op with
  | .null | .bool _ | .num _ | .str _ | .arr _ => simp [checkOperation]
  | .obj obj =>
    rw [checkOperation, checkObject_ok_iff]
    constructor
    · exact fun h => ⟨obj, rfl, h⟩
    · rintro ⟨_, ⟨⟩, h⟩
      exact h

theorem validateCorrelation_ok_iff (display : Json → String) (env : ManagedResultEnvelope)
    (jobId attemptId : String) (resourceId : Option String) :
    env.validateCorrelation display jobId attemptId resourceId = .ok () ↔
      env.schemaVersion = managedResultSchemaVersion ∧ env.jobId = jobId ∧ env.attemptId = attemptId ∧
      (resourceId = none ∨ resourceId = some env.resourceId) ∧ (trim env.summary).isEmpty = false ∧
      env.operations ≠ [] ∧ ∀ op ∈ env.operations, ∃ obj, op = .obj obj ∧ operationOk obj ∧
        (Fields.get obj "op" = some (.str "merge_source_metadata") →
          metadataFieldsOk obj = true) := by
  have hops : (env.operations.zipIdx.forM fun op => checkOperation display op.2 op.1) = .ok () ↔
      ∀ op ∈ env.operations, ∃ obj, op = .obj obj ∧ operationOk obj ∧
        (Fields.get obj "op" = some (.str "merge_source_metadata") →
          metadataFieldsOk obj = true) := by
    rw [Scan.forM_ok_iff]
    simp only [checkOperation_ok_iff]
    constructor
    · intro h op hop
      obtain ⟨idx, hidx⟩ := List.getElem?_of_mem hop
      exact h (op, idx) (List.mem_zipIdx_iff_getElem?.2 hidx)
    · intro h op hop
      exact h op.1 (List.fst_mem_of_mem_zipIdx hop)
  have hres : resourceId.isSome ∧ resourceId ≠ some env.resourceId ↔
      ¬(resourceId = none ∨ resourceId = some env.resourceId) := by
    rw [not_or, Option.isSome_iff_ne_none]
  unfold validateCorrelation
  constructor
  · intro h
    split_ifs at h with h1 h2 h3 h4 h5 h6
    exact ⟨not_not.1 h1, not_not.1 h2, not_not.1 h3, not_not.1 fun hn => h4 (hres.2 hn),
      by simpa using h5,
      by simpa using h6, hops.1 h⟩
  · rintro ⟨h1, h2, h3, h4, h5, h6, h7⟩
    have hsummary : ¬(trim env.summary).isEmpty = true := by simp [h5]
    have hnonempty : ¬env.operations.isEmpty = true := by simpa using h6
    rw [if_neg (fun hn => hn h1), if_neg (fun hn => hn h2), if_neg (fun hn => hn h3),
      if_neg (fun hn => hres.1 hn h4), if_neg hsummary, if_neg hnonempty]
    exact hops.2 h7

end ManagedResultEnvelope

/-! ### the gate -/

theorem mapM_asRecord_iff {l : List Json} {ops : List Fields} :
    l.mapM asRecord = some ops ↔ l = ops.map .obj := by
  induction l generalizing ops with
  | nil =>
    cases ops <;> simp [pure]
  | cons v l ih =>
    rw [List.mapM_cons]
    constructor
    · intro h
      obtain ⟨fields, hv, h⟩ := Option.bind_eq_some_iff.1 h
      obtain ⟨rest, hrest, h⟩ := Option.bind_eq_some_iff.1 h
      cases h
      rw [List.map_cons, ← ih.1 hrest]
      match v with
      | .obj _ =>
        cases hv
        rfl
    · intro h
      cases ops with
      | nil => cases h
      | cons fields ops =>
        obtain ⟨rfl, hrest⟩ := List.cons.inj h
        rw [ih.2 hrest]
        rfl

section gate

variable {host : Host} {canonical : ManagedResultEnvelope → String} {display printed : Json → String}
  {urlProtocol : String → Option String} {c : ClaimedJob} {env : ManagedResultEnvelope}

theorem ClaimedJob.resourceId_ok {id : String} (h : c.job.resourceId = some id) :
    resourceIdV2Re id = true := by
  obtain ⟨fields, -, -⟩ := (JobRecordV2.accepted_iff _).1 c.accepted
  simp only [jobFieldGuards, Guard.all_cons, h, optAll] at fields
  obtain ⟨-, -, -, -, -, -, -, -, -, -, hresource, hnone, -⟩ := fields
  cases ht : c.job.resultTarget <;> simp_all

theorem ClaimedJob.jobId_ok (c : ClaimedJob) : jobIdV2Re c.job.jobId = true := by
  obtain ⟨fields, -, -⟩ := (JobRecordV2.accepted_iff _).1 c.accepted
  simp only [jobFieldGuards, Guard.all_cons] at fields
  exact fields.2.1

/-- The metadata the connector has checked is what the server takes, but for two fields it has not
looked at and for what is kept. -/
theorem metadataOk_iff {op : Fields} (h : ManagedResultEnvelope.metadataFieldsOk op = true) :
    metadataOk urlProtocol op = true ↔
      textOrNull (op.get "description") = true ∧ textOrNull (op.get "thumbnail_url") = true ∧
        MetaField.allowedFields.any (fieldKept urlProtocol op) = true := by
  simp only [ManagedResultEnvelope.metadataFieldsOk, ManagedResultEnvelope.metadataFields,
    List.all_cons, List.all_nil, Bool.and_eq_true, and_true] at h
  obtain ⟨⟨htitle, hauthor, hpublished, hlanguage⟩, -⟩ := h
  rw [metadataOk, Bool.and_eq_true, and_assoc.symm]
  refine and_congr_left fun _ => ?_
  simp only [MetaField.allowedFields, MetaField.key, List.all_cons, List.all_nil, htitle, hauthor,
    hpublished, hlanguage, Bool.true_and, Bool.and_true, Bool.and_eq_true]

theorem remotelyAccepted_iff (h : LocallyAccepted display c env) :
    RemotelyAccepted host canonical printed urlProtocol c env ↔ Unseen urlProtocol c env := by
  obtain ⟨hver, hjob, hatt, hres, -, hne, hops⟩ :=
    (ManagedResultEnvelope.validateCorrelation_ok_iff ..).1 h
  obtain ⟨ops, hmap⟩ : ∃ ops : List Fields, env.operations = ops.map .obj := by
    choose! obj hobj using hops
    refine ⟨env.operations.map obj, ?_⟩
    rw [List.map_map]
    exact (List.map_id _).symm.trans (List.map_congr_left fun op hop => (hobj op hop).1)
  have hrec : env.received = some ⟨env.schemaVersion, env.jobId, env.attemptId, env.resourceId,
      env.summary, ops⟩ := by
    rw [ManagedResultEnvelope.received, mapM_asRecord_iff.2 hmap]
    rfl
  have hop (op : Fields) (hin : op ∈ ops) : operationOk op ∧
      (op.get "op" = some (.str "merge_source_metadata") →
        ManagedResultEnvelope.metadataFieldsOk op = true) := by
    obtain ⟨obj, heq, hobj⟩ := hops (.obj op) (hmap ▸ List.mem_map_of_mem hin)
    cases heq
    exact hobj
  have hops_ne : ops ≠ [] := by
    rintro rfl
    exact hne hmap
  have jobId_ne : c.job.jobId ≠ "" := by
    intro hempty
    have hok := c.jobId_ok
    rw [hempty] at hok
    exact absurd hok (by decide)
  have attemptId_ne : c.attemptId ≠ "" := by
    intro hempty
    have hok := c.attemptId_ok
    rw [hempty] at hok
    exact absurd hok (by decide)
  have hresource : resourceIdV2Re env.resourceId = true ↔
      (c.job.resourceId = none → resourceIdV2Re env.resourceId = true) := by
    refine ⟨fun hr _ => hr, fun hr => ?_⟩
    rcases hres with hnone | hsome
    · exact hr hnone
    · exact ClaimedJob.resourceId_ok hsome
  constructor
  · rintro ⟨rec, hrec', hschema, hall⟩
    rw [hrec] at hrec'
    cases hrec'
    simp only [managedResultEnvelopeSchema, Guard.all_cons, Bool.not_eq_true'] at hschema
    obtain ⟨-, -, -, hid, -, hsummary, -⟩ := hschema
    have blank : ResourceFiles := ⟨⟨none, none, none, none, none, none, none, none⟩, none⟩
    obtain ⟨-, hmeta⟩ := (managedMutation_ok_iff urlProtocol printed _ 0 blank).1 (hall 0 blank)
    refine ⟨hresource.1 hid, hsummary, fun op hin hkind => ?_⟩
    have hin' : op ∈ ops := by
      rw [hmap, List.mem_map] at hin
      obtain ⟨op', hin', ⟨⟩⟩ := hin
      exact hin'
    exact (metadataOk_iff ((hop op hin').2 hkind)).1 (hmeta op hin' hkind)
  · intro u
    have hid := hresource.2 u.resourceId
    refine ⟨_, hrec, ?_, fun now res => (managedMutation_ok_iff ..).2 ⟨?_, fun op hin hkind => ?_⟩⟩
    · simp only [managedResultEnvelopeSchema, Guard.all_cons, Guard.all_nil, and_true,
        Bool.not_eq_true', decide_eq_true_eq, beq_iff_eq]
      refine ⟨hver, hjob ▸ c.jobId_ok, hatt ▸ c.attemptId_ok, hid, ?_, u.summary, ?_⟩
      · rw [jsLength_pos, ← Bool.not_eq_true, String.isEmpty_iff]
        intro hempty
        have hsummary := u.summary
        rw [hempty] at hsummary
        cases hsummary
      · simpa using hops_ne
    · exact
        { jobId := jobId_ne
          attemptId := attemptId_ne
          resourceId := resourceIdRe_of_v2 hid
          summary := u.summary
          nonempty := hops_ne
          payloadSha256 := host.sha256_hex _
          operations := fun op hin => (hop op hin).1 }
    · exact (metadataOk_iff ((hop op hin).2 hkind)).2
        (u.metadata op (hmap ▸ List.mem_map_of_mem hin) hkind)

end gate

/-! ### a result that is lost -/

def sampleResourceId : String := "res-00000000-0000-4000-8000-00000000000c"

set_option maxRecDepth 10000 in
def sampleClaimed : ClaimedJob :=
  { job := { sampleJob with resultTarget := .resource, resourceId := some sampleResourceId }
    accepted := (parseJobRecordV2_ok_iff _).1 (by decide +kernel)
    attemptId := sampleClaim.attemptId
    attemptId_ok := by decide +kernel }

/-- A title, and a description that is a number. -/
def sampleOperation : Fields :=
  [("op", .str "merge_source_metadata"), ("title", .str "A title"), ("description", .num "5")]

def sampleEnvelope : ManagedResultEnvelope :=
  { schemaVersion := 1
    jobId := sampleJob.jobId
    attemptId := sampleClaim.attemptId
    resourceId := sampleResourceId
    summary := "s"
    operations := [.obj sampleOperation] }

end Ceo.Attempt
