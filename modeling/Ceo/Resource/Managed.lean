import Ceo.Jobs.Coordinator
import Ceo.Lib.Scan

/-!
# A managed result at the resource service

The checks `applyManagedJobResult` makes on its input and what its operations
do to a resource (`resource/service.ts`), and `managedResultEnvelopeSchema`
(`jobs/v2-schema.ts`).
-/

namespace Ceo.Resource

open Ceo.Lib Ceo.Jobs

/-! ### JSON objects and texts -/

abbrev Fields := List (String × Json)

def Fields.get (fields : Fields) (key : String) : Option Json :=
  (fields.find? (·.1 == key)).map (·.2)

/-- `s.trim()` of JavaScript. -/
def jsTrim (s : String) : String :=
  String.ofList ((s.toList.dropWhile isJsSpace).reverse.dropWhile isJsSpace).reverse

/-- `cs.slice(0, units)`; of a pair that is cut in the middle nothing is kept. -/
def jsSlice : Nat → List Char → List Char
  | _, [] => []
  | units, c :: cs =>
    let width := if c.toNat < 0x10000 then 1 else 2
    if width ≤ units then c :: jsSlice (units - width) cs else []

/-! ### managedResultEnvelopeSchema -/

def managedResultEnvelopeSchema (r : ManagedResultEnvelope) : List Guard :=
  [⟨r.schemaVersion == 1, "Invalid input: expected 1"⟩,
   ⟨jobIdV2Re r.jobId, "Invalid job_id format"⟩,
   ⟨attemptIdV2Re r.attemptId, "Invalid attempt_id format"⟩,
   ⟨resourceIdV2Re r.resourceId, "Invalid resource_id format"⟩,
   ⟨1 ≤ jsLength r.summary, "summary cannot be empty"⟩,
   ⟨!isWhitespaceOnly r.summary, "summary cannot be whitespace"⟩,
   ⟨!r.operations.isEmpty, "operations cannot be empty"⟩]

/-! ### the resource -/

inductive MetadataMethod where
  | deterministicAdapter | userProvided | worker | mixed
  deriving DecidableEq, Repr

/-- The metadata the operations write. -/
structure ResourceMeta where
  title : Option String
  author : Option String
  publishedAt : Option String
  language : Option String
  description : Option String
  thumbnailUrl : Option String
  metadataMethod : Option MetadataMethod
  metadataFetchedAt : Option Nat
  deriving DecidableEq, Repr

/-- `allowedFields` of `applyManagedSourceMetadata`. -/
inductive MetaField where
  | title | author | publishedAt | language | description | thumbnailUrl
  deriving DecidableEq, Repr

namespace MetaField

def key : MetaField → String
  | title => "title"
  | author => "author"
  | publishedAt => "published_at"
  | language => "language"
  | description => "description"
  | thumbnailUrl => "thumbnail_url"

def allowedFields : List MetaField :=
  [title, author, publishedAt, language, description, thumbnailUrl]

end MetaField

def ResourceMeta.set (m : ResourceMeta) (val : String) : MetaField → ResourceMeta
  | .title => { m with title := some val }
  | .author => { m with author := some val }
  | .publishedAt => { m with publishedAt := some val }
  | .language => { m with language := some val }
  | .description => { m with description := some val }
  | .thumbnailUrl => { m with thumbnailUrl := some val }

structure ResourceFiles where
  resourceMeta : ResourceMeta
  content : Option String
  deriving DecidableEq, Repr

def validationFailed (message : String) : CeoError := ⟨"VALIDATION_FAILED", message⟩

def maxDescriptionChars : Nat := 2000

section apply

-- `urlProtocol s` is the protocol of `new URL(s)` if that does not throw, and `printed` the text
-- `String(value)` gives for a value that is no string.
variable (urlProtocol : String → Option String) (printed : Json → String)

def toJsString : Json → String
  | .str s => s
  | value => printed value

def normalizeDescription (val : String) : Option String :=
  let trimmed := jsTrim val
  if trimmed = "" then none
  else some (String.ofList (jsSlice maxDescriptionChars trimmed.toList))

def normalizeThumbnailUrl (val : String) : Option String :=
  let trimmed := jsTrim val
  if trimmed = "" then none
  else if urlProtocol trimmed = some "http:" ∨ urlProtocol trimmed = some "https:" then some trimmed
  else none

/-- What is kept of a text that is given for the field. -/
def MetaField.normalize (val : String) : MetaField → Option String
  | .description => normalizeDescription val
  | .thumbnailUrl => normalizeThumbnailUrl urlProtocol val
  | .title | .author | .publishedAt | .language =>
    let trimmed := jsTrim val
    if trimmed = "" then none else some trimmed

def mergeField (op : Fields) (state : ResourceMeta × Bool) (field : MetaField) :
    Except CeoError (ResourceMeta × Bool) :=
  match op.get field.key with
  | none | some .null => .ok state
  | some (.str val) =>
    match field.normalize urlProtocol val with
    | some kept => .ok (state.1.set kept field, true)
    | none => .ok state
  | some _ =>
    .error (validationFailed
      ("Field '" ++ field.key ++ "' in merge_source_metadata must be a string or null."))

def applyManagedSourceMetadata (now : Nat) (m : ResourceMeta) (op : Fields) :
    Except CeoError ResourceMeta := do
  let (merged, updatedAny) ← MetaField.allowedFields.foldlM (mergeField urlProtocol op) (m, false)
  if !updatedAny then
    .error (validationFailed ("merge_source_metadata requires at least one non-empty string field " ++
      "among: title, author, published_at, language, description, thumbnail_url."))
  else
    return { merged with
      metadataMethod :=
        if merged.metadataMethod = none ∨ merged.metadataMethod = some .worker then some .worker
        else some .mixed
      metadataFetchedAt := some now }

/-! ### applyManagedJobResult -/

/-- `/^res-[0-9a-f-]{36}$/i` -/
def resourceIdRe : String → Bool :=
  Pattern.test (Pattern.litAnyCase "res-" ++ Pattern.rep 36 fun c => Pattern.hexAnyCase c || c == '-')

def checkManagedOperation (op : Fields) : Except CeoError Unit :=
  match op.get "op" with
  | some (.str opKind) =>
    if opKind = "attach_source_asset" then
      .error (validationFailed "attach_source_asset is unsupported in managed results.")
    else if opKind ≠ "upsert_content" ∧ opKind ≠ "merge_source_metadata" then
      .error (validationFailed ("Operation '" ++ opKind ++ "' is not permitted in managed results. " ++
        "Allowed ops: 'upsert_content', 'merge_source_metadata'."))
    else if opKind = "upsert_content" then
      match op.get "content" with
      | some (.str _) =>
        match op.get "provenance" with
        | none | some (.str "worker") => .ok ()
        | some provenance =>
          .error (validationFailed ("Forbidden provenance '" ++ toJsString printed provenance ++
            "': only 'worker' is permitted in managed results."))
      | _ => .error (validationFailed "upsert_content requires a string 'content' field.")
    else .ok ()
  | _ =>
    .error (validationFailed "Every operation must be an object with an 'op' discriminator.")

/-- The checks before anything is read. -/
def checkManagedJobResult (input : ManagedJobResult) : Except CeoError Unit :=
  if input.jobId = "" then .error (validationFailed "jobId is required.")
  else if input.attemptId = "" then .error (validationFailed "attemptId is required.")
  else if !resourceIdRe input.resourceId then
    .error (validationFailed "Invalid resource_id format.")
  else if jsTrim input.summary = "" then .error (validationFailed "summary cannot be empty.")
  else if input.operations = [] then
    .error (validationFailed "At least one operation is required.")
  else if !hex64Re input.payloadSha256 then
    .error (validationFailed "payloadSha256 must be 64 hex chars.")
  else input.operations.forM (checkManagedOperation printed)

/-- One operation of the mutator; it has been checked. -/
def applyManagedOperation (now : Nat) (res : ResourceFiles) (op : Fields) :
    Except CeoError ResourceFiles :=
  match op.get "op" with
  | some (.str "upsert_content") =>
    match op.get "content" with
    | some content => .ok { res with content := some (toJsString printed content) }
    | none => .ok { res with content := some "undefined" }
  | some (.str "merge_source_metadata") => do
    let resourceMeta ← applyManagedSourceMetadata urlProtocol now res.resourceMeta op
    return { res with resourceMeta := resourceMeta }
  | _ => .ok res

/-- What becomes of the resource: the checks, then the operations in order. -/
def managedMutation (input : ManagedJobResult) (now : Nat) (res : ResourceFiles) :
    Except CeoError ResourceFiles := do
  checkManagedJobResult printed input
  input.operations.foldlM (applyManagedOperation urlProtocol printed now) res

end apply

/-! ### what passes -/

theorem jsTrim_eq_empty (s : String) : jsTrim s = "" ↔ isWhitespaceOnly s = true := by
  rw [jsTrim, ← String.toList_eq_nil_iff, String.toList_ofList, List.reverse_eq_nil_iff,
    Scan.strip_eq_nil_iff]
  rfl

def textOrNull : Option Json → Bool
  | none | some .null | some (.str _) => true
  | some _ => false

section passes

variable (urlProtocol : String → Option String) (printed : Json → String)

/-- Something is kept of what the operation gives for the field. -/
def fieldKept (op : Fields) (field : MetaField) : Bool :=
  match op.get field.key with
  | some (.str val) => (field.normalize urlProtocol val).isSome
  | _ => false

/-- The metadata of an operation that `applyManagedSourceMetadata` takes. -/
def metadataOk (op : Fields) : Bool :=
  MetaField.allowedFields.all (fun field => textOrNull (op.get field.key)) &&
    MetaField.allowedFields.any (fieldKept urlProtocol op)

theorem mergeField_ok (op : Fields) (state : ResourceMeta × Bool) (field : MetaField)
    (h : textOrNull (op.get field.key) = true) :
    ∃ state', mergeField urlProtocol op state field = .ok state' ∧
      state'.2 = (state.2 || fieldKept urlProtocol op field) := by
  unfold mergeField fieldKept
  match hv : op.get field.key with
  | none | some .null => exact ⟨state, rfl, by simp⟩
  | some (.str val) =>
    cases hn : field.normalize urlProtocol val with
    | none => exact ⟨state, by simp [hn], by simp [hn]⟩
    | some kept => exact ⟨(state.1.set kept field, true), by simp [hn], by simp [hn]⟩
  | some (.bool b) | some (.num n) | some (.arr items) | some (.obj fields) =>
    rw [hv] at h
    cases h

theorem mergeField_error (op : Fields) (state : ResourceMeta × Bool) (field : MetaField)
    (h : textOrNull (op.get field.key) = false) :
    ∃ e, mergeField urlProtocol op state field = .error e := by
  unfold mergeField
  match hv : op.get field.key with
  | none | some .null | some (.str val) =>
    rw [hv] at h
    cases h
  | some (.bool b) | some (.num n) | some (.arr items) | some (.obj fields) => exact ⟨_, rfl⟩

theorem applyManagedSourceMetadata_ok_iff (now : Nat) (m : ResourceMeta) (op : Fields) :
    (∃ m', applyManagedSourceMetadata urlProtocol now m op = .ok m') ↔
      metadataOk urlProtocol op = true := by
  unfold applyManagedSourceMetadata metadataOk
  cases hall : MetaField.allowedFields.all (fun field => textOrNull (op.get field.key)) with
  | false =>
    obtain ⟨e, he⟩ := Scan.foldlM_error (mergeField_error urlProtocol op) hall (m, false)
    rw [he]
    exact ⟨fun ⟨_, h⟩ => (by cases h), fun h => (by cases h)⟩
  | true =>
    obtain ⟨⟨merged, updated⟩, hs, hflag⟩ :=
      Scan.foldlM_ok Prod.snd (mergeField_ok urlProtocol op) hall (m, false)
    rw [hs]
    rw [Bool.false_or] at hflag
    rw [Bool.true_and, ← hflag]
    cases updated with
    | false => exact ⟨fun ⟨_, h⟩ => (by cases h), fun h => (by cases h)⟩
    | true => exact ⟨fun _ => rfl, fun _ => ⟨_, rfl⟩⟩

/-- The operations that may be applied, before their metadata is looked at. -/
def operationOk (op : Fields) : Prop :=
  (op.get "op" = some (.str "upsert_content") ∧ (∃ content, op.get "content" = some (.str content)) ∧
    (op.get "provenance" = none ∨ op.get "provenance" = some (.str "worker"))) ∨
  op.get "op" = some (.str "merge_source_metadata")

theorem checkManagedOperation_ok_iff (op : Fields) :
    checkManagedOperation printed op = .ok () ↔ operationOk op := by
  unfold checkManagedOperation operationOk
  match hop : op.get "op" with
  | none | some .null | some (.bool _) | some (.num _) | some (.arr _) | some (.obj _) => simp
  | some (.str opKind) =>
    dsimp only
    split_ifs with hattach hother hupsert
    · simp [hattach]
    · simp [hother.1, hother.2]
    · subst hupsert
      match hcontent : op.get "content" with
      | none | some .null | some (.bool _) | some (.num _) | some (.arr _) | some (.obj _) => simp
      | some (.str content) =>
        dsimp only
        split
        next hprov => simp [hprov]
        next hprov => simp [hprov]
        next provenance hne hprov =>
          have hother : provenance ≠ .str "worker" := fun h => hne (h ▸ rfl)
          simp [hprov, hother]
    · have : opKind = "merge_source_metadata" := by
        by_contra hne
        exact hother ⟨hupsert, hne⟩
      simp [this]

/-- The managed results the checks let pass. -/
structure ChecksPass (input : ManagedJobResult) : Prop where
  jobId : input.jobId ≠ ""
  attemptId : input.attemptId ≠ ""
  resourceId : resourceIdRe input.resourceId = true
  summary : isWhitespaceOnly input.summary = false
  nonempty : input.operations ≠ []
  payloadSha256 : hex64Re input.payloadSha256 = true
  operations : ∀ op : Fields, op ∈ input.operations → operationOk op

theorem matchChars_append {p q : Pattern} (h : ∀ cs, p.matchChars cs = true → q.matchChars cs = true)
    (pre : Pattern) (cs : List Char) (hc : Pattern.matchChars (pre ++ p) cs = true) :
    Pattern.matchChars (pre ++ q) cs = true := by
  induction pre generalizing cs with
  | nil => exact h cs hc
  | cons a pre ih =>
    cases cs with
    | nil => cases hc
    | cons c cs =>
      simp only [List.cons_append, Pattern.matchChars, Bool.and_eq_true] at hc ⊢
      exact ⟨hc.1, ih cs hc.2⟩

theorem matchChars_rep {p : Pattern} {cls : Char → Bool}
    (h : ∀ q ∈ p, ∀ c, q c = true → cls c = true) (cs : List Char)
    (hc : p.matchChars cs = true) : (Pattern.rep p.length cls).matchChars cs = true := by
  induction p generalizing cs with
  | nil => exact hc
  | cons q p ih =>
    cases cs with
    | nil => cases hc
    | cons c cs =>
      simp only [Pattern.matchChars, Bool.and_eq_true] at hc
      simp only [Pattern.rep, List.length_cons, List.replicate_succ, Pattern.matchChars,
        Bool.and_eq_true]
      exact ⟨h q (by simp) c hc.1, ih (fun q hq => h q (by simp [hq])) cs hc.2⟩

/-- The service's own pattern is wider than the schema's. -/
theorem resourceIdRe_of_v2 {s : String} (h : resourceIdV2Re s = true) : resourceIdRe s = true := by
  have hclass : ∀ q ∈ Pattern.uuid Pattern.hexAnyCase, ∀ c, q c = true →
      (Pattern.hexAnyCase c || c == '-') = true := by
    intro q hq c hc
    have hdash : Pattern.lit "-" = [Pattern.chr '-'] := rfl
    simp only [Pattern.uuid, Pattern.rep, hdash, List.mem_append, List.mem_replicate,
      List.mem_singleton] at hq
    have hcases : q = Pattern.hexAnyCase ∨ q = Pattern.chr '-' := by tauto
    rw [Bool.or_eq_true]
    rcases hcases with rfl | rfl
    · exact .inl hc
    · exact .inr hc
  exact matchChars_append (matchChars_rep hclass) _ _ h

theorem checkManagedJobResult_ok_iff (input : ManagedJobResult) :
    checkManagedJobResult printed input = .ok () ↔ ChecksPass input := by
  unfold checkManagedJobResult
  have hsummary : jsTrim input.summary = "" ↔ ¬isWhitespaceOnly input.summary = false := by
    rw [jsTrim_eq_empty, Bool.not_eq_false]
  constructor
  · intro h
    split_ifs at h with h1 h2 h3 h4 h5 h6
    have hops := Scan.forM_ok_iff.1 h
    exact ⟨h1, h2, by simpa using h3, not_not.1 fun hn => h4 (hsummary.2 hn), h5, by simpa using h6,
      fun op hop => (checkManagedOperation_ok_iff printed op).1 (hops op hop)⟩
  · intro h
    rw [if_neg h.jobId, if_neg h.attemptId, if_neg (by simp [h.resourceId]),
      if_neg (fun hn => hsummary.1 hn h.summary), if_neg h.nonempty,
      if_neg (by simp [h.payloadSha256])]
    exact Scan.forM_ok_iff.2 fun op hop =>
      (checkManagedOperation_ok_iff printed op).2 (h.operations op hop)

/-- The operation goes through: it has no metadata, or metadata that can be merged. -/
def mutationOk (op : Fields) : Bool :=
  match op.get "op" with
  | some (.str "merge_source_metadata") => metadataOk urlProtocol op
  | _ => true

theorem mutationOk_iff (op : Fields) : mutationOk urlProtocol op = true ↔
    (op.get "op" = some (.str "merge_source_metadata") → metadataOk urlProtocol op = true) := by
  unfold mutationOk
  split
  next hop => simp [hop]
  next hop => exact ⟨fun _ h => absurd h hop, fun _ => rfl⟩

theorem applyManagedOperation_ok (now : Nat) (res : ResourceFiles) (op : Fields)
    (h : mutationOk urlProtocol op = true) :
    ∃ res', applyManagedOperation urlProtocol printed now res op = .ok res' := by
  unfold applyManagedOperation
  unfold mutationOk at h
  split
  · split <;> exact ⟨_, rfl⟩
  next hop =>
    rw [hop] at h
    obtain ⟨m, hm⟩ := (applyManagedSourceMetadata_ok_iff urlProtocol now res.resourceMeta op).2 h
    rw [hm]
    exact ⟨_, rfl⟩
  · exact ⟨_, rfl⟩

theorem applyManagedOperation_error (now : Nat) (res : ResourceFiles) (op : Fields)
    (h : mutationOk urlProtocol op = false) :
    ∃ e, applyManagedOperation urlProtocol printed now res op = .error e := by
  unfold mutationOk at h
  split at h
  next hop =>
    unfold applyManagedOperation
    rw [hop]
    cases hm : applyManagedSourceMetadata urlProtocol now res.resourceMeta op with
    | error e =>
      refine ⟨e, ?_⟩
      simp only
      rfl
    | ok m =>
      have hok := (applyManagedSourceMetadata_ok_iff urlProtocol now res.resourceMeta op).1 ⟨m, hm⟩
      rw [h] at hok
      cases hok
  · cases h

/-- Whatever the resource is, the operations go through exactly when the checks pass and every
metadata operation gives texts and something to keep. -/
theorem managedMutation_ok_iff (input : ManagedJobResult) (now : Nat) (res : ResourceFiles) :
    (∃ res', managedMutation urlProtocol printed input now res = .ok res') ↔
      ChecksPass input ∧ ∀ op : Fields, op ∈ input.operations →
        op.get "op" = some (.str "merge_source_metadata") → metadataOk urlProtocol op = true := by
  unfold managedMutation
  rw [← checkManagedJobResult_ok_iff printed]
  have hall : (∀ op : Fields, op ∈ input.operations →
      op.get "op" = some (.str "merge_source_metadata") → metadataOk urlProtocol op = true) ↔
      input.operations.all (mutationOk urlProtocol) = true := by
    rw [List.all_eq_true]
    exact forall₂_congr fun op _ => (mutationOk_iff urlProtocol op).symm
  rw [hall]
  cases checkManagedJobResult printed input with
  | error e => exact ⟨fun ⟨_, h⟩ => (by cases h), fun h => (by cases h.1)⟩
  | ok _ =>
    cases hops : input.operations.all (mutationOk urlProtocol) with
    | false =>
      obtain ⟨e, he⟩ := Scan.foldlM_error
        (fun r op => applyManagedOperation_error urlProtocol printed now r op) hops res
      refine ⟨fun ⟨res', h⟩ => ?_, fun h => (by cases h.2)⟩
      change List.foldlM (applyManagedOperation urlProtocol printed now) res input.operations =
        Except.ok res' at h
      rw [he] at h
      cases h
    | true =>
      obtain ⟨res', hres, -⟩ := @Scan.foldlM_ok _ _ _ _ (fun _ => false) _ (fun _ => false)
        (fun r op h => by
          obtain ⟨r', hr⟩ := applyManagedOperation_ok urlProtocol printed now r op h
          exact ⟨r', hr, rfl⟩) _ hops res
      exact ⟨fun _ => ⟨rfl, rfl⟩, fun _ => ⟨res', hres⟩⟩

end passes

end Ceo.Resource
