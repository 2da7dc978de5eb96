import Ceo.Lib.Keyed
import Ceo.Resource.Managed

/-!
# Capturing, attaching and deleting resources

`capture`, `apply` and `delete` of `ResourceService` (`resource/service.ts`)
with the lookups they make (`resource/locator.ts`) and the identities a
resolver gives (`resource/resolver-mapping.ts`). A transaction of the workspace
is one step on the list of resources. Of a resource there is what these read;
times are numbers.
-/

namespace Ceo.Resource

open Ceo.Lib Ceo.Jobs

/-! ### resources -/

inductive SourceType where
  | url | file | externalRef
  deriving DecidableEq, Repr

inductive MetadataAttemptStatus where
  | resolved | unavailable | unsupported | disabled
  deriving DecidableEq, Repr

structure MetadataAttemptRecord where
  attemptedAt : Nat
  status : MetadataAttemptStatus
  code : Option String
  deriving DecidableEq, Repr

structure LocatedResource where
  resourceId : String
  sourceAliases : List String
  lastMetadataAttempt : Option MetadataAttemptRecord
  sourceType : SourceType
  sourceIdentity : Option String
  sourceRef : Option String
  canonicalRef : Option String
  platform : Option String
  platformId : Option String
  originalName : Option String
  mediaType : Option String
  format : Option String
  assetRef : Option String
  sourceHash : Option String
  /-- The fields a managed result can write too. -/
  described : ResourceMeta
  deriving DecidableEq, Repr

/-- The identity is the resource's own or one of its aliases. -/
def LocatedResource.answersTo (r : LocatedResource) (sourceIdentity : String) : Bool :=
  r.sourceIdentity == some sourceIdentity || r.sourceAliases.contains sourceIdentity

/-- The resources of a workspace, as `enumerateResources` finds them. -/
abbrev Store := Keyed LocatedResource.resourceId

inductive ServiceError where
  | ceo (e : CeoError)
  /-- An `Error` with its message. -/
  | plain (message : String)
  deriving DecidableEq, Repr

/-! ### lookups -/

/-- `matches[0]`, when the matches are one resource. -/
def onlyMatch (message : String → String) (found : List LocatedResource) :
    Except ServiceError (Option LocatedResource) :=
  let uniqueIds := (found.map (·.resourceId)).eraseDups
  if 1 < uniqueIds.length then
    .error (.ceo ⟨"DUPLICATE_RESOURCE", message (String.intercalate ", " uniqueIds)⟩)
  else .ok found.head?

def findResourceByIdentity (s : Store) (sourceIdentity : String) :
    Except ServiceError (Option LocatedResource) :=
  onlyMatch (fun ids => "Identity conflict: multiple distinct resources match identity '" ++
    sourceIdentity ++ "': " ++ ids ++ ".") (s.items.filter (·.answersTo sourceIdentity))

structure ResourceLookupCriteria where
  preferredIdentity : String
  baselineIdentity : String
  normalizedUrl : String

def ResourceLookupCriteria.matchesUrl (c : ResourceLookupCriteria) (r : LocatedResource) : Bool :=
  r.answersTo c.preferredIdentity || r.answersTo c.baselineIdentity ||
    r.sourceType == .url && (r.canonicalRef.map jsTrim == some c.normalizedUrl ||
      r.sourceRef.map jsTrim == some c.normalizedUrl)

def findResourceByUrlOrIdentities (s : Store) (c : ResourceLookupCriteria) :
    Except ServiceError (Option LocatedResource) :=
  onlyMatch (fun ids => "Identity conflict: multiple distinct resources match lookup criteria: " ++
    ids ++ ".") (s.items.filter c.matchesUrl)

def findResourceByHash (s : Store) (hash excludeResourceId : String) : Option LocatedResource :=
  s.items.find? fun r => r.sourceHash == some hash && r.resourceId != excludeResourceId

/-! ### what is outside -/

structure NormalizedUrlResult where
  sourceIdentity : String
  canonicalRef : String
  platform : String
  platformId : Option String
  sourceIdentity_ne : sourceIdentity ≠ ""
  canonicalRef_ne : canonicalRef ≠ ""

structure SourceAsset where
  ext : String
  format : String
  mediaType : String

/-- How a URL is normalized, an asset checked and a digest computed; nothing here depends on it. -/
structure Services where
  normalizeUrlSource : String → Except ServiceError NormalizedUrlResult
  validateSourceAsset : String → String → List UInt8 → Except CeoError SourceAsset
  sha256 : List UInt8 → String
  toLowerCase : String → String
  /-- `new URL(s).protocol`, if that does not throw. -/
  urlProtocol : String → Option String
  /-- `String(value)` of a value that is no string. -/
  printed : Json → String

structure ContentMetadataV1 where
  sourceType : String
  sourceId : Option String
  canonicalUrl : Option String
  title : Option String
  creator : Option String
  publishedAt : Option String
  description : Option String
  thumbnailUrl : Option String
  language : Option String
  capturedAt : Nat
  deriving DecidableEq, Repr

/-- What the resolver answers; `metadata` comes with `resolved` only. -/
inductive ResolverOutcome where
  | resolved (attemptedAt : Nat) (code : Option String) (metadata : ContentMetadataV1)
  | unavailable (attemptedAt : Nat) (code : Option String)
  | unsupported (attemptedAt : Nat) (code : Option String)
  | disabled
  deriving DecidableEq, Repr

def ResolverOutcome.metadata : ResolverOutcome → Option ContentMetadataV1
  | .resolved _ _ metadata => some metadata
  | .unavailable _ _ | .unsupported _ _ | .disabled => none

def ResolverOutcome.attemptRecord : ResolverOutcome → Option MetadataAttemptRecord
  | .resolved attemptedAt code _ => some ⟨attemptedAt, .resolved, code⟩
  | .unavailable attemptedAt code => some ⟨attemptedAt, .unavailable, code⟩
  | .unsupported attemptedAt code => some ⟨attemptedAt, .unsupported, code⟩
  | .disabled => none

/-- `path.basename` -/
def basename (p : String) : String :=
  String.ofList ((p.toList.reverse.dropWhile (· == '/')).takeWhile (· != '/')).reverse

/-! ### resolved metadata -/

/-- `/^[a-z0-9][a-z0-9._-]{0,63}$/i` -/
def isValidProviderToken (token : String) : Bool :=
  match token.toList with
  | [] => false
  | c :: cs => c.isAlphanum && cs.length ≤ 63 &&
      cs.all fun c => c.isAlphanum || c == '.' || c == '_' || c == '-'

def isValidSourceId (id : String) : Bool :=
  0 < jsLength id && jsLength id ≤ 256 && id.toList.all fun c => 0x1f < c.toNat && c.toNat ≠ 0x7f

def trimmed (value : Option String) : Option String :=
  value.bind fun v => if jsTrim v = "" then none else some (jsTrim v)

section services

variable (w : Services)

def isValidCanonicalUrl (url : String) : Bool :=
  url != "" && (w.urlProtocol url == some "http:" || w.urlProtocol url == some "https:")

/-- The provider and the id the resolver gives, where both are valid. -/
def ContentMetadataV1.provider (m : ContentMetadataV1) : Option String :=
  if isValidProviderToken m.sourceType then some (w.toLowerCase m.sourceType) else none

def ContentMetadataV1.validId (m : ContentMetadataV1) : Option String :=
  m.sourceId.filter isValidSourceId

def ContentMetadataV1.validUrl (m : ContentMetadataV1) : Option String :=
  m.canonicalUrl.filter (isValidCanonicalUrl w)

def derivePreferredIdentity (baselineIdentity : String) (metadata : Option ContentMetadataV1) :
    String :=
  match metadata with
  | none => baselineIdentity
  | some m =>
    match m.provider w, m.validId with
    | some provider, some sourceId => provider ++ ":" ++ sourceId
    | _, _ => baselineIdentity

/-- The texts of the metadata; what it does not give stays as it is. -/
def ContentMetadataV1.describe (m : ContentMetadataV1) (d : ResourceMeta) : ResourceMeta :=
  { d with
    title := (trimmed m.title).or d.title
    author := (trimmed m.creator).or d.author
    publishedAt := (trimmed m.publishedAt).or d.publishedAt
    description := (m.description.bind normalizeDescription).or d.description
    thumbnailUrl := (m.thumbnailUrl.bind (normalizeThumbnailUrl w.urlProtocol)).or d.thumbnailUrl
    language := (trimmed m.language).or d.language }

/-- The second component says whether a field is another. -/
def applyResolverRevisitUpdates (r : LocatedResource) (metadata : Option ContentMetadataV1) :
    LocatedResource × Bool :=
  match metadata with
  | none => (r, false)
  | some m =>
    let updated : LocatedResource :=
      { r with
        described := m.describe w r.described
        canonicalRef := (m.validUrl w).or r.canonicalRef
        platform := (m.provider w).or r.platform
        platformId := m.validId.or r.platformId }
    if updated = r then (r, false)
    else
      ({ updated with
          described := { updated.described with
            metadataMethod := some .deterministicAdapter
            metadataFetchedAt := some m.capturedAt } }, true)

/-- The two identities and the reference a capture of the URL looks for. -/
def urlCriteria (norm : NormalizedUrlResult) (metadata : Option ContentMetadataV1) :
    ResourceLookupCriteria :=
  ⟨derivePreferredIdentity w norm.sourceIdentity metadata, norm.sourceIdentity, norm.canonicalRef⟩

/-! ### the source of a capture -/

inductive ResourceSource where
  /-- With what the resolver answers for the URL. -/
  | url (url : String) (outcome : ResolverOutcome)
  | fileDescriptor (filename : String) (hostRef : Option String)
  | fileInline (filename mimeType : String) (data : List UInt8)
  | externalRef (provider ref : String) (canonicalRef : Option String)

/-- How the existing resource is looked for. -/
inductive Lookup where
  | url (criteria : ResourceLookupCriteria)
  | identity (sourceIdentity : String)
  /-- A file descriptor: there is nothing to look for. -/
  | provisional

/-- What is known before the transaction; `fresh id` is the resource it would make. -/
structure Prepared where
  lookup : Lookup
  attempt : Option MetadataAttemptRecord
  metadata : Option ContentMetadataV1
  fresh : String → LocatedResource

def fileHash (data : List UInt8) : String := "sha256:" ++ w.sha256 data

def fileIdentity (data : List UInt8) : String := "file:sha256:" ++ w.sha256 data

def noMetadata (method : Option MetadataMethod) : ResourceMeta :=
  ⟨none, none, none, none, none, none, method, none⟩

/-- The URL gives an id, and the resolver another. -/
def checkProviderId (norm : NormalizedUrlResult) (metadata : Option ContentMetadataV1) :
    Except ServiceError Unit :=
  match norm.platformId, metadata.bind (·.sourceId) with
  | some platformId, some sourceId =>
    if platformId ≠ "" ∧ sourceId ≠ "" ∧ w.toLowerCase platformId ≠ w.toLowerCase sourceId then
      .error (.ceo ⟨"DUPLICATE_RESOURCE", "Provider ID conflict between input URL platform_id '" ++
        platformId ++ "' and resolver source_id '" ++ sourceId ++ "'."⟩)
    else .ok ()
  | _, _ => .ok ()

def prepareUrl (url : String) (outcome : ResolverOutcome) : Except ServiceError Prepared := do
  let norm ← w.normalizeUrlSource url
  checkProviderId w norm outcome.metadata
  let criteria := urlCriteria w norm outcome.metadata
  return {
    lookup := .url criteria
    attempt := outcome.attemptRecord
    metadata := outcome.metadata
    fresh := fun resourceId =>
      { resourceId := resourceId
        sourceAliases :=
          if criteria.preferredIdentity = norm.sourceIdentity then [] else [norm.sourceIdentity]
        lastMetadataAttempt := outcome.attemptRecord
        sourceType := .url
        sourceIdentity := some criteria.preferredIdentity
        sourceRef := some url
        canonicalRef := (outcome.metadata.bind (·.validUrl w)).or (some norm.canonicalRef)
        platform := (outcome.metadata.bind (·.provider w)).or (some norm.platform)
        platformId := (outcome.metadata.bind (·.validId)).or norm.platformId
        originalName := none
        mediaType := none
        format := none
        assetRef := none
        sourceHash := none
        described :=
          match outcome.metadata with
          | none => noMetadata none
          | some m =>
            { m.describe w (noMetadata (some .deterministicAdapter)) with
              metadataFetchedAt := some m.capturedAt } } }

def prepareSource : ResourceSource → Except ServiceError Prepared
  | .url url outcome => prepareUrl w url outcome
  | .fileDescriptor filename hostRef =>
    .ok {
      lookup := .provisional
      attempt := none
      metadata := none
      fresh := fun resourceId =>
        { resourceId := resourceId
          sourceAliases := []
          lastMetadataAttempt := none
          sourceType := .file
          sourceIdentity := none
          sourceRef := hostRef
          canonicalRef := none
          platform := none
          platformId := none
          originalName := some (basename filename)
          mediaType := none
          format := none
          assetRef := none
          sourceHash := none
          described := noMetadata (some .userProvided) } }
  | .fileInline filename mimeType data =>
    match w.validateSourceAsset filename mimeType data with
    | .error e => .error (.ceo e)
    | .ok asset =>
      .ok {
        lookup := .identity (fileIdentity w data)
        attempt := none
        metadata := none
        fresh := fun resourceId =>
          { resourceId := resourceId
            sourceAliases := []
            lastMetadataAttempt := none
            sourceType := .file
            sourceIdentity := some (fileIdentity w data)
            sourceRef := none
            canonicalRef := none
            platform := none
            platformId := none
            originalName := some (basename filename)
            mediaType := some asset.mediaType
            format := some asset.format
            assetRef := some ("source/original" ++ asset.ext)
            sourceHash := some (fileHash w data)
            described := noMetadata (some .userProvided) } }
  | .externalRef provider ref canonicalRef =>
    .ok {
      lookup := .identity (provider ++ ":" ++ ref)
      attempt := none
      metadata := none
      fresh := fun resourceId =>
        { resourceId := resourceId
          sourceAliases := []
          lastMetadataAttempt := none
          sourceType := .externalRef
          sourceIdentity := some (provider ++ ":" ++ ref)
          sourceRef := some ref
          canonicalRef := canonicalRef
          platform := some provider
          platformId := some ref
          originalName := none
          mediaType := none
          format := none
          assetRef := none
          sourceHash := none
          described := noMetadata (some .userProvided) } }

/-! ### operations -/

inductive ResourceOperation where
  | attachSourceAsset (filename mimeType : String) (data : List UInt8)
  /-- `upsert_evidence`, `upsert_content`, `upsert_summary`, `append_interaction`, `patch_topics`:
  they write files of their own, or the topics. -/
  | other

/-- The resource is `r` as the operations before have left it; what is on the disk is in `s`. -/
def executeResourceOperation (s : Store) (r : LocatedResource) :
    ResourceOperation → Except ServiceError LocatedResource
  | .other => .ok r
  | .attachSourceAsset filename mimeType data =>
    match w.validateSourceAsset filename mimeType data with
    | .error e => .error (.ceo e)
    | .ok asset =>
      match findResourceByHash s (fileHash w data) r.resourceId with
      | some colliding =>
        .error (.ceo ⟨"DUPLICATE_RESOURCE", "File asset matches existing resource '" ++
          colliding.resourceId ++ "'. Automatic merge is not supported."⟩)
      | none =>
        .ok { r with
          assetRef := some ("source/original" ++ asset.ext)
          sourceHash := some (fileHash w data)
          mediaType := some asset.mediaType
          format := some asset.format
          originalName := some (basename filename)
          sourceIdentity := r.sourceIdentity.or (some (fileIdentity w data)) }

def executeResourceOperations (s : Store) (r : LocatedResource) (operations : List ResourceOperation) :
    Except ServiceError LocatedResource :=
  operations.foldlM (executeResourceOperation w s) r

/-! ### capture -/

def addAlias (r : LocatedResource) (aliasSet : List String) (sourceIdentity : String) : List String :=
  if some sourceIdentity ≠ r.sourceIdentity ∧ sourceIdentity ∉ aliasSet then
    aliasSet ++ [sourceIdentity]
  else aliasSet

def grownAliases (r : LocatedResource) (c : ResourceLookupCriteria) : List String :=
  addAlias r (addAlias r r.sourceAliases.eraseDups c.preferredIdentity) c.baselineIdentity

def aliasChanged (r : LocatedResource) (c : ResourceLookupCriteria) : Bool :=
  grownAliases r c ≠ r.sourceAliases.eraseDups

def updateAliases (r : LocatedResource) (c : ResourceLookupCriteria) : LocatedResource :=
  if aliasChanged r c then { r with sourceAliases := grownAliases r c } else r

/-- The record of the attempt, if it is newer than the one of the resource. -/
def freshAttempt (attempt : Option MetadataAttemptRecord) (r : LocatedResource) :
    Option MetadataAttemptRecord :=
  attempt.filter fun current =>
    r.lastMetadataAttempt.all fun last => last.attemptedAt < current.attemptedAt

/-- What a capture of its URL does to the existing resource. -/
def revisitUrl (p : Prepared) (c : ResourceLookupCriteria) (r : LocatedResource) : LocatedResource :=
  match freshAttempt p.attempt r with
  | none => r
  | some current =>
    let (updated, metadataChanged) := applyResolverRevisitUpdates w (updateAliases r c) p.metadata
    let attemptStatusChanged : Bool :=
      match r.lastMetadataAttempt with
      | none => true
      | some last => last.status ≠ current.status || last.code ≠ current.code
    if metadataChanged || attemptStatusChanged || aliasChanged r c then
      { updated with lastMetadataAttempt := some current }
    else updated

def revisit (p : Prepared) (r : LocatedResource) : LocatedResource :=
  match p.lookup with
  | .url c => revisitUrl w p c r
  | .identity _ | .provisional => r

def findExisting (s : Store) (p : Prepared) : Except ServiceError (Option LocatedResource) :=
  match p.lookup with
  | .url c => findResourceByUrlOrIdentities s c
  | .identity sourceIdentity => findResourceByIdentity s sourceIdentity
  | .provisional => .ok none

structure CaptureInput where
  source : ResourceSource
  /-- `generateResourceId()` -/
  resourceId : String
  initialOperations : List ResourceOperation

structure Receipt where
  resourceId : String
  isRevisit : Bool
  deriving DecidableEq, Repr

def capture (s : Store) (input : CaptureInput) : Except ServiceError (Receipt × Store) := do
  let p ← prepareSource w input.source
  let existing ← findExisting s p
  match existing with
  | some found =>
    let r ← executeResourceOperations w s (revisit w p found) input.initialOperations
    return (⟨r.resourceId, true⟩, s.put r)
  | none =>
    let r ← executeResourceOperations w s (p.fresh input.resourceId) input.initialOperations
    return (⟨r.resourceId, false⟩, s.add r)

/-! ### the other operations -/

def notFound (resourceId : String) : ServiceError :=
  .ceo ⟨"NOT_FOUND", "Resource '" ++ resourceId ++ "' does not exist."⟩

def apply (s : Store) (resourceId : String) (operations : List ResourceOperation) :
    Except ServiceError (Receipt × Store) :=
  if operations = [] then
    .error (.ceo ⟨"VALIDATION_FAILED", "At least one operation is required."⟩)
  else
    match s.find resourceId with
    | none => .error (notFound resourceId)
    | some found => do
      let r ← executeResourceOperations w s found operations
      return (⟨r.resourceId, true⟩, s.put r)

/-- A managed result changes what the resource says of itself, and its content. -/
def applyManaged (s : Store) (now : Nat) (input : ManagedJobResult) :
    Except ServiceError (Receipt × Store) :=
  match s.find input.resourceId with
  | none => .error (notFound input.resourceId)
  | some found =>
    match managedMutation w.urlProtocol w.printed input now ⟨found.described, none⟩ with
    | .error e => .error (.ceo e)
    | .ok files =>
      .ok (⟨found.resourceId, true⟩, s.put { found with described := files.resourceMeta })

def delete (s : Store) (resourceId : String) : Except ServiceError (Receipt × Store) :=
  match s.find resourceId with
  | none => .error (notFound resourceId)
  | some found => .ok (⟨found.resourceId, true⟩, s.erase resourceId)

/-! ### the service -/

inductive ServiceCall where
  | capture (input : CaptureInput)
  | apply (resourceId : String) (operations : List ResourceOperation)
  | managed (now : Nat) (input : ManagedJobResult)
  | delete (resourceId : String)

def serve (s : Store) : ServiceCall → Except ServiceError (Receipt × Store)
  | .capture input => capture w s input
  | .apply resourceId operations => apply w s resourceId operations
  | .managed now input => applyManaged w s now input
  | .delete resourceId => delete s resourceId

/-- `randomUUID` gives no id that is there. -/
def ServiceCall.idUnused (s : Store) : ServiceCall → Bool
  | .capture input => input.resourceId ∉ s.items.map (·.resourceId)
  | .apply _ _ | .managed _ _ | .delete _ => true

/-- A call that fails leaves the resources as they are. -/
def storeAfter (s : Store) (call : ServiceCall) : Store :=
  match serve w s call with
  | .ok (_, t) => t
  | .error _ => s

def resourceSystem : LTS Store ServiceCall :=
  .ofOption (· = .empty) fun s call =>
    if call.idUnused s then some (storeAfter w s call) else none

end services

end Ceo.Resource
