import Ceo.Lib.Markdown
import Ceo.Resource.Managed

/-!
# meta.md

`parseMetaMarkdown` and `formatMetaMarkdown` (`resource/meta.ts`), and the
rewriting of the file that every resource operation does
(`resource/service.ts`): it is parsed, its document changed, and formatted again.
-/

namespace Ceo.Resource.MetaDocument

open Ceo.Lib Ceo.Lib.Markdown Ceo.Jobs

/-! ### documents -/

inductive NamingSource where
  | explicit | id
  deriving DecidableEq, Repr

def NamingSource.text : NamingSource → String
  | explicit => "explicit"
  | id => "id"

inductive MetadataAttemptStatus where
  | resolved | unavailable | unsupported | disabled
  deriving DecidableEq, Repr

def MetadataAttemptStatus.text : MetadataAttemptStatus → String
  | resolved => "resolved"
  | unavailable => "unavailable"
  | unsupported => "unsupported"
  | disabled => "disabled"

structure MetadataAttemptRecord where
  attemptedAt : String
  status : MetadataAttemptStatus
  code : Option String
  fieldsResolved : List String
  strategy : Option String
  httpStatus : Option String
  requestId : Option String

/-- The values that are read without a check are kept as they come. -/
structure ResourceMeta where
  resourceId : String
  displayName : String
  namingSource : NamingSource
  sourceAliases : List String
  lastMetadataAttempt : Option MetadataAttemptRecord
  resourceKind : Json
  sourceType : Json
  sourceIdentity : Option String
  sourceRef : Option String
  canonicalRef : Option String
  platform : Option String
  platformId : Option String
  originalName : Option String
  mediaType : Option String
  format : Option String
  assetRef : Option String
  sourceHash : Option String
  title : Option String
  author : Option String
  publishedAt : Option String
  description : Option String
  thumbnailUrl : Option String
  firstCapturedAt : String
  language : Option String
  topics : List String
  metadataMethod : Json
  metadataFetchedAt : Option String
  captureSurface : String

/-- What the file holds. -/
structure Document where
  metadata : ResourceMeta
  captureNote : Option Text
  captureHistory : List Text

structure ParsedMetaDocument extends Document where
  heading : Option Text

/-- The YAML library; `parse` throws with a text. -/
structure Yaml where
  parse : Text → Except String Json
  stringify : Json → Text

/-- The value comes back from its own text, which has no document marker in it. -/
def Yaml.Lossless (yaml : Yaml) (value : Json) : Prop :=
  ∃ t, yaml.stringify value = t ++ ['\n'] ∧ yaml.parse t = .ok value ∧
    ¬MarkedLine ['-', '-', '-'] t ∧ t.getLast? ≠ some '\r'

def invalidMeta (message : String) : CeoError := ⟨"INVALID_META", message⟩

/-! ### parseMetaMarkdown -/

/-- `\r?\n---(?:\r?\n|$)`: what stands after it. -/
def closingFence (t : Text) : Option Text :=
  match afterNewline t with
  | some ('-' :: '-' :: '-' :: rest) => if rest = [] then some [] else afterNewline rest
  | _ => none

/-- `^---\r?\n([\s\S]*?)\r?\n---(?:\r?\n|$)([\s\S]*)$` -/
def splitFrontmatter : Text → Option (Text × Text)
  | '-' :: '-' :: '-' :: content =>
    (afterNewline content).bind fun rest =>
      let parts := splitAt (fun t => (closingFence t).isSome) rest
      (closingFence parts.2).map fun body => (parts.1, body)
  | _ => none

/-- Where `.` does not match, and after which `^` does. -/
def isLineTerminator (c : Char) : Bool :=
  c == '\n' || c == '\r' || c.toNat == 0x2028 || c.toNat == 0x2029

/-- `#\s+(.+)$`, the group trimmed. -/
def headingHere : Text → Option Text
  | '#' :: rest =>
    let spaces := rest.takeWhile isJsSpace
    let text := rest.dropWhile isJsSpace
    if spaces = [] then none
    else if text ≠ [] then some (trim isJsSpace (text.takeWhile fun c => !isLineTerminator c))
    -- only spaces are left: one after the first is what the group has
    else if (spaces.drop 1).any fun c => !isLineTerminator c then some []
    else none
  | _ => none

def findHeading (lineStart : Bool) : Text → Option Text
  | [] => none
  | c :: cs =>
    match if lineStart then headingHere (c :: cs) else none with
    | some heading => some heading
    | none => findHeading (isLineTerminator c) cs

def captureNoteTitle : Text := "Capture Note".toList

def captureHistoryTitle : Text := "Capture History".toList

/-- `##\s+title\r?\n([\s\S]*?)(?=\r?\n##|$)` -/
def sectionOf (title body : Text) : Option Text :=
  (afterHeading isJsSpace title body).map untilHeading

def parseCaptureNote (body : Text) : Option Text :=
  match sectionOf captureNoteTitle body with
  | some text => if trim isJsSpace text = [] then none else some (trim isJsSpace text)
  | none => none

def parseCaptureHistory (body : Text) : List Text :=
  match sectionOf captureHistoryTitle body with
  | some text => items isJsSpace text
  | none => []

section values

-- `printed` is the text `String(value)` gives for a value that is no string, `now` the time of day.
variable (printed : Json → String) (now : String)

/-- `value != null ? String(value) : null` -/
def stringOrNull : Option Json → Option String
  | none => none
  | some .null => none
  | some value => some (toJsString printed value)

def isFalsy : Option Json → Bool
  | none => true
  | some .null => true
  | some (.bool b) => !b
  | some (.num literal) => printed (.num literal) == "0" || printed (.num literal) == "NaN"
  | some (.str s) => s == ""
  | some (.arr _) => false
  | some (.obj _) => false

/-- `Array.isArray(value) ? value.map(String) : []` -/
def stringList : Option Json → List String
  | some (.arr values) => values.map (toJsString printed)
  | _ => []

/-- The fields of what `typeof` calls an object. -/
def objectFields : Json → Option Fields
  | .obj fields => some fields
  | .arr _ => some []
  | _ => none

def statusOf (text : String) : MetadataAttemptStatus :=
  if text = "resolved" then .resolved
  else if text = "unsupported" then .unsupported
  else if text = "disabled" then .disabled
  else .unavailable

def parseAttempt (lma : Fields) : MetadataAttemptRecord :=
  { attemptedAt :=
      if isFalsy printed (lma.get "attempted_at") then now
      else (stringOrNull printed (lma.get "attempted_at")).getD ""
    status := statusOf <|
      if isFalsy printed (lma.get "status") then "unavailable"
      else (stringOrNull printed (lma.get "status")).getD ""
    code := stringOrNull printed (lma.get "code")
    fieldsResolved := stringList printed (lma.get "fields_resolved")
    strategy := stringOrNull printed (lma.get "strategy")
    httpStatus := match lma.get "http_status" with
      | some (.num literal) => some literal
      | _ => none
    requestId := stringOrNull printed (lma.get "request_id") }

/-- `value ?? other` -/
def orElse (other : Json) : Option Json → Json
  | none => other
  | some .null => other
  | some value => value

def checkDisplayName (raw : Fields) : Except CeoError String :=
  match raw.get "display_name" with
  | some (.str s) =>
    if jsTrim s = "" then .error (invalidMeta "Resource display_name must be a non-empty string.")
    else .ok (jsTrim s)
  | _ => .error (invalidMeta "Resource display_name must be a non-empty string.")

def checkNamingSource (raw : Fields) : Except CeoError NamingSource :=
  match raw.get "naming_source" with
  | some (.str "explicit") => .ok .explicit
  | some (.str "id") => .ok .id
  | some value =>
    .error (invalidMeta ("Invalid or missing naming_source: " ++ toJsString printed value))
  | none => .error (invalidMeta "Invalid or missing naming_source: undefined")

def parseMeta (raw : Fields) : Except CeoError ResourceMeta := do
  let displayName ← checkDisplayName raw
  let namingSource ← checkNamingSource printed raw
  return {
    resourceId := (stringOrNull printed (raw.get "resource_id")).getD ""
    displayName
    namingSource
    sourceAliases := stringList printed (raw.get "source_aliases")
    lastMetadataAttempt :=
      ((raw.get "last_metadata_attempt").bind objectFields).map (parseAttempt printed now)
    resourceKind := orElse (.str "other") (raw.get "resource_kind")
    sourceType := orElse (.str "url") (raw.get "source_type")
    sourceIdentity := stringOrNull printed (raw.get "source_identity")
    sourceRef := stringOrNull printed (raw.get "source_ref")
    canonicalRef := stringOrNull printed (raw.get "canonical_ref")
    platform := stringOrNull printed (raw.get "platform")
    platformId := (stringOrNull printed (raw.get "platform_id")).map jsTrim
    originalName := (stringOrNull printed (raw.get "original_name")).map jsTrim
    mediaType := stringOrNull printed (raw.get "media_type")
    format := stringOrNull printed (raw.get "format")
    assetRef := stringOrNull printed (raw.get "asset_ref")
    sourceHash := stringOrNull printed (raw.get "source_hash")
    title := (stringOrNull printed (raw.get "title")).map jsTrim
    author := stringOrNull printed (raw.get "author")
    publishedAt := stringOrNull printed (raw.get "published_at")
    description := stringOrNull printed (raw.get "description")
    thumbnailUrl := stringOrNull printed (raw.get "thumbnail_url")
    firstCapturedAt := (stringOrNull printed (raw.get "first_captured_at")).getD now
    language := stringOrNull printed (raw.get "language")
    topics := stringList printed (raw.get "topics")
    metadataMethod := orElse .null (raw.get "metadata_method")
    metadataFetchedAt := stringOrNull printed (raw.get "metadata_fetched_at")
    captureSurface := (stringOrNull printed (raw.get "capture_surface")).getD "mcp" }

def parseMetaMarkdown (yaml : Yaml) (content : Text) : Except CeoError ParsedMetaDocument := do
  let some (frontmatterRaw, body) := splitFrontmatter content
    | throw (invalidMeta "meta.md does not contain valid YAML frontmatter.")
  let parsed ← match yaml.parse frontmatterRaw with
    | .ok parsed => pure parsed
    | .error err => throw (invalidMeta ("Failed to parse YAML frontmatter: " ++ err))
  let some raw := objectFields parsed
    | throw (invalidMeta "Parsed frontmatter is not an object.")
  let metadata ← parseMeta printed now raw
  return {
    metadata
    heading := findHeading true body
    captureNote := parseCaptureNote body
    captureHistory := parseCaptureHistory body }

end values

/-! ### formatMetaMarkdown -/

def nullable : Option String → Json
  | some s => .str s
  | none => .null

def strings (values : List String) : Json := .arr (values.map .str)

def attemptData (a : MetadataAttemptRecord) : Json :=
  .obj [
    ("attempted_at", .str a.attemptedAt), ("status", .str a.status.text),
    ("code", nullable a.code), ("fields_resolved", strings a.fieldsResolved),
    ("strategy", nullable a.strategy),
    ("http_status", match a.httpStatus with | some literal => .num literal | none => .null),
    ("request_id", nullable a.requestId)]

def frontmatterFields (m : ResourceMeta) : Fields := [
  ("schema_version", .num "1"), ("resource_id", .str m.resourceId),
  ("display_name", .str m.displayName), ("naming_source", .str m.namingSource.text),
  ("source_aliases", strings m.sourceAliases),
  ("last_metadata_attempt", (m.lastMetadataAttempt.map attemptData).getD .null),
  ("resource_kind", m.resourceKind), ("source_type", m.sourceType),
  ("source_identity", nullable m.sourceIdentity), ("source_ref", nullable m.sourceRef),
  ("canonical_ref", nullable m.canonicalRef), ("platform", nullable m.platform),
  ("platform_id", nullable m.platformId), ("original_name", nullable m.originalName),
  ("media_type", nullable m.mediaType), ("format", nullable m.format),
  ("asset_ref", nullable m.assetRef), ("source_hash", nullable m.sourceHash),
  ("title", nullable m.title), ("author", nullable m.author),
  ("published_at", nullable m.publishedAt), ("description", nullable m.description),
  ("thumbnail_url", nullable m.thumbnailUrl), ("first_captured_at", .str m.firstCapturedAt),
  ("language", nullable m.language), ("topics", strings m.topics),
  ("metadata_method", m.metadataMethod), ("metadata_fetched_at", nullable m.metadataFetchedAt),
  ("capture_surface", .str m.captureSurface)]

def frontmatterData (m : ResourceMeta) : Json := .obj (frontmatterFields m)

/-- The entries the history is written with. -/
def writtenHistory (m : ResourceMeta) (captureHistory : List Text) : List Text :=
  if captureHistory ≠ [] then captureHistory
  else [m.firstCapturedAt.toList ++ " — first_capture".toList]

/-- What stands under the heading of the capture note. -/
def writtenNote (captureNote : Option Text) : Text :=
  let text := trim isJsSpace (captureNote.getD [])
  if text ≠ [] then text ++ "\n\n".toList else "\n".toList

def formatMetaMarkdown (yaml : Yaml) (d : Document) : Text :=
  "---\n".toList ++ yaml.stringify (frontmatterData d.metadata) ++ "---\n\n# ".toList ++
    d.metadata.displayName.toList ++ "\n\n## Capture Note\n\n".toList ++ writtenNote d.captureNote ++
    "## Capture History\n\n".toList ++ bullets (writtenHistory d.metadata d.captureHistory)

/-! ### the metadata comes back -/

/-- The metadata that captures and operations write: a clean display name and a time of capture,
and values where the types promise one. -/
structure Produced (m : ResourceMeta) : Prop where
  named : m.displayName ≠ ""
  trimmed : jsTrim m.displayName = m.displayName
  oneLine : ∀ c ∈ m.displayName.toList, isJsSpace c = true → c = ' '
  captured : m.firstCapturedAt ≠ ""
  timestamp : ∀ c ∈ m.firstCapturedAt.toList, isJsSpace c = false
  attempted : ∀ a, m.lastMetadataAttempt = some a → a.attemptedAt ≠ ""
  kind : m.resourceKind ≠ .null
  source : m.sourceType ≠ .null

section values

variable {printed : Json → String} {now : String}

@[simp] theorem stringOrNull_str (s : String) : stringOrNull printed (some (.str s)) = some s := rfl

@[simp] theorem stringOrNull_nullable (s : Option String) :
    stringOrNull printed (some (nullable s)) = s := by
  cases s <;> rfl

@[simp] theorem stringList_strings (values : List String) :
    stringList printed (some (strings values)) = values := by
  simp [stringList, strings, toJsString, Function.comp_def]

theorem orElse_of_ne {other value : Json} (h : value ≠ .null) : orElse other (some value) = value := by
  cases value <;> first | rfl | exact absurd rfl h

theorem orElse_null (value : Json) : orElse .null (some value) = value := by
  cases value <;> rfl

theorem statusOf_text (status : MetadataAttemptStatus) : statusOf status.text = status := by
  cases status <;> decide

theorem status_truthy (status : MetadataAttemptStatus) :
    isFalsy printed (some (.str status.text)) = false := by
  cases status <;> simp [isFalsy, MetadataAttemptStatus.text]

theorem checkNamingSource_text {raw : Fields} {source : NamingSource}
    (h : raw.get "naming_source" = some (.str source.text)) :
    checkNamingSource printed raw = .ok source := by
  unfold checkNamingSource
  cases source <;> simp [h, NamingSource.text]

theorem parseAttempt_data {a : MetadataAttemptRecord} (h : a.attemptedAt ≠ "") :
    (objectFields (attemptData a)).map (parseAttempt printed now) = some a := by
  have hfalsy : isFalsy printed (some (.str a.attemptedAt)) = false := by simp [isFalsy, h]
  obtain ⟨attemptedAt, status, code, fieldsResolved, strategy, httpStatus, requestId⟩ := a
  cases httpStatus <;>
    simp [attemptData, objectFields, parseAttempt, Fields.get, hfalsy, status_truthy, statusOf_text]

theorem parseMeta_fields {m : ResourceMeta} (h : Produced m) :
    parseMeta printed now (frontmatterFields m) = .ok
      { m with
        title := m.title.map jsTrim
        originalName := m.originalName.map jsTrim
        platformId := m.platformId.map jsTrim } := by
  have hname : checkDisplayName (frontmatterFields m) = .ok m.displayName := by
    simp [checkDisplayName, frontmatterFields, Fields.get, h.trimmed, h.named]
  have hsource : checkNamingSource printed (frontmatterFields m) = .ok m.namingSource :=
    checkNamingSource_text (by simp [frontmatterFields, Fields.get])
  have hattempt : ((Fields.get (frontmatterFields m) "last_metadata_attempt").bind objectFields).map
      (parseAttempt printed now) = m.lastMetadataAttempt := by
    cases ha : m.lastMetadataAttempt with
    | none => simp [frontmatterFields, Fields.get, ha, objectFields]
    | some a =>
      have hdata : (objectFields (attemptData a)).map (parseAttempt printed now) = some a :=
        parseAttempt_data (h.attempted a ha)
      simp [frontmatterFields, Fields.get, ha, hdata]
  unfold parseMeta
  simp only [hname, hsource, hattempt]
  simp [frontmatterFields, Fields.get, orElse_of_ne h.kind, orElse_of_ne h.source, orElse_null]
  rfl

end values

/-! ### the sections of the body -/

theorem noteTitle : Title isJsSpace captureNoteTitle :=
  ⟨by decide, by decide +kernel, by decide +kernel⟩

theorem historyTitle : Title isJsSpace captureHistoryTitle :=
  ⟨by decide, by decide +kernel, by decide +kernel⟩

/-- The end of the file, from the line end before the heading of the history. -/
def historySection (entries : List Text) : Text :=
  "\n## Capture History\n\n".toList ++ bullets entries

/-- What stands after the heading of the note. -/
def afterNoteHeading (note : Option Text) (entries : List Text) : Text :=
  '\n' :: (match note with
    | some n => n ++ '\n' :: historySection entries
    | none => historySection entries)

/-- The body, from the end of the line with the display name. -/
def afterName (note : Option Text) (entries : List Text) : Text :=
  "\n## Capture Note\n".toList ++ afterNoteHeading note entries

def bodyOf (name : Text) (note : Option Text) (entries : List Text) : Text :=
  '\n' :: '#' :: ' ' :: (name ++ '\n' :: afterName note entries)

/-- The note as `formatMetaMarkdown` keeps it. -/
def storedNote (note : Option Text) : Option Text :=
  let text := trim isJsSpace (note.getD [])
  if text ≠ [] then some text else none

theorem formatMetaMarkdown_body {yaml : Yaml} {d : Document} {t : Text}
    (h : yaml.stringify (frontmatterData d.metadata) = t ++ ['\n']) :
    formatMetaMarkdown yaml d = "---\n".toList ++ (t ++ "\n---\n".toList ++
      bodyOf d.metadata.displayName.toList (storedNote d.captureNote)
        (writtenHistory d.metadata d.captureHistory)) := by
  have hsplit : writtenNote d.captureNote ++ "## Capture History\n\n".toList =
      (match storedNote d.captureNote with
      | some n => n ++ '\n' :: "\n## Capture History\n\n".toList
      | none => "\n## Capture History\n\n".toList) := by
    unfold writtenNote storedNote
    by_cases hn : trim isJsSpace (d.captureNote.getD []) ≠ []
    · simp only [if_pos hn]
      simp
    · simp only [if_neg hn]
      simp
  unfold formatMetaMarkdown
  rw [h]
  simp only [List.append_assoc]
  rw [← List.append_assoc (writtenNote _), hsplit]
  unfold bodyOf afterName afterNoteHeading historySection
  cases storedNote d.captureNote <;> simp

theorem apart_heading {title z : Text} (h : title.head? = some 'C') :
    ¬title <+: ('\n' :: '#' :: z).dropWhile isJsSpace := by
  rw [List.dropWhile_cons_of_pos (by decide), List.dropWhile_cons_of_neg (by decide)]
  cases title with
  | nil => cases h
  | cons c title =>
    obtain rfl := Option.some.inj h
    intro hp
    cases (List.cons_prefix_cons.1 hp).1

/-- A heading of the body is in the line of the display name, or after it. -/
theorem afterHeading_body {title name : Text} (T : Title isJsSpace title)
    (hC : title.head? = some 'C') (note : Option Text) (entries : List Text) :
    afterHeading isJsSpace title (bodyOf name note entries) =
      match afterHeading isJsSpace title (name ++ ['\n']) with
      | some rest => some (rest ++ afterName note entries)
      | none => afterHeading isJsSpace title (afterName note entries) := by
  have h := @afterHeading_append isJsSpace title T name (afterName note entries) (apart_heading hC)
  exact h

theorem sectionOf_early {title name rest : Text} (T : Title isJsSpace title)
    (hC : title.head? = some 'C') (hname : '\n' ∉ name)
    (h : afterHeading isJsSpace title (name ++ ['\n']) = some rest) (note : Option Text)
    (entries : List Text) : sectionOf title (bodyOf name note entries) = some [] := by
  obtain rfl := afterHeading_line hname h
  unfold sectionOf
  rw [afterHeading_body T hC, h]
  rfl

/-- The note is read back: it is trimmed text, no line of it starts a section, and the display
name does not end in a heading of the note. -/
def NoteFaithful (name : Text) : Option Text → Prop
  | none => True
  | some n => n ≠ [] ∧ trim isJsSpace n = n ∧ ¬MarkedLine ['#', '#'] ('\n' :: n) ∧
      afterHeading isJsSpace captureNoteTitle (name ++ ['\n']) = none

theorem parseCaptureNote_section {body text : Text} (h : sectionOf captureNoteTitle body = some text) :
    parseCaptureNote body = if trim isJsSpace text = [] then none else some (trim isJsSpace text) := by
  unfold parseCaptureNote
  rw [h]

theorem parseCaptureNote_trimmed {body n : Text} (h : parseCaptureNote body = some n) :
    n ≠ [] ∧ trim isJsSpace n = n := by
  unfold parseCaptureNote at h
  split at h
  next text _ =>
    split_ifs at h with hblank
    obtain rfl := Option.some.inj h
    exact ⟨hblank, trim_trim text⟩
  next => cases h

theorem storedNote_some {n : Text} (hne : n ≠ []) (ht : trim isJsSpace n = n) :
    storedNote (some n) = some n := by
  simp [storedNote, ht, hne]

/-- A line end at the end of a text marks no line. -/
theorem unmarked_lineEnd {t : Text} (unmarked : ¬MarkedLine ['#', '#'] t) :
    ¬MarkedLine ['#', '#'] (t ++ ['\n']) := by
  rintro ⟨p, q, hpq⟩
  rcases List.eq_nil_or_concat q with rfl | ⟨q, c, rfl⟩
  · have hlast := congrArg List.getLast? hpq
    rw [List.append_nil, List.getLast?_append, List.getLast?_append] at hlast
    cases hlast
  · refine unmarked ⟨p, q, ?_⟩
    rw [List.concat_eq_append, ← List.append_assoc] at hpq
    exact (List.append_inj' hpq rfl).1

/-- Under its own heading a note is read up to its first section line. -/
theorem untilHeading_note {n : Text} {entries : List Text} (unmarked : ¬MarkedLine ['#', '#'] ('\n' :: n)) :
    untilHeading (afterNoteHeading (some n) entries) = '\n' :: (n ++ ['\n']) := by
  have hshape : afterNoteHeading (some n) entries =
      ('\n' :: (n ++ ['\n'])) ++ '\n' :: '#' :: '#' ::
        (" Capture History\n\n".toList ++ bullets entries) := by
    rw [List.cons_append, List.append_assoc]
    rfl
  have hlast : ('\n' :: (n ++ ['\n'])).getLast? = some '\n' := by
    rw [← List.cons_append, List.getLast?_append]
    rfl
  rw [hshape]
  refine untilHeading_append (unmarked_lineEnd unmarked) ?_
  rw [hlast]
  decide

/-- What follows a heading inside a note is read up to the end of the note. -/
theorem untilHeading_history {n rest : Text} {entries : List Text}
    (unmarked : ¬MarkedLine ['#', '#'] ('\n' :: n))
    (h : afterHeading isJsSpace captureHistoryTitle (n ++ ['\n']) = some rest) :
    untilHeading (rest ++ historySection entries) = rest := by
  obtain ⟨p, hp⟩ := afterHeading_some h
  rcases List.eq_nil_or_concat rest with rfl | ⟨r, c, rfl⟩
  · rfl
  rw [List.concat_eq_append, ← List.cons_append, ← List.append_assoc] at hp
  obtain ⟨hn, hc⟩ := List.append_inj' hp rfl
  obtain rfl : '\n' = c := (List.cons.inj hc).1
  rw [List.concat_eq_append]
  refine untilHeading_append (unmarked_lineEnd fun hm => unmarked ?_) ?_
  · have hin : r <:+: n := ⟨p ++ ['\n'], [], by simp [hn]⟩
    exact (hm.trans hin).trans (List.suffix_cons _ _).isInfix
  · rw [List.getLast?_append]
    exact (by decide : some '\n' ≠ some '\r')

theorem parseCaptureNote_iff {name : Text} (hname : '\n' ∉ name) (note : Option Text)
    (entries : List Text) :
    parseCaptureNote (bodyOf name (storedNote note) entries) = note ↔ NoteFaithful name note := by
  cases hearly : afterHeading isJsSpace captureNoteTitle (name ++ ['\n']) with
  | some rest =>
    have hnone (stored : Option Text) : parseCaptureNote (bodyOf name stored entries) = none := by
      unfold parseCaptureNote
      rw [sectionOf_early noteTitle rfl hname hearly]
      rfl
    rw [hnone]
    cases note with
    | none => exact ⟨fun _ => trivial, fun _ => rfl⟩
    | some n =>
      constructor
      · intro h
        cases h
      · rintro ⟨-, -, -, h⟩
        rw [hearly] at h
        cases h
  | none =>
    have hsection (stored : Option Text) :
        sectionOf captureNoteTitle (bodyOf name stored entries) =
          some (untilHeading (afterNoteHeading stored entries)) := by
      unfold sectionOf
      rw [afterHeading_body noteTitle rfl, hearly]
      rfl
    cases note with
    | none =>
      refine ⟨fun _ => trivial, fun _ => ?_⟩
      unfold parseCaptureNote
      rw [hsection]
      rfl
    | some n =>
      constructor
      · intro h
        obtain ⟨hne, ht⟩ := parseCaptureNote_trimmed h
        refine ⟨hne, ht, fun marked => ?_, hearly⟩
        rw [storedNote_some hne ht] at h
        rw [parseCaptureNote_section (hsection _)] at h
        split_ifs at h with hblank
        have hlen := untilHeading_cut marked ('\n' :: historySection entries)
        have htrim := (@trim_sublist isJsSpace
          (untilHeading (afterNoteHeading (some n) entries))).length_le
        rw [Option.some.inj h] at htrim
        have hshape : afterNoteHeading (some n) entries =
            ('\n' :: n) ++ '\n' :: historySection entries := rfl
        rw [hshape] at htrim
        rw [List.length_cons] at hlen
        omega
      · rintro ⟨hne, ht, unmarked, -⟩
        have hspace : ∀ c ∈ ['\n'], isJsSpace c = true := Scan.forall_mem (by decide)
        have htrim : trim isJsSpace ('\n' :: (n ++ ['\n'])) = n := trim_around hspace hspace ht
        rw [storedNote_some hne ht, parseCaptureNote_section (hsection _), untilHeading_note unmarked,
          htrim, if_neg hne]

/-- The history is read back. A heading of the history in the line of the display name hides it,
and one inside the note has what follows it in the note read in its place. -/
def HistoryFaithful (name : Text) (note : Option Text) (history : List Text) : Prop :=
  if (afterHeading isJsSpace captureHistoryTitle (name ++ ['\n'])).isSome then history = []
  else
    match note.bind fun n => afterHeading isJsSpace captureHistoryTitle (n ++ ['\n']) with
    | some rest => items isJsSpace rest = history
    | none => history ≠ [] ∧ ∀ e ∈ history, Item isJsSpace e

theorem parseCaptureHistory_section {body text : Text}
    (h : sectionOf captureHistoryTitle body = some text) :
    parseCaptureHistory body = items isJsSpace text := by
  unfold parseCaptureHistory
  rw [h]

theorem writtenHistory_item {m : ResourceMeta} (h : Produced m) :
    ∀ e ∈ writtenHistory m [], Item isJsSpace e := by
  intro e he
  rw [writtenHistory, if_neg (fun hne => hne rfl), List.mem_singleton] at he
  subst he
  have hne : m.firstCapturedAt.toList ≠ [] := fun hnil =>
    h.captured (String.toList_inj.1 hnil)
  refine ⟨fun hnil => hne (List.append_eq_nil_iff.1 hnil).1, fun hm => ?_,
    trim_eq_self.2 ⟨fun _ => ?_, fun _ => ?_⟩⟩
  · rcases List.mem_append.1 hm with hm | hm
    · have hspace := h.timestamp _ hm
      revert hspace
      decide
    · revert hm
      decide
  · rw [List.head_append_of_ne_nil hne]
    exact h.timestamp _ (List.head_mem hne)
  · have hsuffix : " — first_capture".toList ≠ [] := by decide
    rw [List.getLast_append_of_ne_nil _ hsuffix]
    revert hsuffix
    decide

theorem items_written {m : ResourceMeta} (h : Produced m) (history : List Text) :
    items isJsSpace (untilHeading ('\n' :: bullets (writtenHistory m history))) = history ↔
      history ≠ [] ∧ ∀ e ∈ history, Item isJsSpace e := by
  have hback {entries : List Text} (he : ∀ e ∈ entries, Item isJsSpace e) :
      items isJsSpace (untilHeading ('\n' :: bullets entries)) = entries := by
    rw [untilHeading_self (bullets_unmarked he), items_blank, items_bullets (by decide) he]
  constructor
  · intro hread
    refine ⟨fun hnil => ?_, fun e he => ?_⟩
    · subst hnil
      rw [hback (writtenHistory_item h)] at hread
      cases hread
    · rw [← hread] at he
      exact items_item (by decide) he
  · rintro ⟨hne, he⟩
    rw [writtenHistory, if_pos hne]
    exact hback he

theorem parseCaptureHistory_iff {m : ResourceMeta} (h : Produced m) {name : Text}
    (hname : '\n' ∉ name) {note : Option Text} (hnote : NoteFaithful name note)
    (history : List Text) :
    parseCaptureHistory (bodyOf name note (writtenHistory m history)) = history ↔
      HistoryFaithful name note history := by
  unfold HistoryFaithful
  cases hearly : afterHeading isJsSpace captureHistoryTitle (name ++ ['\n']) with
  | some rest =>
    rw [parseCaptureHistory_section (sectionOf_early historyTitle rfl hname hearly _ _)]
    exact ⟨fun h => h.symm, fun h => Eq.symm h⟩
  | none =>
    rw [if_neg (by simp)]
    have hplain (hsection : sectionOf captureHistoryTitle
          (bodyOf name note (writtenHistory m history)) =
        some (untilHeading ('\n' :: bullets (writtenHistory m history)))) :
        parseCaptureHistory (bodyOf name note (writtenHistory m history)) = history ↔
          history ≠ [] ∧ ∀ e ∈ history, Item isJsSpace e := by
      rw [parseCaptureHistory_section hsection]
      exact items_written h history
    cases note with
    | none =>
      refine hplain ?_
      unfold sectionOf
      rw [afterHeading_body historyTitle rfl, hearly]
      rfl
    | some n =>
      obtain ⟨hne, ht, unmarked, -⟩ := hnote
      have hbody : afterHeading isJsSpace captureHistoryTitle
            (bodyOf name (some n) (writtenHistory m history)) =
          match afterHeading isJsSpace captureHistoryTitle (n ++ ['\n']) with
          | some rest => some (rest ++ historySection (writtenHistory m history))
          | none => some ('\n' :: bullets (writtenHistory m history)) := by
        rw [afterHeading_body historyTitle rfl, hearly]
        exact @afterHeading_append isJsSpace captureHistoryTitle historyTitle n
          (historySection (writtenHistory m history)) (apart_heading rfl)
      rw [Option.bind_some]
      cases hrest : afterHeading isJsSpace captureHistoryTitle (n ++ ['\n']) with
      | none =>
        rw [hrest] at hbody
        refine hplain ?_
        unfold sectionOf
        rw [hbody]
        rfl
      | some rest =>
        rw [hrest] at hbody
        have hsection : sectionOf captureHistoryTitle
            (bodyOf name (some n) (writtenHistory m history)) = some rest := by
          unfold sectionOf
          rw [hbody, Option.map_some, untilHeading_history unmarked hrest]
        rw [parseCaptureHistory_section hsection]

/-! ### the heading -/

theorem isLineTerminator_space {c : Char} (h : isLineTerminator c = true) : isJsSpace c = true := by
  unfold isLineTerminator at h
  simp only [Bool.or_eq_true, beq_iff_eq] at h
  unfold isJsSpace
  rcases h with ((rfl | rfl) | h) | h
  · decide
  · decide
  · simp [h]
  · simp [h]

theorem findHeading_body {name : Text} (hne : name ≠ []) (ht : trim isJsSpace name = name)
    (hone : ∀ c ∈ name, isJsSpace c = true → c = ' ') (note : Option Text) (entries : List Text) :
    findHeading true (bodyOf name note entries) = some name := by
  have hfirst := (trim_eq_self.1 ht).1 hne
  cases name with
  | nil => exact absurd rfl hne
  | cons c cs =>
    have hc : isJsSpace c = false := hfirst
    have hline : ∀ x ∈ c :: cs, (!isLineTerminator x) = true := by
      intro x hx
      rw [Bool.not_eq_true', Bool.eq_false_iff]
      intro hterm
      rw [hone x hx (isLineTerminator_space hterm)] at hterm
      revert hterm
      decide
    have hhere : headingHere ('#' :: ' ' :: (c :: cs ++ '\n' :: afterName note entries)) =
        some (c :: cs) := by
      have hspaces : (' ' :: (c :: cs ++ '\n' :: afterName note entries)).takeWhile isJsSpace =
          [' '] := by
        rw [List.takeWhile_cons_of_pos (by decide), List.cons_append,
          List.takeWhile_cons_of_neg (by simp [hc])]
      have htext : (' ' :: (c :: cs ++ '\n' :: afterName note entries)).dropWhile isJsSpace =
          c :: cs ++ '\n' :: afterName note entries := by
        rw [List.dropWhile_cons_of_pos (by decide), List.cons_append,
          List.dropWhile_cons_of_neg (by simp [hc])]
      have hgroup : (c :: cs ++ '\n' :: afterName note entries).takeWhile
          (fun x => !isLineTerminator x) = c :: cs := by
        rw [List.takeWhile_append_of_pos hline, List.takeWhile_cons_of_neg (by decide),
          List.append_nil]
      unfold headingHere
      simp only [hspaces, htext, hgroup, ht]
      rfl
    unfold bodyOf
    rw [findHeading, show isLineTerminator '\n' = true from by decide, if_pos rfl, findHeading,
      if_pos rfl, hhere]
    rfl

/-! ### what is read back -/

theorem splitFrontmatter_open (rest : Text) :
    splitFrontmatter ("---\n".toList ++ rest) =
      (closingFence (splitAt (fun t => (closingFence t).isSome) rest).2).map fun body =>
        ((splitAt (fun t => (closingFence t).isSome) rest).1, body) := rfl

theorem splitFrontmatter_fence {t body : Text} (unmarked : ¬MarkedLine ['-', '-', '-'] t)
    (hr : t.getLast? ≠ some '\r') :
    splitFrontmatter ("---\n".toList ++ (t ++ "\n---\n".toList ++ body)) = some (t, body) := by
  have hsplit := @splitAt_marked ['-', '-', '-'] t ('\n' :: body)
    (fun t => (closingFence t).isSome) (by decide) (fun s hs => by
      obtain ⟨_, h⟩ := Option.isSome_iff_exists.1 hs
      unfold closingFence at h
      unfold startsLine
      split at h
      next rest hrest =>
        rw [hrest]
        rfl
      next => cases h) rfl unmarked hr
  have hshape : t ++ "\n---\n".toList ++ body = t ++ '\n' :: (['-', '-', '-'] ++ '\n' :: body) := by
    rw [List.append_assoc]
    rfl
  rw [hshape]
  rw [splitFrontmatter_open, hsplit]
  rfl

section roundTrip

variable {printed : Json → String} {now : String} {yaml : Yaml}

theorem parse_format {d : Document} (h : Produced d.metadata)
    (lossless : yaml.Lossless (frontmatterData d.metadata)) :
    parseMetaMarkdown printed now yaml (formatMetaMarkdown yaml d) = .ok
      { metadata := { d.metadata with
          title := d.metadata.title.map jsTrim
          originalName := d.metadata.originalName.map jsTrim
          platformId := d.metadata.platformId.map jsTrim }
        captureNote := parseCaptureNote (bodyOf d.metadata.displayName.toList
          (storedNote d.captureNote) (writtenHistory d.metadata d.captureHistory))
        captureHistory := parseCaptureHistory (bodyOf d.metadata.displayName.toList
          (storedNote d.captureNote) (writtenHistory d.metadata d.captureHistory))
        heading := some d.metadata.displayName.toList } := by
  obtain ⟨t, hprint, hparse, unmarked, hr⟩ := lossless
  have hname : d.metadata.displayName.toList ≠ [] := fun hnil => h.named (String.toList_inj.1 hnil)
  have htrim : trim isJsSpace d.metadata.displayName.toList = d.metadata.displayName.toList := by
    have := congrArg String.toList h.trimmed
    rwa [jsTrim, String.toList_ofList] at this
  unfold parseMetaMarkdown
  rw [formatMetaMarkdown_body hprint, splitFrontmatter_fence unmarked hr]
  simp only [hparse, frontmatterData, objectFields, findHeading_body hname htrim h.oneLine,
    parseMeta_fields h, pure_bind]
  rfl

/-- The document comes back as it was written. -/
structure Faithful (d : Document) : Prop where
  title : ∀ s, d.metadata.title = some s → jsTrim s = s
  originalName : ∀ s, d.metadata.originalName = some s → jsTrim s = s
  platformId : ∀ s, d.metadata.platformId = some s → jsTrim s = s
  note : NoteFaithful d.metadata.displayName.toList d.captureNote
  history : HistoryFaithful d.metadata.displayName.toList d.captureNote d.captureHistory

theorem map_jsTrim_iff {s : Option String} : s.map jsTrim = s ↔ ∀ t, s = some t → jsTrim t = t := by
  cases s with
  | none => simp
  | some t => simp

theorem storedNote_of_faithful {name : Text} {note : Option Text} (h : NoteFaithful name note) :
    storedNote note = note := by
  cases note with
  | none => rfl
  | some n =>
    obtain ⟨hne, ht, -⟩ := h
    exact storedNote_some hne ht

theorem displayName_line {m : ResourceMeta} (h : Produced m) : '\n' ∉ m.displayName.toList := by
  intro hm
  have hspace := h.oneLine _ hm (by decide)
  cases hspace

theorem parse_format_iff {d : Document} (h : Produced d.metadata)
    (lossless : yaml.Lossless (frontmatterData d.metadata)) :
    parseMetaMarkdown printed now yaml (formatMetaMarkdown yaml d) =
        .ok { d with heading := some d.metadata.displayName.toList } ↔ Faithful d := by
  have hname := displayName_line h
  rw [parse_format h lossless]
  constructor
  · intro hback
    have hdoc := Except.ok.inj hback
    have hmeta : { d.metadata with
        title := d.metadata.title.map jsTrim
        originalName := d.metadata.originalName.map jsTrim
        platformId := d.metadata.platformId.map jsTrim } = d.metadata :=
      congrArg (fun p => p.metadata) hdoc
    have hnote := congrArg (fun p : ParsedMetaDocument => p.captureNote) hdoc
    have hhistory := congrArg (fun p : ParsedMetaDocument => p.captureHistory) hdoc
    have hfaithful := (parseCaptureNote_iff hname _ _).1 hnote
    simp only [storedNote_of_faithful hfaithful] at hhistory
    exact {
      title := map_jsTrim_iff.1 (congrArg ResourceMeta.title hmeta)
      originalName := map_jsTrim_iff.1 (congrArg ResourceMeta.originalName hmeta)
      platformId := map_jsTrim_iff.1 (congrArg ResourceMeta.platformId hmeta)
      note := hfaithful
      history := (parseCaptureHistory_iff h hname hfaithful _).1 hhistory }
  · intro hf
    rw [(parseCaptureNote_iff hname _ _).2 hf.note, storedNote_of_faithful hf.note,
      (parseCaptureHistory_iff h hname hf.note _).2 hf.history, map_jsTrim_iff.2 hf.title,
      map_jsTrim_iff.2 hf.originalName, map_jsTrim_iff.2 hf.platformId]

end roundTrip

/-! ### rewriting -/

/-- What an operation does to the document it has read. -/
abbrev Change := ParsedMetaDocument → Except CeoError Document

/-- One operation: the file is parsed, its document changed, and formatted again. -/
def rewrite (printed : Json → String) (now : String) (yaml : Yaml) (content : Text)
    (change : Change) : Except CeoError Text := do
  let doc ← parseMetaMarkdown printed now yaml content
  let changed ← change doc
  return formatMetaMarkdown yaml changed

/-- The documents that a sequence of changes makes, each given the one before as it is; all of
them are good. -/
inductive Edited (good : Document → Prop) : Document → List Change → Document → Prop where
  | done {d : Document} : Edited good d [] d
  | step {d e f : Document} {change : Change} {changes : List Change}
      (changed : change { d with heading := some d.metadata.displayName.toList } = .ok e)
      (kept : good e) (more : Edited good e changes f) : Edited good d (change :: changes) f

/-- The YAML library gives the document's metadata back, and the document is written faithfully. -/
structure Keeps (yaml : Yaml) (d : Document) : Prop where
  produced : Produced d.metadata
  lossless : yaml.Lossless (frontmatterData d.metadata)
  faithful : Faithful d

theorem rewrite_format {printed : Json → String} {now : String} {yaml : Yaml} {d e : Document}
    {change : Change} (h : Keeps yaml d)
    (changed : change { d with heading := some d.metadata.displayName.toList } = .ok e) :
    rewrite printed now yaml (formatMetaMarkdown yaml d) change = .ok (formatMetaMarkdown yaml e) := by
  unfold rewrite
  rw [(parse_format_iff h.produced h.lossless).2 h.faithful]
  show (do
    let changed ← change { d with heading := some d.metadata.displayName.toList }
    _) = _
  rw [changed]
  rfl

theorem foldlM_rewrite {printed : Json → String} {now : String} {yaml : Yaml} {d e : Document}
    {changes : List Change} (h : Keeps yaml d) (edited : Edited (Keeps yaml) d changes e) :
    changes.foldlM (rewrite printed now yaml) (formatMetaMarkdown yaml d) =
      .ok (formatMetaMarkdown yaml e) := by
  induction edited with
  | done => rfl
  | step changed kept _ ih =>
    rw [List.foldlM_cons, rewrite_format h changed]
    exact ih kept

theorem Edited.last {good : Document → Prop} {d e : Document} {changes : List Change} (h : good d)
    (edited : Edited good d changes e) : good e := by
  induction edited with
  | done => exact h
  | step _ kept _ ih => exact ih kept

/-- The file gives back exactly the faithful documents, and through a run over such documents it
holds at the end what the changes made. -/
theorem meta_round_trip_iff (printed : Json → String) (now : String) (yaml : Yaml) (d : Document)
    (produced : Produced d.metadata) (lossless : yaml.Lossless (frontmatterData d.metadata)) :
    (parseMetaMarkdown printed now yaml (formatMetaMarkdown yaml d) =
        .ok { d with heading := some d.metadata.displayName.toList } ↔ Faithful d) ∧
      ∀ changes e, Faithful d → Edited (Keeps yaml) d changes e →
        ∃ content,
          changes.foldlM (rewrite printed now yaml) (formatMetaMarkdown yaml d) = .ok content ∧
          parseMetaMarkdown printed now yaml content =
            .ok { e with heading := some e.metadata.displayName.toList } := by
  refine ⟨parse_format_iff produced lossless, fun changes e hf edited => ?_⟩
  have hkeeps : Keeps yaml d := ⟨produced, lossless, hf⟩
  have hlast := edited.last hkeeps
  exact ⟨formatMetaMarkdown yaml e, foldlM_rewrite hkeeps edited,
    (parse_format_iff hlast.produced hlast.lossless).2 hlast.faithful⟩

section sample

/-- A file that was just captured. -/
def capturedMeta : ResourceMeta where
  resourceId := "res-00000000-0000-4000-8000-000000000001"
  displayName := "res-00000000-0000-4000-8000-000000000001"
  namingSource := .id
  sourceAliases := []
  lastMetadataAttempt := none
  resourceKind := .str "document"
  sourceType := .str "file"
  sourceIdentity := none
  sourceRef := none
  canonicalRef := none
  platform := none
  platformId := none
  originalName := some "plan.pdf"
  mediaType := some "application/pdf"
  format := some "pdf"
  assetRef := none
  sourceHash := none
  title := none
  author := none
  publishedAt := none
  description := none
  thumbnailUrl := none
  firstCapturedAt := "2026-07-01T08:00:00.000Z"
  language := none
  topics := []
  metadataMethod := .str "user_provided"
  metadataFetchedAt := none
  captureSurface := "mcp"

def capturedYaml : Text := ['\n'].intercalate <| List.map String.toList [
  "schema_version: 1", "resource_id: res-00000000-0000-4000-8000-000000000001",
  "display_name: res-00000000-0000-4000-8000-000000000001", "naming_source: id",
  "source_aliases: []", "last_metadata_attempt: null", "resource_kind: document",
  "source_type: file", "source_identity: null", "source_ref: null", "canonical_ref: null",
  "platform: null", "platform_id: null", "original_name: plan.pdf",
  "media_type: application/pdf", "format: pdf", "asset_ref: null", "source_hash: null",
  "title: null", "author: null", "published_at: null", "description: null",
  "thumbnail_url: null", "first_captured_at: 2026-07-01T08:00:00.000Z", "language: null",
  "topics: []", "metadata_method: user_provided", "metadata_fetched_at: null",
  "capture_surface: mcp"]

/-- The library, on the text of that file. -/
def yamlOf : Yaml where
  parse t := if t = capturedYaml then .ok (frontmatterData capturedMeta) else .error "YAMLParseError"
  stringify _ := capturedYaml ++ ['\n']

/-- The document that a capture with the note writes. -/
def capturedWith (note : String) : Document :=
  ⟨capturedMeta, some note.toList, [("2026-07-01T08:00:00.000Z — first_capture — " ++ note).toList]⟩

theorem captured_produced : Produced capturedMeta where
  named := by decide
  trimmed := by decide
  oneLine := Scan.forall_mem (by decide)
  captured := by decide
  timestamp := Scan.forall_mem (by decide)
  attempted := fun _ h => by cases h
  kind := fun h => by cases h
  source := fun h => by cases h

theorem yamlOf_parse : yamlOf.parse capturedYaml = .ok (frontmatterData capturedMeta) := by
  unfold yamlOf
  simp only [if_true]

set_option maxRecDepth 10000 in
theorem capturedYaml_unmarked :
    ¬MarkedLine ['-', '-', '-'] capturedYaml ∧ capturedYaml.getLast? ≠ some '\r' := by
  decide

theorem captured_lossless : yamlOf.Lossless (frontmatterData capturedMeta) :=
  ⟨capturedYaml, rfl, yamlOf_parse, capturedYaml_unmarked⟩

theorem captured_item : Item isJsSpace
    "2026-07-01T08:00:00.000Z — first_capture — one line".toList :=
  ⟨by decide, by decide +kernel, by decide +kernel⟩

set_option maxRecDepth 10000 in
theorem captured_note :
    NoteFaithful capturedMeta.displayName.toList (some "one line".toList) :=
  ⟨by decide, by decide +kernel, by decide +kernel, by decide +kernel⟩

theorem captured_faithful : Faithful (capturedWith "one line") where
  title := fun _ h => by cases h
  originalName := fun s h => by
    obtain rfl := Option.some.inj h
    decide
  platformId := fun _ h => by cases h
  note := captured_note
  history := by
    unfold HistoryFaithful
    rw [if_neg (by decide)]
    have hnone : ((capturedWith "one line").captureNote.bind fun n =>
        afterHeading isJsSpace captureHistoryTitle (n ++ ['\n'])) = none := by decide
    rw [hnone]
    refine ⟨List.cons_ne_nil _ _, fun e he => ?_⟩
    obtain rfl := List.mem_singleton.1 he
    exact captured_item

theorem meta_round_trip_one_line :
    (parseMetaMarkdown (fun _ => "") "" yamlOf (formatMetaMarkdown yamlOf (capturedWith "one line")) =
        .ok { capturedWith "one line" with
          heading := some "res-00000000-0000-4000-8000-000000000001".toList }) ∧
      Faithful (capturedWith "one line") :=
  ⟨(meta_round_trip_iff (fun _ => "") "" yamlOf (capturedWith "one line") captured_produced
    captured_lossless).1.2 captured_faithful, captured_faithful⟩

set_option maxRecDepth 10000 in
theorem captured_note_cut :
    parseCaptureNote (bodyOf capturedMeta.displayName.toList
      (storedNote (capturedWith "first\n## second").captureNote)
      (writtenHistory capturedMeta (capturedWith "first\n## second").captureHistory)) =
        some "first".toList := by
  decide

/-- A capture with a note of two lines, the second a heading of Markdown: one parse later the note
has lost the second line. -/
theorem note_truncated :
    ¬∃ heading, parseMetaMarkdown (fun _ => "") "" yamlOf
        (formatMetaMarkdown yamlOf (capturedWith "first\n## second")) =
      .ok { capturedWith "first\n## second" with heading := heading } := by
  rintro ⟨heading, h⟩
  rw [parse_format captured_produced captured_lossless] at h
  have hnote : some "first".toList = some "first\n## second".toList :=
    captured_note_cut.symm.trans
      (congrArg (fun p : ParsedMetaDocument => p.captureNote) (Except.ok.inj h))
  revert hnote
  decide

end sample

end Ceo.Resource.MetaDocument
