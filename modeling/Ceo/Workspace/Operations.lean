import Ceo.Jobs.Readers
import Ceo.Lib.Occurs
import Ceo.Resource.MetaDocument
import Ceo.Resource.Naming
import Ceo.Workspace.Reads

/-!
# Change operations

What `workspace.ts` lets into a transaction (`validateOperations`), and how a
patch finds the text it replaces (`countOccurrences` and the patch branch of
`applyOperations`). A rule file is also checked as a rule, by its frontmatter
(`policy-resolver.ts`, `write-mode.ts`).
-/

namespace Ceo.Workspace.Operations

open Ceo.Lib.Occurs Ceo.Workspace.Git Ceo.Workspace.Paths Ceo.Workspace.Reads
open Ceo.Jobs (Json bind_eq_ok)
open Ceo.Lib.Markdown (afterNewline splitAt)
open Ceo.Resource (Fields)
open Ceo.Resource.MetaDocument (Yaml)
open Ceo.Resource.Naming (byteLength trim)

/-! ### errors -/

structure OperationError where
  code : String
  message : String
  details : List (String × Json)

def textJson (t : Text) : Json := .str (String.ofList t)

def Detail.json : Detail → Json
  | .text t => textJson t
  | .texts ts => .arr (ts.map textJson)

def ofPathError (e : CeoError) : OperationError :=
  ⟨e.code, e.message, e.details.map fun d => (d.1, Detail.json d.2)⟩

def invalidOperation (message : String) (details : List (String × Json)) : OperationError :=
  ⟨"INVALID_OPERATION", message, details⟩

def validationFailed (message : String) (details : List (String × Json)) : OperationError :=
  ⟨"VALIDATION_FAILED", message, details⟩

/-! ### workspace rules -/

/-- What the checks take from outside: Unicode, the YAML library and `String(value)`. -/
structure Env where
  isNfc : Text → Bool
  yaml : Yaml
  printed : Json → String

variable (env : Env) (matcher : CeoIgnoreMatcher)

inductive RuleMode where
  | extend | override
  deriving DecidableEq, Repr

structure ParsedWorkspaceRule where
  mode : RuleMode
  body : Text
  frontmatter : Fields

/-- `\r?\n?` -/
def dropBreak : Text → Text
  | '\r' :: '\n' :: rest => rest
  | '\r' :: rest => rest
  | '\n' :: rest => rest
  | t => t

/-- `\r?\n---\r?\n?`: what stands after it. -/
def ruleFence (t : Text) : Option Text :=
  match afterNewline t with
  | some ('-' :: '-' :: '-' :: rest) => some (dropBreak rest)
  | _ => none

/-- `^---\r?\n([\s\S]*?)\r?\n---\r?\n?([\s\S]*)$` -/
def splitRule : Text → Option (Text × Text)
  | '-' :: '-' :: '-' :: content =>
    (afterNewline content).bind fun rest =>
      let parts := splitAt (fun t => (ruleFence t).isSome) rest
      (ruleFence parts.2).map fun body => (parts.1, body)
  | _ => none

def dashes : Text := ['-', '-', '-']

def ruleError (rulePath : Text) (text reason : String) : OperationError :=
  validationFailed ("Workspace rule '" ++ String.ofList rulePath ++ "' " ++ text)
    [("path", textJson rulePath), ("reason", .str reason)]

def parseMode (rulePath : Text) (frontmatter : Fields) : Except OperationError RuleMode :=
  match frontmatter.get "mode" with
  | some (.str mode) =>
    if mode = "extend" then .ok .extend
    else if mode = "override" then .ok .override
    else .error (ruleError rulePath ("specifies unsupported mode '" ++ mode ++
      "'. Only 'extend' and 'override' are supported.") "UNSUPPORTED_MODE")
  | _ =>
    .error (ruleError rulePath "must specify a string 'mode' in frontmatter."
      "MISSING_OR_INVALID_MODE")

def parseFrontmatter (rulePath raw : Text) : Except OperationError Fields :=
  match env.yaml.parse raw with
  | .error _ => .error (ruleError rulePath "contains malformed YAML frontmatter." "MALFORMED_YAML")
  | .ok (.obj fields) => .ok fields
  | .ok _ =>
    .error (ruleError rulePath "frontmatter must be a YAML mapping." "INVALID_FRONTMATTER_SHAPE")

def parseWorkspaceRuleFrontmatter (rawContent rulePath : Text) :
    Except OperationError ParsedWorkspaceRule :=
  let content := dropMark rawContent
  if ¬dashes <+: content then
    .error (ruleError rulePath "must declare YAML frontmatter at the beginning of the file."
      "MISSING_FRONTMATTER")
  else
    match splitRule content with
    | none =>
      .error (ruleError rulePath "has unclosed or malformed frontmatter delimiters."
        "MALFORMED_FRONTMATTER_DELIMITER")
    | some (raw, rest) => do
      let frontmatter ← parseFrontmatter env rulePath raw
      let mode ← parseMode rulePath frontmatter
      if trim rest = [] then
        throw (ruleError rulePath "must have a non-empty markdown body." "EMPTY_POLICY_BODY")
      return ⟨mode, trim rest, frontmatter⟩

def writeModes : List String := ["state", "stream"]

def isWriteMode : Json → Bool
  | .str s => writeModes.contains s
  | _ => false

def validateWorkspaceRuleContent (rawContent rulePath : Text) :
    Except OperationError ParsedWorkspaceRule := do
  let parsed ← parseWorkspaceRuleFrontmatter env rawContent rulePath
  match parsed.frontmatter.get "write_mode" with
  | none => return parsed
  | some mode =>
    if isWriteMode mode then return parsed
    else
      throw (validationFailed ("Workspace rule '" ++ String.ofList rulePath ++
          "' specifies unsupported write_mode '" ++ env.printed mode ++
          "'. Only 'state' and 'stream' are supported.")
        [("path", textJson rulePath), ("reason", .str "UNSUPPORTED_WRITE_MODE"),
          ("allowed", .arr (writeModes.map .str))])

/-! ### validateOperations -/

inductive ChangeOperation where
  | create (path content : Text)
  | replace (path expectedBlobOid content : Text)
  | append (path expectedBlobOid content : Text)
  | patch (path expectedBlobOid find replace : Text)
  | delete (path expectedBlobOid : Text)
  | move (path expectedBlobOid target : Text)
  deriving DecidableEq, Repr

def ChangeOperation.path : ChangeOperation → Text
  | create path _ | replace path _ _ | append path _ _ | patch path _ _ _ | delete path _
  | move path _ _ => path

inductive Kind where
  | patch | other
  deriving DecidableEq, Repr

def ChangeOperation.kind : ChangeOperation → Kind
  | patch .. => .patch
  | _ => .other

def maxTotalWriteBytes : Nat := 2 * 1024 * 1024

def rulesSlash : Text := "rules/".toList

/-- `/^rules\/[^/]+\.md$/` -/
def isRuleFilePath (filePath : Text) : Bool :=
  decide (rulesSlash <+: filePath) && markdownName (filePath.drop rulesSlash.length)

def assertContentSize (content : Text) : Except OperationError Nat :=
  let bytes := byteLength content
  if bytes > maxFileWriteBytes then
    .error (validationFailed ("File content exceeds the " ++
      toString (roundTo (1024 * 1024) maxFileWriteBytes) ++ " MiB limit.")
      [("bytes", .num (toString bytes))])
  else .ok bytes

def checkRule (content filePath : Text) : Except OperationError Unit :=
  if isRuleFilePath filePath then
    (validateWorkspaceRuleContent env content filePath).map fun _ => ()
  else .ok ()

/-- `validatePath` and the exclusion by `.ceoignore`. -/
def checkPath (message key : String) (candidate : Text) : Except OperationError Text := do
  let filePath ← (validateContentPath env.isNfc candidate).mapError ofPathError
  if isPathIgnored matcher filePath then
    throw ⟨"ACCESS_DENIED", message, [(key, textJson filePath)]⟩
  return filePath

def checkTarget (source : Text) : ChangeOperation → Except OperationError (List Text)
  | .move _ _ target => do
    let target ← checkPath env matcher "Move target path is excluded by .ceoignore." "target" target
    if source = target then
      throw (invalidOperation "Move source and target cannot be identical."
        [("source", textJson source), ("target", textJson target)])
    return [source, target]
  | _ => .ok [source]

def checkContent (source : Text) : ChangeOperation → Except OperationError Nat
  | .create _ content | .replace _ _ content => do
    let size ← assertContentSize content
    checkRule env content source
    return size
  | .append _ _ content => assertContentSize content
  | .patch _ _ find replace =>
    if find = [] then
      .error (invalidOperation "Patch find must be a non-empty string."
        [("path", textJson source)])
    else do
      let _ ← assertContentSize find
      assertContentSize replace
  | .delete .. | .move .. => .ok 0

/-- One path of an operation; `touched` has each path once. -/
def touch (kind : Kind) (touched : List (Text × Kind)) (filePath : Text) :
    Except OperationError (List (Text × Kind)) :=
  match touched.lookup filePath with
  | none => .ok ((filePath, kind) :: touched)
  | some previous =>
    if previous = .patch ∧ kind = .patch then .ok touched
    else if previous = .patch ∨ kind = .patch then
      .error (invalidOperation
        "A path changed by patch may only receive further patch operations in the same transaction."
        [("path", textJson filePath), ("reason", .str "PATCH_EXCLUSIVE_PATH")])
    else
      .error (invalidOperation "A path may be changed only once per transaction."
        [("path", textJson filePath)])

def validateOperation (state : List (Text × Kind) × Nat) (operation : ChangeOperation) :
    Except OperationError (List (Text × Kind) × Nat) := do
  let source ← checkPath env matcher "Operation path is excluded by .ceoignore." "path"
    operation.path
  let paths ← checkTarget env matcher source operation
  let size ← checkContent env source operation
  let touched ← paths.foldlM (touch operation.kind) state.1
  return (touched, state.2 + size)

def validateOperations (operations : List ChangeOperation) : Except OperationError Unit := do
  let state ← operations.foldlM (validateOperation env matcher) ([], 0)
  if state.2 > maxTotalWriteBytes then
    throw (validationFailed ("Transaction content exceeds " ++
      toString (roundTo (1024 * 1024) maxTotalWriteBytes) ++ " MiB.") [])

/-! ### what is accepted -/

/-- The content of an operation is small enough, and a rule where it becomes a rule file. -/
def ContentFits : ChangeOperation → Prop
  | .create path content | .replace path _ content =>
    byteLength content ≤ maxFileWriteBytes ∧
      (isRuleFilePath path = true → ∃ r, validateWorkspaceRuleContent env content path = .ok r)
  | .append _ _ content => byteLength content ≤ maxFileWriteBytes
  | .patch _ _ find replace =>
    find ≠ [] ∧ byteLength find ≤ maxFileWriteBytes ∧ byteLength replace ≤ maxFileWriteBytes
  | .delete .. | .move .. => True

/-- An operation that is accepted on its own. -/
structure Admissible (operation : ChangeOperation) : Prop where
  source : visible env.isNfc matcher operation.path = true
  target : ∀ path oid target, operation = .move path oid target →
    visible env.isNfc matcher target = true ∧ path ≠ target
  content : ContentFits env operation

/-- The bytes an operation counts for. -/
def written : ChangeOperation → Nat
  | .create _ content | .replace _ _ content | .append _ _ content => byteLength content
  | .patch _ _ _ replace => byteLength replace
  | .delete .. | .move .. => 0

/-- The paths an operation changes. -/
def changes (operation : ChangeOperation) : List (Text × Kind) :=
  match operation with
  | .move path _ target => [(path, .other), (target, .other)]
  | _ => [(operation.path, operation.kind)]

/-- Two changes that stand in one transaction: of different paths, or both by patch. -/
def Compatible (a b : Text × Kind) : Prop := a.1 = b.1 → a.2 = .patch ∧ b.2 = .patch

variable {env matcher}

theorem checkPath_ok {message key : String} {candidate filePath : Text} :
    checkPath env matcher message key candidate = .ok filePath ↔
      filePath = candidate ∧ visible env.isNfc matcher candidate = true := by
  unfold checkPath visible
  rw [bind_eq_ok]
  constructor
  · rintro ⟨p, hp, h⟩
    cases hv : validateContentPath env.isNfc candidate with
    | error e =>
      rw [hv] at hp
      cases hp
    | ok q =>
      rw [hv] at hp
      obtain rfl := Except.ok.inj hp
      obtain rfl := validateContentPath_ok hv
      cases hi : isPathIgnored matcher q with
      | true =>
        rw [hi] at h
        cases h
      | false =>
        rw [hi] at h
        exact ⟨(Except.ok.inj h).symm, by rw [allowed_of_ok hv]; rfl⟩
  · rintro ⟨rfl, h⟩
    rw [Bool.and_eq_true, allowed_iff] at h
    refine ⟨filePath, by rw [h.1]; rfl, ?_⟩
    have hi : isPathIgnored matcher filePath = false := by simpa using h.2
    rw [hi]
    rfl

theorem assertContentSize_ok {content : Text} {size : Nat} :
    assertContentSize content = .ok size ↔
      size = byteLength content ∧ byteLength content ≤ maxFileWriteBytes := by
  simp only [assertContentSize]
  split
  · next h => exact ⟨fun hok => (by cases hok), fun hok => absurd hok.2 (by omega)⟩
  · next h => exact ⟨fun hok => ⟨(Except.ok.inj hok).symm, by omega⟩, fun hok => by rw [hok.1]⟩

theorem checkRule_ok {content filePath : Text} :
    checkRule env content filePath = .ok () ↔
      (isRuleFilePath filePath = true →
        ∃ r, validateWorkspaceRuleContent env content filePath = .ok r) := by
  unfold checkRule
  split
  · next h =>
    cases validateWorkspaceRuleContent env content filePath with
    | error e => exact ⟨fun hok => (by cases hok), fun hok => (by cases (hok h).choose_spec)⟩
    | ok r => exact ⟨fun _ _ => ⟨r, rfl⟩, fun _ => rfl⟩
  · next h => exact ⟨fun _ hrule => absurd hrule h, fun _ => rfl⟩

theorem checkTarget_ok {operation : ChangeOperation} {paths : List Text} :
    checkTarget env matcher operation.path operation = .ok paths ↔
      paths = (changes operation).map (·.1) ∧
        ∀ path oid target, operation = .move path oid target →
          visible env.isNfc matcher target = true ∧ path ≠ target := by
  cases operation with
  | move path oid target =>
    unfold checkTarget
    rw [bind_eq_ok]
    constructor
    · rintro ⟨t, ht, h⟩
      obtain ⟨rfl, hvis⟩ := checkPath_ok.1 ht
      by_cases hsame : path = t
      · rw [ChangeOperation.path, if_pos hsame] at h
        cases h
      · rw [ChangeOperation.path, if_neg hsame] at h
        refine ⟨(Except.ok.inj h).symm, ?_⟩
        rintro _ _ _ ⟨⟩
        exact ⟨hvis, hsame⟩
    · rintro ⟨rfl, h⟩
      obtain ⟨hvis, hne⟩ := h path oid target rfl
      refine ⟨target, checkPath_ok.2 ⟨rfl, hvis⟩, ?_⟩
      rw [ChangeOperation.path, if_neg hne]
      rfl
  | create _ _ | replace _ _ _ | append _ _ _ | patch _ _ _ _ | delete _ _ =>
    refine ⟨fun h => ⟨(Except.ok.inj h).symm, fun _ _ _ hmove => (by cases hmove)⟩, ?_⟩
    rintro ⟨rfl, -⟩
    rfl

/-- A content that is checked for its size, and as a rule where it becomes a rule file. -/
theorem sized_ok {α : Type} {content filePath : Text} {f : Nat → α} {a : α} :
    (do
      let size ← assertContentSize content
      checkRule env content filePath
      return f size) = .ok a ↔
      a = f (byteLength content) ∧ byteLength content ≤ maxFileWriteBytes ∧
        (isRuleFilePath filePath = true →
          ∃ r, validateWorkspaceRuleContent env content filePath = .ok r) := by
  rw [bind_eq_ok]
  constructor
  · rintro ⟨n, hn, h⟩
    obtain ⟨⟨⟩, hrule, h⟩ := bind_eq_ok.1 h
    obtain ⟨rfl, hle⟩ := assertContentSize_ok.1 hn
    exact ⟨(Except.ok.inj h).symm, hle, checkRule_ok.1 hrule⟩
  · rintro ⟨rfl, hle, hrule⟩
    exact ⟨byteLength content, assertContentSize_ok.2 ⟨rfl, hle⟩,
      bind_eq_ok.2 ⟨(), checkRule_ok.2 hrule, rfl⟩⟩

theorem checkContent_ok {operation : ChangeOperation} {size : Nat} :
    checkContent env operation.path operation = .ok size ↔
      size = written operation ∧ ContentFits env operation := by
  cases operation with
  | create path content => exact sized_ok
  | replace path oid content => exact sized_ok
  | append path oid content => exact assertContentSize_ok
  | patch path oid find replace =>
    simp only [checkContent]
    split
    · next h => exact ⟨fun hok => (by cases hok), fun hok => absurd h hok.2.1⟩
    · next h =>
      rw [bind_eq_ok]
      constructor
      · rintro ⟨n, hn, hok⟩
        obtain ⟨hsize, hle⟩ := assertContentSize_ok.1 hok
        exact ⟨hsize, h, (assertContentSize_ok.1 hn).2, hle⟩
      · rintro ⟨hsize, -, hfind, hle⟩
        exact ⟨_, assertContentSize_ok.2 ⟨rfl, hfind⟩, assertContentSize_ok.2 ⟨hsize, hle⟩⟩
  | delete path oid => exact ⟨fun h => ⟨(Except.ok.inj h).symm, trivial⟩, fun h => by rw [h.1]; rfl⟩
  | move path oid target =>
    exact ⟨fun h => ⟨(Except.ok.inj h).symm, trivial⟩, fun h => by rw [h.1]; rfl⟩

/-! ### paths changed twice -/

/-- `touched` holds the changes seen so far. -/
def Holds (touched seen : List (Text × Kind)) : Prop :=
  ∀ path kind, touched.lookup path = some kind ↔ (path, kind) ∈ seen

theorem holds_nil : Holds [] [] := fun _ _ => by simp

/-- One change: it is let in exactly when it stands with all before it. -/
theorem touch_iff {touched seen : List (Text × Kind)} (h : Holds touched seen) (c : Text × Kind) :
    (∃ t, touch c.2 touched c.1 = .ok t) ↔ ∀ b ∈ seen, Compatible b c := by
  unfold touch
  cases hl : touched.lookup c.1 with
  | none =>
    refine ⟨fun _ b hb hsame => ?_, fun _ => ⟨_, rfl⟩⟩
    have hb := (h b.1 b.2).2 hb
    rw [hsame, hl] at hb
    cases hb
  | some previous =>
    have hprev := (h c.1 previous).1 hl
    by_cases hboth : previous = .patch ∧ c.2 = .patch
    · simp only [if_pos hboth]
      refine ⟨fun _ b hb hsame => ⟨?_, hboth.2⟩, fun _ => ⟨_, rfl⟩⟩
      have hb := (h b.1 b.2).2 hb
      rw [hsame, hl] at hb
      rw [← Option.some.inj hb, hboth.1]
    · simp only [if_neg hboth]
      refine ⟨fun hok => ?_, fun hall => absurd (hall _ hprev rfl) hboth⟩
      obtain ⟨t, ht⟩ := hok
      split at ht <;> cases ht

theorem touch_holds {touched seen t : List (Text × Kind)} (h : Holds touched seen)
    {c : Text × Kind} (ht : touch c.2 touched c.1 = .ok t) : Holds t (seen ++ [c]) := by
  intro path kind
  rw [List.mem_append, List.mem_singleton, ← h path kind]
  unfold touch at ht
  cases hl : touched.lookup c.1 with
  | none =>
    rw [hl] at ht
    obtain rfl := Except.ok.inj ht
    rw [List.lookup_cons]
    by_cases hpath : path = c.1
    · obtain rfl := hpath
      rw [hl]
      simp [Prod.ext_iff, eq_comm]
    · have hb : (path == c.1) = false := by simpa using hpath
      rw [hb]
      refine ⟨.inl, ?_⟩
      rintro (hk | rfl)
      · exact hk
      · exact absurd rfl hpath
  | some previous =>
    rw [hl] at ht
    by_cases hboth : previous = .patch ∧ c.2 = .patch
    · simp only [if_pos hboth] at ht
      obtain rfl := Except.ok.inj ht
      refine ⟨.inl, ?_⟩
      rintro (hk | rfl)
      · exact hk
      · rw [hl, hboth.1]
        exact congrArg some hboth.2.symm
    · simp only [if_neg hboth] at ht
      split at ht <;> cases ht

def touchAll (touched : List (Text × Kind)) (cs : List (Text × Kind)) :
    Except OperationError (List (Text × Kind)) :=
  cs.foldlM (fun t c => touch c.2 t c.1) touched

/-- A list of changes is let in exactly when each stands with all before it. -/
theorem touchAll_iff {touched seen : List (Text × Kind)} (h : Holds touched seen)
    {cs : List (Text × Kind)} : (∃ t, touchAll touched cs = .ok t) ↔
      (∀ b ∈ seen, ∀ c ∈ cs, Compatible b c) ∧ cs.Pairwise Compatible := by
  induction cs generalizing touched seen with
  | nil => exact ⟨fun _ => ⟨fun _ _ _ hc => (by cases hc), .nil⟩, fun _ => ⟨touched, rfl⟩⟩
  | cons c cs ih =>
    have hstep : (∃ t, touchAll touched (c :: cs) = .ok t) ↔
        ∃ u, touch c.2 touched c.1 = .ok u ∧ ∃ t, touchAll u cs = .ok t := by
      constructor
      · rintro ⟨t, ht⟩
        obtain ⟨u, hu, ht⟩ := bind_eq_ok.1 ht
        exact ⟨u, hu, t, ht⟩
      · rintro ⟨u, hu, t, ht⟩
        exact ⟨t, bind_eq_ok.2 ⟨u, hu, ht⟩⟩
    rw [hstep, List.pairwise_cons]
    constructor
    · rintro ⟨u, hu, ht⟩
      obtain ⟨hseen, hpair⟩ := (ih (touch_holds h hu)).1 ht
      have hc := (touch_iff h c).1 ⟨u, hu⟩
      refine ⟨fun b hb d hd => ?_, fun d hd => hseen c (by simp) d hd, hpair⟩
      rcases List.mem_cons.1 hd with rfl | hd
      · exact hc b hb
      · exact hseen b (List.mem_append_left _ hb) d hd
    · rintro ⟨hseen, hc, hpair⟩
      obtain ⟨u, hu⟩ := (touch_iff h c).2 fun b hb => hseen b hb c (List.mem_cons_self ..)
      refine ⟨u, hu, (ih (touch_holds h hu)).2 ⟨fun b hb d hd => ?_, hpair⟩⟩
      rcases List.mem_append.1 hb with hb | hb
      · exact hseen b hb d (List.mem_cons_of_mem _ hd)
      · obtain rfl := List.mem_singleton.1 hb
        exact hc d hd

theorem foldlM_touch (operation : ChangeOperation) (touched : List (Text × Kind)) :
    ((changes operation).map (·.1)).foldlM (touch operation.kind) touched =
      touchAll touched (changes operation) := by
  cases operation <;> rfl

/-! ### one operation, and all of them -/

theorem validateOperation_ok {state state' : List (Text × Kind) × Nat}
    {operation : ChangeOperation} :
    validateOperation env matcher state operation = .ok state' ↔
      Admissible env matcher operation ∧ touchAll state.1 (changes operation) = .ok state'.1 ∧
        state'.2 = state.2 + written operation := by
  unfold validateOperation
  constructor
  · intro h
    obtain ⟨source, hsource, h⟩ := bind_eq_ok.1 h
    obtain ⟨rfl, hvis⟩ := checkPath_ok.1 hsource
    obtain ⟨paths, hpaths, h⟩ := bind_eq_ok.1 h
    obtain ⟨rfl, htarget⟩ := checkTarget_ok.1 hpaths
    obtain ⟨size, hsize, h⟩ := bind_eq_ok.1 h
    obtain ⟨rfl, hcontent⟩ := checkContent_ok.1 hsize
    obtain ⟨touched, htouched, h⟩ := bind_eq_ok.1 h
    obtain rfl := Except.ok.inj h
    rw [foldlM_touch] at htouched
    exact ⟨⟨hvis, htarget, hcontent⟩, htouched, rfl⟩
  · rintro ⟨hadm, htouched, hsize⟩
    refine bind_eq_ok.2 ⟨_, checkPath_ok.2 ⟨rfl, hadm.source⟩, ?_⟩
    refine bind_eq_ok.2 ⟨_, checkTarget_ok.2 ⟨rfl, hadm.target⟩, ?_⟩
    refine bind_eq_ok.2 ⟨_, checkContent_ok.2 ⟨rfl, hadm.content⟩, ?_⟩
    refine bind_eq_ok.2 ⟨_, (foldlM_touch operation state.1).trans htouched, ?_⟩
    rw [← hsize]
    rfl

theorem validate_run {operations : List ChangeOperation} {state state' : List (Text × Kind) × Nat} :
    operations.foldlM (validateOperation env matcher) state = .ok state' ↔
      (∀ operation ∈ operations, Admissible env matcher operation) ∧
        touchAll state.1 (operations.flatMap changes) = .ok state'.1 ∧
        state'.2 = state.2 + (operations.map written).sum := by
  induction operations generalizing state with
  | nil =>
    constructor
    · intro h
      obtain rfl := Except.ok.inj h
      exact ⟨fun _ h => (by cases h), rfl, rfl⟩
    · rintro ⟨-, ht, hn⟩
      exact congrArg Except.ok (Prod.ext (Except.ok.inj ht) hn.symm)
  | cons operation operations ih =>
    rw [List.foldlM_cons, bind_eq_ok, List.forall_mem_cons, List.flatMap_cons, List.map_cons,
      List.sum_cons]
    unfold touchAll
    rw [List.foldlM_append, bind_eq_ok]
    constructor
    · rintro ⟨next, hnext, h⟩
      obtain ⟨hadm, ht, hn⟩ := validateOperation_ok.1 hnext
      obtain ⟨hall, ht', hn'⟩ := ih.1 h
      exact ⟨⟨hadm, hall⟩, ⟨next.1, ht, ht'⟩, by omega⟩
    · rintro ⟨⟨hadm, hall⟩, ⟨t, ht, ht'⟩, hn⟩
      refine ⟨(t, state.2 + written operation), validateOperation_ok.2 ⟨hadm, ht, rfl⟩, ?_⟩
      exact ih.2 ⟨hall, ht', by omega⟩

theorem validateOperations_ok {operations : List ChangeOperation} :
    validateOperations env matcher operations = .ok () ↔
      ∃ state, operations.foldlM (validateOperation env matcher) ([], 0) = .ok state ∧
        state.2 ≤ maxTotalWriteBytes := by
  unfold validateOperations
  rw [bind_eq_ok]
  refine exists_congr fun state => and_congr_right fun _ => ?_
  by_cases hlarge : state.2 > maxTotalWriteBytes
  · rw [if_pos hlarge]
    exact ⟨fun h => (by cases h), fun h => absurd h (by omega)⟩
  · rw [if_neg hlarge]
    exact ⟨fun _ => by omega, fun _ => rfl⟩

/-- A transaction is accepted exactly when each operation is admissible by itself, every two changes
of it stand together, whatever their order, and its contents are small enough in sum. -/
theorem operations_accepted_iff (env : Env) (matcher : CeoIgnoreMatcher)
    (operations : List ChangeOperation) :
    validateOperations env matcher operations = .ok () ↔
      (∀ operation ∈ operations, Admissible env matcher operation) ∧
        (operations.flatMap changes).Pairwise Compatible ∧
        (operations.map written).sum ≤ maxTotalWriteBytes := by
  rw [validateOperations_ok]
  constructor
  · rintro ⟨state, hstate, hle⟩
    obtain ⟨hall, ht, hn⟩ := validate_run.1 hstate
    exact ⟨hall, ((touchAll_iff holds_nil).1 ⟨_, ht⟩).2, by omega⟩
  · rintro ⟨hall, hpair, hle⟩
    obtain ⟨t, ht⟩ := (touchAll_iff holds_nil).2 ⟨fun _ hb => (by cases hb), hpair⟩
    exact ⟨(t, (operations.map written).sum), validate_run.2 ⟨hall, ht, by omega⟩, hle⟩

/-! ### patch -/

/-- What a patch looks for: `validateOperations` lets no empty text through, which the search would
go on finding for ever. -/
abbrev Needle := {t : Text // t ≠ []}

/-- The loop of `countOccurrences`; `start` is where the next search begins. -/
def countLoop (haystack needle : Text) (start count : Nat) : Nat :=
  match h : indexOf needle haystack start with
  | none => count
  | some index => countLoop haystack needle (index + 1) (count + 1)
termination_by haystack.length + 1 - start
decreasing_by
  have hb := indexOf_bounds h
  omega

def countOccurrences (haystack : Text) (needle : Needle) : Nat := countLoop haystack needle 0 0

def badMatch (filePath : Text) (matchCount : Nat) : OperationError :=
  invalidOperation
    (if matchCount = 0 then
      "Patch find text does not occur in the current file content. " ++
        "Re-read the file and copy the exact fragment to change."
    else
      "Patch find text occurs " ++ toString matchCount ++ " times in the current file content. " ++
        "Include more surrounding text so it matches exactly once.")
    [("path", textJson filePath), ("match_count", .num (toString matchCount)),
      ("reason", .str (if matchCount = 0 then "PATCH_NO_MATCH" else "PATCH_AMBIGUOUS_MATCH"))]

def replaceFirst (current find replace : Text) : Text :=
  let index := (indexOf find current 0).getD 0
  current.take index ++ replace ++ current.drop (index + find.length)

/-- The patch branch of `applyOperations`, from the content read to the content written. -/
def applyPatch (env : Env) (filePath current : Text) (find : Needle) (replace : Text) :
    Except OperationError Text :=
  let matchCount := countOccurrences current find
  if matchCount ≠ 1 then .error (badMatch filePath matchCount)
  else do
    let patched := replaceFirst current find replace
    let _ ← assertContentSize patched
    checkRule env patched filePath
    return patched

theorem countLoop_eq (haystack needle : Text) (start count : Nat) :
    countLoop haystack needle start count = count + (positions needle haystack start).length := by
  induction start, count using countLoop.induct haystack needle with
  | case1 start count h =>
    rw [countLoop, positions_none h]
    split
    · rfl
    · next hsome =>
      rw [h] at hsome
      cases hsome
  | case2 start count index h ih =>
    rw [countLoop, positions_some h]
    split
    · next hnone =>
      rw [h] at hnone
      cases hnone
    · next hsome =>
      obtain rfl := Option.some.inj (h.symm.trans hsome)
      rw [ih, List.length_cons]
      omega

/-- The loop counts every occurrence. -/
theorem countOccurrences_eq (haystack : Text) (needle : Needle) :
    countOccurrences haystack needle = (positions needle.1 haystack 0).length := by
  rw [countOccurrences, countLoop_eq, Nat.zero_add]

/-- One occurrence: the file is split around it. -/
theorem split_of_count {current : Text} {find : Needle} (h : countOccurrences current find = 1) :
    ∃ pre post, current = pre ++ find.1 ++ post ∧ positions find.1 current 0 = [pre.length] ∧
      indexOf find.1 current 0 = some pre.length := by
  rw [countOccurrences_eq] at h
  obtain ⟨i, hi⟩ := List.length_eq_one_iff.1 h
  obtain ⟨pre, post, hsplit, rfl⟩ := mem_positions_iff.1 (hi ▸ List.mem_singleton_self i)
  refine ⟨pre, post, hsplit, hi, ?_⟩
  cases hindex : indexOf find.1 current 0 with
  | none =>
    rw [positions_none hindex] at hi
    cases hi
  | some j =>
    rw [positions_some hindex] at hi
    exact congrArg some (List.cons.inj hi).1

theorem count_of_split {current pre post : Text} {find : Needle}
    (hsplit : current = pre ++ find.1 ++ post)
    (only : ∀ pre' post', current = pre' ++ find.1 ++ post' → pre' = pre) :
    countOccurrences current find = 1 := by
  rw [countOccurrences_eq]
  have hnodup : (positions find.1 current 0).Nodup := positions_nodup
  have hmem : pre.length ∈ positions find.1 current 0 := mem_positions_iff.2 ⟨pre, post, hsplit, rfl⟩
  have hall : ∀ i ∈ positions find.1 current 0, i = pre.length := fun i hi => by
    obtain ⟨pre', post', h, rfl⟩ := mem_positions_iff.1 hi
    rw [only pre' post' h]
  rw [List.eq_replicate_of_mem hall] at hnodup
  have hle := List.nodup_replicate.1 hnodup
  have hpos := List.length_pos_of_mem hmem
  omega

theorem applyPatch_ok {filePath current replace patched : Text} {find : Needle}
    (h : applyPatch env filePath current find replace = .ok patched) :
    patched = replaceFirst current find replace := by
  simp only [applyPatch] at h
  split at h
  · cases h
  · exact (sized_ok.1 h).1

end Ceo.Workspace.Operations
