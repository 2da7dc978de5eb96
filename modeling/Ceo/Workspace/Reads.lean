import Mathlib.Data.List.Sort
import Ceo.Workspace.Paths

/-!
# Reads of a commit

`listFiles`, `searchText` and `readFiles` of `workspace.ts` read a commit
through three commands of Git: the listing of its tree, the names alone, and
the entry at a path. The listings are filtered by what is visible, so they
depend on nothing else. The entry at a path is looked up before anything is
known of it: a directory of hidden files answers to its own name.
-/

namespace Ceo.Workspace.Reads

open Ceo.Workspace.Git Ceo.Workspace.Paths

/-! ### commits -/

/-- A commit: what its tree holds, directories apart, in Git's order. -/
structure Commit where
  id : Text
  entries : List TreeEntry
  treeOid : Text → Text
  leaves : ∀ e ∈ entries, e.type ≠ .tree
  sorted : entries.Pairwise fun e f => e.path.data.toList < f.path.data.toList
  apart : ∀ e ∈ entries, ∀ f ∈ entries, ¬e.path.data.toList ++ [47] <+: f.path.data.toList

def Commit.isDirectory (c : Commit) (path : Text) : Bool :=
  c.entries.any fun e =>
    decide ((encodeUtf8 path).data.toList ++ [47] <+: e.path.data.toList)

def Commit.find (c : Commit) (path : Text) : Option TreeEntry :=
  c.entries.find? fun e => decide (e.path = encodeUtf8 path)

/-- The entry of a directory. -/
def Commit.directory (c : Commit) (path : Text) : TreeEntry :=
  { mode := ['0', '4', '0', '0', '0', '0'], type := .tree, oid := c.treeOid path, bytes := none,
    path := encodeUtf8 path }

/-- What `git ls-tree -l -z` prints for a path. -/
def Commit.at (c : Commit) (path : Text) : List TreeEntry :=
  match c.find path with
  | some e => [e]
  | none => if c.isDirectory path then [c.directory path] else []

/-- Git puts these bytes of a name in its own words. -/
def needsQuote (b : UInt8) : Bool := b < 0x20 || 0x7f ≤ b || b == 34 || b == 92

def quoteByte (b : UInt8) : Text :=
  match b.toNat with
  | 7 => ['\\', 'a']
  | 8 => ['\\', 'b']
  | 9 => ['\\', 't']
  | 10 => ['\\', 'n']
  | 11 => ['\\', 'v']
  | 12 => ['\\', 'f']
  | 13 => ['\\', 'r']
  | 34 => ['\\', '"']
  | 92 => ['\\', '\\']
  | n =>
    if needsQuote b then
      '\\' :: [n / 64, n / 8 % 8, n % 8].map fun d => Char.ofNat (48 + d)
    else [Char.ofNat n]

/-- A name as Git prints it without `-z`. -/
def quotedName (path : ByteArray) : ByteArray :=
  if path.data.toList.any needsQuote then
    encodeUtf8 ('"' :: path.data.toList.flatMap quoteByte ++ ['"'])
  else path

/-- What `git ls-tree -r --name-only` prints. -/
def lsTreeNames (entries : List TreeEntry) : ByteArray :=
  entries.foldr (fun e rest => quotedName e.path ++ (encodeUtf8 ['\n'] ++ rest)) ByteArray.empty

/-! ### errors and answers -/

/-- What is thrown below: an error of the server, or one of the system. -/
inductive ReadError where
  | ceo (e : CeoError)
  | raw (code : Option String)
  deriving DecidableEq, Repr

inductive WorkspaceState where
  | recovering | ready | pushPending | blocked | notReady
  deriving DecidableEq, Repr

def WorkspaceState.text : WorkspaceState → String
  | recovering => "RECOVERING"
  | ready => "READY"
  | pushPending => "PUSH_PENDING"
  | blocked => "BLOCKED"
  | notReady => "NOT_READY"

structure Status where
  state : WorkspaceState
  hasGitDir : Bool
  deriving DecidableEq, Repr

/-- An answer names its commit. -/
structure Reply (α : Type) where
  baseCommit : Text
  body : α
  deriving DecidableEq, Repr

structure ListedFile where
  path : Text
  blobOid : Text
  bytes : Nat
  deriving DecidableEq, Repr

structure Listed where
  directories : List Text
  files : List ListedFile
  truncated : Bool
  deriving DecidableEq, Repr

/-- A snippet is code units, as a slice may end in half a pair. -/
structure Found where
  path : Text
  line : Nat
  snippet : List Nat
  deriving DecidableEq, Repr

structure Searched where
  found : List Found
  truncated : Bool
  deriving DecidableEq, Repr

structure FileRead where
  requestedPath : Text
  path : Text
  blobOid : Text
  content : Text
  deriving DecidableEq, Repr

structure Target where
  path : Text
  oid : Text
  size : Nat
  deriving DecidableEq, Repr

def maxFilesPerRead : Nat := 20

def maxReadResponseBytes : Nat := 1024 * 1024

def maxFileWriteBytes : Nat := 2 * 1024 * 1024

/-- What the server runs with. An object is its bytes, if the repository has it. -/
structure Server where
  lossy : ByteArray → Text
  token : Option String
  isNfc : Text → Bool
  localeLe : Text → Text → Bool
  object : Text → Option ByteArray

variable (sv : Server)

/-! ### captureReadSnapshot -/

/-- A number as it is written. -/
def decimal (digits : Text) : Nat := digits.foldl (fun n c => 10 * n + (c.toNat - 48)) 0

/-- `entry.bytes ?? 0` -/
def size (entry : GitTreeEntry) : Nat := (entry.bytes.map decimal).getD 0

def getSnapshotTreeEntry (c : Commit) (path : Text) : Option GitTreeEntry :=
  getTreeEntry sv.lossy sv.token (lsTree (c.at path)) path

def listSnapshotTreeEntries (c : Commit) : List GitTreeEntry :=
  listTreeEntries sv.lossy sv.token (lsTree c.entries)

/-- `new TextDecoder("utf-8", { fatal: true })` drops a byte order mark. -/
def dropMark : Text → Text
  | '\ufeff' :: rest => rest
  | t => t

def readBlob (oid displayPath : Text) : Except ReadError Text :=
  match sv.object oid with
  | none => .error (.raw none)
  | some bytes =>
    match bytes.utf8Decode? with
    | some chars => .ok (dropMark chars.toList)
    | none =>
      .error (.ceo ⟨"VALIDATION_FAILED", "CEO content must be valid UTF-8.",
        [("path", .text displayPath)]⟩)

def ceoignore : Text := ".ceoignore".toList

def ignoreUnread (code : String) : CeoError :=
  ⟨"NOT_READY", "Failed to read .ceoignore access boundary file.", [("code", .text code.toList)]⟩

def loadIgnoreMatcherAtCommit (c : Commit) : Except CeoError CeoIgnoreMatcher :=
  match getSnapshotTreeEntry sv c ceoignore with
  | none => .ok ⟨[], []⟩
  | some entry =>
    if entry.type = .tree then .error (ignoreUnread "EISDIR")
    else
      match readBlob sv entry.oid ceoignore with
      | .ok content => .ok (parseCeoIgnore content)
      | .error (.ceo e) =>
        if e.code = "VALIDATION_FAILED" then .error e else .error (ignoreUnread e.code)
      | .error (.raw code) => .error (ignoreUnread (code.getD "UNKNOWN"))

def captureReadSnapshot (status : Status) (c : Commit) : Except CeoError CeoIgnoreMatcher :=
  if status.state = .blocked then
    .error ⟨"WORKSPACE_DIVERGED", "Workspace requires operator repair.", []⟩
  else if status.state ≠ .ready then
    .error ⟨"NOT_READY", "Workspace is in " ++ status.state.text ++
      " state and not ready for reads.", []⟩
  else if !status.hasGitDir then
    .error ⟨"NOT_READY", "Workspace repository is not initialized.", []⟩
  else loadIgnoreMatcherAtCommit sv c

/-! ### listFiles -/

def unsafeStart (start : Text) : Bool :=
  decide (['.', '.'] <:+: start) || start.contains '\\' || start.head? == some '/'

def normalizeListPrefix (start : Text) : Text :=
  let trimmed := trimLine start
  if trimmed = [] then [] else if trimmed.getLast? = some '/' then trimmed else trimmed ++ ['/']

/-- One entry of the listing; directories are a set in the order of insertion. -/
def listEntry (m : CeoIgnoreMatcher) (start : Text) (recursive : Bool)
    (acc : List Text × List ListedFile) (entry : GitTreeEntry) : List Text × List ListedFile :=
  if !visible sv.isNfc m entry.path then acc
  else if start ≠ [] ∧ ¬start <+: entry.path then acc
  else
    let file := ⟨entry.path, entry.oid, size entry⟩
    if recursive then (acc.1, acc.2 ++ [file])
    else
      let remainder := entry.path.drop start.length
      if remainder.contains '/' then
        let directory := start ++ (remainder.takeWhile (· != '/') ++ ['/'])
        (if acc.1.contains directory then acc.1 else acc.1 ++ [directory], acc.2)
      else (acc.1, acc.2 ++ [file])

inductive UnifiedEntry where
  | directory (path : Text)
  | file (f : ListedFile)
  deriving DecidableEq, Repr

def UnifiedEntry.path : UnifiedEntry → Text
  | directory p => p
  | file f => f.path

def UnifiedEntry.directory? : UnifiedEntry → Option Text
  | directory p => some p
  | file _ => none

def UnifiedEntry.file? : UnifiedEntry → Option ListedFile
  | directory _ => none
  | file f => some f

def listed (m : CeoIgnoreMatcher) (start : Text) (recursive : Bool) (limit : Nat)
    (treeEntries : List GitTreeEntry) : Listed :=
  let (directories, files) := treeEntries.foldl (listEntry sv m start recursive) ([], [])
  let entries := directories.map UnifiedEntry.directory ++ files.map UnifiedEntry.file
  let unified := entries.mergeSort fun a b => sv.localeLe a.path b.path
  let truncated := decide (limit < unified.length)
  let sliced := if truncated then unified.take limit else unified
  ⟨sliced.filterMap UnifiedEntry.directory?, sliced.filterMap UnifiedEntry.file?, truncated⟩

def listFiles (status : Status) (c : Commit) (start : Text) (recursive : Bool) (limit : Nat) :
    Except ReadError (Reply Listed) :=
  if start ≠ [] ∧ unsafeStart start = true then
    .error (.ceo ⟨"INVALID_PATH", "Prefix must be a safe repository-relative path.",
      [("prefix", .text start)]⟩)
  else
    match captureReadSnapshot sv status c with
    | .error e => .error (.ceo e)
    | .ok m =>
      .ok ⟨c.id, listed sv m (normalizeListPrefix start) recursive limit
        (listSnapshotTreeEntries sv c)⟩

/-! ### searchText -/

def resourcesSlash : Text := "resources/".toList

/-- `/^resources\/[^/]+\/interactions\.md$/` and what is outside `resources/` -/
def isDefaultSearchPath (path : Text) : Bool :=
  if resourcesSlash <+: path then
    let rest := path.drop resourcesSlash.length
    let segment := rest.takeWhile (· != '/')
    segment != [] && rest.drop segment.length == "/interactions.md".toList
  else true

/-- UTF-16 code units. -/
def units (t : Text) : List Nat :=
  t.flatMap fun c =>
    if c.toNat < 0x10000 then [c.toNat]
    else [0xD800 + (c.toNat - 0x10000) / 0x400, 0xDC00 + (c.toNat - 0x10000) % 0x400]

/-- The lines of a file, numbered; the flag says that the limit is reached. -/
def searchLines (query path : Text) (limit : Nat) :
    List (Text × Nat) → List Found → List Found × Bool
  | [], found => (found, false)
  | (line, index) :: lines, found =>
    if query <:+: line then
      let found := found ++ [⟨path, index + 1, (units line).take 300⟩]
      if limit ≤ found.length then (found, true) else searchLines query path limit lines found
    else searchLines query path limit lines found

def searchEntries (m : CeoIgnoreMatcher) (query : Text) (starts : List Text) (limit : Nat) :
    List GitTreeEntry → List Found → Except ReadError Searched
  | [], found => .ok ⟨found, false⟩
  | entry :: entries, found =>
    if !visible sv.isNfc m entry.path then searchEntries m query starts limit entries found
    else if starts = [] ∧ isDefaultSearchPath entry.path = false then
      searchEntries m query starts limit entries found
    else if starts ≠ [] ∧ (starts.any fun s => decide (s <+: entry.path)) = false then
      searchEntries m query starts limit entries found
    else if entry.mode = ['1', '2', '0', '0', '0', '0'] then
      .error (.ceo ⟨"INVALID_PATH", "Symlinks are forbidden in CEO content paths.",
        [("path", .text entry.path)]⟩)
    else if entry.type ≠ .blob then searchEntries m query starts limit entries found
    else
      match readBlob sv entry.oid entry.path with
      | .error e => .error e
      | .ok content =>
        match searchLines query entry.path limit (content.splitOn '\n').zipIdx found with
        | (found, true) => .ok ⟨found, true⟩
        | (found, false) => searchEntries m query starts limit entries found

def searchText (status : Status) (c : Commit) (query : Text) (starts : List Text) (limit : Nat) :
    Except ReadError (Reply Searched) :=
  if query = [] ∨ (encodeUtf8 query).size > 512 then
    .error (.ceo ⟨"VALIDATION_FAILED", "Search query must contain 1 to 512 UTF-8 bytes.", []⟩)
  else
    match starts.find? unsafeStart with
    | some start =>
      .error (.ceo ⟨"INVALID_PATH", "Search prefix is invalid.", [("prefix", .text start)]⟩)
    | none =>
      match captureReadSnapshot sv status c with
      | .error e => .error (.ceo e)
      | .ok m =>
        (searchEntries sv m query starts limit (listSnapshotTreeEntries sv c) []).map (⟨c.id, ·⟩)

/-! ### readFiles -/

def listTrackedFiles (c : Commit) (m : CeoIgnoreMatcher) : List Text :=
  ((gitStdout sv.lossy sv.token (lsTreeNames c.entries)).splitOn '\n').filter
    (visible sv.isNfc m)

def markdownName (name : Text) : Bool :=
  !name.contains '/' && decide (['.', 'm', 'd'] <:+ name) && decide (3 < name.length)

def tasksSlash : Text := "tasks/".toList

def isTaskFilePath (path : Text) : Bool :=
  decide (tasksSlash <+: path) && markdownName (path.drop tasksSlash.length)

def archiveSlash : Text := "archive/".toList

/-- `/^archive\/(\d{4})\/([^/]+\.md)$/` -/
def archiveEntryBasename (entry : Text) : Option Text :=
  if archiveSlash <+: entry then
    let rest := entry.drop archiveSlash.length
    let name := rest.drop 5
    if (rest.take 4).length = 4 ∧ (rest.take 4).all isDigit = true ∧
        (rest.drop 4).head? = some '/' ∧ markdownName name = true then
      some name
    else none
  else none

/-- The archived files of a name, from the index. -/
def archived (tracked : List Text) (basename : Text) : List Text :=
  (tracked.filter fun entry => archiveEntryBasename entry == some basename).mergeSort fun a b =>
    decide (units a ≤ units b)

/-- An entry that is a regular file is the target. -/
def asTarget (path : Text) (entry : GitTreeEntry) : Except CeoError Target :=
  if entry.mode = ['1', '2', '0', '0', '0', '0'] then
    .error ⟨"INVALID_PATH", "Symlinks are forbidden in CEO content paths.", [("path", .text path)]⟩
  else if entry.type ≠ .blob ∨ (entry.mode ≠ ['1', '0', '0', '6', '4', '4'] ∧
      entry.mode ≠ ['1', '0', '0', '7', '5', '5']) then
    .error ⟨"INVALID_PATH", "Requested path is not a regular file.", [("path", .text path)]⟩
  else .ok ⟨path, entry.oid, size entry⟩

def notFound (message : String) (path : Text) : CeoError :=
  ⟨"INVALID_PATH", message, [("path", .text path), ("reason", .text "NOT_FOUND".toList)]⟩

def fileNotFound : String :=
  "Requested file was not found. Correct the path and retry the complete batch."

def resolveMissing (c : Commit) (m : CeoIgnoreMatcher) (filePath : Text) :
    Except CeoError Target :=
  if !isTaskFilePath filePath then .error (notFound fileNotFound filePath)
  else
    match archived (listTrackedFiles sv c m) (filePath.drop tasksSlash.length) with
    | [] =>
      .error (notFound ("Task file was not found at the requested path or in archive. " ++
        "Correct the path and retry the complete batch.") filePath)
    | [actualPath] =>
      match getSnapshotTreeEntry sv c actualPath with
      | none => .error (notFound fileNotFound actualPath)
      | some entry => asTarget actualPath entry
    | candidates =>
      .error ⟨"INVALID_PATH", "Task file exists in multiple archive years. " ++
        "Specify the archive path explicitly and retry the complete batch.",
        [("path", .text filePath), ("reason", .text "AMBIGUOUS_ARCHIVE_MATCH".toList),
          ("candidates", .texts candidates)]⟩

def resolveSnapshotReadTarget (c : Commit) (m : CeoIgnoreMatcher) (requestedPath : Text) :
    Except CeoError Target :=
  match validateContentPath sv.isNfc requestedPath with
  | .error e => .error e
  | .ok filePath =>
    if isPathIgnored m filePath then
      .error ⟨"ACCESS_DENIED", "Requested path is excluded by .ceoignore.",
        [("path", .text filePath)]⟩
    else
      match getSnapshotTreeEntry sv c filePath with
      | some original => asTarget filePath original
      | none => resolveMissing sv c m filePath

def mapReadFsError (code : Option String) (displayPath : Text) : CeoError :=
  match code with
  | some "EACCES" | some "EPERM" =>
    ⟨"ACCESS_DENIED", "Access to the requested file was denied.", [("path", .text displayPath)]⟩
  | some "EISDIR" | some "ENOTDIR" | some "ELOOP" =>
    ⟨"INVALID_PATH", "Requested path is not a regular file.", [("path", .text displayPath)]⟩
  | code =>
    ⟨"INTERNAL_ERROR", "The CEO workspace operation failed.",
      [("path", .text displayPath), ("error_code", .text (code.getD "UNKNOWN").toList)]⟩

def withReadErrorContext (error : ReadError) (requestedPaths : List Text)
    (failedRequestedPath displayPath : Text) : ReadError :=
  let mapped := match error with
    | .ceo e => e
    | .raw code => mapReadFsError code displayPath
  .ceo { mapped with
    details := mapped.details ++ [("requested_paths", .texts requestedPaths),
      ("failed_requested_path", .text failedRequestedPath)] }

/-- `Math.round(n / unit)` -/
def roundTo (unit n : Nat) : Nat := (2 * n + unit) / (2 * unit)

def tooLarge (target : Target) : CeoError :=
  ⟨"VALIDATION_FAILED", "File size (" ++ toString (roundTo 1024 target.size) ++
    " KiB) exceeds max single-file limit (" ++ toString (roundTo (1024 * 1024) maxFileWriteBytes) ++
    " MiB).", [("path", .text target.path)]⟩

def overBudget : CeoError :=
  ⟨"VALIDATION_FAILED", "Total response size exceeds response budget of " ++
    toString (roundTo (1024 * 1024) maxReadResponseBytes) ++ " MiB.", []⟩

/-- The rest of a batch. -/
def readBatch (resolve : Text → Except CeoError Target) (paths : List Text) :
    List Text → Nat → List FileRead → Except ReadError (List FileRead)
  | [], _, files => .ok files
  | requestedPath :: rest, total, files =>
    match resolve requestedPath with
    | .error e => .error (withReadErrorContext (.ceo e) paths requestedPath requestedPath)
    | .ok target =>
      if target.size > maxFileWriteBytes then
        .error (withReadErrorContext (.ceo (tooLarge target)) paths requestedPath target.path)
      else if total + target.size > maxReadResponseBytes then
        .error (withReadErrorContext (.ceo overBudget) paths requestedPath target.path)
      else
        match readBlob sv target.oid target.path with
        | .error e => .error (withReadErrorContext e paths requestedPath target.path)
        | .ok content =>
          readBatch resolve paths rest (total + target.size)
            (files ++ [⟨requestedPath, target.path, target.oid, content⟩])

def readFiles (status : Status) (c : Commit) (paths : List Text) :
    Except ReadError (Reply (List FileRead)) :=
  if paths.length = 0 ∨ paths.length > maxFilesPerRead then
    .error (.ceo ⟨"VALIDATION_FAILED", "Read between 1 and " ++ toString maxFilesPerRead ++
      " files.", []⟩)
  else
    match captureReadSnapshot sv status c with
    | .error e => .error (.ceo e)
    | .ok m =>
      (readBatch sv (resolveSnapshotReadTarget sv c m) paths paths 0 []).map (⟨c.id, ·⟩)

end Ceo.Workspace.Reads
