import Ceo.Workspace.Operations

/-!
# Applying change operations

`applyOperations` of `workspace.ts` edits a worktree of the base commit, one
operation after another. `validateOperations` keeps the operations apart, so
that what stands at a path in the end is what the operations of that path alone
make of the base.
-/

namespace Ceo.Workspace.Operations

open Ceo.Jobs (Json bind_eq_ok)
open Ceo.Workspace.Git Ceo.Workspace.Paths Ceo.Workspace.Reads

/-! ### the worktree -/

inductive Node where
  | file (bytes : ByteArray)
  | directory
  | symlink

/-- What stands at each path of a worktree. -/
abbrev Worktree := Text → Option Node

/-- What an operation throws: an error of its own, or one of the file system. -/
inductive Thrown where
  | ceo (e : OperationError)
  | fs (code : String)

/-- The paths from the root down to a path. -/
def pathsTo (filePath : Text) : List Text :=
  ((filePath.splitOn '/').inits.drop 1).map joinSegments

/-- The directories above a path. -/
def above (filePath : Text) : List Text :=
  ((filePath.splitOn '/').dropLast.inits.drop 1).map joinSegments

namespace Worktree

variable (tree : Worktree)

def lstatAll (relativePath : Text) : List Text → Except Thrown Unit
  | [] => .ok ()
  | current :: rest =>
    match tree current with
    | none => .ok ()
    | some .symlink =>
      .error (.ceo ⟨"INVALID_PATH", "Symlinks are forbidden in CEO content paths.",
        [("path", textJson relativePath)]⟩)
    | some (.file _) => if rest = [] then .ok () else .error (.fs "ENOTDIR")
    | some .directory => lstatAll relativePath rest

def assertNoSymlink (relativePath : Text) : Except Thrown Unit :=
  lstatAll tree relativePath (pathsTo relativePath)

/-- Of a path without links. -/
def access (filePath : Text) : Bool := (tree filePath).isSome

/-- `mkdir` of the directory of a path, `recursive`. -/
def mkdir (filePath : Text) : Worktree := fun q =>
  if (above filePath).contains q && (tree q).isNone then some .directory else tree q

def put (filePath : Text) (node : Option Node) : Worktree := fun q =>
  if q = filePath then node else tree q

def hasDirectory (filePath : Text) : Bool :=
  match (above filePath).getLast? with
  | none => true
  | some parent => match tree parent with
    | some .directory => true
    | _ => false

/-- `writeFile` of a text; no link stands at a path that an operation writes. -/
def writeFile (filePath content : Text) : Except Thrown Worktree :=
  match tree filePath with
  | some (.file _) => .ok (put tree filePath (some (.file (encodeUtf8 content))))
  | some .directory => .error (.fs "EISDIR")
  | some .symlink => .error (.fs "ELOOP")
  | none =>
    if hasDirectory tree filePath then .ok (put tree filePath (some (.file (encodeUtf8 content))))
    else .error (.fs "ENOENT")

def rm (filePath : Text) : Except Thrown Worktree :=
  match tree filePath with
  | some .directory => .error (.fs "ERR_FS_EISDIR")
  | _ => .ok (put tree filePath none)

/-- `rename` of a file; nothing but a file stands where the base commit has a blob. -/
def rename (source target : Text) : Except Thrown Worktree :=
  match tree source with
  | some (.file bytes) => .ok (put (put tree source none) target (some (.file bytes)))
  | some .directory => .error (.fs "EISDIR")
  | some .symlink => .error (.fs "ELOOP")
  | none => .error (.fs "ENOENT")

end Worktree

/-- `new TextDecoder("utf-8", { fatal: true }).decode` -/
def decodeStrict (bytes : ByteArray) : Option Text :=
  bytes.utf8Decode?.map fun chars => dropMark chars.toList

def Worktree.readUtf8 (tree : Worktree) (filePath : Text) : Except Thrown Text :=
  match tree filePath with
  | some (.file bytes) =>
    match decodeStrict bytes with
    | some t => .ok t
    | none =>
      .error (.ceo (validationFailed "CEO content must be valid UTF-8."
        [("path", textJson filePath)]))
  | some .directory => .error (.fs "EISDIR")
  | some .symlink => .error (.fs "ELOOP")
  | none => .error (.fs "ENOENT")

/-! ### applyOperations -/

/-- What the operations run against: the blobs of the base commit, and the areas that the resolver
has found to hold state before the first of them. -/
structure Base where
  env : Env
  blobOid : Text → Option Text
  stateArea : Text → Bool

variable (base : Base)

def assertExpectedBlob (filePath expected : Text) : Except Thrown Unit :=
  if base.blobOid filePath = some expected then .ok ()
  else
    .error (.ceo ⟨"BLOB_MISMATCH", "The file changed since it was read.",
      [("path", textJson filePath), ("expected_blob_oid", textJson expected),
        ("actual_blob_oid", ((base.blobOid filePath).map textJson).getD .null)]⟩)

/-- The first segment of a path with more than one. -/
def areaOfPath (filePath : Text) : Option Text :=
  let area := filePath.takeWhile (· != '/')
  if filePath.contains '/' ∧ area ≠ [] then some area else none

def appendRefused (filePath area : Text) : OperationError :=
  invalidOperation ("Append is not allowed in state area '" ++ String.ofList area ++
      "/'. Its files hold current values that are rewritten in place: use patch to replace the " ++
      "exact fragment that changed, or replace to rewrite the whole file. Do not create a new " ++
      "file to work around this.")
    [("path", textJson filePath), ("area", textJson area), ("write_mode", .str "state"),
      ("reason", .str "APPEND_NOT_ALLOWED"), ("use", .arr [.str "patch", .str "replace"])]

def appendAllowed (filePath : Text) : Except Thrown Unit :=
  match areaOfPath filePath with
  | some area =>
    if base.stateArea area then .error (.ceo (appendRefused filePath area)) else .ok ()
  | none => .ok ()

def assertAppended (filePath combined : Text) : Except Thrown Unit :=
  (do
    let _ ← assertContentSize combined
    checkRule base.env combined filePath).mapError .ceo

/-- A file that becomes a rule by a move is read and checked. -/
def assertMovedRule (tree : Worktree) (source target : Text) : Except Thrown Unit :=
  if isRuleFilePath target then do
    let current ← tree.readUtf8 source
    (checkRule base.env current target).mapError .ceo
  else .ok ()

def edit (tree : Worktree) (filePath : Text) : ChangeOperation → Except Thrown Worktree
  | .create _ content =>
    if tree.access filePath then
      .error (.ceo (invalidOperation "Create target already exists."
        [("path", textJson filePath)]))
    else (tree.mkdir filePath).writeFile filePath content
  | .replace _ oid content => do
    assertExpectedBlob base filePath oid
    tree.writeFile filePath content
  | .append _ oid content => do
    assertExpectedBlob base filePath oid
    appendAllowed base filePath
    let current ← tree.readUtf8 filePath
    assertAppended base filePath (current ++ content)
    tree.writeFile filePath (current ++ content)
  | .patch _ oid find replace => do
    assertExpectedBlob base filePath oid
    let current ← tree.readUtf8 filePath
    -- the search does not end for an empty text, which is never accepted
    if h : find = [] then .error (.fs "TIMEOUT")
    else do
      let patched ← (applyPatch base.env filePath current ⟨find, h⟩ replace).mapError .ceo
      tree.writeFile filePath patched
  | .delete _ oid => do
    assertExpectedBlob base filePath oid
    tree.rm filePath
  | .move _ oid target => do
    let target ← ((validateContentPath base.env.isNfc target).mapError ofPathError).mapError .ceo
    assertExpectedBlob base filePath oid
    tree.assertNoSymlink target
    if tree.access target then
      .error (.ceo (invalidOperation "Move target already exists." [("target", textJson target)]))
    else do
      assertMovedRule base tree filePath target
      (tree.mkdir target).rename filePath target

def applyOperation (tree : Worktree) (operation : ChangeOperation) : Except Thrown Worktree := do
  let filePath ←
    ((validateContentPath base.env.isNfc operation.path).mapError ofPathError).mapError .ceo
  tree.assertNoSymlink filePath
  edit base tree filePath operation

def applyOperations (tree : Worktree) (operations : List ChangeOperation) :
    Except Thrown Worktree :=
  operations.foldlM (applyOperation base) tree

/-! ### what a path holds -/

def fileAt (tree : Worktree) (q : Text) : Option ByteArray :=
  match tree q with
  | some (.file bytes) => some bytes
  | _ => none

/-- Whether an operation changes what stands at a path. -/
def touches (q : Text) (operation : ChangeOperation) : Bool :=
  ((changes operation).map (·.1)).contains q

/-- What an operation makes of the content of one of its paths; `before` is what the paths hold in
the base. -/
def outcome (before : Text → Option ByteArray) (q : Text) (content : Option ByteArray) :
    ChangeOperation → Option ByteArray
  | .create _ new | .replace _ _ new => some (encodeUtf8 new)
  | .append _ _ more => (content.bind decodeStrict).map fun t => encodeUtf8 (t ++ more)
  | .patch _ _ find replace =>
    (content.bind decodeStrict).map fun t => encodeUtf8 (replaceFirst t find replace)
  | .delete .. => none
  | .move source _ target => if q = target then before source else none

namespace Worktree

variable {tree tree' : Worktree} {filePath : Text}

theorem fileAt_put (node : Option Node) (q : Text) : fileAt (put tree filePath node) q =
    if q = filePath then fileAt (fun _ => node) q else fileAt tree q := by
  by_cases hq : q = filePath
  · rw [if_pos hq, fileAt, put, if_pos hq]
    rfl
  · rw [if_neg hq, fileAt, put, if_neg hq]
    rfl

theorem fileAt_mkdir (q : Text) : fileAt (mkdir tree filePath) q = fileAt tree q := by
  unfold fileAt mkdir
  cases h : tree q with
  | none => cases (above filePath).contains q <;> rfl
  | some node => simp

theorem writeFile_ok {content : Text} (h : writeFile tree filePath content = .ok tree') (q : Text) :
    fileAt tree' q = if q = filePath then some (encodeUtf8 content) else fileAt tree q := by
  have hput : tree' = put tree filePath (some (.file (encodeUtf8 content))) := by
    unfold writeFile at h
    split at h
    · exact (Except.ok.inj h).symm
    · cases h
    · cases h
    · split at h
      · exact (Except.ok.inj h).symm
      · cases h
  rw [hput, fileAt_put]
  rfl

theorem rm_ok (h : rm tree filePath = .ok tree') (q : Text) :
    fileAt tree' q = if q = filePath then none else fileAt tree q := by
  have hput : tree' = put tree filePath none := by
    unfold rm at h
    split at h
    · cases h
    · exact (Except.ok.inj h).symm
  rw [hput, fileAt_put]
  rfl

theorem rename_ok {target : Text} (h : rename tree filePath target = .ok tree') (q : Text) :
    fileAt tree' q = if q = target then fileAt tree filePath
      else if q = filePath then none else fileAt tree q := by
  unfold rename at h
  split at h
  · next bytes hfile =>
    obtain rfl := Except.ok.inj h
    have hsource : fileAt tree filePath = some bytes := by rw [fileAt, hfile]
    rw [fileAt_put, fileAt_put, hsource]
    rfl
  · cases h
  · cases h
  · cases h

theorem readUtf8_ok {t : Text} (h : readUtf8 tree filePath = .ok t) :
    (fileAt tree filePath).bind decodeStrict = some t := by
  unfold readUtf8 at h
  unfold fileAt
  cases hnode : tree filePath with
  | none =>
    rw [hnode] at h
    cases h
  | some node =>
    rw [hnode] at h
    cases node with
    | file bytes =>
      cases hdecode : decodeStrict bytes with
      | none =>
        simp only [hdecode] at h
        cases h
      | some u =>
        simp only [hdecode] at h
        rw [← Except.ok.inj h]
        exact hdecode
    | directory => cases h
    | symlink => cases h

end Worktree

variable {base}

theorem validated {candidate filePath : Text}
    (h : ((validateContentPath base.env.isNfc candidate).mapError ofPathError).mapError Thrown.ceo =
      .ok filePath) : filePath = candidate := by
  cases hv : validateContentPath base.env.isNfc candidate with
  | error e =>
    rw [hv] at h
    cases h
  | ok p =>
    rw [hv] at h
    obtain rfl := Except.ok.inj h
    exact validateContentPath_ok hv

theorem of_mapError {α : Type} {x : Except OperationError α} {a : α}
    (h : x.mapError Thrown.ceo = .ok a) : x = .ok a := by
  cases x with
  | error e => cases h
  | ok b => exact congrArg Except.ok (Except.ok.inj h)

theorem touches_path (operation : ChangeOperation) {q : Text}
    (h : changes operation = [(operation.path, operation.kind)]) :
    touches q operation = true ↔ q = operation.path := by
  rw [touches, h, List.contains_iff_mem]
  exact List.mem_singleton

theorem touches_move {path oid target q : Text} :
    touches q (.move path oid target) = true ↔ q = path ∨ q = target := by
  rw [touches, List.contains_iff_mem]
  exact List.mem_pair

/-- An operation changes the files at its own paths, and makes of them what its outcome says. -/
theorem applyOperation_ok {tree tree' : Worktree} {operation : ChangeOperation}
    (h : applyOperation base tree operation = .ok tree') (q : Text) :
    fileAt tree' q = if touches q operation then outcome (fileAt tree) q (fileAt tree q) operation
      else fileAt tree q := by
  obtain ⟨p, hp, h⟩ := bind_eq_ok.1 h
  obtain rfl := validated hp
  obtain ⟨-, -, h⟩ := bind_eq_ok.1 h
  cases operation with
  | create path content =>
    simp only [touches_path (.create path content) rfl]
    simp only [edit] at h
    split at h
    · cases h
    · rw [Worktree.writeFile_ok h, Worktree.fileAt_mkdir]
      rfl
  | replace path oid content =>
    simp only [touches_path (.replace path oid content) rfl]
    obtain ⟨-, -, h⟩ := bind_eq_ok.1 h
    exact Worktree.writeFile_ok h q
  | append path oid content =>
    simp only [touches_path (.append path oid content) rfl]
    obtain ⟨-, -, h⟩ := bind_eq_ok.1 h
    obtain ⟨-, -, h⟩ := bind_eq_ok.1 h
    obtain ⟨t, ht, h⟩ := bind_eq_ok.1 h
    obtain ⟨-, -, h⟩ := bind_eq_ok.1 h
    rw [Worktree.writeFile_ok h]
    split
    · next hq =>
      rw [outcome, hq, Worktree.readUtf8_ok ht]
      rfl
    · rfl
  | patch path oid find replace =>
    simp only [touches_path (.patch path oid find replace) rfl]
    obtain ⟨-, -, h⟩ := bind_eq_ok.1 h
    obtain ⟨t, ht, h⟩ := bind_eq_ok.1 h
    split at h
    · cases h
    · obtain ⟨patched, hpatched, h⟩ := bind_eq_ok.1 h
      rw [Worktree.writeFile_ok h, applyPatch_ok (of_mapError hpatched)]
      split
      · next hq =>
        rw [outcome, hq, Worktree.readUtf8_ok ht]
        rfl
      · rfl
  | delete path oid =>
    simp only [touches_path (.delete path oid) rfl]
    obtain ⟨-, -, h⟩ := bind_eq_ok.1 h
    exact Worktree.rm_ok h q
  | move path oid target =>
    obtain ⟨_, htarget, h⟩ := bind_eq_ok.1 h
    rw [validated htarget] at h
    clear htarget
    obtain ⟨-, -, h⟩ := bind_eq_ok.1 h
    obtain ⟨-, -, h⟩ := bind_eq_ok.1 h
    split at h
    · cases h
    · obtain ⟨-, -, h⟩ := bind_eq_ok.1 h
      rw [Worktree.rename_ok h, Worktree.fileAt_mkdir, Worktree.fileAt_mkdir]
      simp only [touches_move, outcome]
      by_cases htarget : q = target
      · rw [if_pos htarget, if_pos (.inr htarget), if_pos htarget]
        rfl
      · by_cases hsource : q = path
        · rw [if_neg htarget, if_pos (show q = ChangeOperation.path (.move path oid target) from hsource),
            if_pos (.inl hsource), if_neg htarget]
        · rw [if_neg htarget, if_neg (show ¬q = ChangeOperation.path (.move path oid target) from hsource),
            if_neg (by rintro (h | h); exacts [hsource h, htarget h])]

/-! ### all operations -/

theorem outcome_congr {before before' : Text → Option ByteArray} {operation : ChangeOperation}
    (h : ∀ path oid target, operation = .move path oid target → before path = before' path)
    (q : Text) (content : Option ByteArray) :
    outcome before q content operation = outcome before' q content operation := by
  cases operation with
  | move path oid target =>
    simp only [outcome, h path oid target rfl]
  | create _ _ | replace _ _ _ | append _ _ _ | patch _ _ _ _ | delete _ _ => rfl

/-- Nothing before a move has changed what it moves. -/
theorem untouched_of_apart {operation : ChangeOperation} {operations : List ChangeOperation}
    (h : ∀ a ∈ changes operation, ∀ b ∈ operations.flatMap changes, Compatible a b)
    {path oid target : Text} (hmove : .move path oid target ∈ operations) :
    touches path operation = false := by
  rw [Bool.eq_false_iff]
  intro htouch
  rw [touches, List.contains_iff_mem] at htouch
  obtain ⟨a, ha, rfl⟩ := List.mem_map.1 htouch
  have hb : (a.1, Kind.other) ∈ operations.flatMap changes :=
    List.mem_flatMap.2 ⟨_, hmove, List.mem_cons_self ..⟩
  cases (h a ha _ hb rfl).2

/-- Every path ends with what its own operations make of it, in their order. -/
theorem applied_run {operations : List ChangeOperation} {before : Text → Option ByteArray}
    {tree tree' : Worktree} (apart : (operations.flatMap changes).Pairwise Compatible)
    (sources : ∀ path oid target, .move path oid target ∈ operations →
      fileAt tree path = before path)
    (h : applyOperations base tree operations = .ok tree') (q : Text) :
    fileAt tree' q =
      (operations.filter (touches q)).foldl (outcome before q) (fileAt tree q) := by
  induction operations generalizing tree with
  | nil =>
    obtain rfl := Except.ok.inj h
    rfl
  | cons operation operations ih =>
    obtain ⟨mid, hmid, h⟩ := bind_eq_ok.1 h
    rw [List.flatMap_cons, List.pairwise_append] at apart
    obtain ⟨-, hrest, hcross⟩ := apart
    have hstep := applyOperation_ok hmid
    have hsources : ∀ path oid target, .move path oid target ∈ operations →
        fileAt mid path = before path := fun path oid target hmove => by
      rw [hstep, untouched_of_apart hcross hmove]
      exact sources path oid target (List.mem_cons_of_mem _ hmove)
    have hsame : ∀ content, outcome (fileAt tree) q content operation =
        outcome before q content operation :=
      outcome_congr (fun path oid target hop =>
        sources path oid target (hop ▸ List.mem_cons_self ..)) q
    rw [ih hrest hsources h, hstep, List.filter_cons]
    split
    · rw [List.foldl_cons, hsame]
    · rfl

theorem accepted_apart {env : Env} {matcher : CeoIgnoreMatcher} {operations : List ChangeOperation}
    (h : validateOperations env matcher operations = .ok ()) :
    (operations.flatMap changes).Pairwise Compatible := by
  obtain ⟨state, hstate, -⟩ := validateOperations_ok.1 h
  exact ((touchAll_iff holds_nil).1 ⟨_, (validate_run.1 hstate).2.1⟩).2

/-- Once the operations of an accepted list are applied, every path holds what its own operations
make of the base in their order, whatever the others do to other paths; a move brings what its source
holds in the base. -/
theorem operations_pointwise (base : Base) (matcher : CeoIgnoreMatcher) {tree tree' : Worktree}
    {operations : List ChangeOperation}
    (accepted : validateOperations base.env matcher operations = .ok ())
    (applied : applyOperations base tree operations = .ok tree') (q : Text) :
    fileAt tree' q =
      (operations.filter (touches q)).foldl (outcome (fileAt tree) q) (fileAt tree q) :=
  applied_run (accepted_apart accepted) (fun _ _ _ _ => rfl) applied q

def sampleBase : Base where
  env := ⟨fun _ => true, ⟨fun _ => .error "", fun _ => []⟩, fun _ => ""⟩
  blobOid path := if path = "a.md".toList then some "0a".toList else none
  stateArea _ := false

def sampleTree : Worktree := fun path =>
  if path = "a.md".toList then some (.file (encodeUtf8 "x".toList)) else none

def sampleCreate : ChangeOperation := .create "n.md".toList "y".toList

def sampleMove : ChangeOperation := .move "a.md".toList "0a".toList "b/c.md".toList

theorem exists_of_isOk {ε α : Type} {x : Except ε α} (h : x.isOk = true) : ∃ a, x = .ok a := by
  cases x with
  | error e => cases h
  | ok a => exact ⟨a, rfl⟩

theorem sample_accepted :
    validateOperations sampleBase.env ⟨[], []⟩ [sampleCreate, sampleMove] = .ok () :=
  (exists_of_isOk (by decide +kernel)).choose_spec

theorem operations_pointwise_moved : ∃ tree',
    applyOperations sampleBase sampleTree [sampleCreate, sampleMove] = .ok tree' ∧
      ∀ q, fileAt tree' q = ([sampleCreate, sampleMove].filter (touches q)).foldl
        (outcome (fileAt sampleTree) q) (fileAt sampleTree q) := by
  obtain ⟨tree', applied⟩ := exists_of_isOk
    (x := applyOperations sampleBase sampleTree [sampleCreate, sampleMove]) (by decide +kernel)
  exact ⟨tree', applied, operations_pointwise sampleBase ⟨[], []⟩ sample_accepted applied⟩

/-! ### order -/

theorem Compatible.symm {a b : Text × Kind} (h : Compatible a b) : Compatible b a := fun hsame =>
  (h hsame.symm).symm

theorem kind_of_mem {operation : ChangeOperation} {c : Text × Kind} (h : c ∈ changes operation) :
    c.2 = operation.kind := by
  cases operation with
  | move path oid target => rcases List.mem_pair.1 h with rfl | rfl <;> rfl
  | create _ _ | replace _ _ _ | append _ _ _ | patch _ _ _ _ | delete _ _ =>
    rw [List.mem_singleton.1 h]

/-- Two operations of one path are patches. -/
theorem patches_of_apart {operations : List ChangeOperation}
    (apart : (operations.flatMap changes).Pairwise Compatible) (q : Text) :
    (operations.filter (touches q)).Pairwise fun a b => a.kind = .patch ∧ b.kind = .patch := by
  have hpair := (List.pairwise_flatMap.1 apart).2.filter (touches q)
  refine hpair.imp_of_mem fun {a b} ha hb hab => ?_
  have ha := (List.mem_filter.1 ha).2
  have hb := (List.mem_filter.1 hb).2
  rw [touches, List.contains_iff_mem] at ha hb
  obtain ⟨c, hc, hcq⟩ := List.mem_map.1 ha
  obtain ⟨d, hd, hdq⟩ := List.mem_map.1 hb
  have hboth := hab c hc d hd (hcq.trans hdq.symm)
  rw [← kind_of_mem hc, ← kind_of_mem hd]
  exact hboth

theorem all_patches {operations : List ChangeOperation}
    (h : operations.Pairwise fun a b => a.kind = .patch ∧ b.kind = .patch)
    (two : 1 < operations.length) : operations.filter (·.kind = .patch) = operations := by
  rw [List.filter_eq_self]
  intro a ha
  rw [decide_eq_true_eq]
  rcases operations with _ | ⟨b, _ | ⟨c, rest⟩⟩
  · cases ha
  · exact absurd two (by simp)
  · rw [List.pairwise_cons] at h
    rcases List.mem_cons.1 ha with rfl | ha
    · exact (h.1 c (List.mem_cons_self ..)).1
    · exact (h.1 a ha).2

/-- The operations of a path are the same in both lists, and in the same order where it matters. -/
theorem filter_eq_of_perm {operations operations' : List ChangeOperation}
    (perm : operations.Perm operations')
    (apart : (operations.flatMap changes).Pairwise Compatible) (q : Text)
    (patches : (operations.filter (touches q)).filter (·.kind = .patch) =
      (operations'.filter (touches q)).filter (·.kind = .patch)) :
    operations.filter (touches q) = operations'.filter (touches q) := by
  have hperm := perm.filter (touches q)
  have hpair := patches_of_apart apart q
  by_cases two : 1 < (operations.filter (touches q)).length
  · have hpair' := (hperm.pairwise_iff fun hab => hab.symm).1 hpair
    rw [← all_patches hpair two, ← all_patches hpair' (hperm.length_eq ▸ two)]
    exact patches
  · rcases hlist : operations.filter (touches q) with _ | ⟨a, _ | ⟨b, rest⟩⟩
    · rw [hlist] at hperm
      exact (List.nil_perm.1 hperm).symm
    · rw [hlist] at hperm
      exact (List.perm_singleton.1 hperm.symm).symm
    · rw [hlist] at two
      exact absurd (by simp) two

/-- The order of the operations of an accepted list does not matter, the patches of one path apart:
applied in two orders, they leave the same in every file. -/
theorem operations_any_order (base : Base) (matcher : CeoIgnoreMatcher)
    {tree tree₁ tree₂ : Worktree} {operations operations' : List ChangeOperation}
    (perm : operations.Perm operations')
    (patches : ∀ q, (operations.filter (touches q)).filter (·.kind = .patch) =
      (operations'.filter (touches q)).filter (·.kind = .patch))
    (accepted : validateOperations base.env matcher operations = .ok ())
    (applied : applyOperations base tree operations = .ok tree₁)
    (applied' : applyOperations base tree operations' = .ok tree₂) (q : Text) :
    fileAt tree₁ q = fileAt tree₂ q := by
  have apart := accepted_apart accepted
  have apart' := ((perm.flatMap_right changes).pairwise_iff Compatible.symm).1 apart
  rw [applied_run apart (fun _ _ _ _ => rfl) applied q,
    applied_run apart' (fun _ _ _ _ => rfl) applied' q, filter_eq_of_perm perm apart q (patches q)]

theorem operations_any_order_moved : ∃ tree₁ tree₂,
    applyOperations sampleBase sampleTree [sampleCreate, sampleMove] = .ok tree₁ ∧
      applyOperations sampleBase sampleTree [sampleMove, sampleCreate] = .ok tree₂ ∧
      ∀ q, fileAt tree₁ q = fileAt tree₂ q := by
  obtain ⟨tree₁, applied⟩ := exists_of_isOk
    (x := applyOperations sampleBase sampleTree [sampleCreate, sampleMove]) (by decide +kernel)
  obtain ⟨tree₂, applied'⟩ := exists_of_isOk
    (x := applyOperations sampleBase sampleTree [sampleMove, sampleCreate]) (by decide +kernel)
  refine ⟨tree₁, tree₂, applied, applied', operations_any_order sampleBase ⟨[], []⟩
    (List.Perm.swap ..) (fun q => ?_) sample_accepted applied applied'⟩
  rw [List.filter_eq_nil_iff.2, List.filter_eq_nil_iff.2]
  · intro operation hmem
    rcases List.mem_pair.1 (List.mem_filter.1 hmem).1 with rfl | rfl <;> decide
  · intro operation hmem
    rcases List.mem_pair.1 (List.mem_filter.1 hmem).1 with rfl | rfl <;> decide

end Ceo.Workspace.Operations
