import Ceo.Workspace.Reads

/-!
# What is hidden is not seen

Two commits are alike when they have the same `.ceoignore` and the same visible
entries. Reads of the two are compared, the commit's own name apart. Listings
see the visible entries and nothing else. A path that is looked up may be a
directory of hidden files, and then the answer says so.
-/

namespace Ceo.Workspace.Reads

open Ceo.Lib.Substitute
open Ceo.Workspace.Git Ceo.Workspace.Paths

variable (sv : Server)

/-- The path as it is read. -/
def shown (e : TreeEntry) : Text := decodeUtf8 sv.lossy e.path

def read (e : TreeEntry) : GitTreeEntry :=
  { mode := e.mode, type := e.type, oid := e.oid, bytes := e.bytes, path := shown sv e }

def visibleEntries (m : CeoIgnoreMatcher) (c : Commit) : List TreeEntry :=
  c.entries.filter fun e => visible sv.isNfc m (shown sv e)

/-- The same `.ceoignore` and the same visible entries. -/
structure Alike (c c' : Commit) : Prop where
  ceoignore : c.at ceoignore = c'.at ceoignore
  entries : ∀ m, loadIgnoreMatcherAtCommit sv c = .ok m → ∀ e,
    visible sv.isNfc m (shown sv e) = true → (e ∈ c.entries ↔ e ∈ c'.entries)

/-- Redaction leaves what is visible of the commit as Git prints it: the listing, the names that
Git does not quote, and the entries that are looked up. -/
structure Plain (m : CeoIgnoreMatcher) (c : Commit) : Prop where
  listing : (listSnapshotTreeEntries sv c).filter (fun e => visible sv.isNfc m e.path) =
    (visibleEntries sv m c).map (read sv)
  names : listTrackedFiles sv c m =
    ((visibleEntries sv m c).filter fun e => decide (quotedName e.path = e.path)).map (shown sv)
  found : ∀ path, visible sv.isNfc m path = true → c.at path ≠ [] →
    getSnapshotTreeEntry sv c path = (c.at path).head?.map (read sv)

/-- No read tells the two commits apart. -/
structure Blind (c c' : Commit) : Prop where
  list : ∀ status start recursive limit,
    (listFiles sv status c start recursive limit).map (·.body) =
      (listFiles sv status c' start recursive limit).map (·.body)
  search : ∀ status query starts limit,
    (searchText sv status c query starts limit).map (·.body) =
      (searchText sv status c' query starts limit).map (·.body)
  read : ∀ status paths,
    (readFiles sv status c paths).map (·.body) = (readFiles sv status c' paths).map (·.body)

/-- What is visible is a directory in both commits or in none. -/
def SameDirectories (m : CeoIgnoreMatcher) (c c' : Commit) : Prop :=
  ∀ path, visible sv.isNfc m path = true → c.isDirectory path = c'.isDirectory path

variable {sv} {c c' : Commit} {m : CeoIgnoreMatcher}

/-! ### listings see what is visible -/

theorem foldl_skip {α β : Type} {f : β → α → β} (keep : α → Bool)
    (h : ∀ b a, keep a = false → f b a = b) (l : List α) (b : β) :
    l.foldl f b = (l.filter keep).foldl f b := by
  induction l generalizing b with
  | nil => rfl
  | cons a l ih =>
    cases ha : keep a with
    | false => rw [List.foldl_cons, h b a ha, ih, List.filter_cons_of_neg (by simp [ha])]
    | true => rw [List.foldl_cons, ih, List.filter_cons_of_pos ha, List.foldl_cons]

theorem listed_visible (start : Text) (recursive : Bool) (limit : Nat) (l : List GitTreeEntry) :
    listed sv m start recursive limit l =
      listed sv m start recursive limit (l.filter fun e => visible sv.isNfc m e.path) := by
  unfold listed
  rw [foldl_skip fun e : GitTreeEntry => visible sv.isNfc m e.path]
  intro acc entry hidden
  unfold listEntry
  rw [hidden]
  rfl

theorem searchEntries_visible (query : Text) (starts : List Text) (limit : Nat)
    (l : List GitTreeEntry) (found : List Found) :
    searchEntries sv m query starts limit l found =
      searchEntries sv m query starts limit (l.filter fun e => visible sv.isNfc m e.path) found := by
  induction l generalizing found with
  | nil => rfl
  | cons entry l ih =>
    cases hv : visible sv.isNfc m entry.path with
    | false =>
      rw [List.filter_cons_of_neg (by simp [hv]), ← ih]
      conv_lhs => unfold searchEntries
      simp [hv]
    | true =>
      rw [List.filter_cons_of_pos (by exact hv)]
      unfold searchEntries
      simp only [ih]

/-! ### commits that are alike -/

theorem load_eq (alike : Alike sv c c') :
    loadIgnoreMatcherAtCommit sv c' = loadIgnoreMatcherAtCommit sv c := by
  unfold loadIgnoreMatcherAtCommit getSnapshotTreeEntry
  rw [alike.ceoignore]

theorem capture_eq (alike : Alike sv c c') (status : Status) :
    captureReadSnapshot sv status c' = captureReadSnapshot sv status c := by
  unfold captureReadSnapshot
  rw [load_eq alike]

theorem capture_ok {status : Status} (h : captureReadSnapshot sv status c = .ok m) :
    loadIgnoreMatcherAtCommit sv c = .ok m := by
  unfold captureReadSnapshot at h
  split at h
  · cases h
  · split at h
    · cases h
    · split at h
      · cases h
      · exact h

theorem visibleEntries_eq (alike : Alike sv c c') (load : loadIgnoreMatcherAtCommit sv c = .ok m) :
    visibleEntries sv m c = visibleEntries sv m c' := by
  have : Std.Irrefl fun e f : TreeEntry => e.path.data.toList < f.path.data.toList :=
    ⟨fun e => List.lt_irrefl _⟩
  have : Std.Antisymm fun e f : TreeEntry => e.path.data.toList < f.path.data.toList :=
    ⟨fun e f h h' => absurd h' (List.lt_asymm h)⟩
  refine List.Pairwise.eq_of_mem_iff (c.sorted.filter _) (c'.sorted.filter _) fun e => ?_
  unfold visibleEntries
  rw [List.mem_filter, List.mem_filter]
  exact and_congr_left (alike.entries m load e)

/-- The paths ascend, so no two entries have the same. -/
theorem Commit.unique (c : Commit) {e f : TreeEntry} (he : e ∈ c.entries) (hf : f ∈ c.entries)
    (h : e.path = f.path) : e = f := by
  have nodup : (c.entries.map (·.path)).Nodup := by
    refine List.pairwise_map.2 (c.sorted.imp fun hlt heq => ?_)
    rw [heq] at hlt
    exact List.lt_irrefl _ hlt
  exact List.inj_on_of_nodup_map nodup he hf h

theorem find_iff {path : Text} {e : TreeEntry} :
    c.find path = some e ↔ e ∈ c.entries ∧ e.path = encodeUtf8 path := by
  constructor
  · intro h
    exact ⟨List.mem_of_find?_eq_some h, by simpa using List.find?_some h⟩
  · rintro ⟨he, hpath⟩
    cases hfind : c.find path with
    | none =>
      have := List.find?_eq_none.1 hfind e he
      simp [hpath] at this
    | some f =>
      have hfpath : f.path = encodeUtf8 path := by simpa using List.find?_some hfind
      rw [c.unique he (List.mem_of_find?_eq_some hfind) (hpath.trans hfpath.symm)]

theorem find_eq (alike : Alike sv c c') (load : loadIgnoreMatcherAtCommit sv c = .ok m)
    {path : Text} (hv : visible sv.isNfc m path = true) : c.find path = c'.find path := by
  refine Option.ext fun e => ?_
  rw [find_iff, find_iff]
  refine and_congr_left fun hpath => alike.entries m load e ?_
  have : shown sv e = path := by
    unfold shown
    rw [hpath, decodeUtf8_encode]
  rwa [this]

theorem not_directory {path : Text} {e : TreeEntry} (h : c.find path = some e) :
    c.isDirectory path = false := by
  obtain ⟨he, hpath⟩ := find_iff.1 h
  unfold Commit.isDirectory
  rw [List.any_eq_false]
  intro f hf hunder
  exact c.apart e he f hf (by rw [hpath]; exact of_decide_eq_true hunder)

theorem lookup_none {path : Text} (h : c.at path = []) : getSnapshotTreeEntry sv c path = none := by
  unfold getSnapshotTreeEntry getTreeEntry
  rw [h, parseEntries_none]
  rfl

/-! ### lookups -/

/-- What a lookup says of a path: an entry of the commit, a directory, or nothing. -/
theorem lookup_cases (plain : Plain sv m c) {path : Text} (hv : visible sv.isNfc m path = true) :
    (∃ e, c.find path = some e ∧ getSnapshotTreeEntry sv c path = some (read sv e)) ∨
    (c.find path = none ∧ c.isDirectory path = true ∧
      getSnapshotTreeEntry sv c path = some (read sv (c.directory path))) ∨
    (c.find path = none ∧ c.isDirectory path = false ∧ getSnapshotTreeEntry sv c path = none) := by
  have found := plain.found path hv
  cases hfind : c.find path with
  | some e =>
    have hat : c.at path = [e] := by
      unfold Commit.at
      rw [hfind]
    rw [hat] at found
    exact .inl ⟨e, rfl, found (List.cons_ne_nil _ _)⟩
  | none =>
    cases hdir : c.isDirectory path with
    | true =>
      have hat : c.at path = [c.directory path] := by
        unfold Commit.at
        rw [hfind, hdir]
        rfl
      rw [hat] at found
      exact .inr (.inl ⟨rfl, rfl, found (List.cons_ne_nil _ _)⟩)
    | false =>
      have hat : c.at path = [] := by
        unfold Commit.at
        rw [hfind, hdir]
        rfl
      exact .inr (.inr ⟨rfl, rfl, lookup_none hat⟩)

theorem asTarget_directory (c : Commit) (path at' : Text) :
    asTarget path (read sv (c.directory at')) =
      .error ⟨"INVALID_PATH", "Requested path is not a regular file.", [("path", .text path)]⟩ := by
  unfold asTarget
  rw [if_neg (by simp [read, Commit.directory]), if_pos (.inl (by simp [read, Commit.directory]))]

/-- The two lookups end the same way, if they agree on directories. -/
theorem lookup_eq (alike : Alike sv c c') (load : loadIgnoreMatcherAtCommit sv c = .ok m)
    (plain : Plain sv m c) (plain' : Plain sv m c') {path : Text}
    (hv : visible sv.isNfc m path = true) (same : c.isDirectory path = c'.isDirectory path) :
    (getSnapshotTreeEntry sv c path).map (asTarget path) =
      (getSnapshotTreeEntry sv c' path).map (asTarget path) := by
  have find := find_eq alike load hv
  rcases lookup_cases plain hv with ⟨e, hfind, h⟩ | ⟨hfind, hdir, h⟩ | ⟨hfind, hdir, h⟩ <;>
  rcases lookup_cases plain' hv with ⟨e', hfind', h'⟩ | ⟨hfind', hdir', h'⟩ | ⟨hfind', hdir', h'⟩ <;>
  rw [hfind, hfind'] at find
  case inl.inl =>
    rw [h, h', Option.some.inj find]
  case inr.inl.inr.inl =>
    rw [h, h', Option.map_some, Option.map_some, asTarget_directory, asTarget_directory]
  case inr.inr.inr.inr =>
    rw [h, h']
  case inr.inl.inr.inr =>
    rw [hdir, hdir'] at same
    cases same
  case inr.inr.inr.inl =>
    rw [hdir, hdir'] at same
    cases same
  all_goals cases find

theorem tracked_eq (alike : Alike sv c c') (load : loadIgnoreMatcherAtCommit sv c = .ok m)
    (plain : Plain sv m c) (plain' : Plain sv m c') :
    listTrackedFiles sv c m = listTrackedFiles sv c' m := by
  rw [plain.names, plain'.names, visibleEntries_eq alike load]

theorem tracked_visible {path : Text} (h : path ∈ listTrackedFiles sv c m) :
    visible sv.isNfc m path = true := (List.mem_filter.1 h).2

theorem archived_tracked {tracked : List Text} {basename path : Text}
    (h : path ∈ archived tracked basename) :
    path ∈ tracked ∧ archiveEntryBasename path = some basename := by
  unfold archived at h
  rw [List.mem_mergeSort, List.mem_filter] at h
  exact ⟨h.1, eq_of_beq h.2⟩

/-! ### reads of commits with the same directories -/

section same

variable (alike : Alike sv c c') (load : loadIgnoreMatcherAtCommit sv c = .ok m)
variable (plain : Plain sv m c) (plain' : Plain sv m c') (same : SameDirectories sv m c c')

include alike load plain plain' same

theorem resolveMissing_eq (filePath : Text) :
    resolveMissing sv c m filePath = resolveMissing sv c' m filePath := by
  unfold resolveMissing
  rw [tracked_eq alike load plain plain']
  split
  · rfl
  · split
    · rfl
    · next actualPath hone =>
      have hmem : actualPath ∈ archived (listTrackedFiles sv c' m)
          (filePath.drop tasksSlash.length) := by
        rw [hone]
        exact List.mem_singleton_self _
      have hv := tracked_visible (archived_tracked hmem).1
      have h := lookup_eq alike load plain plain' hv (same _ hv)
      generalize getSnapshotTreeEntry sv c actualPath = found at h
      generalize getSnapshotTreeEntry sv c' actualPath = found' at h
      match found, found', h with
      | none, none, _ => rfl
      | some _, some _, h => exact Option.some.inj h
    · rfl

theorem resolve_eq (requestedPath : Text) :
    resolveSnapshotReadTarget sv c m requestedPath =
      resolveSnapshotReadTarget sv c' m requestedPath := by
  unfold resolveSnapshotReadTarget
  split
  · rfl
  · next filePath hok =>
    split
    · rfl
    · next hignored =>
      have hv : visible sv.isNfc m filePath = true := by
        unfold visible
        rw [allowed_of_ok hok, Bool.eq_false_iff.2 hignored]
        rfl
      have h := lookup_eq alike load plain plain' hv (same _ hv)
      generalize getSnapshotTreeEntry sv c filePath = found at h
      generalize getSnapshotTreeEntry sv c' filePath = found' at h
      match found, found', h with
      | none, none, _ => exact resolveMissing_eq alike load plain plain' same filePath
      | some _, some _, h => exact Option.some.inj h

omit same in
theorem listing_eq :
    (listSnapshotTreeEntries sv c).filter (fun e => visible sv.isNfc m e.path) =
      (listSnapshotTreeEntries sv c').filter (fun e => visible sv.isNfc m e.path) := by
  rw [plain.listing, plain'.listing, visibleEntries_eq alike load]

end same

theorem map_body {ε α : Type} (id : Text) (r : Except ε α) :
    (r.map (Reply.mk id)).map (·.body) = r := by
  cases r <;> rfl

/-- Commits with the same directories are read alike. -/
theorem blind_of_same (alike : Alike sv c c')
    (plain : ∀ m, loadIgnoreMatcherAtCommit sv c = .ok m → Plain sv m c ∧ Plain sv m c')
    (same : ∀ m, loadIgnoreMatcherAtCommit sv c = .ok m → SameDirectories sv m c c') :
    Blind sv c c' where
  list status start recursive limit := by
    unfold listFiles
    rw [capture_eq alike]
    split
    · rfl
    · cases hcap : captureReadSnapshot sv status c with
      | error e => rfl
      | ok m =>
        have load := capture_ok hcap
        have entries := listing_eq alike load (plain m load).1 (plain m load).2
        refine congrArg Except.ok ?_
        rw [listed_visible, entries, ← listed_visible]
  search status query starts limit := by
    unfold searchText
    rw [capture_eq alike]
    split
    · rfl
    · cases starts.find? unsafeStart with
      | some start => rfl
      | none =>
        cases hcap : captureReadSnapshot sv status c with
        | error e => rfl
        | ok m =>
          have load := capture_ok hcap
          have entries := listing_eq alike load (plain m load).1 (plain m load).2
          dsimp only
          rw [map_body, map_body, searchEntries_visible, entries, ← searchEntries_visible]
  read status paths := by
    unfold readFiles
    rw [capture_eq alike]
    split
    · rfl
    · cases hcap : captureReadSnapshot sv status c with
      | error e => rfl
      | ok m =>
        have load := capture_ok hcap
        have resolve : resolveSnapshotReadTarget sv c m = resolveSnapshotReadTarget sv c' m :=
          funext (resolve_eq alike load (plain m load).1 (plain m load).2 (same m load))
        dsimp only
        rw [map_body, map_body, resolve]

/-! ### a directory shows -/

/-- The answer for a path that is no regular file. -/
def notRegular (path : Text) : ReadError :=
  withReadErrorContext (.ceo ⟨"INVALID_PATH", "Requested path is not a regular file.",
    [("path", .text path)]⟩) [path] path path

def ready : Status := { state := .ready, hasGitDir := true }

theorem readFiles_one (load : loadIgnoreMatcherAtCommit sv c = .ok m) (path : Text) :
    (readFiles sv ready c [path]).map (·.body) =
      readBatch sv (resolveSnapshotReadTarget sv c m) [path] [path] 0 [] := by
  unfold readFiles
  rw [if_neg (by simp [maxFilesPerRead])]
  have hcap : captureReadSnapshot sv ready c = .ok m := load
  rw [hcap]
  exact map_body _ _

theorem visible_iff {path : Text} : visible sv.isNfc m path = true ↔
    validateContentPath sv.isNfc path = .ok path ∧ isPathIgnored m path = false := by
  unfold visible
  rw [Bool.and_eq_true, allowed_iff, Bool.not_eq_true']

theorem read_directory (load : loadIgnoreMatcherAtCommit sv c = .ok m) (plain : Plain sv m c)
    {path : Text} (hv : visible sv.isNfc m path = true) (hdir : c.isDirectory path = true) :
    (readFiles sv ready c [path]).map (·.body) = .error (notRegular path) := by
  have hresolve : resolveSnapshotReadTarget sv c m path =
      .error ⟨"INVALID_PATH", "Requested path is not a regular file.", [("path", .text path)]⟩ := by
    obtain ⟨valid, unignored⟩ := visible_iff.1 hv
    have hlookup : getSnapshotTreeEntry sv c path = some (read sv (c.directory path)) := by
      rcases lookup_cases plain hv with ⟨e, hfind, -⟩ | ⟨-, -, h⟩ | ⟨-, hno, -⟩
      · rw [not_directory hfind] at hdir
        cases hdir
      · exact h
      · rw [hdir] at hno
        cases hno
    unfold resolveSnapshotReadTarget
    rw [valid]
    dsimp only
    rw [unignored, hlookup]
    exact @asTarget_directory sv c path path
  rw [readFiles_one load]
  unfold readBatch
  rw [hresolve]
  rfl

theorem context_details {e : CeoError} {path displayPath : Text}
    (h : withReadErrorContext (.ceo e) [path] path displayPath = notRegular path) :
    e.code = "INVALID_PATH" ∧ e.details = [("path", .text path)] := by
  have h := ReadError.ceo.inj h
  exact ⟨congrArg CeoError.code h, List.append_cancel_right (congrArg CeoError.details h)⟩

theorem not_archived_task {path actualPath basename : Text} (task : isTaskFilePath path = true)
    (h : archiveEntryBasename actualPath = some basename) : actualPath ≠ path := by
  rintro rfl
  have htask : tasksSlash <+: actualPath := by
    unfold isTaskFilePath at task
    rw [Bool.and_eq_true] at task
    exact of_decide_eq_true task.1
  have harchive : archiveSlash <+: actualPath := by
    unfold archiveEntryBasename at h
    split at h
    · assumption
    · cases h
  obtain ⟨rest, rfl⟩ := htask
  obtain ⟨rest', heq⟩ := harchive
  have first := congrArg List.head? heq
  rw [List.head?_append, List.head?_append, (by decide : archiveSlash.head? = some 'a'),
    (by decide : tasksSlash.head? = some 't')] at first
  cases first

theorem asTarget_error {path : Text} {entry : GitTreeEntry} {e : CeoError}
    (h : asTarget path entry = .error e) : e.details = [("path", .text path)] := by
  unfold asTarget at h
  split at h
  · rw [← Except.error.inj h]
  · split at h
    · rw [← Except.error.inj h]
    · cases h

theorem resolveMissing_error {path : Text} {e : CeoError}
    (h : resolveMissing sv c m path = .error e) : e.details ≠ [("path", .text path)] := by
  unfold resolveMissing at h
  split at h
  · rw [← Except.error.inj h]
    simp [notFound]
  · next htask =>
    split at h
    · rw [← Except.error.inj h]
      simp [notFound]
    · next actualPath hone =>
      have hmem : actualPath ∈ archived (listTrackedFiles sv c m) (path.drop tasksSlash.length) := by
        rw [hone]
        exact List.mem_singleton_self _
      split at h
      · rw [← Except.error.inj h]
        simp [notFound]
      · rw [asTarget_error h]
        have hne := not_archived_task (by simpa using htask) (archived_tracked hmem).2
        simpa using hne
    · rw [← Except.error.inj h]
      simp

theorem readBlob_error {oid displayPath : Text} {e : ReadError}
    (h : readBlob sv oid displayPath = .error e) :
    e = .raw none ∨ ∃ err, e = .ceo err ∧ err.code = "VALIDATION_FAILED" := by
  unfold readBlob at h
  split at h
  · exact .inl (Except.error.inj h).symm
  · split at h
    · cases h
    · exact .inr ⟨_, (Except.error.inj h).symm, rfl⟩

/-- A path that is not there is not said to be no regular file. -/
theorem read_missing (load : loadIgnoreMatcherAtCommit sv c = .ok m) (plain : Plain sv m c)
    {path : Text} (hv : visible sv.isNfc m path = true) (hfind : c.find path = none)
    (hdir : c.isDirectory path = false) :
    (readFiles sv ready c [path]).map (·.body) ≠ .error (notRegular path) := by
  obtain ⟨valid, unignored⟩ := visible_iff.1 hv
  have hlookup : getSnapshotTreeEntry sv c path = none := by
    rcases lookup_cases plain hv with ⟨e, h, -⟩ | ⟨-, h, -⟩ | ⟨-, -, h⟩
    · rw [hfind] at h
      cases h
    · rw [hdir] at h
      cases h
    · exact h
  have hresolve : resolveSnapshotReadTarget sv c m path = resolveMissing sv c m path := by
    unfold resolveSnapshotReadTarget
    rw [valid]
    dsimp only
    rw [unignored, hlookup]
    rfl
  have hcode : "VALIDATION_FAILED" ≠ "INVALID_PATH" := by decide
  rw [readFiles_one load]
  unfold readBatch
  rw [hresolve]
  cases hmissing : resolveMissing sv c m path with
  | error e =>
    intro h
    exact resolveMissing_error hmissing (context_details (Except.error.inj h)).2
  | ok target =>
    dsimp only
    split
    · intro h
      exact hcode (context_details (Except.error.inj h)).1
    · split
      · intro h
        exact hcode (context_details (Except.error.inj h)).1
      · cases hblob : readBlob sv target.oid target.path with
        | error e =>
          intro h
          rcases readBlob_error hblob with rfl | ⟨err, rfl, herr⟩
          · exact absurd (congrArg CeoError.code (ReadError.ceo.inj (Except.error.inj h)))
              (by decide : "INTERNAL_ERROR" ≠ "INVALID_PATH")
          · exact hcode (herr.symm.trans (context_details (Except.error.inj h)).1)
        | ok content =>
          intro h
          cases h

theorem alike_symm (alike : Alike sv c c') : Alike sv c' c where
  ceoignore := alike.ceoignore.symm
  entries m load e hv := (alike.entries m ((load_eq alike).symm.trans load) e hv).symm

/-- A hidden directory is told from a path that is not there. -/
theorem directory_shows (alike : Alike sv c c') (load : loadIgnoreMatcherAtCommit sv c = .ok m)
    (plain : Plain sv m c) (plain' : Plain sv m c') {path : Text}
    (hv : visible sv.isNfc m path = true) (hdir : c.isDirectory path = true)
    (hdir' : c'.isDirectory path = false) :
    (readFiles sv ready c [path]).map (·.body) ≠ (readFiles sv ready c' [path]).map (·.body) := by
  have hfind : c.find path = none := by
    cases h : c.find path with
    | none => rfl
    | some e =>
      rw [not_directory h] at hdir
      cases hdir
  rw [read_directory load plain hv hdir]
  exact (read_missing ((load_eq alike).trans load) plain' hv
    ((find_eq alike load hv).symm.trans hfind) hdir').symm

theorem read_entry (e : GitTreeEntry) : read sv e.entry = e := by
  unfold read shown GitTreeEntry.entry
  rw [decodeUtf8_encode]

theorem printed_of_clean {es : List GitTreeEntry} (legal : ∀ e ∈ es, e.entry.Legal)
    (github : ∀ s, sv.token = some s → InstallationToken s) (clean : CleanPaths (es.map (·.path))) :
    listTreeEntries sv.lossy sv.token (lsTree (es.map (·.entry))) =
      (es.map (·.entry)).map (read sv) := by
  unfold listTreeEntries
  rw [parseEntries_lsTree legal github clean, List.map_map]
  exact (List.map_id es).symm.trans (List.map_congr_left fun e _ => (read_entry e).symm)

/-- A commit without directories is plain if its paths are clean and its names come through. -/
theorem plain_of_clean {es : List GitTreeEntry} (entries : c.entries = es.map (·.entry))
    (legal : ∀ e ∈ es, e.entry.Legal) (github : ∀ s, sv.token = some s → InstallationToken s)
    (clean : CleanPaths (es.map (·.path))) (flat : ∀ path, c.isDirectory path = false)
    (names : listTrackedFiles sv c m = ((visibleEntries sv m c).filter fun e =>
      decide (quotedName e.path = e.path)).map (shown sv)) : Plain sv m c where
  listing := by
    unfold listSnapshotTreeEntries visibleEntries
    rw [entries, printed_of_clean legal github clean, List.filter_map]
    rfl
  names := names
  found path _ hat := by
    cases hfind : c.find path with
    | none =>
      refine absurd ?_ hat
      unfold Commit.at
      rw [hfind, flat]
      rfl
    | some e =>
      obtain ⟨he, hpath⟩ := find_iff.1 hfind
      rw [entries] at he
      obtain ⟨g, hg, rfl⟩ := List.mem_map.1 he
      obtain rfl : g.path = path := encodeUtf8_inj hpath
      obtain ⟨before, after, hsplit⟩ := List.append_of_mem hg
      have hone : CleanPaths [g.path] := by
        rw [hsplit, List.map_append, List.map_cons] at clean
        exact clean.at.last
      have hprinted := @printed_of_clean sv [g] (List.forall_mem_singleton.2 (legal g hg)) github hone
      have hat : c.at g.path = [g.entry] := by
        unfold Commit.at
        rw [hfind]
      unfold getSnapshotTreeEntry getTreeEntry
      unfold listTreeEntries at hprinted
      rw [hat, show [g.entry] = [g].map (·.entry) from rfl, hprinted, List.map_map, List.map_singleton]
      refine (List.find?_cons_of_pos ?_).trans rfl
      simp [read_entry]

section sample

/-- The `.ceoignore` of the samples is object `a…`. -/
def sampleServer (ignored : String) : Server where
  lossy _ := []
  token := none
  isNfc _ := true
  localeLe _ _ := true
  object oid := if oid = List.replicate 40 'a' then some (encodeUtf8 ignored.toList) else none

/-- A commit of a few files. -/
def commitOf (entries : List TreeEntry) (leaves : ∀ e ∈ entries, e.type ≠ .tree)
    (sorted : entries.Pairwise fun e f => e.path.data.toList < f.path.data.toList)
    (apart : ∀ e ∈ entries, ∀ f ∈ entries,
      ¬e.path.data.toList ++ [47] <+: f.path.data.toList) : Commit :=
  { id := List.replicate 40 'c', entries, treeOid := fun _ => List.replicate 40 'd', leaves, sorted,
    apart }

def bareCommit : Commit :=
  commitOf [(fileEntry 'a' ".ceoignore").entry, (fileEntry 'b' "a.md").entry] (by decide +kernel)
    (by decide +kernel) (by decide +kernel)

/-- A directory with a name like a file's holds what `.ceoignore` hides. -/
def hiddenDirectory : Commit :=
  commitOf [(fileEntry 'a' ".ceoignore").entry, (fileEntry 'b' "a.md").entry, (fileEntry 'e' "x.md/s.md").entry]
    (by decide +kernel) (by decide +kernel) (by decide +kernel)

def hiddenFile : Commit :=
  commitOf [(fileEntry 'a' ".ceoignore").entry, (fileEntry 'b' "a.md").entry, (fileEntry 'e' "s.md").entry]
    (by decide +kernel) (by decide +kernel) (by decide +kernel)

/-- A commit with one more file, which is hidden. -/
theorem alike_of_extra {sv : Server} {c c' : Commit} {m : CeoIgnoreMatcher} {extra : TreeEntry}
    (h : c.entries = c'.entries ++ [extra])
    (ignore : ∃ e ∈ c'.entries, e.path = encodeUtf8 ceoignore)
    (load : loadIgnoreMatcherAtCommit sv c = .ok m)
    (hidden : visible sv.isNfc m (shown sv extra) = false) : Alike sv c c' where
  ceoignore := by
    obtain ⟨e, he, hpath⟩ := ignore
    have hc : c.find ceoignore = some e :=
      find_iff.2 ⟨by rw [h]; exact List.mem_append_left _ he, hpath⟩
    have hc' : c'.find ceoignore = some e := find_iff.2 ⟨he, hpath⟩
    unfold Commit.at
    rw [hc, hc']
  entries m' load' e hv := by
    obtain rfl := Except.ok.inj (load'.symm.trans load)
    rw [h, List.mem_append, List.mem_singleton]
    refine or_iff_left ?_
    rintro rfl
    rw [hidden] at hv
    cases hv

/-- Without a slash in its paths a commit has no directories. -/
theorem flat {c : Commit} (h : ∀ e ∈ c.entries, 47 ∉ e.path.data.toList) (path : Text) :
    c.isDirectory path = false := by
  unfold Commit.isDirectory
  rw [List.any_eq_false]
  intro e he hunder
  have hbelow : (encodeUtf8 path).data.toList ++ [47] <+: e.path.data.toList :=
    of_decide_eq_true hunder
  exact h e he (hbelow.subset (List.mem_append_right _ (List.mem_singleton_self _)))

theorem cleanPath_of_tails {last : Prop} {path : Text}
    (tokens : ∀ start ∈ tokenStarts, ∀ s ∈ path.tails, ¬Fits (tokenShape start) s)
    (bearer : ∀ s ∈ path.tails, ¬Fits (markerShape "bearer") s)
    (token : ∀ s ∈ path.tails, ¬Fits (markerShape "token") s) : CleanPath last path where
  tokens start h s hs := tokens start h s ((List.mem_tails _ _).2 hs)
  bearer s hs hfits := (bearer s ((List.mem_tails _ _).2 hs) hfits).elim
  token s hs hfits := (token s ((List.mem_tails _ _).2 hs) hfits).elim

theorem load_hiddenFile : loadIgnoreMatcherAtCommit (sampleServer "s.md\n") hiddenFile =
    .ok ⟨["s.md".toList], []⟩ := by decide +kernel

theorem legal_file {oid : Char} {path : String} (h : isHex oid = true ∧ path.toList ≠ [] ∧
    (0 : UInt8) ∉ (encodeUtf8 path.toList).data.toList ∧
      ¬[47, 47] <:+: (encodeUtf8 path.toList).data.toList) : (fileEntry oid path).entry.Legal :=
  fileEntry_legal h.1 h.2.1 h.2.2.1 h.2.2.2

theorem plain_hiddenFile : Plain (sampleServer "s.md\n") ⟨["s.md".toList], []⟩ hiddenFile := by
  have legal : ∀ e ∈ [fileEntry 'a' ".ceoignore", fileEntry 'b' "a.md", fileEntry 'e' "s.md"],
      e.entry.Legal := by
    simp only [List.forall_mem_cons]
    exact ⟨legal_file (by decide +kernel), legal_file (by decide +kernel),
      legal_file (by decide +kernel), fun _ h => by cases h⟩
  exact plain_of_clean rfl legal (fun _ h => by cases h)
    ⟨cleanPath_of_tails (by decide) (by decide) (by decide),
      cleanPath_of_tails (by decide) (by decide) (by decide),
      cleanPath_of_tails (by decide) (by decide) (by decide), trivial⟩
    (flat (by decide +kernel)) (by decide +kernel)

theorem plain_bareCommit : Plain (sampleServer "s.md\n") ⟨["s.md".toList], []⟩ bareCommit := by
  have legal : ∀ e ∈ [fileEntry 'a' ".ceoignore", fileEntry 'b' "a.md"], e.entry.Legal := by
    simp only [List.forall_mem_cons]
    exact ⟨legal_file (by decide +kernel), legal_file (by decide +kernel), fun _ h => by cases h⟩
  exact plain_of_clean rfl legal (fun _ h => by cases h)
    ⟨cleanPath_of_tails (by decide) (by decide) (by decide),
      cleanPath_of_tails (by decide) (by decide) (by decide), trivial⟩
    (flat (by decide +kernel)) (by decide +kernel)

end sample

end Ceo.Workspace.Reads
