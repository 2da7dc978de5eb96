import Mathlib
import Ceo.Jobs.Contract
import Ceo.Lib.Scan
import Ceo.Lib.Substitute

/-!
# Reading Git's output

`redactSecrets`, the part of `runGit` that makes text of Git's output, and
`listTreeEntries` and `getTreeEntry`, which parse it (`git.ts`). What Git prints
for a tree is bytes: `lsTree` says which.
-/

namespace Ceo.Workspace.Git

open Ceo.Lib.Substitute Ceo.Jobs

abbrev Text := List Char

/-! ### redactSecrets -/

def isWordChar (c : Char) : Bool :=
  ('A' ≤ c && c ≤ 'Z') || ('a' ≤ c && c ≤ 'z') || ('0' ≤ c && c ≤ '9') || c == '_'

/-- The letters as they are. -/
def exactly (s : String) : Shape Char := s.toList.map fun c d => d == c

/-- The lower-case letters in either case. -/
def anyCase (s : String) : Shape Char := s.toList.map fun c d => d == c || d == c.toUpper

/-- `/ghs_[A-Za-z0-9_]+/g` and its like. -/
def tokenPattern (start : String) : Runs Char := ⟨exactly start, [isWordChar], []⟩

/-- `/Bearer\s+[^\s]+/gi` and its like. -/
def markerPattern (word : String) : Runs Char := marker isJsSpace (anyCase word)

/-- `/https:\/\/[^@/\s]+@/g` -/
def urlPattern : Runs Char :=
  ⟨exactly "https://", [fun c => c != '@' && c != '/' && !isJsSpace c], exactly "@"⟩

def redacted : Text := "[REDACTED]".toList

def redactedBearer : Text := "Bearer [REDACTED]".toList

def redactedToken : Text := "token [REDACTED]".toList

def replaceMatches (pattern : Runs Char) (text : Text) (t : Text) : Text :=
  replaceAll pattern.len text t

/-- `cleaned.replaceAll(secret, "[REDACTED]")`, for a secret of four characters or more. -/
def redactSecret (cleaned : Text) : Option String → Text
  | some secret =>
    if 4 ≤ jsLength secret then replaceMatches ⟨exactly secret, [], []⟩ redacted cleaned
    else cleaned
  | none => cleaned

/-- Generic token pattern redaction as defense in depth. -/
def redactTokens (cleaned : Text) : Text :=
  replaceMatches (tokenPattern "github_pat_") redacted
    (replaceMatches (tokenPattern "ghp_") redacted
      (replaceMatches (tokenPattern "ghs_") redacted cleaned))

def redactSecrets (text : Text) (secrets : List (Option String)) : Text :=
  replaceMatches urlPattern "https://[REDACTED]@".toList
    (replaceMatches (markerPattern "token") redactedToken
      (replaceMatches (markerPattern "bearer") redactedBearer
        (redactTokens (secrets.foldl redactSecret text))))

/-! ### runGit -/

section runGit

-- What the decoder of the stream makes of bytes that are no UTF-8.
variable (lossy : ByteArray → Text)

/-- `setEncoding("utf8")` -/
def decodeUtf8 (bytes : ByteArray) : Text :=
  match bytes.utf8Decode? with
  | some chars => chars.toList
  | none => lossy bytes

def encodeUtf8 (t : Text) : ByteArray := (String.ofList t).toByteArray

def trimEnd (t : Text) : Text := t.rdropWhile isJsSpace

/-- The `stdout` of `runGit`, with the token of the credential if there is one. -/
def gitStdout (token : Option String) (stdout : ByteArray) : Text :=
  redactSecrets (trimEnd (decodeUtf8 lossy stdout)) [token]

end runGit

/-! ### parseLsTreeLine -/

inductive EntryType where
  | blob | tree | commit
  deriving DecidableEq, Repr

def EntryType.text : EntryType → Text
  | blob => ['b', 'l', 'o', 'b']
  | tree => ['t', 'r', 'e', 'e']
  | commit => ['c', 'o', 'm', 'm', 'i', 't']

/-- `bytes` is kept as it is written. -/
structure GitTreeEntry where
  mode : Text
  type : EntryType
  oid : Text
  bytes : Option Text
  path : Text
  deriving DecidableEq, Repr

def isOctal (c : Char) : Bool := '0' ≤ c && c ≤ '7'

def isDigit (c : Char) : Bool := '0' ≤ c && c ≤ '9'

def isHex (c : Char) : Bool := isDigit c || ('a' ≤ c && c ≤ 'f')

/-- `[…]+`: the run at the start, and the rest. -/
def oneOrMore (k : Char → Bool) (t : Text) : Option (Text × Text) :=
  if t.takeWhile k = [] then none else some (t.takeWhile k, t.dropWhile k)

/-- `(blob|tree|commit)` -/
def entryType : Text → Option (EntryType × Text)
  | 'b' :: 'l' :: 'o' :: 'b' :: rest => some (.blob, rest)
  | 't' :: 'r' :: 'e' :: 'e' :: rest => some (.tree, rest)
  | 'c' :: 'o' :: 'm' :: 'm' :: 'i' :: 't' :: rest => some (.commit, rest)
  | _ => none

/-- `([0-9]+|-)` -/
def entryBytes : Text → Option (Option Text × Text)
  | '-' :: rest => some (none, rest)
  | t => (oneOrMore isDigit t).map fun r => (some r.1, r.2)

/-- `/^([0-7]+)\s+(blob|tree|commit)\s+([0-9a-f]{40,64})\s+([0-9]+|-)\t([\s\S]+)$/` -/
def parseLsTreeLine (line : Text) : Option GitTreeEntry := do
  let (mode, t) ← oneOrMore isOctal line
  let (_, t) ← oneOrMore isJsSpace t
  let (type, t) ← entryType t
  let (_, t) ← oneOrMore isJsSpace t
  let (oid, t) ← oneOrMore isHex t
  if oid.length < 40 ∨ 64 < oid.length then none
  else
    let (_, t) ← oneOrMore isJsSpace t
    let (bytes, t) ← entryBytes t
    match t with
    | '\t' :: c :: path => some { mode, type, oid, bytes, path := c :: path }
    | _ => none

/-! ### listTreeEntries, getTreeEntry -/

/-- `text.split("\0")` -/
def splitNul : Text → List Text
  | [] => [[]]
  | c :: cs =>
    if c = '\x00' then [] :: splitNul cs
    else
      match splitNul cs with
      | [] => [[c]]
      | part :: parts => (c :: part) :: parts

def parseEntries (stdout : Text) : List GitTreeEntry :=
  (splitNul stdout).filterMap fun part => if part = [] then none else parseLsTreeLine part

section listing

variable (lossy : ByteArray → Text) (token : Option String)

/-- With what `git ls-tree -r -l -z` has printed. -/
def listTreeEntries (stdout : ByteArray) : List GitTreeEntry :=
  parseEntries (gitStdout lossy token stdout)

/-- With what `git ls-tree -l -z` has printed for the path. -/
def getTreeEntry (stdout : ByteArray) (relativePath : Text) : Option GitTreeEntry :=
  (parseEntries (gitStdout lossy token stdout)).find? fun e => decide (e.path = relativePath)

end listing

/-! ### what Git prints -/

/-- An entry of a tree; its path is bytes. -/
structure TreeEntry where
  mode : Text
  type : EntryType
  oid : Text
  bytes : Option Text
  path : ByteArray

/-- The columns before the path; the size is padded to seven. -/
def lsTreeHeader (mode : Text) (type : EntryType) (oid : Text) (bytes : Option Text) : Text :=
  let size := bytes.getD ['-']
  mode ++ ' ' :: (type.text ++ ' ' :: (oid ++ ' ' ::
    (List.replicate (7 - size.length) ' ' ++ (size ++ ['\t']))))

def lsTree (entries : List TreeEntry) : ByteArray :=
  entries.foldr (fun e rest =>
    encodeUtf8 (lsTreeHeader e.mode e.type e.oid e.bytes) ++ (e.path ++ (encodeUtf8 ['\x00'] ++ rest)))
    ByteArray.empty

/-- What Git has in an entry: no byte of a path is zero and none of its names is empty. -/
structure TreeEntry.Legal (e : TreeEntry) : Prop where
  mode : e.mode ≠ [] ∧ ∀ c ∈ e.mode, isOctal c = true
  oid : 40 ≤ e.oid.length ∧ e.oid.length ≤ 64 ∧ ∀ c ∈ e.oid, isHex c = true
  bytes : ∀ size, e.bytes = some size → size ≠ [] ∧ ∀ c ∈ size, isDigit c = true
  path : e.path ≠ ByteArray.empty
  noNul : (0 : UInt8) ∉ e.path.data.toList
  names : ¬[47, 47] <:+: e.path.data.toList

/-- The entry of a tree that is read as this one. -/
def GitTreeEntry.entry (e : GitTreeEntry) : TreeEntry :=
  { mode := e.mode, type := e.type, oid := e.oid, bytes := e.bytes, path := encodeUtf8 e.path }

/-! ### a listing is parsed -/

/-- What the entries of a tree have that is text. -/
structure GitTreeEntry.Wellformed (e : GitTreeEntry) : Prop where
  mode : e.mode ≠ [] ∧ ∀ c ∈ e.mode, isOctal c = true
  oid : 40 ≤ e.oid.length ∧ e.oid.length ≤ 64 ∧ ∀ c ∈ e.oid, isHex c = true
  bytes : ∀ size, e.bytes = some size → size ≠ [] ∧ ∀ c ∈ size, isDigit c = true
  path : e.path ≠ []
  noNul : '\x00' ∉ e.path

def GitTreeEntry.header (e : GitTreeEntry) : Text := lsTreeHeader e.mode e.type e.oid e.bytes

def GitTreeEntry.line (e : GitTreeEntry) : Text := e.header ++ e.path

theorem oneOrMore_append {k : Char → Bool} {w u : Text} (hne : w ≠ []) (hw : ∀ c ∈ w, k c = true)
    (hu : ∀ c ∈ u.head?, k c = false) : oneOrMore k (w ++ u) = some (w, u) := by
  obtain ⟨htake, hdrop⟩ := span_append hw hu
  unfold oneOrMore
  rw [htake, hdrop, if_neg hne]

theorem space_of_class {c : Char} (h : isHex c = true ∨ c = '-') : isJsSpace c = false := by
  rcases h with h | rfl
  · rw [Bool.eq_false_iff]
    intro hs
    simp only [isHex, isDigit, Bool.or_eq_true, Bool.and_eq_true, decide_eq_true_eq, Char.le_def] at h
    simp only [isJsSpace, Bool.or_eq_true, Bool.and_eq_true, decide_eq_true_eq, beq_iff_eq] at hs
    have h0 : ('0' : Char).val.toNat = 48 := rfl
    have h9 : ('9' : Char).val.toNat = 57 := rfl
    have ha : ('a' : Char).val.toNat = 97 := rfl
    have hf : ('f' : Char).val.toNat = 102 := rfl
    simp only [UInt32.le_iff_toNat_le, h0, h9, ha, hf] at h
    simp only [Char.toNat] at hs
    omega
  · decide

theorem entryType_text (t : EntryType) (u : Text) : entryType (t.text ++ u) = some (t, u) := by
  cases t <;> rfl

theorem entryBytes_size {bytes : Option Text} {u : Text}
    (h : ∀ size, bytes = some size → size ≠ [] ∧ ∀ c ∈ size, isDigit c = true)
    (hu : ∀ c ∈ u.head?, isDigit c = false) :
    entryBytes (bytes.getD ['-'] ++ u) = some (bytes, u) := by
  cases bytes with
  | none => rfl
  | some size =>
    obtain ⟨hne, hdigit⟩ := h size rfl
    rw [Option.getD_some]
    unfold entryBytes
    split
    next heq =>
      cases size with
      | nil => exact absurd rfl hne
      | cons c size =>
        obtain rfl := (List.cons.inj heq).1
        exact absurd (hdigit _ (List.mem_cons_self ..)) (by decide)
    next =>
      rw [oneOrMore_append hne hdigit hu]
      rfl

/-- Space before what starts with no space. -/
theorem oneOrMore_space {w u : Text} (hw : ∀ c ∈ w, isJsSpace c = true)
    (hu : ∀ c ∈ u.head?, isJsSpace c = false) :
    oneOrMore isJsSpace (' ' :: (w ++ u)) = some (' ' :: w, u) := by
  have h := @oneOrMore_append isJsSpace (' ' :: w) u (List.cons_ne_nil _ _)
    (fun d hd => by
      rcases List.mem_cons.1 hd with rfl | hd
      · decide
      · exact hw d hd) hu
  exact h

theorem head?_of_all {k : Char → Prop} {w u : Text} (hne : w ≠ []) (hw : ∀ c ∈ w, k c) :
    ∀ c ∈ (w ++ u).head?, k c := by
  cases w with
  | nil => exact absurd rfl hne
  | cons d ds =>
    intro c hc
    rw [← Option.some.inj hc]
    exact hw d (List.mem_cons_self ..)

theorem isHex_of_digit {c : Char} (h : isDigit c = true) : isHex c = true := by
  unfold isHex
  rw [h]
  rfl

theorem isDigit_of_octal {c : Char} (h : isOctal c = true) : isDigit c = true := by
  simp only [isOctal, isDigit, Bool.and_eq_true, decide_eq_true_eq, Char.le_def,
    UInt32.le_iff_toNat_le] at h ⊢
  have h7 : ('7' : Char).val.toNat = 55 := rfl
  have h9 : ('9' : Char).val.toNat = 57 := rfl
  omega

theorem size_solid {bytes : Option Text}
    (h : ∀ size, bytes = some size → size ≠ [] ∧ ∀ c ∈ size, isDigit c = true) :
    bytes.getD ['-'] ≠ [] ∧ ∀ c ∈ bytes.getD ['-'], isHex c = true ∨ c = '-' := by
  cases bytes with
  | none => exact ⟨List.cons_ne_nil _ _, fun c hc => .inr (List.mem_singleton.1 hc)⟩
  | some size =>
    obtain ⟨hne, hdigit⟩ := h size rfl
    exact ⟨hne, fun c hc => .inl (isHex_of_digit (hdigit c hc))⟩

theorem parseLsTreeLine_line {e : GitTreeEntry} (h : e.Wellformed) :
    parseLsTreeLine e.line = some e := by
  obtain ⟨mode, type, oid, bytes, path⟩ := e
  obtain ⟨⟨hmode, hoctal⟩, ⟨hmin, hmax, hhex⟩, hbytes, hpath, -⟩ := h
  obtain ⟨hsize, hsolid⟩ := size_solid hbytes
  simp only at hmode hoctal hmin hmax hhex hbytes hpath hsize hsolid
  have hoid : oid ≠ [] := by
    rintro rfl
    simp at hmin
  cases path with
  | nil => exact absurd rfl hpath
  | cons c path =>
    have hline : GitTreeEntry.line ⟨mode, type, oid, bytes, c :: path⟩ =
        mode ++ ' ' :: ([] ++ (type.text ++ ' ' :: ([] ++ (oid ++ ' ' ::
          (List.replicate (7 - (bytes.getD ['-']).length) ' ' ++
            (bytes.getD ['-'] ++ '\t' :: c :: path)))))) := by
      simp [GitTreeEntry.line, GitTreeEntry.header, lsTreeHeader]
    have htype : ∀ u : Text, ∀ d ∈ (type.text ++ u).head?, isJsSpace d = false := by
      intro u d hd
      cases type <;> obtain rfl := Option.some.inj hd <;> decide
    have hpad : ∀ d ∈ List.replicate (7 - (bytes.getD ['-']).length) ' ', isJsSpace d = true := by
      intro d hd
      rw [List.eq_of_mem_replicate hd]
      decide
    unfold parseLsTreeLine
    rw [hline, oneOrMore_append hmode hoctal fun d hd => by rw [← Option.some.inj hd]; decide]
    simp only [Option.bind_eq_bind, Option.bind_some]
    rw [oneOrMore_space (w := []) (by simp) (htype _)]
    simp only [Option.bind_some]
    rw [entryType_text]
    simp only [Option.bind_some]
    rw [oneOrMore_space (w := []) (by simp)
      (head?_of_all hoid fun d hd => space_of_class (.inl (hhex d hd)))]
    simp only [Option.bind_some]
    rw [oneOrMore_append hoid hhex fun d hd => by rw [← Option.some.inj hd]; decide]
    simp only [Option.bind_some]
    rw [if_neg (by omega), oneOrMore_space hpad
      (head?_of_all hsize fun d hd => space_of_class (hsolid d hd))]
    simp only [Option.bind_some]
    rw [entryBytes_size hbytes fun d hd => by rw [← Option.some.inj hd]; decide]
    rfl

/-! ### records -/

/-- The records of the entries, with a zero between two of them. -/
def joined : List GitTreeEntry → Text
  | [] => []
  | [e] => e.line
  | e :: f :: es => e.line ++ '\x00' :: joined (f :: es)

/-- What stands after the last character of an entry's path. -/
def following (es : List GitTreeEntry) : Text := if es = [] then [] else '\x00' :: joined es

theorem joined_cons (e : GitTreeEntry) (es : List GitTreeEntry) :
    joined (e :: es) = e.line ++ following es := by
  cases es with
  | nil => simp [joined, following]
  | cons f es => simp [joined, following]

theorem header_class {e : GitTreeEntry} (h : e.Wellformed) {c : Char} (hc : c ∈ e.header) :
    isHex c = true ∨ c = '-' ∨ c = ' ' ∨ c = '\t' ∨ c ∈ e.type.text := by
  unfold GitTreeEntry.header lsTreeHeader at hc
  simp only [List.mem_append, List.mem_cons, List.mem_replicate, List.not_mem_nil, or_false] at hc
  rcases hc with hc | rfl | hc | rfl | hc | rfl | ⟨-, rfl⟩ | hc | rfl
  · have hoctal := h.mode.2 c hc
    exact .inl (isHex_of_digit (isDigit_of_octal hoctal))
  · simp
  · simp [hc]
  · simp
  · exact .inl (h.oid.2.2 c hc)
  · simp
  · simp
  · rcases (size_solid h.bytes).2 c hc with h | h
    · exact .inl h
    · simp [h]
  · simp

theorem header_noNul {e : GitTreeEntry} (h : e.Wellformed) : '\x00' ∉ e.header := by
  intro hc
  rcases header_class h hc with h | h | h | h | h
  · exact absurd h (by decide)
  · exact absurd h (by decide)
  · exact absurd h (by decide)
  · exact absurd h (by decide)
  · revert h
    cases e.type <;> decide

theorem line_noNul {e : GitTreeEntry} (h : e.Wellformed) : '\x00' ∉ e.line := fun hc =>
  (List.mem_append.1 hc).elim (header_noNul h) h.noNul

theorem line_ne_nil {e : GitTreeEntry} (h : e.Wellformed) : e.line ≠ [] := fun hnil =>
  h.path (List.append_eq_nil_iff.1 hnil).2

theorem splitNul_cons {line : Text} (h : '\x00' ∉ line) (t : Text) :
    splitNul (line ++ '\x00' :: t) = line :: splitNul t := by
  induction line with
  | nil => rfl
  | cons c line ih =>
    rw [List.mem_cons, not_or] at h
    rw [List.cons_append, splitNul, if_neg (fun hc => h.1 hc.symm), ih h.2]

theorem splitNul_self {line : Text} (h : '\x00' ∉ line) : splitNul line = [line] := by
  induction line with
  | nil => rfl
  | cons c line ih =>
    rw [List.mem_cons, not_or] at h
    rw [splitNul, if_neg (fun hc => h.1 hc.symm), ih h.2]

theorem parseEntries_line {e : GitTreeEntry} (h : e.Wellformed) (t : Text) :
    parseEntries (e.line ++ '\x00' :: t) = e :: parseEntries t := by
  unfold parseEntries
  rw [splitNul_cons (line_noNul h), List.filterMap_cons_some]
  rw [if_neg (line_ne_nil h), parseLsTreeLine_line h]

theorem parseEntries_self {e : GitTreeEntry} (h : e.Wellformed) : parseEntries e.line = [e] := by
  unfold parseEntries
  rw [splitNul_self (line_noNul h), List.filterMap_cons_some]
  · rfl
  · rw [if_neg (line_ne_nil h), parseLsTreeLine_line h]

/-- The records are parsed as their entries. -/
theorem parseEntries_joined {es : List GitTreeEntry} (h : ∀ e ∈ es, e.Wellformed) :
    parseEntries (joined es) = es := by
  induction es with
  | nil => rfl
  | cons e es ih =>
    have he := h e (List.mem_cons_self ..)
    cases es with
    | nil => exact parseEntries_self he
    | cons f es =>
      have hes := ih fun x hx => h x (List.mem_cons_of_mem _ hx)
      rw [joined, parseEntries_line he, hes]

theorem parseEntries_joined_nul {es : List GitTreeEntry} (h : ∀ e ∈ es, e.Wellformed) :
    parseEntries (joined es ++ ['\x00']) = es := by
  induction es with
  | nil => rfl
  | cons e es ih =>
    have he := h e (List.mem_cons_self ..)
    cases es with
    | nil => exact parseEntries_line he []
    | cons f es =>
      have hes := ih fun x hx => h x (List.mem_cons_of_mem _ hx)
      have hshape : joined (e :: f :: es) ++ ['\x00'] =
          e.line ++ '\x00' :: (joined (f :: es) ++ ['\x00']) := by
        simp [joined]
      rw [hshape, parseEntries_line he, hes]

/-! ### shapes in a listing -/

/-- No occurrence of the shape starts in the columns before a path, or goes past a zero. -/
structure PathShape (ks : Shape Char) : Prop where
  nul : ∀ k ∈ ks, k '\x00' = false
  header : ∀ e : GitTreeEntry, e.Wellformed → ∀ s y, s <:+ e.header → s ≠ [] → ¬Fits ks (s ++ y)

/-- An occurrence in a listing is one in a path. -/
theorem PathShape.occurs {ks : Shape Char} (K : PathShape ks) (hne : ks ≠ [])
    {es : List GitTreeEntry} (h : ∀ e ∈ es, e.Wellformed) {s : Text} (hs : s <:+ joined es)
    (hfits : Fits ks s) : ∃ before e after p, es = before ++ e :: after ∧ p <:+ e.path ∧
      Fits ks p ∧ s = p ++ following after := by
  induction es with
  | nil =>
    obtain rfl := List.suffix_nil.1 hs
    cases ks with
    | nil => exact absurd rfl hne
    | cons k ks => exact hfits.elim
  | cons e es ih =>
    have he := h e (List.mem_cons_self ..)
    rw [joined_cons] at hs
    rcases suffix_append_cases hs with hs | ⟨w, hw, hwl, rfl⟩
    · -- in the records after this one
      unfold following at hs
      split_ifs at hs with hnil
      · obtain rfl := List.suffix_nil.1 hs
        cases ks with
        | nil => exact absurd rfl hne
        | cons k ks => exact hfits.elim
      · rcases List.suffix_cons_iff.1 hs with rfl | hs
        · cases ks with
          | nil => exact absurd rfl hne
          | cons k ks =>
            have hk := hfits.1
            rw [K.nul k (List.mem_cons_self ..)] at hk
            cases hk
        · obtain ⟨before, f, after, p, rfl, hp⟩ :=
            ih (fun x hx => h x (List.mem_cons_of_mem _ hx)) hs
          exact ⟨e :: before, f, after, p, rfl, hp⟩
    · rcases suffix_append_cases hwl with hp | ⟨v, hv, hvh, rfl⟩
      · refine ⟨[], e, es, w, rfl, hp, ?_, rfl⟩
        unfold following at hfits
        split_ifs at hfits with hnil
        · rwa [List.append_nil] at hfits
        · exact fits_before K.nul hfits
      · rw [List.append_assoc] at hfits
        exact absurd hfits (K.header e he v _ hvh hv)

/-- `ghs_` and a letter of a token, and its like. -/
def tokenShape (start : String) : Shape Char := exactly start ++ [isWordChar]

/-- A marker and a space. -/
def markerShape (word : String) : Shape Char := anyCase word ++ [isJsSpace]

/-- A shape that starts with no letter of the columns starts in none. -/
theorem PathShape.of_first {k : Char → Bool} {ks : Shape Char}
    (nul : ∀ l ∈ k :: ks, l '\x00' = false) (first : ∀ c, k c = true → c = 'g' ∨ c = 'h') :
    PathShape (k :: ks) where
  nul := nul
  header e he s y hs hne hfits := by
    cases s with
    | nil => exact hne rfl
    | cons c s =>
      have hc := hs.subset (List.mem_cons_self ..)
      have hcase := header_class he hc
      rcases first c hfits.1 with rfl | rfl
      · have htype : 'g' ∉ e.type.text := by cases e.type <;> decide
        simp only [htype, or_false] at hcase
        revert hcase
        decide
      · have htype : 'h' ∉ e.type.text := by cases e.type <;> decide
        simp only [htype, or_false] at hcase
        revert hcase
        decide

/-- The markers end in one of these. -/
def lastLetters : Text := ['r', 'R', 'n', 'N']

/-- A space does not stand behind the last letter of a marker. -/
def Unmarked (l c : Char) : Prop := isJsSpace c = true → l ∉ lastLetters

instance (l c : Char) : Decidable (Unmarked l c) := inferInstanceAs (Decidable (_ → _))

theorem isChain_of_plain {t : Text} (h : ∀ c ∈ t, c ∉ lastLetters) : t.IsChain Unmarked := by
  induction t with
  | nil => exact .nil
  | cons c t ih =>
    cases t with
    | nil => exact .singleton _
    | cons d t =>
      exact .cons_cons (fun _ => h c (List.mem_cons_self ..))
        (ih fun x hx => h x (List.mem_cons_of_mem _ hx))

theorem plain_of_hex {c : Char} (h : isHex c = true) : c ∉ lastLetters := by
  intro hm
  simp only [lastLetters, List.mem_cons, List.not_mem_nil, or_false] at hm
  rcases hm with rfl | rfl | rfl | rfl <;> revert h <;> decide

theorem header_unmarked {e : GitTreeEntry} (h : e.Wellformed) : e.header.IsChain Unmarked := by
  unfold GitTreeEntry.header lsTreeHeader
  have hmode : (e.mode ++ [' ']).IsChain Unmarked := isChain_of_plain fun c hc => by
    rcases List.mem_append.1 hc with hc | hc
    · exact plain_of_hex (isHex_of_digit (isDigit_of_octal (h.mode.2 c hc)))
    · rw [List.mem_singleton.1 hc]
      decide
  have hrest : (' ' :: (e.oid ++ ' ' :: (List.replicate (7 - (e.bytes.getD ['-']).length) ' ' ++
      (e.bytes.getD ['-'] ++ ['\t'])))).IsChain Unmarked := isChain_of_plain fun c hc => by
    simp only [List.mem_append, List.mem_cons, List.mem_replicate, List.not_mem_nil, or_false] at hc
    rcases hc with rfl | hc | rfl | ⟨-, rfl⟩ | hc | rfl
    · decide
    · exact plain_of_hex (h.oid.2.2 c hc)
    · decide
    · decide
    · rcases (size_solid h.bytes).2 c hc with hc | rfl
      · exact plain_of_hex hc
      · decide
    · decide
  have htype : (e.type.text ++ ' ' :: (e.oid ++ ' ' ::
      (List.replicate (7 - (e.bytes.getD ['-']).length) ' ' ++
        (e.bytes.getD ['-'] ++ ['\t'])))).IsChain Unmarked := by
    refine List.isChain_append.2 ⟨by cases e.type <;> decide, hrest, ?_⟩
    intro l hl c _ _
    revert hl
    cases e.type <;> simp [EntryType.text, lastLetters] <;> rintro rfl <;> decide
  have hall := List.isChain_append.2 ⟨hmode, htype, by
    intro l hl c _ _
    rw [List.getLast?_append] at hl
    obtain rfl := Option.some.inj hl
    decide⟩
  simpa using hall

theorem not_fits_unmarked {letters : Shape Char} {s : Text} {d : Char} (hne : letters ≠ [])
    (solid : ∀ k ∈ letters, ∀ c, isJsSpace c = true → k c = false)
    (ends : ∀ k, letters.getLast? = some k → ∀ c, k c = true → c ∈ lastLetters)
    (hs : s.getLast? = some d) (hd : isJsSpace d = true) (unmarked : s.IsChain Unmarked) (y : Text) :
    ¬Fits (letters ++ [isJsSpace]) (s ++ y) := by
  induction letters generalizing s with
  | nil => exact absurd rfl hne
  | cons k ks ih =>
    intro hfits
    cases s with
    | nil => cases hs
    | cons c s =>
      have hk : k c = true := hfits.1
      have hc : isJsSpace c = false := by
        rw [Bool.eq_false_iff]
        intro hspace
        rw [solid k (List.mem_cons_self ..) c hspace] at hk
        cases hk
      cases s with
      | nil =>
        have heq : c = d := Option.some.inj hs
        rw [heq, hd] at hc
        cases hc
      | cons b s =>
        rw [List.getLast?_cons_cons] at hs
        cases ks with
        | nil =>
          have hspace : isJsSpace b = true := hfits.2.1
          exact (List.isChain_cons_cons.1 unmarked).1 hspace (ends k rfl c hk)
        | cons l ks =>
          exact ih (List.cons_ne_nil _ _) (fun k hk => solid k (List.mem_cons_of_mem _ hk))
            (fun k hk => ends k (by rwa [List.getLast?_cons_cons])) hs
            (List.isChain_cons_cons.1 unmarked).2 hfits.2

theorem PathShape.of_marker {letters : Shape Char} (hne : letters ≠ [])
    (nul : ∀ k ∈ letters, k '\x00' = false)
    (solid : ∀ k ∈ letters, ∀ c, isJsSpace c = true → k c = false)
    (ends : ∀ k, letters.getLast? = some k → ∀ c, k c = true → c ∈ lastLetters) :
    PathShape (letters ++ [isJsSpace]) where
  nul k hk := by
    rcases List.mem_append.1 hk with hk | hk
    · exact nul k hk
    · rw [List.mem_singleton.1 hk]
      decide
  header e he s y hs hs' := by
    obtain ⟨p, hp⟩ := hs
    have hlast : e.header.getLast? = some '\t' := by
      unfold GitTreeEntry.header lsTreeHeader
      simp [List.getLast?_append, List.getLast?_cons]
    have hchain := header_unmarked he
    rw [← hp] at hlast hchain
    rw [List.getLast?_append, List.getLast?_eq_some_getLast hs'] at hlast
    refine not_fits_unmarked hne solid ends (d := '\t') ?_ (by decide)
      (List.isChain_append.1 hchain).2.1 y
    rw [List.getLast?_eq_some_getLast hs']
    exact hlast

/-! ### what redaction leaves -/

def tokenStarts : List String := ["ghs_", "ghp_", "github_pat_"]

def redactedUrl : Text := "https://[REDACTED]@".toList

/-- A text in which only redacted forms are left of what is looked for. -/
structure Redacted (t : Text) : Prop where
  tokens : ∀ start ∈ tokenStarts, Absent (tokenShape start) t
  bearer : OnlyAs (markerShape "bearer") (InForm isJsSpace redactedBearer) t
  token : OnlyAs (markerShape "token") (InForm isJsSpace redactedToken) t

/-- The text does not end in space. -/
def Solid (t : Text) : Prop := ∀ c, t.getLast? = some c → isJsSpace c = false

theorem Solid.replaceMatches {t text : Text} {pattern : Runs Char} {d : Char} (h : Solid t)
    (hd : text.getLast? = some d) (hsolid : isJsSpace d = false) :
    Solid (replaceMatches pattern text t) := by
  intro c hc
  have hne : text ≠ [] := fun hnil => by
    rw [hnil] at hd
    cases hd
  rcases replaceAll_getLast hne hc with h' | h'
  · exact h c h'
  · rw [hd] at h'
    rwa [← Option.some.inj h']

theorem solid_redacted {t : Text} {pattern : Runs Char} (h : Solid t) :
    Solid (replaceMatches pattern redacted t) := h.replaceMatches (d := ']') (by decide) (by decide)

theorem solid_redactSecret {t : Text} {secret : Option String} (h : Solid t) :
    Solid (redactSecret t secret) := by
  unfold redactSecret
  split
  · split_ifs
    · exact solid_redacted h
    · exact h
  · exact h

theorem solid_redactTokens {t : Text} (h : Solid t) : Solid (redactTokens t) :=
  solid_redacted (solid_redacted (solid_redacted h))

theorem fits_word (pattern : Runs Char) {k : Char → Bool} {ks : Shape Char}
    (hhead : pattern.head = k :: ks) (hk : ∀ c, k c = true → isWordChar c = true) (s : Text)
    (hs : 0 < pattern.len s) : Fits [isWordChar] s := by
  have hfits := Runs.fits_head hs
  rw [hhead] at hfits
  cases s with
  | nil => exact hfits
  | cons c s => exact ⟨hk c hfits.1, trivial⟩

/-- What is checked of a replacement to see that it makes no shape of a token. -/
def tokenApart (start : String) (text : Text) : Bool :=
  (List.range text.length).all (fun i => clash (tokenShape start) (text.drop i)) &&
    (List.range (exactly start).length).all fun j => j = 0 || clash ((tokenShape start).drop j) text

theorem Foreign.of_tokenApart {start : String} {text : Text} {pattern : Runs Char}
    (h : tokenApart start text = true)
    (last : clash [isWordChar] text = true ∨ ∀ s, 0 < pattern.len s → Fits [isWordChar] s) :
    Foreign pattern.len text (tokenShape start) := by
  unfold tokenApart at h
  rw [Bool.and_eq_true, List.all_eq_true, List.all_eq_true] at h
  refine Foreign.of_runs (fun i hi _ => h.1 i (List.mem_range.2 hi)) (fun j hj hpos => ?_) last
  have hj' := h.2 j (List.mem_range.2 hj)
  rw [decide_eq_false (Nat.ne_of_gt hpos), Bool.false_or] at hj'
  exact hj'

theorem tokenShape_ne_nil (start : String) : tokenShape start ≠ [] := fun h =>
  List.cons_ne_nil _ _ (List.append_eq_nil_iff.1 h).2

theorem absent_replace (pattern : Runs Char) {start : String} {text t : Text}
    (h : tokenApart start text = true) (hne : text ≠ [])
    (last : clash [isWordChar] text = true ∨ ∀ s, 0 < pattern.len s → Fits [isWordChar] s)
    (kept : ∀ s, s <:+ t → pattern.len s = 0 → ¬Fits (tokenShape start) s) :
    Absent (tokenShape start) (replaceMatches pattern text t) := by
  refine (Foreign.of_tokenApart h last).absent ?_ kept (tokenShape_ne_nil start)
  unfold tokenApart at h
  rw [Bool.and_eq_true, List.all_eq_true] at h
  exact h.1 0 (List.mem_range.2 (List.length_pos_iff.2 hne))

theorem tokenApart_redacted : ∀ start ∈ tokenStarts, tokenApart start redacted = true := by
  decide

theorem exactly_ne_nil : ∀ start ∈ tokenStarts, (exactly start).length ≠ 0 := by decide

/-- The tokens of a start are gone after their own pass. -/
theorem absent_own {start : String} (h : start ∈ tokenStarts) (t : Text) :
    Absent (tokenShape start) (replaceMatches (tokenPattern start) redacted t) :=
  absent_replace _ (tokenApart_redacted start h) (by decide) (.inl (by decide))
    fun _ _ hlen => Runs.not_fits_of_len rfl rfl
      (fun hnil => exactly_ne_nil start h (congrArg List.length hnil)) hlen

theorem absent_redacted {start : String} (h : start ∈ tokenStarts) {t : Text}
    (pattern : Runs Char) (ht : Absent (tokenShape start) t) :
    Absent (tokenShape start) (replaceMatches pattern redacted t) :=
  absent_replace pattern (tokenApart_redacted start h) (by decide) (.inl (by decide))
    fun s hs _ => ht s hs

theorem absent_redactTokens (t : Text) :
    ∀ start ∈ tokenStarts, Absent (tokenShape start) (redactTokens t) := by
  intro start h
  unfold redactTokens
  have hcases : start = "ghs_" ∨ start = "ghp_" ∨ start = "github_pat_" := by
    simpa [tokenStarts] using h
  rcases hcases with rfl | rfl | rfl
  · exact absent_redacted h _ (absent_redacted h _ (absent_own h _))
  · exact absent_redacted h _ (absent_own h _)
  · exact absent_own h _

theorem tokenApart_forms : ∀ start ∈ tokenStarts, tokenApart start redactedBearer = true ∧
    tokenApart start redactedToken = true ∧ tokenApart start redactedUrl = true := by
  decide

theorem upper_word {c : Char} {a b : Char} (h : (c == a || c == b) = true)
    (ha : isWordChar a = true) (hb : isWordChar b = true) : isWordChar c = true := by
  rw [Bool.or_eq_true, beq_iff_eq, beq_iff_eq] at h
  rcases h with rfl | rfl
  · exact ha
  · exact hb

/-- The passes after the tokens' own make no token. -/
theorem absent_redactSecrets {start : String} (h : start ∈ tokenStarts) {t : Text}
    (ht : Absent (tokenShape start) t) :
    Absent (tokenShape start) (replaceMatches urlPattern redactedUrl
      (replaceMatches (markerPattern "token") redactedToken
        (replaceMatches (markerPattern "bearer") redactedBearer t))) := by
  obtain ⟨hbearer, htoken, hurl⟩ := tokenApart_forms start h
  have h1 := absent_replace (markerPattern "bearer") hbearer (by decide)
    (.inr (fits_word (markerPattern "bearer") rfl fun c hc =>
      upper_word hc (by decide) (by decide))) fun s hs _ => ht s hs
  have h2 := absent_replace (markerPattern "token") htoken (by decide)
    (.inr (fits_word (markerPattern "token") rfl fun c hc =>
      upper_word hc (by decide) (by decide))) fun s hs _ => h1 s hs
  exact absent_replace urlPattern hurl (by decide)
    (.inr (fits_word urlPattern rfl fun c hc => by
      rw [beq_iff_eq.1 hc]
      decide)) fun s hs _ => h2 s hs

/-- What is checked of a replacement to see that it makes no marker. -/
def markerApart (word : String) (text : Text) : Bool :=
  (List.range text.length).all (fun i => i = 0 || clash (markerShape word) (text.drop i)) &&
    (List.range (markerShape word).length).all fun j =>
      j = 0 || clash ((markerShape word).drop j) text

theorem Foreign.of_markerApart {word : String} {text : Text} (h : markerApart word text = true)
    (len : Text → Nat) : Foreign len text (markerShape word) := by
  unfold markerApart at h
  rw [Bool.and_eq_true, List.all_eq_true, List.all_eq_true] at h
  refine ⟨fun i hpos hi => ?_, fun j hpos hj => .inl ?_⟩
  · have hi' := h.1 i (List.mem_range.2 hi)
    rwa [decide_eq_false (Nat.ne_of_gt hpos), Bool.false_or] at hi'
  · have hj' := h.2 j (List.mem_range.2 hj)
    rwa [decide_eq_false (Nat.ne_of_gt hpos), Bool.false_or] at hj'

theorem markers_apart :
    markerApart "bearer" redactedBearer = true ∧ markerApart "bearer" redactedToken = true ∧
      markerApart "bearer" redactedUrl = true ∧ markerApart "token" redactedToken = true ∧
      markerApart "token" redactedUrl = true := by
  decide

/-- A letter of a marker is no space. -/
theorem solid_anyCase {word : String} (h : ∀ c ∈ word.toList, isJsSpace c = false ∧
    isJsSpace c.toUpper = false) : ∀ k ∈ anyCase word, ∀ c, isJsSpace c = true → k c = false := by
  intro k hk c hc
  obtain ⟨d, hd, rfl⟩ := List.mem_map.1 hk
  obtain ⟨hlow, hup⟩ := h d hd
  rw [Bool.eq_false_iff]
  intro heq
  rw [Bool.or_eq_true, beq_iff_eq, beq_iff_eq] at heq
  rcases heq with rfl | rfl
  · rw [hlow] at hc
    cases hc
  · rw [hup] at hc
    cases hc

theorem solid_bearer : ∀ k ∈ anyCase "bearer", ∀ c, isJsSpace c = true → k c = false :=
  solid_anyCase (Lib.Scan.forall_mem (by decide))

theorem solid_token : ∀ k ∈ anyCase "token", ∀ c, isJsSpace c = true → k c = false :=
  solid_anyCase (Lib.Scan.forall_mem (by decide))

theorem solid_url (c : Char) (cs : Text) (hc : isJsSpace c = true) : urlPattern.len (c :: cs) = 0 := by
  refine Nat.eq_zero_of_not_pos fun hpos => ?_
  have hfits : Fits (exactly "https://") (c :: cs) := Runs.fits_head hpos
  have hh : (c == 'h') = true := hfits.1
  rw [beq_iff_eq.1 hh] at hc
  revert hc
  decide

theorem markerShape_ne_nil (word : String) : markerShape word ≠ [] := fun h =>
  List.cons_ne_nil _ _ (List.append_eq_nil_iff.1 h).2

theorem anyCase_ne_nil {word : String} (h : (anyCase word).length ≠ 0) : anyCase word ≠ [] :=
  fun hnil => h (congrArg List.length hnil)

theorem anyCase_bearer_ne_nil : anyCase "bearer" ≠ [] := anyCase_ne_nil (by decide)

theorem anyCase_token_ne_nil : anyCase "token" ≠ [] := anyCase_ne_nil (by decide)

theorem redactSecrets_redacted {t : Text} (secrets : List (Option String)) (h : Solid t) :
    Redacted (redactSecrets t secrets) := by
  obtain ⟨hbb, hbt, hbu, htt, htu⟩ := markers_apart
  have hsecrets : Solid (secrets.foldl redactSecret t) := by
    clear hbb hbt hbu htt htu
    induction secrets generalizing t with
    | nil => exact h
    | cons s secrets ih => exact ih (solid_redactSecret h)
  have htokens := solid_redactTokens hsecrets
  have hb : OnlyAs (markerShape "bearer") (InForm isJsSpace redactedBearer)
      (replaceMatches (markerPattern "bearer") redactedBearer
        (redactTokens (secrets.foldl redactSecret t))) :=
    inForm_marker anyCase_bearer_ne_nil solid_bearer (Foreign.of_markerApart hbb _) htokens
  have hbSolid : Solid (replaceMatches (markerPattern "bearer") redactedBearer
      (redactTokens (secrets.foldl redactSecret t))) :=
    htokens.replaceMatches (d := ']') (by decide) (by decide)
  have hb2 : OnlyAs (markerShape "bearer") (InForm isJsSpace redactedBearer)
      (replaceMatches (markerPattern "token") redactedToken
        (replaceMatches (markerPattern "bearer") redactedBearer
          (redactTokens (secrets.foldl redactSecret t)))) :=
    (Foreign.of_markerApart hbt (markerPattern "token").len).inForm (by decide)
      (markerShape_ne_nil _) (by decide) (marker_solid anyCase_token_ne_nil solid_token) hb
  have hb3 := (Foreign.of_markerApart hbu urlPattern.len).inForm (by decide)
    (markerShape_ne_nil _) (by decide) solid_url hb2
  have ht2 : OnlyAs (markerShape "token") (InForm isJsSpace redactedToken)
      (replaceMatches (markerPattern "token") redactedToken
        (replaceMatches (markerPattern "bearer") redactedBearer
          (redactTokens (secrets.foldl redactSecret t)))) :=
    inForm_marker anyCase_token_ne_nil solid_token (Foreign.of_markerApart htt _) hbSolid
  have ht3 := (Foreign.of_markerApart htu urlPattern.len).inForm (by decide)
    (markerShape_ne_nil _) (by decide) solid_url ht2
  exact ⟨fun start hstart => absent_redactSecrets hstart (absent_redactTokens _ start hstart), hb3,
    ht3⟩

/-! ### clean paths -/

/-- What starts here is the redacted form, up to a space or, in the last path, up to its end. -/
def InPathForm (last : Prop) (form s : Text) : Prop :=
  ∃ y, s = form ++ y ∧ (y = [] → last) ∧ ∀ c ∈ y.head?, isJsSpace c = true

/-- A path that redaction leaves alone: no token in it, and no marker with space behind it but in
the redacted form. -/
structure CleanPath (last : Prop) (path : Text) : Prop where
  tokens : ∀ start ∈ tokenStarts, Absent (tokenShape start) path
  bearer : OnlyAs (markerShape "bearer") (InPathForm last redactedBearer) path
  token : OnlyAs (markerShape "token") (InPathForm last redactedToken) path

def CleanPaths : List Text → Prop
  | [] => True
  | path :: paths => CleanPath (paths = []) path ∧ CleanPaths paths

theorem CleanPaths.at {before : List Text} {path : Text} {after : List Text}
    (h : CleanPaths (before ++ path :: after)) : CleanPath (after = []) path := by
  induction before with
  | nil => exact h.1
  | cons p before ih => exact ih h.2

theorem CleanPaths.of_at {paths : List Text}
    (h : ∀ before path after, paths = before ++ path :: after → CleanPath (after = []) path) :
    CleanPaths paths := by
  induction paths with
  | nil => trivial
  | cons p paths ih =>
    exact ⟨h [] p paths rfl, ih fun before path after heq => h (p :: before) path after (by simp [heq])⟩

/-! ### clean paths are listed as they are -/

theorem pathShape_token : ∀ start ∈ tokenStarts, PathShape (tokenShape start) := by
  intro start h
  have hnul : ∀ start ∈ tokenStarts, ∀ k ∈ tokenShape start, k '\x00' = false := by decide
  have hcases : start = "ghs_" ∨ start = "ghp_" ∨ start = "github_pat_" := by
    simpa [tokenStarts] using h
  rcases hcases with rfl | rfl | rfl
  all_goals exact PathShape.of_first (hnul _ h) fun c hc => .inl (beq_iff_eq.1 hc)

theorem pathShape_url : PathShape (exactly "https://") :=
  @PathShape.of_first (fun d => d == 'h') (exactly "ttps://") (by decide)
    fun c hc => .inr (beq_iff_eq.1 hc)

theorem mem_lastLetters {word : String} {d : Char} (hlast : (anyCase word).getLast? =
    some fun c => c == d || c == d.toUpper) (hd : d ∈ lastLetters ∧ d.toUpper ∈ lastLetters) :
    ∀ k, (anyCase word).getLast? = some k → ∀ c, k c = true → c ∈ lastLetters := by
  intro k hk c hc
  rw [hlast] at hk
  rw [← Option.some.inj hk, Bool.or_eq_true, beq_iff_eq, beq_iff_eq] at hc
  rcases hc with rfl | rfl
  · exact hd.1
  · exact hd.2

theorem pathShape_bearer : PathShape (markerShape "bearer") :=
  PathShape.of_marker anyCase_bearer_ne_nil (by decide) solid_bearer
    (mem_lastLetters (d := 'r') rfl (by decide))

theorem pathShape_token_marker : PathShape (markerShape "token") :=
  PathShape.of_marker anyCase_token_ne_nil (by decide) solid_token
    (mem_lastLetters (d := 'n') rfl (by decide))

theorem formOf_bearer : FormOf isJsSpace (anyCase "bearer") redactedBearer :=
  ⟨by decide, [' '], "[REDACTED]".toList, by decide +kernel, by decide, by decide +kernel,
    Lib.Scan.forall_mem (by decide), Lib.Scan.forall_mem (by decide)⟩

theorem formOf_token : FormOf isJsSpace (anyCase "token") redactedToken :=
  ⟨by decide, [' '], "[REDACTED]".toList, by decide +kernel, by decide, by decide +kernel,
    Lib.Scan.forall_mem (by decide), Lib.Scan.forall_mem (by decide)⟩

theorem Absent.nul {ks : Shape Char} {t : Text} (h : Absent ks t) (hnul : ∀ k ∈ ks, k '\x00' = false)
    (hne : ks ≠ []) : Absent ks (t ++ ['\x00']) := by
  intro s hs hfits
  rcases suffix_append_cases hs with hs | ⟨w, -, hw, rfl⟩
  · cases ks with
    | nil => exact hne rfl
    | cons k ks =>
      rcases List.suffix_cons_iff.1 hs with rfl | hs
      · have hk := hfits.1
        rw [hnul k (List.mem_cons_self ..)] at hk
        cases hk
      · obtain rfl := List.suffix_nil.1 hs
        exact hfits
  · exact h w hw (fits_before hnul hfits)

section clean

variable {es : List GitTreeEntry}

theorem absent_joined (h : ∀ e ∈ es, e.Wellformed) {ks : Shape Char} (K : PathShape ks)
    (hne : ks ≠ []) (hpath : ∀ e ∈ es, Absent ks e.path) : Absent ks (joined es) := by
  intro s hs hfits
  obtain ⟨before, e, after, p, rfl, hp, hfit, -⟩ := K.occurs hne h hs hfits
  exact hpath e (by simp) p hp hfit

theorem inForm_joined (h : ∀ e ∈ es, e.Wellformed) {ks : Shape Char} {form : Text}
    (K : PathShape ks) (hne : ks ≠ [])
    (hpath : ∀ before e after, es = before ++ e :: after →
      OnlyAs ks (InPathForm (after = []) form) e.path) :
    OnlyAs ks (InForm isJsSpace form) (joined es) := by
  intro s hs hfits
  obtain ⟨before, e, after, p, rfl, hp, hfit, rfl⟩ := K.occurs hne h hs hfits
  obtain ⟨y, rfl, hlast, hy⟩ := hpath before e after rfl p hp hfit
  refine ⟨y ++ following after, by rw [List.append_assoc], ?_⟩
  cases y with
  | nil =>
    rw [hlast rfl]
    simp [following]
  | cons c y => exact hy

/-- Redaction has at most the zero at the end to take away. -/
def Spared (es : List GitTreeEntry) (t : Text) : Prop :=
  t = joined es ++ ['\x00'] ∨ t = joined es

theorem Spared.of_absent {t : Text} {pattern : Runs Char} {ks : Shape Char} (text : Text)
    (ht : Spared es t) (hks : ∀ s, 0 < pattern.len s → Fits ks s) (h : Absent ks (joined es))
    (hnul : ∀ k ∈ ks, k '\x00' = false) (hne : ks ≠ []) : Spared es (replaceMatches pattern text t) := by
  have hall : Absent ks t := by
    rcases ht with rfl | rfl
    · exact Absent.nul h hnul hne
    · exact h
  have hself : replaceMatches pattern text t = t :=
    replaceAll_self fun s hs hlen => (hall s hs (hks s hlen)).elim
  rwa [hself]

theorem Spared.of_form {t : Text} {word : String} {form : Text} (ht : Spared es t)
    (hform : FormOf isJsSpace (anyCase word) form) (hnul : ∀ k ∈ anyCase word, k '\x00' = false)
    (h : OnlyAs (markerShape word) (InForm isJsSpace form) (joined es)) :
    Spared es (replaceMatches (markerPattern word) form t) := by
  rcases ht with rfl | rfl
  · exact hform.self_or (by decide) hnul h
  · exact .inr (hform.self h)

/-- The token of a GitHub App installation. -/
def InstallationToken (s : String) : Prop := Fits (tokenShape "ghs_") s.toList

theorem fits_exactly {secret : String} {t : Text} (h : Fits (exactly secret) t) :
    ∃ y, t = secret.toList ++ y := by
  unfold exactly at h
  generalize secret.toList = l at h
  induction l generalizing t with
  | nil => exact ⟨t, rfl⟩
  | cons c l ih =>
    cases t with
    | nil => exact h.elim
    | cons d t =>
      obtain ⟨y, rfl⟩ := ih h.2
      exact ⟨y, by rw [beq_iff_eq.1 h.1, List.cons_append]⟩

/-- A token of GitHub is not in what has no such token. -/
theorem fits_installation {secret : String} (h : InstallationToken secret) {s : Text}
    (hs : 0 < (Runs.mk (exactly secret) [] []).len s) : Fits (tokenShape "ghs_") s := by
  obtain ⟨y, rfl⟩ := fits_exactly (Runs.fits_head hs)
  exact fits_append h y

/-- The listing of entries with clean paths is redacted to itself, but for the zero at the end. -/
theorem spared_redactSecrets {token : Option String} (h : ∀ e ∈ es, e.Wellformed)
    (names : ∀ e ∈ es, ¬['/', '/'] <:+: e.path) (clean : CleanPaths (es.map (·.path)))
    (github : ∀ s, token = some s → InstallationToken s) :
    Spared es (redactSecrets (joined es ++ ['\x00']) [token]) := by
  have hat (before : List GitTreeEntry) (e : GitTreeEntry) (after : List GitTreeEntry)
      (heq : es = before ++ e :: after) : CleanPath (after = []) e.path := by
    rw [heq, List.map_append, List.map_cons] at clean
    have hclean := clean.at
    rwa [List.map_eq_nil_iff] at hclean
  have hpath (e : GitTreeEntry) (he : e ∈ es) : ∀ start ∈ tokenStarts,
      Absent (tokenShape start) e.path := by
    obtain ⟨before, after, heq⟩ := List.append_of_mem he
    exact (hat before e after heq).tokens
  have htokens (start : String) (hs : start ∈ tokenStarts) : Absent (tokenShape start) (joined es) :=
    absent_joined h (pathShape_token start hs) (tokenShape_ne_nil _) fun e he => hpath e he start hs
  have hurl : Absent (exactly "https://") (joined es) := by
    refine absent_joined h pathShape_url (by decide) fun e he s hs hfits => names e he ?_
    obtain ⟨y, rfl⟩ := fits_exactly hfits
    obtain ⟨x, hx⟩ := hs
    refine ⟨x ++ "https:".toList, y, ?_⟩
    rw [← hx]
    simp
  have hbearer := inForm_joined h pathShape_bearer (markerShape_ne_nil _)
    fun before e after heq => (hat before e after heq).bearer
  have htoken := inForm_joined h pathShape_token_marker (markerShape_ne_nil _)
    fun before e after heq => (hat before e after heq).token
  have hstart : Spared es (joined es ++ ['\x00']) := .inl rfl
  have hsecret : Spared es ([token].foldl redactSecret (joined es ++ ['\x00'])) := by
    show Spared es (redactSecret (joined es ++ ['\x00']) token)
    unfold redactSecret
    split
    next secret =>
      split_ifs
      · have hghs : "ghs_" ∈ tokenStarts := by decide
        exact hstart.of_absent _ (fun s hs => fits_installation (github secret rfl) hs)
          (htokens "ghs_" hghs) (pathShape_token "ghs_" hghs).nul (tokenShape_ne_nil _)
      · exact hstart
    next => exact hstart
  have hpass {t : Text} (ht : Spared es t) (start : String) (hs : start ∈ tokenStarts) :
      Spared es (replaceMatches (tokenPattern start) redacted t) :=
    ht.of_absent _ (fun s hlen => Runs.fits_of_len (p := tokenPattern start) rfl hlen)
      (htokens start hs) (pathShape_token start hs).nul (tokenShape_ne_nil _)
  have htok : Spared es (redactTokens ([token].foldl redactSecret (joined es ++ ['\x00']))) :=
    hpass (hpass (hpass hsecret _ (by decide)) _ (by decide)) _ (by decide)
  have hb := htok.of_form formOf_bearer (by decide) hbearer
  have ht := hb.of_form formOf_token (by decide) htoken
  exact ht.of_absent _ (fun s hs => Runs.fits_head hs) hurl pathShape_url.nul (by decide)

end clean

/-! ### what is listed has clean paths -/

theorem oneOrMore_suffix {k : Char → Bool} {t : Text} {r : Text × Text}
    (h : oneOrMore k t = some r) : r.2 <:+ t := by
  unfold oneOrMore at h
  split_ifs at h
  rw [← Option.some.inj h]
  exact List.dropWhile_suffix k

theorem entryType_suffix {t : Text} {r : EntryType × Text} (h : entryType t = some r) :
    r.2 <:+ t := by
  unfold entryType at h
  split at h
  · rw [← Option.some.inj h]
    exact ⟨['b', 'l', 'o', 'b'], rfl⟩
  · rw [← Option.some.inj h]
    exact ⟨['t', 'r', 'e', 'e'], rfl⟩
  · rw [← Option.some.inj h]
    exact ⟨['c', 'o', 'm', 'm', 'i', 't'], rfl⟩
  · cases h

theorem entryBytes_suffix {t : Text} {r : Option Text × Text} (h : entryBytes t = some r) :
    r.2 <:+ t := by
  unfold entryBytes at h
  split at h
  · rw [← Option.some.inj h]
    exact List.suffix_cons _ _
  · obtain ⟨a, ha, rfl⟩ := Option.map_eq_some_iff.1 h
    exact (oneOrMore_suffix ha)

/-- The path of an entry is the end of its line. -/
theorem parseLsTreeLine_path {line : Text} {e : GitTreeEntry} (h : parseLsTreeLine line = some e) :
    e.path <:+ line := by
  unfold parseLsTreeLine at h
  simp only [Option.bind_eq_bind, Option.bind_eq_some_iff] at h
  obtain ⟨⟨mode, t1⟩, h1, ⟨s2, t2⟩, h2, ⟨type, t3⟩, h3, ⟨s4, t4⟩, h4, ⟨oid, t5⟩, h5, h⟩ := h
  split_ifs at h
  simp only [Option.bind_eq_some_iff] at h
  obtain ⟨⟨s6, t6⟩, h6, ⟨bytes, t7⟩, h7, h⟩ := h
  split at h
  next c path heq =>
    rw [← Option.some.inj h]
    have hpath : c :: path <:+ t7 := ⟨['\t'], heq.symm⟩
    exact hpath.trans <| (entryBytes_suffix h7).trans <| (oneOrMore_suffix h6).trans <|
      (oneOrMore_suffix h5).trans <| (oneOrMore_suffix h4).trans <| (entryType_suffix h3).trans <|
        (oneOrMore_suffix h2).trans (oneOrMore_suffix h1)
  next => cases h

/-- A parsed path ends at a zero, or at the end of the text if it is the last. -/
theorem parseEntries_path {t : Text} {before : List GitTreeEntry} {e : GitTreeEntry}
    {after : List GitTreeEntry} (h : parseEntries t = before ++ e :: after) :
    ∃ y, e.path ++ y <:+ t ∧ (∀ c ∈ y.head?, c = '\x00') ∧ (y = [] → after = []) := by
  induction hn : t.length using Nat.strong_induction_on generalizing t before with
  | _ n ih =>
    by_cases hmem : '\x00' ∈ t
    · obtain ⟨line, u, rfl, hline⟩ := List.eq_append_cons_of_mem hmem
      have hsplit : parseEntries (line ++ '\x00' :: u) =
          (if line = [] then none else parseLsTreeLine line).toList ++ parseEntries u := by
        unfold parseEntries
        rw [splitNul_cons hline, List.filterMap_cons]
        cases (if line = [] then none else parseLsTreeLine line) <;> rfl
      rw [hsplit] at h
      have hlen : u.length < n := by
        rw [← hn, List.length_append, List.length_cons]
        omega
      have hsuffix : u <:+ line ++ '\x00' :: u :=
        (List.suffix_cons _ _).trans (List.suffix_append _ _)
      cases hparse : (if line = [] then none else parseLsTreeLine line) with
      | none =>
        rw [hparse] at h
        obtain ⟨y, hy, hrest⟩ := ih u.length hlen h rfl
        exact ⟨y, hy.trans hsuffix, hrest⟩
      | some f =>
        rw [hparse] at h
        cases before with
        | nil =>
          obtain rfl : f = e := (List.cons.inj h).1
          split_ifs at hparse
          obtain ⟨p, hp⟩ := parseLsTreeLine_path hparse
          refine ⟨'\x00' :: u, ⟨p, ?_⟩, fun c hc => (Option.some.inj hc).symm, fun hnil => by cases hnil⟩
          rw [← List.append_assoc, hp]
        | cons g before =>
          obtain ⟨y, hy, hrest⟩ := ih u.length hlen (List.cons.inj h).2 rfl
          exact ⟨y, hy.trans hsuffix, hrest⟩
    · unfold parseEntries at h
      rw [splitNul_self hmem, List.filterMap_cons] at h
      cases hparse : (if t = [] then none else parseLsTreeLine t) with
      | none =>
        rw [hparse] at h
        simp at h
      | some f =>
        rw [hparse] at h
        cases before with
        | nil =>
          obtain ⟨rfl, hafter⟩ := List.cons.inj h
          split_ifs at hparse
          exact ⟨[], by simpa using parseLsTreeLine_path hparse, by simp, fun _ => hafter.symm⟩
        | cons g before => simp at h

theorem inPathForm {form p y : Text} {last : Prop} (hform : '\x00' ∉ form)
    (hy : ∀ c ∈ y.head?, c = '\x00') (hlast : y = [] → last)
    (h : InForm isJsSpace form (p ++ y)) : InPathForm last form p := by
  obtain ⟨z, heq, hz⟩ := h
  rcases List.append_eq_append_iff.1 heq with ⟨a, ha, hya⟩ | ⟨a, ha, hza⟩
  · cases a with
    | nil =>
      refine ⟨[], by simpa using ha.symm, fun _ => hlast ?_, by simp⟩
      cases y with
      | nil => rfl
      | cons c y =>
        obtain rfl := hy c rfl
        rw [List.nil_append] at hya
        have hspace := hz '\x00' (by rw [← hya]; rfl)
        exact absurd hspace (by decide)
    | cons c a =>
      rw [hya] at hy
      obtain rfl := hy c rfl
      exact absurd (by simp [ha]) hform
  · refine ⟨a, ha, fun hnil => hlast ?_, fun c hc => hz c ?_⟩
    · subst hnil
      rw [List.nil_append] at hza
      cases y with
      | nil => rfl
      | cons c y =>
        obtain rfl := hy c rfl
        have hspace := hz '\x00' (by rw [hza]; rfl)
        exact absurd hspace (by decide)
    · rw [hza]
      cases a with
      | nil => cases hc
      | cons d a => exact hc

theorem cleanPaths_parsed {t : Text} (h : Redacted t) : CleanPaths ((parseEntries t).map (·.path)) := by
  refine CleanPaths.of_at fun before path after heq => ?_
  obtain ⟨es, rest, hes, -, hrest⟩ := List.map_eq_append_iff.1 heq
  obtain ⟨e, es', rfl, rfl, rfl⟩ := List.map_eq_cons_iff.1 hrest
  obtain ⟨y, hsuffix, hy, hlast⟩ := parseEntries_path hes
  have hin {s : Text} (hs : s <:+ e.path) : s ++ y <:+ t := by
    obtain ⟨x, hx⟩ := hs
    rw [← hx, List.append_assoc] at hsuffix
    exact (List.suffix_append _ _).trans hsuffix
  have hend : y = [] → es'.map (·.path) = [] := fun hnil => by rw [hlast hnil]; rfl
  exact {
    tokens := fun start hstart s hs hfits => h.tokens start hstart _ (hin hs) (fits_append hfits y)
    bearer := fun s hs hfits =>
      inPathForm (by decide) hy hend (h.bearer _ (hin hs) (fits_append hfits y))
    token := fun s hs hfits =>
      inPathForm (by decide) hy hend (h.token _ (hin hs) (fits_append hfits y)) }

/-! ### the listing of a tree -/

section tree

variable {lossy : ByteArray → Text} {token : Option String}

theorem decodeUtf8_encode (t : Text) : decodeUtf8 lossy (encodeUtf8 t) = t := by
  unfold decodeUtf8 encodeUtf8
  rw [String.toByteArray_ofList, List.utf8Decode?_utf8Encode]

theorem encodeUtf8_append (t u : Text) : encodeUtf8 (t ++ u) = encodeUtf8 t ++ encodeUtf8 u := by
  unfold encodeUtf8
  rw [String.toByteArray_ofList, String.toByteArray_ofList, String.toByteArray_ofList,
    List.utf8Encode_append]

theorem encodeUtf8_inj {t u : Text} (h : encodeUtf8 t = encodeUtf8 u) : t = u := by
  have hback := congrArg (decodeUtf8 fun _ => []) h
  rwa [decodeUtf8_encode, decodeUtf8_encode] at hback

/-- The text of a listing. -/
def listingText (es : List GitTreeEntry) : Text := if es = [] then [] else joined es ++ ['\x00']

theorem listingText_cons (e : GitTreeEntry) (es : List GitTreeEntry) :
    listingText (e :: es) = e.line ++ '\x00' :: listingText es := by
  cases es with
  | nil => simp [listingText, joined]
  | cons f es => simp [listingText, joined]

theorem lsTree_entries (es : List GitTreeEntry) :
    lsTree (es.map (·.entry)) = encodeUtf8 (listingText es) := by
  induction es with
  | nil => rfl
  | cons e es ih =>
    unfold lsTree at ih ⊢
    rw [List.map_cons, List.foldr_cons, ih, listingText_cons]
    simp only [GitTreeEntry.line, List.append_assoc, encodeUtf8_append]
    rw [show '\x00' :: listingText es = ['\x00'] ++ listingText es from rfl, encodeUtf8_append]
    rfl

theorem trimEnd_solid (t : Text) : Solid (trimEnd t) := by
  intro c hc
  have hne : trimEnd t ≠ [] := fun hnil => by
    rw [hnil] at hc
    cases hc
  have hlast := List.rdropWhile_last_not isJsSpace t hne
  rw [List.getLast?_eq_some_getLast hne] at hc
  rw [← Option.some.inj hc]
  exact Bool.eq_false_iff.2 hlast

theorem trimEnd_nul (t : Text) : trimEnd (t ++ ['\x00']) = t ++ ['\x00'] := by
  unfold trimEnd
  rw [List.rdropWhile_eq_self_iff]
  intro hne
  rw [List.getLast_append_of_ne_nil _ (List.cons_ne_nil _ _)]
  decide

theorem gitStdout_redacted (stdout : ByteArray) : Redacted (gitStdout lossy token stdout) :=
  redactSecrets_redacted _ (trimEnd_solid _)

theorem encodeUtf8_within (a w b : Text) :
    (encodeUtf8 w).data.toList <:+: (encodeUtf8 (a ++ (w ++ b))).data.toList := by
  rw [encodeUtf8_append, encodeUtf8_append]
  simp only [ByteArray.data_append, Array.toList_append]
  exact ⟨(encodeUtf8 a).data.toList, (encodeUtf8 b).data.toList, by rw [List.append_assoc]⟩

theorem wellformed_of_legal {e : GitTreeEntry} (h : e.entry.Legal) : e.Wellformed where
  mode := h.mode
  oid := h.oid
  bytes := h.bytes
  path hnil := h.path (by
    unfold GitTreeEntry.entry
    rw [hnil]
    rfl)
  noNul hmem := by
    obtain ⟨a, b, hpath⟩ := List.append_of_mem hmem
    refine h.noNul ?_
    unfold GitTreeEntry.entry
    rw [hpath]
    exact (encodeUtf8_within a ['\x00'] b).subset (by decide)

theorem names_of_legal {e : GitTreeEntry} (h : e.entry.Legal) : ¬['/', '/'] <:+: e.path := by
  rintro ⟨a, b, hpath⟩
  refine h.names ?_
  unfold GitTreeEntry.entry
  rw [← hpath, List.append_assoc]
  exact encodeUtf8_within a ['/', '/'] b

theorem gitStdout_lsTree (es : List GitTreeEntry) : gitStdout lossy token (lsTree (es.map (·.entry))) =
    redactSecrets (listingText es) [token] := by
  unfold gitStdout
  rw [lsTree_entries, decodeUtf8_encode]
  unfold listingText
  split_ifs
  · rfl
  · rw [trimEnd_nul]

theorem redactSecrets_nil : redactSecrets [] [token] = [] := by
  show replaceMatches _ _ (replaceMatches _ _ (replaceMatches _ _ (redactTokens
    (redactSecret [] token)))) = []
  have hsecret : redactSecret [] token = [] := by
    unfold redactSecret
    split
    · split_ifs <;> rfl
    · rfl
  rw [hsecret]
  rfl

/-- Nothing is printed, and nothing is read. -/
theorem parseEntries_none : parseEntries (gitStdout lossy token (lsTree [])) = [] := by
  rw [show lsTree [] = lsTree (([] : List GitTreeEntry).map (·.entry)) from rfl, gitStdout_lsTree,
    show listingText [] = [] from rfl, redactSecrets_nil]
  rfl

/-- Entries with clean paths are listed exactly. -/
theorem parseEntries_lsTree {es : List GitTreeEntry} (legal : ∀ e ∈ es, e.entry.Legal)
    (github : ∀ s, token = some s → InstallationToken s) (clean : CleanPaths (es.map (·.path))) :
    parseEntries (gitStdout lossy token (lsTree (es.map (·.entry)))) = es := by
  have hwell : ∀ e ∈ es, e.Wellformed := fun e he => wellformed_of_legal (legal e he)
  rw [gitStdout_lsTree]
  unfold listingText
  split_ifs with hnil
  · subst hnil
    rw [redactSecrets_nil]
    rfl
  · rcases spared_redactSecrets hwell (fun e he => names_of_legal (legal e he)) clean github with h | h
    · rw [h, parseEntries_joined_nul hwell]
    · rw [h, parseEntries_joined hwell]

/-- The paths are texts that redaction leaves alone. -/
def Listable (entries : List TreeEntry) : Prop :=
  ∃ paths : List Text, entries.map (·.path) = paths.map encodeUtf8 ∧ CleanPaths paths

/-- Entries whose paths are text. -/
theorem entries_of_paths {entries : List TreeEntry} {paths : List Text}
    (h : entries.map (·.path) = paths.map encodeUtf8) :
    ∃ es : List GitTreeEntry, es.map (·.entry) = entries ∧ es.map (·.path) = paths := by
  induction entries generalizing paths with
  | nil =>
    cases paths with
    | nil => exact ⟨[], rfl, rfl⟩
    | cons p paths => cases h
  | cons e entries ih =>
    cases paths with
    | nil => cases h
    | cons p paths =>
      obtain ⟨hp, hrest⟩ := List.cons.inj h
      obtain ⟨es, rfl, rfl⟩ := ih hrest
      refine ⟨⟨e.mode, e.type, e.oid, e.bytes, p⟩ :: es, ?_, rfl⟩
      rw [List.map_cons]
      unfold GitTreeEntry.entry
      simp only at hp
      rw [← hp]

theorem listTreeEntries_iff {entries : List TreeEntry} (legal : ∀ e ∈ entries, e.Legal)
    (github : ∀ s, token = some s → InstallationToken s) :
    (listTreeEntries lossy token (lsTree entries)).map (·.entry) = entries ↔ Listable entries := by
  constructor
  · intro h
    refine ⟨(listTreeEntries lossy token (lsTree entries)).map (·.path), ?_,
      cleanPaths_parsed (gitStdout_redacted _)⟩
    conv_lhs => rw [← h]
    rw [List.map_map, List.map_map]
    rfl
  · rintro ⟨paths, hpaths, clean⟩
    obtain ⟨es, rfl, rfl⟩ := entries_of_paths hpaths
    unfold listTreeEntries
    rw [parseEntries_lsTree (fun e he => legal _ (List.mem_map_of_mem he)) github clean]

theorem CleanPath.last {last : Prop} {path : Text} (h : CleanPath last path) : CleanPaths [path] := by
  have hmono {form s : Text} (hs : InPathForm last form s) : InPathForm ([] = ([] : List Text)) form s :=
    hs.imp fun y hy => ⟨hy.1, fun _ => rfl, hy.2.2⟩
  exact ⟨⟨h.tokens, fun s hs hfits => hmono (h.bearer s hs hfits),
    fun s hs hfits => hmono (h.token s hs hfits)⟩, trivial⟩

/-- Of a tree with unique paths Git prints the entry at a path, if there is one. -/
theorem filter_path {tree : List TreeEntry} (unique : (tree.map (·.path)).Nodup) (path : ByteArray) :
    tree.filter (fun e => decide (e.path = path)) =
      (tree.find? fun e => decide (e.path = path)).toList := by
  induction tree with
  | nil => rfl
  | cons e tree ih =>
    rw [List.map_cons, List.nodup_cons] at unique
    by_cases he : e.path = path
    · have hrest : tree.filter (fun e => decide (e.path = path)) = [] := by
        refine List.filter_eq_nil_iff.2 fun f hf => ?_
        have hne : f.path ≠ path := fun h =>
          unique.1 (List.mem_map.2 ⟨f, hf, h.trans he.symm⟩)
        simp [hne]
      rw [List.filter_cons_of_pos (by simp [he]), List.find?_cons_of_pos (by simp [he]), hrest]
      rfl
    · rw [List.filter_cons_of_neg (by simp [he]), List.find?_cons_of_neg (by simp [he]), ih unique.2]

theorem getTreeEntry_iff {tree : List TreeEntry} (legal : ∀ e ∈ tree, e.Legal)
    (unique : (tree.map (·.path)).Nodup) (github : ∀ s, token = some s → InstallationToken s)
    (relativePath : Text) :
    (getTreeEntry lossy token
        (lsTree (tree.filter fun e => decide (e.path = encodeUtf8 relativePath))) relativePath).map
          (·.entry) = tree.find? (fun e => decide (e.path = encodeUtf8 relativePath)) ↔
      ((∃ e ∈ tree, e.path = encodeUtf8 relativePath) → CleanPaths [relativePath]) := by
  rw [filter_path unique]
  cases hfind : tree.find? fun e => decide (e.path = encodeUtf8 relativePath) with
  | none =>
    have hnone : ¬∃ e ∈ tree, e.path = encodeUtf8 relativePath := by
      rintro ⟨e, he, hpath⟩
      have hf := List.find?_eq_none.1 hfind e he
      simp [hpath] at hf
    refine ⟨fun _ h => (hnone h).elim, fun _ => ?_⟩
    unfold getTreeEntry
    rw [Option.toList_none, parseEntries_none]
    rfl
  | some e =>
    have hmem := List.mem_of_find?_eq_some hfind
    have hpath : e.path = encodeUtf8 relativePath := by simpa using List.find?_some hfind
    obtain ⟨es, hes, hpaths⟩ := @entries_of_paths [e] [relativePath] (by simp [hpath])
    obtain ⟨g, rest, rfl, hg, hrest⟩ := List.map_eq_cons_iff.1 hes
    obtain rfl := List.map_eq_nil_iff.1 hrest
    obtain rfl : g.path = relativePath := (List.cons.inj hpaths).1
    rw [Option.toList_some, ← hg]
    constructor
    · intro h _
      obtain ⟨f, hf, hfg⟩ := Option.map_eq_some_iff.1 h
      have hfpath : f.path = g.path := encodeUtf8_inj (congrArg TreeEntry.path hfg)
      unfold getTreeEntry at hf
      obtain ⟨before, after, hsplit⟩ := List.append_of_mem (List.mem_of_find?_eq_some hf)
      have hclean := cleanPaths_parsed (t := gitStdout lossy token (lsTree [g.entry]))
        (gitStdout_redacted _)
      rw [hsplit, List.map_append, List.map_cons] at hclean
      rw [← hfpath]
      exact hclean.at.last
    · intro h
      have hclean := h ⟨e, hmem, hpath⟩
      have hparse := @parseEntries_lsTree lossy token [g]
        (fun x hx => by
          rw [List.mem_singleton.1 hx, hg]
          exact legal e hmem) github hclean
      unfold getTreeEntry
      rw [List.map_singleton] at hparse
      rw [hparse, List.find?_cons_of_pos (by simp)]
      rfl

end tree

section sample

/-- A file of a workspace. -/
def fileEntry (c : Char) (path : String) : GitTreeEntry :=
  ⟨['1', '0', '0', '6', '4', '4'], .blob, List.replicate 40 c, some ['1', '2'], path.toList⟩

/-- Two files, the first with a marker in its name. -/
def guideEntries : List GitTreeEntry := [fileEntry 'a' "my token guide.md", fileEntry 'b' "z.md"]

theorem fileEntry_legal {c : Char} {path : String} (hc : isHex c = true) (hpath : path.toList ≠ [])
    (hnul : (0 : UInt8) ∉ (encodeUtf8 path.toList).data.toList)
    (hnames : ¬[47, 47] <:+: (encodeUtf8 path.toList).data.toList) :
    (fileEntry c path).entry.Legal where
  mode := ⟨List.cons_ne_nil _ _,
    @Lib.Scan.forall_mem _ _ _ ['1', '0', '0', '6', '4', '4'] (by decide)⟩
  oid := ⟨by rw [show (fileEntry c path).entry.oid = List.replicate 40 c from rfl]; simp,
    by rw [show (fileEntry c path).entry.oid = List.replicate 40 c from rfl]; simp,
    fun d hd => by rwa [List.eq_of_mem_replicate hd]⟩
  bytes size h := by
    obtain rfl := Option.some.inj h
    exact ⟨by decide, Lib.Scan.forall_mem (by decide)⟩
  path h := hpath (encodeUtf8_inj h)
  noNul := hnul
  names := hnames

end sample

end Ceo.Workspace.Git
