import Mathlib.Data.List.DropRight
import Ceo.Jobs.Contract
import Ceo.Lib.Scan

/-!
# Resource directories

The names of the directories under `resources/` (`resource/naming.ts`), and the
rename of a resource (`applyResourceRename` of `resource/service.ts`).
-/

namespace Ceo.Resource.Naming

open Ceo.Lib
open Ceo.Jobs (isJsSpace)

abbrev Text := List Char

/-- What the tables of Unicode give: of all they do with a text only the place of an underscore at
its front matters here, which nothing composes with and no case changes. -/
structure Unicode where
  nfc : Text → Text
  upper : Text → Text
  lower : Text → Text
  nfc_underscore : ∀ t, (nfc ('_' :: t)).head? = some '_'
  upper_underscore : ∀ t, (upper ('_' :: t)).head? = some '_'

def maxDirectoryBytes : Nat := 180
def maxDisplayNameChars : Nat := 160

/-! ### texts -/

def byteLength (t : Text) : Nat := (t.map Char.utf8Size).sum

def trim (t : Text) : Text := (t.dropWhile isJsSpace).rdropWhile isJsSpace

/-- `replace(/p+/g, " ")` -/
def replaceRuns (p : Char → Bool) : (inRun : Bool) → Text → Text
  | _, [] => []
  | inRun, c :: cs =>
    if p c then
      if inRun then replaceRuns p true cs else ' ' :: replaceRuns p true cs
    else c :: replaceRuns p false cs

/-! ### display names -/

def providers : List Text :=
  ["bilibili".toList, "youtube".toList, "web".toList, "pdf".toList, "resource".toList]

/-- `replace(/^(?:bilibili|youtube|web|pdf|resource)\s*[-:—]\s*/i, "")` -/
def stripProvider (t : Text) : Text :=
  match providers.find? fun w =>
    Pattern.matchChars (w.map Pattern.anyCase) (t.take w.length) with
  | none => t
  | some w =>
    match (t.drop w.length).dropWhile isJsSpace with
    | [] => t
    | c :: cs => if c == '-' || c == ':' || c == '—' then cs.dropWhile isJsSpace else t

def cleanDisplayName (candidate : Text) : Text :=
  let cleaned := stripProvider (trim candidate)
  let cleaned := trim (replaceRuns isJsSpace false cleaned)
  if cleaned.length > maxDisplayNameChars then trim (cleaned.take maxDisplayNameChars) else cleaned

/-! ### directory names -/

def untitled : Text := "Untitled Resource".toList

/-- Path separators, forbidden and control characters. -/
def isForbidden (c : Char) : Bool :=
  "/\\:*?\"<>|".toList.contains c || c.toNat ≤ 0x1f || c.toNat == 0x7f

def isDotOrSpace (c : Char) : Bool := c == '.' || isJsSpace c

/-- The name before it is cut to its bytes. -/
def sanitized (u : Unicode) (displayName : Text) : Text :=
  let normalized := trim (u.nfc displayName)
  let normalized := replaceRuns isForbidden false normalized
  let normalized := trim (replaceRuns isJsSpace false normalized)
  (normalized.dropWhile isDotOrSpace).rdropWhile isDotOrSpace

/-- The code points that fit. -/
def boundedBy (maxBytes : Nat) : (bounded : Text) → Text → Text
  | bounded, [] => bounded
  | bounded, codePoint :: rest =>
    if byteLength (bounded ++ [codePoint]) > maxBytes then bounded
    else boundedBy maxBytes (bounded ++ [codePoint]) rest

def toSafeDirectoryName (u : Unicode) (displayName : Text) (maxBytes : Nat) : Text :=
  if displayName = [] ∨ trim displayName = [] then untitled
  else
    let normalized := sanitized u displayName
    if normalized = [] ∨ normalized = ['.'] ∨ normalized = ['.', '.'] then untitled
    else
      let bounded := (trim (boundedBy maxBytes [] normalized)).rdropWhile isDotOrSpace
      if bounded = [] then untitled else bounded

def superscriptDigit (c : Char) : Char :=
  if c = '¹' then '1' else if c = '²' then '2' else if c = '³' then '3' else c

def windowsReservedStems : List Text :=
  ["CON".toList, "PRN".toList, "AUX".toList, "NUL".toList] ++
    ("123456789".toList.map fun d => "COM".toList ++ [d]) ++
    ("123456789".toList.map fun d => "LPT".toList ++ [d])

def isWindowsReservedName (u : Unicode) (name : Text) : Bool :=
  let stem := name.takeWhile (· != '.')
  windowsReservedStems.contains (u.upper ((u.nfc stem).map superscriptDigit))

def directoryComparisonKey (u : Unicode) (name : Text) : Text := u.lower (u.nfc name)

def buildDirectoryCandidate (u : Unicode) (displayName suffix : Text) (maxBytes : Nat) : Text :=
  let baseMax := maxBytes - byteLength suffix
  let candidate := toSafeDirectoryName u displayName baseMax ++ suffix
  if !isWindowsReservedName u candidate then candidate
  else if baseMax ≤ 1 then candidate
  else '_' :: toSafeDirectoryName u displayName (baseMax - 1) ++ suffix

/-! ### allocation -/

inductive NamingError where
  /-- `INTERNAL_ERROR`: the directory cannot be listed. -/
  | unreadable (resourcesRoot cause : Text)
  /-- `RESOURCE_NAME_CONFLICT` -/
  | conflict (candidate currentDirectory conflictingEntry comparisonKey : Text)
  /-- The `Error` after the last collision suffix. -/
  | exceeded (baseCandidate : Text)
  /-- `VALIDATION_FAILED` -/
  | emptyDisplayName
  /-- `fs.rename` fails. -/
  | renameFailed
  deriving DecidableEq, Repr

def NamingError.message : NamingError → Text
  | .unreadable root _ => "Cannot list resource directories under '".toList ++ root ++ "'.".toList
  | .conflict candidate current entry _ =>
    "Directory '".toList ++ candidate ++ "' collides by case/NFC-insensitive key with the ".toList ++
      "resource's current directory '".toList ++ current ++ "', which is also occupied by ".toList ++
      "another entry '".toList ++ entry ++ "'. Choose a different display name.".toList
  | .exceeded base =>
    "Exceeded maximum directory collision attempts for '".toList ++ base ++ "'.".toList
  | .emptyDisplayName => "display_name cannot be empty.".toList
  | .renameFailed => []

/-- What the allocation sees of `resources/`. -/
structure Listing where
  entries : List Text
  /-- `access` of the entry succeeds. -/
  reachable : Text → Bool

section allocation

variable (u : Unicode) (l : Listing) (current : Option Text)

/-- The entries that occupy a key, but for the resource's own directory. -/
def occupants (key : Text) : List Text :=
  l.entries.filter fun entry =>
    !(current == some entry) && directoryComparisonKey u entry == key

def isOccupied (candidateName : Text) : Bool :=
  !(occupants u l current (directoryComparisonKey u candidateName)).isEmpty

def resolveOwnKeyMatch (candidateName : Text) : Except NamingError (Option Text) :=
  match current with
  | none => .ok none
  | some currentDirName =>
    let currentKey := directoryComparisonKey u currentDirName
    if directoryComparisonKey u candidateName ≠ currentKey then .ok none
    else
      match occupants u l current currentKey with
      | entry :: _ => .error (.conflict candidateName currentDirName entry currentKey)
      | [] => .ok (some currentDirName)

def exists_ (candidateName : Text) : Bool :=
  isOccupied u l current candidateName || l.reachable candidateName

/-- The own directory, or the candidate, or neither. -/
def settle (candidateName : Text) : Except NamingError (Option Text) := do
  match ← resolveOwnKeyMatch u l current candidateName with
  | some own => return some own
  | none => return if exists_ u l current candidateName then none else some candidateName

def candidate (displayName : Text) (counter : Nat) : Text :=
  buildDirectoryCandidate u displayName
    (if counter = 1 then [] else '-' :: (toString counter).toList) maxDirectoryBytes

/-- The last `left` suffixes below 10000. -/
def probe (displayName : Text) : (left : Nat) → Except NamingError Text
  | 0 => .error (.exceeded (candidate u displayName 1))
  | left + 1 => do
    match ← settle u l current (candidate u displayName (10000 - (left + 1))) with
    | some name => return name
    | none => probe displayName left

end allocation

/-- The name without a suffix counts as the first. -/
def allocateUniqueDirectoryName (u : Unicode) (resourcesRoot : Text) (listing : Except Text Listing)
    (baseDisplayName : Text) (currentDirName : Option Text) : Except NamingError Text :=
  match listing with
  | .error cause => .error (.unreadable resourcesRoot cause)
  -- the empty name is no name
  | .ok l => probe u l (currentDirName.filter (!·.isEmpty)) baseDisplayName 9999

/-! ### the rename of a resource -/

/-- `resources/`: access is to what is there, and what is there has a name. -/
structure Directory extends Listing where
  reachable_mem : ∀ name, reachable name = true → name ∈ entries
  entries_ne : [] ∉ entries

inductive NamingSource where
  | explicit | id
  deriving DecidableEq, Repr

/-- The directories, and the resource that is renamed. -/
structure RenameState where
  directory : Directory
  directoryName : Text
  relativePath : Text
  displayName : Text
  namingSource : NamingSource

structure RenameOutcome where
  renamed : Bool
  oldPath : Text
  newPath : Text
  deriving DecidableEq, Repr

def relativePathOf (directoryName : Text) : Text := "resources/".toList ++ directoryName

/-- `fs.rename` of an entry. -/
def Directory.move (d : Directory) (old new : Text) (hnew : new ≠ []) : Directory where
  entries := d.entries.filter (fun e => e != old && e != new) ++ [new]
  reachable name := if name = new then d.reachable old else name != old && d.reachable name
  reachable_mem name h := by
    by_cases hn : name = new
    · simp [hn]
    · rw [if_neg hn, Bool.and_eq_true] at h
      have := d.reachable_mem name h.2
      have ho : name ≠ old := by simpa using h.1
      simp [hn, ho, this]
  entries_ne h := by
    rcases List.mem_append.1 h with h | h
    · exact d.entries_ne (List.mem_of_mem_filter h)
    · exact hnew (List.mem_singleton.1 h).symm

def applyResourceRename (u : Unicode) (resourcesRoot : Text) (s : RenameState)
    (newDisplayName : Text) (namingSource : NamingSource) :
    Except NamingError (RenameOutcome × RenameState) := do
  let trimmed := cleanDisplayName newDisplayName
  if trimmed = [] then throw .emptyDisplayName
  let allocatedDir ← allocateUniqueDirectoryName u resourcesRoot (.ok s.directory.toListing) trimmed
    (some s.directoryName)
  let newRelative := relativePathOf allocatedDir
  let named := { s with displayName := trimmed, namingSource := namingSource }
  if allocatedDir = s.directoryName then
    return (⟨false, s.relativePath, newRelative⟩, named)
  else if h : allocatedDir ≠ [] ∧ s.directoryName ∈ s.directory.entries then
    return (⟨true, s.relativePath, newRelative⟩,
      { named with
        directory := s.directory.move s.directoryName allocatedDir h.1
        directoryName := allocatedDir
        relativePath := newRelative })
  else throw .renameFailed

/-! ### what a name is like -/

theorem byteLength_append (s t : Text) : byteLength (s ++ t) = byteLength s + byteLength t := by
  simp [byteLength]

theorem byteLength_le_of_ascii {t : Text} (h : ∀ c ∈ t, c.utf8Size = 1) :
    byteLength t = t.length := by
  induction t with
  | nil => rfl
  | cons c cs ih =>
    rw [List.forall_mem_cons] at h
    have := ih h.2
    simp only [byteLength, List.map_cons, List.sum_cons, List.length_cons, h.1] at this ⊢
    omega

theorem mem_replaceRuns {p : Char → Bool} {inRun : Bool} {t : Text} {c : Char}
    (h : c ∈ replaceRuns p inRun t) : c = ' ' ∨ c ∈ t ∧ p c = false := by
  induction t generalizing inRun with
  | nil => cases h
  | cons d ds ih =>
    unfold replaceRuns at h
    have later {b : Bool} (h : c ∈ replaceRuns p b ds) : c = ' ' ∨ c ∈ d :: ds ∧ p c = false :=
      (ih h).imp_right (And.imp_left (List.mem_cons_of_mem d))
    split at h
    · split at h
      · exact later h
      · rcases List.mem_cons.1 h with rfl | h
        · exact .inl rfl
        · exact later h
    · rename_i hd
      rcases List.mem_cons.1 h with rfl | h
      · exact .inr ⟨List.mem_cons_self, by simpa using hd⟩
      · exact later h

/-- A list that does not start with what is dropped. -/
theorem head_rdropWhile {p : Char → Bool} {q : Char → Bool} {t : Text}
    (h : ∀ c, t.head? = some c → q c = false) :
    ∀ c, (t.rdropWhile p).head? = some c → q c = false := by
  intro c hc
  obtain ⟨rest, hrest⟩ := List.rdropWhile_prefix p t
  refine h c ?_
  rw [← hrest, List.head?_append, hc]
  rfl

theorem head_dropWhile {p : Char → Bool} {t : Text} :
    ∀ c, (t.dropWhile p).head? = some c → p c = false := by
  intro c hc
  have := List.head?_dropWhile_not p t
  rw [hc] at this
  simpa using this

theorem last_rdropWhile {p : Char → Bool} {t : Text} :
    ∀ c, (t.rdropWhile p).getLast? = some c → p c = false := by
  intro c hc
  have hne : t.rdropWhile p ≠ [] := by
    intro h
    rw [h] at hc
    cases hc
  have := List.rdropWhile_last_not p t hne
  rw [List.getLast?_eq_some_getLast hne] at hc
  obtain rfl := Option.some.inj hc
  simpa using this

section

variable (u : Unicode) (displayName : Text)

theorem sanitized_chars : ∀ c ∈ sanitized u displayName, isForbidden c = false := by
  intro c hc
  have inner {q : Char → Bool} {t : Text} (h : c ∈ (t.dropWhile q).rdropWhile q) : c ∈ t :=
    (List.dropWhile_suffix q).subset ((List.rdropWhile_prefix q _).subset h)
  have space : isForbidden ' ' = false := by decide
  rcases mem_replaceRuns (inner (inner hc)) with rfl | ⟨h, -⟩
  · exact space
  · rcases mem_replaceRuns h with rfl | ⟨-, h⟩
    · exact space
    · exact h

theorem sanitized_first : ∀ c, (sanitized u displayName).head? = some c → isDotOrSpace c = false :=
  head_rdropWhile head_dropWhile

theorem boundedBy_spec (maxBytes : Nat) (bounded rest : Text) (h : byteLength bounded ≤ maxBytes) :
    boundedBy maxBytes bounded rest <+: bounded ++ rest ∧
      byteLength (boundedBy maxBytes bounded rest) ≤ maxBytes := by
  induction rest generalizing bounded with
  | nil => exact ⟨by simp [boundedBy], h⟩
  | cons c cs ih =>
    unfold boundedBy
    split
    · exact ⟨List.prefix_append _ _, h⟩
    · rename_i hfit
      have := ih (bounded ++ [c]) (by omega)
      rwa [List.append_assoc] at this

/-- A name that is safe but for the reserved ones, within so many bytes. -/
structure Plain (maxBytes : Nat) (name : Text) : Prop where
  nonempty : name ≠ []
  bytes : byteLength name ≤ maxBytes
  chars : ∀ c ∈ name, isForbidden c = false
  first : ∀ c, name.head? = some c → isDotOrSpace c = false
  last : ∀ c, name.getLast? = some c → isDotOrSpace c = false

theorem plain_untitled {maxBytes : Nat} (h : 17 ≤ maxBytes) : Plain maxBytes untitled where
  nonempty := by decide
  bytes := le_trans (by decide) h
  chars := Scan.forall_mem (by decide)
  first c hc := by
    obtain rfl : 'U' = c := Option.some.inj hc
    decide
  last c hc := by
    obtain rfl : 'e' = c := Option.some.inj hc
    decide

/-- The base of a name is made of whole code points of the display name, or stands for one. -/
theorem toSafeDirectoryName_spec (maxBytes : Nat) (h : 17 ≤ maxBytes) :
    Plain maxBytes (toSafeDirectoryName u displayName maxBytes) ∧
      (toSafeDirectoryName u displayName maxBytes = untitled ∨
        toSafeDirectoryName u displayName maxBytes <+: sanitized u displayName) := by
  unfold toSafeDirectoryName
  split
  · exact ⟨plain_untitled h, .inl rfl⟩
  · dsimp only
    split
    · exact ⟨plain_untitled h, .inl rfl⟩
    · split
      · exact ⟨plain_untitled h, .inl rfl⟩
      · rename_i hne
        obtain ⟨hpre, hbytes⟩ := boundedBy_spec maxBytes [] (sanitized u displayName) (Nat.zero_le _)
        rw [List.nil_append] at hpre
        set bounded := boundedBy maxBytes [] (sanitized u displayName) with hb
        have whole : (trim bounded).rdropWhile isDotOrSpace <+: bounded := by
          have start : bounded.dropWhile isJsSpace = bounded := by
            cases hbounded : bounded with
            | nil => rfl
            | cons c cs =>
              refine List.dropWhile_cons_of_neg fun hc => ?_
              obtain ⟨rest, hrest⟩ := hpre
              have := sanitized_first u displayName c (by rw [← hrest, hbounded]; rfl)
              rw [isDotOrSpace, Bool.or_eq_false_iff] at this
              rw [hc] at this
              cases this.2
          unfold trim
          rw [start]
          exact (List.rdropWhile_prefix _ _).trans (List.rdropWhile_prefix _ _)
        have whole' := whole.trans hpre
        refine ⟨⟨hne, ?_, fun c hc => sanitized_chars u displayName c (whole'.subset hc), ?_,
          last_rdropWhile⟩, .inr whole'⟩
        · obtain ⟨rest, hrest⟩ := whole
          have := byteLength_append ((trim bounded).rdropWhile isDotOrSpace) rest
          rw [hrest] at this
          omega
        · intro c hc
          obtain ⟨rest, hrest⟩ := whole'
          refine sanitized_first u displayName c ?_
          rw [← hrest, List.head?_append, hc]
          rfl

/-- A collision suffix, or none. -/
def Suffix (t : Text) : Prop := t = [] ∨ ∃ digits, t = '-' :: digits ∧ digits ≠ [] ∧
  ∀ c ∈ digits, c.isDigit = true

theorem digit_facts {c : Char} (h : c.isDigit = true) :
    c.utf8Size = 1 ∧ isForbidden c = false ∧ isDotOrSpace c = false := by
  have hlt : c.toNat < 128 := by
    simp only [Char.isDigit, Bool.and_eq_true, decide_eq_true_eq] at h
    exact lt_of_le_of_lt (UInt32.le_iff_toNat_le.1 h.2) (by decide)
  have all : (List.range 128).all (fun n => !(Char.ofNat n).isDigit ||
      (!isForbidden (Char.ofNat n) && !isDotOrSpace (Char.ofNat n))) = true := by decide
  have := List.all_eq_true.1 all c.toNat (List.mem_range.2 hlt)
  rw [Char.ofNat_toNat, h] at this
  refine ⟨?_, by simpa using this⟩
  rw [Char.utf8Size_eq_one_iff, UInt32.le_iff_toNat_le]
  exact Nat.le_of_lt_succ hlt

/-- What a directory gets for a name. -/
structure Safe (name : Text) : Prop where
  plain : Plain maxDirectoryBytes name
  notReserved : isWindowsReservedName u name = false
  /-- No code point is cut. -/
  whole : ∃ mark base suffix, name = mark ++ base ++ suffix ∧ (mark = [] ∨ mark = ['_']) ∧
    (base = untitled ∨ base <+: sanitized u displayName) ∧ Suffix suffix

theorem Suffix.facts {suffix : Text} (h : Suffix suffix) : byteLength suffix = suffix.length ∧
    (∀ c ∈ suffix, isForbidden c = false) ∧
    ∀ c, suffix.getLast? = some c → isDotOrSpace c = false := by
  rcases h with rfl | ⟨digits, rfl, hne, hd⟩
  · exact ⟨rfl, fun c h => (by cases h), fun c h => (by cases h)⟩
  · refine ⟨byteLength_le_of_ascii (List.forall_mem_cons.2 ⟨by decide, fun c hc =>
      (digit_facts (hd c hc)).1⟩), List.forall_mem_cons.2 ⟨by decide, fun c hc =>
      (digit_facts (hd c hc)).2.1⟩, fun c hc => ?_⟩
    rw [List.getLast?_cons, List.getLast?_eq_some_getLast hne] at hc
    obtain rfl := Option.some.inj hc
    exact (digit_facts (hd _ (List.getLast_mem hne))).2.2

/-- A mark in front and a suffix behind do not spoil a plain name. -/
theorem Plain.extend {base suffix : Text} {maxBytes : Nat} (h : Plain maxBytes base) (mark : Text)
    (hm : mark = [] ∨ mark = ['_']) (hs : Suffix suffix) :
    Plain (mark.length + maxBytes + suffix.length) (mark ++ base ++ suffix) := by
  obtain ⟨sbytes, schars, slast⟩ := hs.facts
  have hmark : byteLength mark = mark.length ∧ (∀ c ∈ mark, isForbidden c = false) ∧
      ∀ c, mark.head? = some c → isDotOrSpace c = false := by
    rcases hm with rfl | rfl
    · exact ⟨rfl, fun c h => (by cases h), fun c h => (by cases h)⟩
    · refine ⟨rfl, fun c h => ?_, fun c h => ?_⟩
      · rw [List.mem_singleton.1 h]
        decide
      · obtain rfl : '_' = c := Option.some.inj h
        decide
  refine ⟨by simp [h.nonempty], ?_, fun c hc => ?_, fun c hc => ?_, fun c hc => ?_⟩
  · have := h.bytes
    rw [byteLength_append, byteLength_append, hmark.1, sbytes]
    omega
  · rcases List.mem_append.1 hc with hc | hc
    · rcases List.mem_append.1 hc with hc | hc
      · exact hmark.2.1 c hc
      · exact h.chars c hc
    · exact schars c hc
  · rw [List.append_assoc, List.head?_append] at hc
    cases hmh : mark.head? with
    | some d =>
      rw [hmh] at hc
      exact hmark.2.2 c (hmh.trans hc)
    | none =>
      rw [hmh, Option.none_or, List.head?_append] at hc
      cases hbh : base.head? with
      | some d =>
        rw [hbh] at hc
        exact h.first c (hbh.trans hc)
      | none => exact absurd (List.head?_eq_none_iff.1 hbh) h.nonempty
  · rw [List.getLast?_append] at hc
    cases hsl : suffix.getLast? with
    | some d =>
      rw [hsl] at hc
      exact slast c (hsl.trans hc)
    | none =>
      rw [hsl, Option.none_or, List.getLast?_append] at hc
      cases hbl : base.getLast? with
      | some d =>
        rw [hbl] at hc
        exact h.last c (hbl.trans hc)
      | none => exact absurd (List.getLast?_eq_none_iff.1 hbl) h.nonempty

/-- An underscore in front makes a name that is not reserved. -/
theorem not_reserved_underscore (t : Text) : isWindowsReservedName u ('_' :: t) = false := by
  have stem : ('_' :: t).takeWhile (· != '.') = '_' :: t.takeWhile (· != '.') :=
    List.takeWhile_cons_of_pos (by decide)
  obtain ⟨n, hn⟩ := List.head?_eq_some_iff.1 (u.nfc_underscore (t.takeWhile (· != '.')))
  obtain ⟨m, hm⟩ := List.head?_eq_some_iff.1 (u.upper_underscore (n.map superscriptDigit))
  have heads : windowsReservedStems.all (fun s => s.head? != some '_') = true := by decide
  unfold isWindowsReservedName
  dsimp only
  rw [stem, hn, List.map_cons, show superscriptDigit '_' = '_' from rfl, hm, ← Bool.not_eq_true,
    List.contains_iff_mem]
  intro h
  simpa using List.all_eq_true.1 heads _ h

theorem buildDirectoryCandidate_safe {suffix : Text} (hs : Suffix suffix) (short : suffix.length ≤ 5) :
    Safe u displayName (buildDirectoryCandidate u displayName suffix maxDirectoryBytes) := by
  have bytes := hs.facts.1
  unfold buildDirectoryCandidate maxDirectoryBytes
  dsimp only
  split
  · rename_i free
    obtain ⟨plain, base⟩ := toSafeDirectoryName_spec u displayName
      (180 - byteLength suffix) (by omega)
    refine ⟨?_, by simpa using free, [], _, suffix, rfl, .inl rfl, base, hs⟩
    have := plain.extend [] (.inl rfl) hs
    rwa [show [].length + (180 - byteLength suffix) + suffix.length = maxDirectoryBytes by
      rw [bytes]; simp [maxDirectoryBytes]; omega] at this
  · rw [if_neg (by omega)]
    obtain ⟨plain, base⟩ := toSafeDirectoryName_spec u displayName
      (180 - byteLength suffix - 1) (by omega)
    refine ⟨?_, not_reserved_underscore u _, ['_'], _, suffix, rfl, .inr rfl, base, hs⟩
    have := plain.extend ['_'] (.inr rfl) hs
    rwa [show ['_'].length + (180 - byteLength suffix - 1) + suffix.length = maxDirectoryBytes by
      rw [bytes]; simp [maxDirectoryBytes]; omega] at this

theorem candidate_safe {counter : Nat} (h : counter < 10000) :
    Safe u displayName (candidate u displayName counter) := by
  unfold candidate
  split
  · exact buildDirectoryCandidate_safe u displayName (.inl rfl) (by decide)
  · refine buildDirectoryCandidate_safe u displayName (.inr ⟨_, rfl, ?_, fun c hc => ?_⟩) ?_
    · rw [show toString counter = counter.repr from rfl, Nat.toList_repr]
      exact Nat.toDigits_ne_nil
    · rw [show toString counter = counter.repr from rfl, Nat.toList_repr] at hc
      exact Nat.isDigit_of_mem_toDigits (by decide) (by decide) hc
    · rw [show toString counter = counter.repr from rfl, Nat.toList_repr, List.length_cons]
      have := (Nat.length_toDigits_le_iff (b := 10) (k := 4) (by decide) (by decide)).2 h
      omega

end

/-! ### what the allocation returns -/

section

variable {u : Unicode} {l : Listing} {current : Option Text} {displayName name : Text}

/-- The name can be given: no other entry has its key. -/
def Unique (u : Unicode) (l : Listing) (current : Option Text) (name : Text) : Prop :=
  ∀ entry ∈ l.entries, current ≠ some entry →
    directoryComparisonKey u entry ≠ directoryComparisonKey u name

theorem occupants_eq_nil {key : Text} : occupants u l current key = [] ↔
    ∀ entry ∈ l.entries, current ≠ some entry → directoryComparisonKey u entry ≠ key := by
  unfold occupants
  rw [List.filter_eq_nil_iff]
  refine forall₂_congr fun entry _ => ?_
  simp

theorem isOccupied_eq_false : isOccupied u l current name = false ↔ Unique u l current name := by
  rw [isOccupied, Bool.not_eq_false', List.isEmpty_iff, occupants_eq_nil]
  rfl

/-- What a look at one candidate can say. -/
theorem settle_ok {candidateName : Text} {o : Option Text}
    (h : settle u l current candidateName = .ok o) :
    (∃ own, current = some own ∧ o = some own ∧ Unique u l current own ∧
      directoryComparisonKey u own = directoryComparisonKey u candidateName) ∨
    (∀ own, current = some own →
      directoryComparisonKey u candidateName ≠ directoryComparisonKey u own) ∧
      (o = some candidateName ∧ exists_ u l current candidateName = false ∨
        o = none ∧ exists_ u l current candidateName = true) := by
  have free (h : (.ok (if exists_ u l current candidateName then none else some candidateName) :
      Except NamingError (Option Text)) = .ok o) :
      o = some candidateName ∧ exists_ u l current candidateName = false ∨
        o = none ∧ exists_ u l current candidateName = true := by
    cases he : exists_ u l current candidateName with
    | true =>
      rw [he] at h
      exact .inr ⟨(Except.ok.inj h).symm, rfl⟩
    | false =>
      rw [he] at h
      exact .inl ⟨(Except.ok.inj h).symm, rfl⟩
  unfold settle resolveOwnKeyMatch at h
  cases current with
  | none => exact .inr ⟨fun _ h => (by cases h), free h⟩
  | some own =>
    by_cases key : directoryComparisonKey u candidateName ≠ directoryComparisonKey u own
    · simp only [if_pos key] at h
      refine .inr ⟨?_, free h⟩
      rintro _ ⟨⟩
      exact key
    · simp only [if_neg key] at h
      push Not at key
      cases hocc : occupants u l (some own) (directoryComparisonKey u own) with
      | nil =>
        simp only [hocc] at h
        exact .inl ⟨own, rfl, (Except.ok.inj h).symm, occupants_eq_nil.1 hocc, key.symm⟩
      | cons entry rest =>
        simp only [hocc] at h
        cases h

theorem unique_of_settle {candidateName : Text} (h : settle u l current candidateName = .ok (some name)) :
    Unique u l current name ∧ (name = candidateName ∨ current = some name) ∧
      directoryComparisonKey u name = directoryComparisonKey u candidateName := by
  rcases settle_ok h with ⟨own, hcur, ho, huniq, hkey⟩ | ⟨-, ⟨ho, hfree⟩ | ⟨ho, -⟩⟩
  · obtain rfl := Option.some.inj ho
    exact ⟨huniq, .inr hcur, hkey⟩
  · obtain rfl := Option.some.inj ho
    rw [exists_, Bool.or_eq_false_iff] at hfree
    exact ⟨isOccupied_eq_false.1 hfree.1, .inl rfl, rfl⟩
  · cases ho

/-- Where the probe stops: at the first candidate that settles. -/
theorem probe_ok {left : Nat} (h : probe u l current displayName left = .ok name) :
    ∃ k < left, settle u l current (candidate u displayName (10000 - (k + 1))) = .ok (some name) ∧
      ∀ i, k < i → i < left →
        settle u l current (candidate u displayName (10000 - (i + 1))) = .ok none := by
  induction left with
  | zero => cases h
  | succ left ih =>
    rw [probe] at h
    cases hs : settle u l current (candidate u displayName (10000 - (left + 1))) with
    | error e =>
      rw [hs] at h
      cases h
    | ok o =>
      rw [hs] at h
      cases o with
      | some own =>
        obtain rfl : own = name := Except.ok.inj h
        exact ⟨left, Nat.lt_succ_self left, hs, fun i hi hi' => (by omega)⟩
      | none =>
        obtain ⟨k, hk, hsettle, hbefore⟩ := ih h
        refine ⟨k, by omega, hsettle, fun i hi hi' => ?_⟩
        rcases Nat.lt_succ_iff_lt_or_eq.1 hi' with hlt | rfl
        · exact hbefore i hi hlt
        · exact hs

theorem probe_eq {left k : Nat} (hk : k < left)
    (settled : settle u l current (candidate u displayName (10000 - (k + 1))) = .ok (some name))
    (before : ∀ i, k < i → i < left →
      settle u l current (candidate u displayName (10000 - (i + 1))) = .ok none) :
    probe u l current displayName left = .ok name := by
  induction left with
  | zero => cases hk
  | succ left ih =>
    rw [probe]
    rcases Nat.lt_succ_iff_lt_or_eq.1 hk with hlt | rfl
    · rw [before left hlt (Nat.lt_succ_self left)]
      exact ih hlt fun i hi hi' => before i hi (by omega)
    · rw [settled]
      rfl

theorem settle_own {own candidateName : Text} (huniq : Unique u l (some own) own)
    (hkey : directoryComparisonKey u candidateName = directoryComparisonKey u own) :
    settle u l (some own) candidateName = .ok (some own) := by
  have empty := occupants_eq_nil.2 huniq
  simp only [settle, resolveOwnKeyMatch, hkey, ne_eq, not_true_eq_false, if_false, empty]
  rfl

theorem settle_taken {own candidateName entry : Text} (hentry : entry ∈ l.entries)
    (hne : entry ≠ own) (hkey : directoryComparisonKey u entry = directoryComparisonKey u candidateName)
    (hown : directoryComparisonKey u candidateName ≠ directoryComparisonKey u own) :
    settle u l (some own) candidateName = .ok none := by
  have occupied : isOccupied u l (some own) candidateName = true := by
    rw [← Bool.not_eq_false, isOccupied_eq_false]
    intro huniq
    exact huniq entry hentry (fun h => hne (Option.some.inj h).symm) hkey
  simp only [settle, resolveOwnKeyMatch, if_pos hown, exists_, occupied, Bool.true_or, if_true]
  rfl

/-- Once the directory has moved, the same candidates are looked at, and the last of them is now the
resource's own. -/
theorem probe_moved {d : Directory} {own : Text} (hname : name ≠ []) (hne : name ≠ own) {left : Nat}
    (h : probe u d.toListing (some own) displayName left = .ok name) :
    probe u (d.move own name hname).toListing (some name) displayName left = .ok name := by
  obtain ⟨k, hk, hsettle, before⟩ := probe_ok h
  obtain ⟨huniq, hcand, hkey⟩ := unique_of_settle hsettle
  have kept {entry : Text} (he : entry ∈ (d.move own name hname).entries) (hen : entry ≠ name) :
      entry ∈ d.entries ∧ entry ≠ own := by
    rcases List.mem_append.1 he with he | he
    · obtain ⟨hm, hb⟩ := List.mem_filter.1 he
      rw [Bool.and_eq_true, bne_iff_ne] at hb
      exact ⟨hm, hb.1⟩
    · exact absurd (List.mem_singleton.1 he) hen
  refine probe_eq hk (settle_own ?_ hkey.symm) fun i hi hi' => ?_
  · intro entry he hcur
    obtain ⟨hm, ho⟩ := kept he fun h => hcur (by rw [h])
    exact huniq entry hm fun h => ho (Option.some.inj h).symm
  · rcases settle_ok (before i hi hi') with ⟨own', -, ho, -⟩ | ⟨hown, ⟨ho, -⟩ | ⟨-, hexists⟩⟩
    · cases ho
    · cases ho
    · have hown := hown own rfl
      obtain ⟨entry, hm, heo, hek⟩ : ∃ entry ∈ d.entries, entry ≠ own ∧
          directoryComparisonKey u entry =
            directoryComparisonKey u (candidate u displayName (10000 - (i + 1))) := by
        cases hocc : isOccupied u d.toListing (some own) (candidate u displayName (10000 - (i + 1))) with
        | true =>
          by_contra hno
          push Not at hno
          have := isOccupied_eq_false.2 fun entry hm hcur => hno entry hm fun h => hcur (by rw [h])
          rw [this] at hocc
          cases hocc
        | false =>
          rw [exists_, hocc, Bool.false_or] at hexists
          exact ⟨_, d.reachable_mem _ hexists, fun h => hown (by rw [h]), rfl⟩
      have hkn : directoryComparisonKey u entry ≠ directoryComparisonKey u name :=
        huniq entry hm fun h => heo (Option.some.inj h).symm
      refine settle_taken (?_ : entry ∈ _) (fun h => hkn (by rw [h])) hek (hek ▸ hkn)
      have hen : entry ≠ name := fun h => hkn (by rw [h])
      exact List.mem_append_left _ (List.mem_filter.2 ⟨hm, by simp [heo, hen]⟩)

/-- What a rename is: nothing is moved, or the directory is moved to the allocated name. -/
theorem applyResourceRename_ok {root : Text} {s s' : RenameState} {source : NamingSource}
    {outcome : RenameOutcome}
    (h : applyResourceRename u root s displayName source = .ok (outcome, s')) :
    cleanDisplayName displayName ≠ [] ∧
      ∃ allocated, allocateUniqueDirectoryName u root (.ok s.directory.toListing)
          (cleanDisplayName displayName) (some s.directoryName) = .ok allocated ∧
        (allocated = s.directoryName ∧ s' = { s with
          displayName := cleanDisplayName displayName, namingSource := source } ∨
        allocated ≠ s.directoryName ∧ s.directoryName ∈ s.directory.entries ∧
          ∃ hne : allocated ≠ [], s' = { s with
            displayName := cleanDisplayName displayName, namingSource := source
            directory := s.directory.move s.directoryName allocated hne
            directoryName := allocated, relativePath := relativePathOf allocated }) := by
  unfold applyResourceRename at h
  by_cases empty : cleanDisplayName displayName = []
  · simp only [empty, if_true] at h
    cases h
  · simp only [if_neg empty] at h
    refine ⟨empty, ?_⟩
    cases ha : allocateUniqueDirectoryName u root (.ok s.directory.toListing)
      (cleanDisplayName displayName) (some s.directoryName) with
    | error e =>
      rw [ha] at h
      cases h
    | ok allocated =>
      refine ⟨allocated, rfl, ?_⟩
      rw [ha] at h
      change (if allocated = s.directoryName then _ else _) = _ at h
      by_cases same : allocated = s.directoryName
      · rw [if_pos same] at h
        cases h
        exact .inl ⟨same, rfl⟩
      · rw [if_neg same] at h
        split at h
        · rename_i ok
          cases h
          exact .inr ⟨same, ok.2, ok.1, rfl⟩
        · cases h

theorem applyResourceRename_same {root : Text} {s : RenameState} {source : NamingSource}
    (named : cleanDisplayName displayName ≠ [])
    (allocated : allocateUniqueDirectoryName u root (.ok s.directory.toListing)
      (cleanDisplayName displayName) (some s.directoryName) = .ok s.directoryName)
    (display : s.displayName = cleanDisplayName displayName) (source_eq : s.namingSource = source) :
    applyResourceRename u root s displayName source =
      .ok (⟨false, s.relativePath, relativePathOf s.directoryName⟩, s) := by
  unfold applyResourceRename
  simp only [if_neg named, allocated]
  change (if s.directoryName = s.directoryName then _ else _) = _
  rw [if_pos rfl, ← display, ← source_eq]
  rfl

/-- The allocation and the rename, for any name, siblings and current directory. -/
theorem directory_allocation (u : Unicode) :
    (∀ root l displayName current name,
      allocateUniqueDirectoryName u root (.ok l) displayName current = .ok name →
        Unique u l current name ∧ (Safe u displayName name ∨ current = some name ∧
          ∃ candidate, Safe u displayName candidate ∧
            directoryComparisonKey u name = directoryComparisonKey u candidate)) ∧
    ∀ root s displayName source outcome s',
      applyResourceRename u root s displayName source = .ok (outcome, s') →
        applyResourceRename u root s' displayName source =
          .ok (⟨false, s'.relativePath, relativePathOf s'.directoryName⟩, s') := by
  constructor
  · intro root l displayName current name h
    obtain ⟨k, hk, hsettle, -⟩ := probe_ok h
    obtain ⟨huniq, hcand, hkey⟩ := unique_of_settle hsettle
    have safe := candidate_safe u displayName (by omega : 10000 - (k + 1) < 10000)
    refine ⟨fun entry he hcur => huniq entry he fun hf => hcur ?_, ?_⟩
    · exact Option.filter_eq_some_iff.1 hf |>.1
    · rcases hcand with rfl | hcur
      · exact .inl safe
      · exact .inr ⟨Option.filter_eq_some_iff.1 hcur |>.1, _, safe, hkey⟩
  · intro root s displayName source outcome s' h
    obtain ⟨named, allocated, ha, ⟨rfl, rfl⟩ | ⟨hne, hmem, hempty, rfl⟩⟩ := applyResourceRename_ok h
    · exact applyResourceRename_same named ha rfl rfl
    · refine applyResourceRename_same named ?_ rfl rfl
      have filled {t : Text} (ht : t ≠ []) : (some t).filter (!·.isEmpty) = some t := by
        rw [Option.filter_some, if_pos (by simp [ht])]
      have own : s.directoryName ≠ [] := fun h0 => s.directory.entries_ne (h0 ▸ hmem)
      have ha : probe u s.directory.toListing (some s.directoryName) (cleanDisplayName displayName)
          9999 = .ok allocated := by rw [← filled own]; exact ha
      show probe u _ ((some allocated).filter _) _ 9999 = .ok allocated
      rw [filled hempty]
      exact probe_moved hempty hne ha

end

namespace Sample

/-- Of the compositions only that of a crossed less-than sign. -/
def unicode : Unicode where
  nfc t := if t = ['<', Char.ofNat 0x338] then ['≮'] else t
  upper := List.map Char.toUpper
  lower := List.map Char.toLower
  nfc_underscore t := by rw [if_neg (by simp)]; rfl
  upper_underscore t := by simp

def siblings : Listing := ⟨["Report".toList], fun _ => false⟩

end Sample

theorem directory_allocation_sample :
    Unique Sample.unicode Sample.siblings none "report-2".toList ∧
      (Safe Sample.unicode "report".toList "report-2".toList ∨ none = some "report-2".toList ∧
        ∃ candidate, Safe Sample.unicode "report".toList candidate ∧
          directoryComparisonKey Sample.unicode "report-2".toList =
            directoryComparisonKey Sample.unicode candidate) :=
  (directory_allocation Sample.unicode).1 "/resources".toList Sample.siblings _ none _ (by decide)

/-- A directory that was made otherwise keeps its name, though a `<` is in it. -/
theorem own_directory_kept :
    ∃ name, '<' ∈ name ∧ isForbidden '<' = true ∧
      allocateUniqueDirectoryName Sample.unicode "/resources".toList
        (.ok ⟨[name], fun _ => false⟩) ['≮'] (some name) = .ok name :=
  ⟨['<', Char.ofNat 0x338], by decide, by decide, by decide⟩

end Ceo.Resource.Naming
