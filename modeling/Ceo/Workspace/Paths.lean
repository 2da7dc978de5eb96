import Mathlib.Data.List.Basic
import Mathlib.Data.List.DropRight
import Mathlib.Data.List.Infix
import Ceo.Workspace.Git

/-!
# Content paths and `.ceoignore`

`security.ts` decides which paths are content, `ignore.ts` which of these a
workspace hides. Both normalise a path first; a content path is its own normal
form.
-/

namespace Ceo.Workspace.Paths

open Ceo.Jobs Ceo.Workspace.Git

/-! ### path.posix.normalize -/

/-- One segment of `normalizeString`; the stack has the last segment first. -/
def pushSegment (aboveRoot : Bool) (stack : List Text) (segment : Text) : List Text :=
  if segment = [] ∨ segment = ['.'] then stack
  else if segment = ['.', '.'] then
    match stack with
    | [] => if aboveRoot then [segment] else []
    | top :: rest => if top = ['.', '.'] then segment :: stack else rest
  else segment :: stack

def joinSegments (segments : List Text) : Text := ['/'].intercalate segments

/-- `path.posix.normalize` -/
def normalize (path : Text) : Text :=
  if path = [] then ['.']
  else
    let absolute := path.head? = some '/'
    let trailing := path.getLast? = some '/'
    let body := joinSegments
      ((path.splitOn '/').foldl (pushSegment (!decide absolute)) []).reverse
    if body = [] then if absolute then ['/'] else if trailing then ['.', '/'] else ['.']
    else
      (if absolute then ['/'] else []) ++ body ++ (if trailing then ['/'] else [])

/-! ### security.ts -/

/-- What an error tells besides its code and message. -/
inductive Detail where
  | text (t : Text)
  | texts (ts : List Text)
  deriving DecidableEq, Repr

structure CeoError where
  code : String
  message : String
  details : List (String × Detail)
  deriving DecidableEq, Repr

-- `candidate.normalize("NFC") === candidate`
variable (isNfc : Text → Bool)

/-- `s.length`: UTF-16 code units. -/
def textLength (t : Text) : Nat := (t.map fun c => if c.toNat < 0x10000 then 1 else 2).sum

def isControl (c : Char) : Bool := c.toNat ≤ 0x1f || c.toNat == 0x7f

def forbiddenSegment (segment : Text) : Bool := segment == [] || segment.head? == some '.'

def validateContentPath (candidate : Text) : Except CeoError Text :=
  if candidate = [] ∨ textLength candidate > 240 ∨ '\x00' ∈ candidate ∨ '\\' ∈ candidate ∨
      isNfc candidate = false ∨ candidate.any isControl = true ∨ candidate.head? = some '/' then
    .error ⟨"INVALID_PATH", "Path is not a valid repository-relative POSIX path.",
      [("path", .text candidate)]⟩
  else if (candidate.splitOn '/').any forbiddenSegment then
    .error ⟨"INVALID_PATH", "Path contains a forbidden or hidden segment.",
      [("path", .text candidate)]⟩
  else
    let normalized := normalize candidate
    if ['.', 'm', 'd'] <:+ normalized then .ok normalized
    else
      .error ⟨"INVALID_PATH", "Only Markdown (.md) files are supported in CEO.",
        [("path", .text candidate)]⟩

def isAllowedTrackedPath (candidate : Text) : Bool := (validateContentPath isNfc candidate).isOk

/-! ### ignore.ts -/

structure CeoIgnoreMatcher where
  exactFiles : List Text
  directoryPrefixes : List Text
  deriving DecidableEq, Repr

def dropSlashes (t : Text) : Text := t.dropWhile (· == '/')

/-- `.replace(/^(\.\/)+/, "")` -/
def dropHere : Text → Text
  | '.' :: '/' :: rest => dropHere rest
  | t => t

def trimLine (t : Text) : Text := (t.dropWhile isJsSpace).rdropWhile isJsSpace

/-- One line of `.ceoignore`. -/
def parseIgnoreLine (matcher : CeoIgnoreMatcher) (rawLine : Text) : CeoIgnoreMatcher :=
  let line := trimLine rawLine
  if line = [] ∨ line.head? = some '#' ∨ line.head? = some '!' then matcher
  else
    let clean := dropHere (normalize (dropSlashes line))
    if clean = [] ∨ clean = ['.'] ∨ clean = ['.', '.'] then matcher
    else if line.getLast? = some '/' then
      { matcher with
        directoryPrefixes := matcher.directoryPrefixes ++
          [if clean.getLast? = some '/' then clean else clean ++ ['/']] }
    else { matcher with exactFiles := matcher.exactFiles ++ [clean] }

def parseCeoIgnore (content : Text) : CeoIgnoreMatcher :=
  (content.splitOn '\n').foldl parseIgnoreLine ⟨[], []⟩

def isPathIgnored (matcher : CeoIgnoreMatcher) (relativePath : Text) : Bool :=
  let normalized := dropHere (dropSlashes (normalize relativePath))
  matcher.exactFiles.contains normalized ||
    matcher.directoryPrefixes.any fun p => decide (p <+: normalized)

/-- A content path that is not ignored: what a client may see. -/
def visible (matcher : CeoIgnoreMatcher) (path : Text) : Bool :=
  isAllowedTrackedPath isNfc path && !isPathIgnored matcher path

/-! ### content paths are normal -/

variable {isNfc}

theorem foldl_pushSegment {aboveRoot : Bool} {segments stack : List Text}
    (h : ∀ s ∈ segments, forbiddenSegment s = false) :
    segments.foldl (pushSegment aboveRoot) stack = segments.reverse ++ stack := by
  induction segments generalizing stack with
  | nil => rfl
  | cons s segments ih =>
    have hs := h s (List.mem_cons_self ..)
    have hpush : pushSegment aboveRoot stack s = s :: stack := by
      unfold forbiddenSegment at hs
      unfold pushSegment
      cases s with
      | nil => cases hs
      | cons c s =>
        have hc : c ≠ '.' := by
          rintro rfl
          simp at hs
        simp [hc]
    rw [List.foldl_cons, hpush, ih fun t ht => h t (List.mem_cons_of_mem _ ht),
      List.reverse_cons, List.append_assoc]
    rfl

theorem normalize_content {path : Text} (hne : path ≠ []) (hslash : path.head? ≠ some '/')
    (h : ∀ s ∈ path.splitOn '/', forbiddenSegment s = false) : normalize path = path := by
  have hbody : joinSegments ((path.splitOn '/').foldl (pushSegment true) []).reverse = path := by
    rw [foldl_pushSegment h, List.append_nil, List.reverse_reverse]
    exact List.intercalate_splitOn '/'
  have htrailing : path.getLast? ≠ some '/' := by
    intro hlast
    obtain ⟨front, hfront⟩ := List.getLast?_eq_some_iff.1 hlast
    -- the last segment of a path that ends in a slash is empty
    have hmem : ([] : Text) ∈ path.splitOn '/' := by
      rw [hfront, List.splitOn_append_cons_self, List.splitOn_nil]
      exact List.mem_append_right _ (List.mem_singleton_self _)
    exact absurd (h [] hmem) (by decide)
  unfold normalize
  rw [if_neg hne]
  simp only [hslash, decide_false, Bool.not_false, hbody, if_neg hne, if_neg htrailing, if_false]
  simp

/-- What is validated is returned as it is, and valid. -/
theorem validateContentPath_ok {candidate path : Text}
    (h : validateContentPath isNfc candidate = .ok path) : path = candidate := by
  unfold validateContentPath at h
  split at h
  · cases h
  · next hshape =>
    split at h
    · cases h
    · next hsegments =>
      have hnormal : normalize candidate = candidate := by
        refine normalize_content (fun hnil => hshape (.inl hnil))
          (fun hslash => hshape (.inr (.inr (.inr (.inr (.inr (.inr hslash))))))) fun s hs => ?_
        rw [Bool.not_eq_true, List.any_eq_false] at hsegments
        exact Bool.not_eq_true _ ▸ hsegments s hs
      simp only [hnormal] at h
      split at h
      · exact (Except.ok.inj h).symm
      · cases h

theorem allowed_iff {path : Text} :
    isAllowedTrackedPath isNfc path = true ↔ validateContentPath isNfc path = .ok path := by
  unfold isAllowedTrackedPath
  constructor
  · intro h
    cases hv : validateContentPath isNfc path with
    | error e =>
      rw [hv] at h
      cases h
    | ok p => rw [validateContentPath_ok hv]
  · intro h
    rw [h]
    rfl

theorem allowed_of_ok {candidate path : Text} (h : validateContentPath isNfc candidate = .ok path) :
    isAllowedTrackedPath isNfc path = true := by
  obtain rfl := validateContentPath_ok h
  exact allowed_iff.2 h

end Ceo.Workspace.Paths
