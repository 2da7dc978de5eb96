import Mathlib.Data.List.DropRight
import Ceo.Attempt.State
import Ceo.Lib.Letters
import Ceo.Lib.Scan
import Ceo.Lib.Substitute

/-!
# The identity of a repository

The connector derives it from the `origin` remote (`repo_identity.rs`), and the
server normalises the name again (`connector/control-store.ts`).
-/

namespace Ceo.Connector.RepoIdentity

open Ceo.Lib Ceo.Lib.Letters
open Ceo.Jobs (isJsSpace)
open Ceo.Attempt (isRustSpace)

abbrev Text := List Char

/-! ### texts of Rust and of JavaScript -/

/-- The lower case of a character that is not ASCII, in its place in a text: that of two of them
has ASCII in it, see `lowerFrom`, and that of the others has not. -/
structure LowerTable where
  map : (before after : Text) → Char → Text
  nonempty : ∀ before after c, map before after c ≠ []
  nonAscii : ∀ before after c, 128 ≤ c.toNat → ∀ d ∈ map before after c, 128 ≤ d.toNat

def LowerTable.lowerFrom (table : LowerTable) (before : Text) : Text → Text
  | [] => []
  | c :: cs =>
    (if c.toNat < 128 then [c.toLower]
      else if c.toNat = 0x130 then ['i', Char.ofNat 0x307]
      else if c.toNat = 0x212A then ['k']
      else table.map before cs c) ++ table.lowerFrom (before ++ [c]) cs

/-- `to_lowercase` and `toLowerCase`. -/
def LowerTable.lower (table : LowerTable) (t : Text) : Text := table.lowerFrom [] t

def trimOf (space : Char → Bool) (t : Text) : Text := (t.dropWhile space).rdropWhile space

def stripStart (pre t : Text) : Option Text := if pre <+: t then some (t.drop pre.length) else none

def stripEnd (suf t : Text) : Option Text :=
  if suf <:+ t then some (t.take (t.length - suf.length)) else none

def contains (t piece : Text) : Bool := decide (piece <:+: t)

def startsWith (t pre : Text) : Bool := decide (pre <+: t)

/-! ### the connector -/

structure ResolvedRepositoryIdentity where
  provider : Text
  externalId : Text
  fullName : Text
  originUrl : Text
  deriving DecidableEq, Repr

inductive RepoIdentityError where
  | git (message : String)
  | originMissing (path : String)
  | unsafeOrigin (url : Text)
  | unresolved (url : Text)
  deriving DecidableEq, Repr

def remoteParts (rust : LowerTable) (fullName url : Text) : ResolvedRepositoryIdentity where
  provider := "github".toList
  externalId := rust.lower fullName
  fullName := fullName
  originUrl := url

/-- The forms of a GitHub remote, in the order they are tried. -/
def remoteForms : List Text :=
  ["https://github.com/".toList, "http://github.com/".toList, "ssh://git@github.com/".toList,
    "git@github.com:".toList]

def ownerAndRepo (path : Text) : Option Text :=
  match (path.splitOn '/').filter (!·.isEmpty) with
  | [owner, repo] => some (owner ++ '/' :: repo)
  | _ => none

def normalizeGithubUrlToFullName (remote : Text) : Option Text :=
  let trimmed := trimOf isRustSpace remote
  let withoutGit := (stripEnd ".git".toList trimmed).getD trimmed
  remoteForms.findSome? fun form => (stripStart form withoutGit).bind ownerAndRepo

def validateRemoteUrl (url : Text) : Except RepoIdentityError Unit :=
  let trimmed := trimOf isRustSpace url
  if contains trimmed "://".toList then
    if startsWith trimmed "work://".toList || startsWith trimmed "svn://".toList ||
        startsWith trimmed "local://".toList then .error (.unsafeOrigin url)
    else .ok ()
  else if trimmed.contains ':' then
    if (trimmed.takeWhile (· != ':')).contains '/' then .error (.unsafeOrigin url) else .ok ()
  else if startsWith trimmed ['.'] || startsWith trimmed ['/'] then .ok ()
  else .error (.unsafeOrigin url)

/-- The part of the URL that starts with the host, or with a user and the host. -/
def afterScheme (t : Text) : Option Text :=
  match stripStart "http://".toList t with
  | some rest => some rest
  | none =>
    match stripStart "https://".toList t with
    | some rest => some rest
    | none =>
      match stripStart "ssh://".toList t with
      | some rest => some rest
      | none =>
        if t.contains '@' && !contains t "://".toList then some ((t.splitOn '@').getD 1 t)
        else none

def hostOf (t : Text) : Text :=
  ((t.splitOn '@').getLastD t).takeWhile fun c => c != '/' && c != ':'

def deriveProviderFromOrigin (url : Text) : Except RepoIdentityError Text := do
  validateRemoteUrl url
  let t := trimOf isRustSpace url
  match afterScheme t with
  | none => throw (.unresolved t)
  | some rest =>
    if hostOf rest = "github.com".toList then return "github".toList else throw (.unresolved t)

/-- `resolve_repository_identity` of a checkout with that `origin`. -/
def resolveRepositoryIdentity (rust : LowerTable) (origin : Except RepoIdentityError Text) :
    Except RepoIdentityError ResolvedRepositoryIdentity := do
  let originUrl ← origin
  let provider ← deriveProviderFromOrigin originUrl
  if provider = "github".toList then
    match normalizeGithubUrlToFullName originUrl with
    | none => throw (.unresolved originUrl)
    | some fullName => return remoteParts rust fullName originUrl
  else throw (.unresolved originUrl)

/-! ### the server -/

/-- `.git`, in any letter case. -/
def isGit (s : Text) : Bool := Pattern.matchChars (Pattern.litAnyCase ".git") s

/-- `/\.git$/i` -/
def endsInGit (t : Text) : Bool := isGit (t.drop (t.length - 4))

def stripGit (t : Text) : Text := if endsInGit t then t.take (t.length - 4) else t

def isSlash (c : Char) : Bool := c == '/'

/-- `[a-z0-9._-]` -/
def isNameChar (c : Char) : Bool :=
  ('a' ≤ c && c ≤ 'z') || ('0' ≤ c && c ≤ '9') || c == '.' || c == '_' || c == '-'

/-- `/^[a-z0-9._-]+(?:\/[a-z0-9._-]+)+$/` -/
def isFullName (t : Text) : Bool :=
  let segments := t.splitOn '/'
  2 ≤ segments.length && segments.all fun s => !s.isEmpty && s.all isNameChar

def normalizeRemoteFullName (js : LowerTable) (provider raw : Text) : Option Text :=
  if trimOf isJsSpace provider = [] then none
  else
    let name := trimOf isJsSpace raw
    if contains name "://".toList || name.contains '@' || name.any isJsSpace then none
    else
      let name := ((stripGit name).rdropWhile isSlash).dropWhile isSlash
      if isFullName (js.lower name) then some (js.lower name) else none

/-! ### spellings -/

/-- `[A-Za-z0-9._-]` -/
def isNameCharAnyCase (c : Char) : Bool := isNameChar c || ('A' ≤ c && c ≤ 'Z')

/-- A repository as it is spelled somewhere: the suffix `.git` is not part of it. -/
structure RepoName where
  owner : Text
  repo : Text
  owner_chars : owner ≠ [] ∧ ∀ c ∈ owner, isNameCharAnyCase c = true
  repo_chars : repo ≠ [] ∧ ∀ c ∈ repo, isNameCharAnyCase c = true
  bare : endsInGit repo = false

/-- What the spellings of one repository have in common. -/
def RepoName.key (name : RepoName) : Text :=
  name.owner.map Char.toLower ++ '/' :: name.repo.map Char.toLower

/-- A remote URL. -/
structure Spelling where
  form : Text
  name : RepoName
  suffix : Text
  slashes : Nat
  form_mem : form ∈ remoteForms
  suffix_git : suffix = [] ∨ isGit suffix = true

def Spelling.url (s : Spelling) : Text :=
  s.form ++ s.name.owner ++ '/' :: s.name.repo ++ s.suffix ++ List.replicate s.slashes '/'

/-- The connector derives the identity of the repository, and the server keeps it. -/
def Spelling.Agrees (rust js : LowerTable) (s : Spelling) : Prop :=
  ∃ identity, resolveRepositoryIdentity rust (.ok s.url) = .ok identity ∧
    identity.externalId = s.name.key ∧
    normalizeRemoteFullName js identity.provider identity.externalId = some identity.externalId

/-- No suffix, or the one that the connector looks for, at the end. -/
def Spelling.Clean (s : Spelling) : Prop :=
  s.suffix = [] ∨ s.suffix = ".git".toList ∧ s.slashes = 0

/-- One more `.git` than the server takes off. -/
def LeavesGit (t : Text) : Prop :=
  ∃ start git n, isGit git = true ∧
    (t = start ++ git ++ List.replicate (n + 1) '/' ∨
      ∃ git', isGit git' = true ∧ t = start ++ git ++ List.replicate n '/' ++ git')

/-- What the server's name is to be: kept by another pass, and without the ends it strips. -/
structure Stable (js : LowerTable) (provider name : Text) : Prop where
  again : normalizeRemoteFullName js provider name = some name
  noGit : ¬".git".toList <:+ name
  noSlash : name.head? ≠ some '/' ∧ name.getLast? ≠ some '/'

/-! ### characters and texts -/

theorem isNameCharAnyCase_ascii {c : Char} (h : isNameCharAnyCase c = true) : c.toNat < 128 := by
  have le {a b : Char} (h : a ≤ b) : a.toNat ≤ b.toNat := by
    rwa [Char.le_def, UInt32.le_iff_toNat_le] at h
  simp only [isNameCharAnyCase, isNameChar, Bool.or_eq_true, Bool.and_eq_true, decide_eq_true_eq,
    beq_iff_eq] at h
  rcases h with ((((⟨-, h⟩ | ⟨-, h⟩) | rfl) | rfl) | rfl) | ⟨-, h⟩
  · exact lt_of_le_of_lt (le h) (by decide)
  · exact lt_of_le_of_lt (le h) (by decide)
  · decide
  · decide
  · decide
  · exact lt_of_le_of_lt (le h) (by decide)

/-- What a character of a name is not, and that its lower case is one of a full name. -/
theorem nameChar_facts {c : Char} (h : isNameCharAnyCase c = true) :
    c ≠ '/' ∧ c ≠ ':' ∧ c ≠ '@' ∧ isRustSpace c = false ∧ isJsSpace c = false ∧
      isNameChar c.toLower = true := by
  have := ascii_cases (p := fun c => !isNameCharAnyCase c || (c != '/' && c != ':' && c != '@' &&
    !isRustSpace c && !isJsSpace c && isNameChar c.toLower)) (by decide)
    (isNameCharAnyCase_ascii h)
  simpa [h, and_assoc] using this

theorem isNameChar_anyCase {c : Char} (h : isNameChar c = true) : isNameCharAnyCase c = true := by
  rw [isNameCharAnyCase, h, Bool.true_or]

theorem isNameChar_lower {c : Char} (h : isNameChar c = true) : c.toLower = c := by
  have := ascii_cases (p := fun c => !isNameChar c || c.toLower == c) (by decide)
    (isNameCharAnyCase_ascii (isNameChar_anyCase h))
  simpa [h] using this

theorem trimOf_eq_self {space : Char → Bool} {t : Text} (h : ∀ c ∈ t, space c = false) :
    trimOf space t = t := by
  have left : t.dropWhile space = t := by
    cases t with
    | nil => rfl
    | cons c cs => rw [List.dropWhile_cons_of_neg (by simp [h c])]
  rw [trimOf, left, List.rdropWhile_eq_self_iff]
  intro hne
  simp [h _ (List.getLast_mem hne)]

theorem LowerTable.lower_ascii (table : LowerTable) {t : Text} (h : ∀ c ∈ t, c.toNat < 128) :
    table.lower t = t.map Char.toLower := by
  have all (before : Text) : table.lowerFrom before t = t.map Char.toLower := by
    induction t generalizing before with
    | nil => rfl
    | cons c cs ih =>
      rw [List.forall_mem_cons] at h
      rw [lowerFrom, if_pos h.1, ih h.2]
      rfl
  exact all []

theorem stripStart_append (pre t : Text) : stripStart pre (pre ++ t) = some t := by
  rw [stripStart, if_pos (List.prefix_append pre t), List.drop_left]

/-- Two beginnings, neither of which continues the other. -/
theorem not_starts {pre start : Text} (h : ¬pre <+: start ∧ ¬start <+: pre) (t : Text) :
    ¬pre <+: start ++ t := fun hp =>
  (List.prefix_or_prefix_of_prefix hp (List.prefix_append start t)).elim h.1 h.2

theorem stripStart_none (pre start : Text) (h : ¬pre <+: start ∧ ¬start <+: pre) (t : Text) :
    stripStart pre (start ++ t) = none := if_neg (not_starts h t)

theorem startsWith_false {pre start : Text} (h : ¬pre <+: start ∧ ¬start <+: pre) (t : Text) :
    startsWith (start ++ t) pre = false := decide_eq_false (not_starts h t)

/-! ### the connector on a spelling -/

/-- What comes after the form: the owner, the repository as it is there, and the slashes. -/
def path (owner repo : Text) (slashes : Nat) : Text :=
  owner ++ '/' :: (repo ++ List.replicate slashes '/')

section connector

variable {owner repo : Text} {slashes : Nat}

def IsName (t : Text) : Prop := t ≠ [] ∧ ∀ c ∈ t, isNameCharAnyCase c = true

theorem IsName.notMem {t : Text} (h : IsName t) {d : Char} (hd : isNameCharAnyCase d = false) :
    d ∉ t := fun hm => by simp [h.2 d hm] at hd

theorem mem_path {c : Char} (ho : IsName owner) (hr : IsName repo)
    (hc : c ∈ path owner repo slashes) : isNameCharAnyCase c = true ∨ c = '/' := by
  simp only [path, List.mem_append, List.mem_cons, List.mem_replicate] at hc
  rcases hc with hc | rfl | hc | ⟨-, rfl⟩
  · exact .inl (ho.2 c hc)
  · exact .inr rfl
  · exact .inl (hr.2 c hc)
  · exact .inr rfl

theorem splitOn_slashes (n : Nat) :
    (List.replicate n '/').splitOn '/' = List.replicate (n + 1) [] := by
  induction n with
  | zero => rfl
  | succ n ih =>
    have head : ([] ++ '/' :: List.replicate n '/').splitOn '/' =
        [] :: (List.replicate n '/').splitOn '/' :=
      List.splitOn_append_cons_self_of_not_mem (by simp) _
    rw [List.replicate_succ, List.replicate_succ, ← ih]
    exact head

theorem ownerAndRepo_path (ho : IsName owner) (hr : IsName repo) :
    ownerAndRepo (path owner repo slashes) = some (owner ++ '/' :: repo) := by
  have rest : ((repo ++ List.replicate slashes '/').splitOn '/').filter (!·.isEmpty) = [repo] := by
    have hrepo : repo.isEmpty = false := List.isEmpty_eq_false_iff.2 hr.1
    cases slashes with
    | zero =>
      rw [List.replicate_zero, List.append_nil, List.splitOn_eq_singleton (hr.notMem rfl)]
      simp [hrepo]
    | succ n =>
      rw [List.replicate_succ, List.splitOn_append_cons_self_of_not_mem (hr.notMem rfl),
        splitOn_slashes]
      simp [hrepo]
  have howner : owner.isEmpty = false := List.isEmpty_eq_false_iff.2 ho.1
  unfold ownerAndRepo path
  rw [List.splitOn_append_cons_self_of_not_mem (ho.notMem rfl),
    List.filter_cons_of_pos (by simp [howner]), rest]

theorem forms_apart : ∀ f ∈ remoteForms, ∀ g ∈ remoteForms, f ≠ g → ¬f <+: g := by decide

/-- The remote is read as it is spelled after the form. -/
theorem findSome_forms {form : Text} (hf : form ∈ remoteForms) (ho : IsName owner)
    (hr : IsName repo) :
    (remoteForms.findSome? fun g => (stripStart g (form ++ path owner repo slashes)).bind ownerAndRepo)
      = some (owner ++ '/' :: repo) := by
  obtain ⟨before, after, hforms, hnot⟩ := List.eq_append_cons_of_mem hf
  rw [List.findSome?_eq_some_iff]
  refine ⟨before, form, after, hforms, ?_, fun g hg => ?_⟩
  · rw [stripStart_append, Option.bind_some, ownerAndRepo_path ho hr]
  · have hgm : g ∈ remoteForms := by
      rw [hforms]
      exact List.mem_append_left _ hg
    have hne : g ≠ form := by
      rintro rfl
      exact hnot hg
    rw [stripStart_none _ _ ⟨forms_apart g hgm form hf hne, forms_apart form hf g hgm hne.symm⟩,
      Option.bind_none]

theorem notMem_path {d : Char} (ho : IsName owner) (hr : IsName repo)
    (hd : isNameCharAnyCase d = false) (hslash : d ≠ '/') : d ∉ path owner repo slashes := by
  intro hm
  rcases mem_path ho hr hm with h | h
  · simp [hd] at h
  · exact hslash h

theorem trimOf_url (form : Text) (hf : form ∈ remoteForms) (ho : IsName owner) (hr : IsName repo) :
    trimOf isRustSpace (form ++ path owner repo slashes) = form ++ path owner repo slashes := by
  refine trimOf_eq_self fun c hc => ?_
  have clean : ∀ f ∈ remoteForms, f.all (fun d => !isRustSpace d) = true := by decide
  rcases List.mem_append.1 hc with hc | hc
  · simpa using List.all_eq_true.1 (clean form hf) c hc
  · rcases mem_path ho hr hc with h | rfl
    · exact (nameChar_facts h).2.2.2.1
    · rfl

theorem hostOf_github (user tail : Text) (sep : Char)
    (huser : (user ++ "github.com".toList ++ sep :: tail).splitOn '@' =
      (user.splitOn '@').dropLast ++ ["github.com".toList ++ sep :: tail])
    (hsep : sep = '/' ∨ sep = ':') :
    hostOf (user ++ "github.com".toList ++ sep :: tail) = "github.com".toList := by
  unfold hostOf
  rw [huser, List.getLastD_concat]
  have stop : (sep != '/' && sep != ':') = false := by
    rcases hsep with rfl | rfl <;> rfl
  rw [List.takeWhile_append_of_pos (Scan.forall_mem (by decide)),
    List.takeWhile_cons_of_neg (by simp [stop]), List.append_nil]

/-- `://` is nowhere in a remote of the short SSH form. -/
theorem not_contains_scheme (ho : IsName owner) (hr : IsName repo) :
    contains ("git@github.com:".toList ++ path owner repo slashes) "://".toList = false := by
  refine decide_eq_false ?_
  rintro ⟨before, after, h⟩
  have colon : ':' ∉ path owner repo slashes := notMem_path ho hr rfl (by decide)
  have h' : "git@github.com".toList ++ ':' :: path owner repo slashes =
      before ++ ':' :: ('/' :: '/' :: after) := by
    rw [show "git@github.com".toList ++ ':' :: path owner repo slashes =
      "git@github.com:".toList ++ path owner repo slashes from rfl, ← h]
    simp
  obtain ⟨-, -, htail⟩ := (List.append_cons_inj_of_notMem (by decide) colon).1 h'
  obtain ⟨hne, hchars⟩ := ho
  cases owner with
  | nil => exact hne rfl
  | cons c cs =>
    obtain ⟨rfl, -⟩ := List.cons.inj htail
    cases hchars '/' (by simp)

theorem splitOn_user (user : Text) {tail : Text} (h : '@' ∉ tail) :
    (user ++ '@' :: tail).splitOn '@' = user.splitOn '@' ++ [tail] := by
  rw [List.splitOn_append_cons_self, List.splitOn_eq_singleton h]

theorem validateRemoteUrl_scheme {start tail : Text}
    (trimmed : trimOf isRustSpace (start ++ tail) = start ++ tail) (scheme : "://".toList <:+: start)
    (apart : ∀ pre ∈ ["work://".toList, "svn://".toList, "local://".toList],
      ¬pre <+: start ∧ ¬start <+: pre) : validateRemoteUrl (start ++ tail) = .ok () := by
  have has : contains (start ++ tail) "://".toList = true :=
    decide_eq_true (scheme.trans (List.prefix_append start tail).isInfix)
  unfold validateRemoteUrl
  simp only [trimmed, has, startsWith_false (apart "work://".toList (by simp)),
    startsWith_false (apart "svn://".toList (by simp)),
    startsWith_false (apart "local://".toList (by simp)), if_true, Bool.or_self,
    Bool.false_eq_true, if_false]

theorem derive_github {url rest : Text} (trimmed : trimOf isRustSpace url = url)
    (valid : validateRemoteUrl url = .ok ()) (after : afterScheme url = some rest)
    (host : hostOf rest = "github.com".toList) :
    deriveProviderFromOrigin url = .ok "github".toList := by
  unfold deriveProviderFromOrigin
  simp only [valid, trimmed, after]
  exact if_pos host

/-- The short SSH form: what is before its colon is a user and the host. -/
theorem short_form (ho : IsName owner) (hr : IsName repo) :
    validateRemoteUrl ("git@github.com:".toList ++ path owner repo slashes) = .ok () ∧
      afterScheme ("git@github.com:".toList ++ path owner repo slashes) =
        some ("github.com".toList ++ ':' :: path owner repo slashes) := by
  have at_ : '@' ∉ "github.com:".toList ++ path owner repo slashes := by
    rw [List.mem_append]
    exact not_or.2 ⟨by decide, notMem_path ho hr rfl (by decide)⟩
  have second : (("git@github.com:".toList ++ path owner repo slashes).splitOn '@').getD 1
      ("git@github.com:".toList ++ path owner repo slashes) =
        "github.com".toList ++ ':' :: path owner repo slashes :=
    (congrArg (List.getD · 1 _) (splitOn_user "git".toList at_)).trans rfl
  have before : ("git@github.com:".toList ++ path owner repo slashes).takeWhile (· != ':') =
      "git@github.com".toList := by
    rw [show "git@github.com:".toList ++ path owner repo slashes =
      "git@github.com".toList ++ ':' :: path owner repo slashes from rfl,
      List.takeWhile_append_of_pos (Scan.forall_mem (by decide)), List.takeWhile_cons_of_neg (by decide),
      List.append_nil]
  have holds (c : Char) (hc : c ∈ "git@github.com:".toList) :
      ("git@github.com:".toList ++ path owner repo slashes).contains c = true :=
    List.contains_iff_mem.2 (List.mem_append_left _ hc)
  have slash : "git@github.com".toList.contains '/' = false := by decide
  constructor
  · unfold validateRemoteUrl
    simp only [trimOf_url "git@github.com:".toList (by decide) ho hr,
      not_contains_scheme ho hr, holds ':' (by decide), before, slash, if_true,
      Bool.false_eq_true, if_false]
  · unfold afterScheme
    simp only [stripStart_none "http://".toList "git@github.com:".toList (by decide),
      stripStart_none "https://".toList "git@github.com:".toList (by decide),
      stripStart_none "ssh://".toList "git@github.com:".toList (by decide),
      holds '@' (by decide), not_contains_scheme ho hr, second, Bool.not_false,
      Bool.and_self, if_true]

theorem afterScheme_scheme (pre : Text)
    (h : pre ∈ ["http://".toList, "https://".toList, "ssh://".toList]) (rest : Text) :
    afterScheme (pre ++ rest) = some rest := by
  simp only [List.mem_cons, List.not_mem_nil, or_false] at h
  unfold afterScheme
  rcases h with rfl | rfl | rfl
  · rw [stripStart_append]
  · rw [stripStart_none _ _ (by decide), stripStart_append]
  · rw [stripStart_none _ _ (by decide), stripStart_none _ _ (by decide), stripStart_append]

/-- The host of a remote of each form is GitHub's. -/
theorem derive_url {form : Text} (hf : form ∈ remoteForms) (ho : IsName owner) (hr : IsName repo) :
    deriveProviderFromOrigin (form ++ path owner repo slashes) = .ok "github".toList := by
  have at_ : '@' ∉ path owner repo slashes := notMem_path ho hr rfl (by decide)
  have host (sep : Char) (hsep : sep = '/' ∨ sep = ':') :
      hostOf ("github.com".toList ++ sep :: path owner repo slashes) = "github.com".toList := by
    refine hostOf_github [] _ sep ?_ hsep
    rw [List.nil_append, List.splitOn_eq_singleton]
    · rfl
    · rw [List.mem_append, List.mem_cons]
      rintro (h | h | h)
      · exact absurd h (by decide)
      · rcases hsep with rfl | rfl <;> cases h
      · exact at_ h
  have userHost : hostOf ("git@github.com/".toList ++ path owner repo slashes) =
      "github.com".toList := by
    refine hostOf_github "git@".toList _ '/' ?_ (.inl rfl)
    have after : '@' ∉ "github.com/".toList ++ path owner repo slashes := by
      rw [List.mem_append]
      exact not_or.2 ⟨by decide, at_⟩
    exact (splitOn_user "git".toList after).trans rfl
  have trimmed : trimOf isRustSpace (form ++ path owner repo slashes) =
    form ++ path owner repo slashes := trimOf_url form hf ho hr
  simp only [remoteForms, List.mem_cons, List.not_mem_nil, or_false] at hf
  rcases hf with rfl | rfl | rfl | rfl
  · have scheme : "://".toList <:+: "https://github.com/".toList :=
      ⟨"https".toList, "github.com/".toList, rfl⟩
    exact derive_github trimmed (validateRemoteUrl_scheme trimmed scheme (by decide))
      (afterScheme_scheme "https://".toList (by decide) _) (host '/' (.inl rfl))
  · have scheme : "://".toList <:+: "http://github.com/".toList :=
      ⟨"http".toList, "github.com/".toList, rfl⟩
    exact derive_github trimmed (validateRemoteUrl_scheme trimmed scheme (by decide))
      (afterScheme_scheme "http://".toList (by decide) _) (host '/' (.inl rfl))
  · have scheme : "://".toList <:+: "ssh://git@github.com/".toList :=
      ⟨"ssh".toList, "git@github.com/".toList, rfl⟩
    exact derive_github trimmed (validateRemoteUrl_scheme trimmed scheme (by decide))
      (afterScheme_scheme "ssh://".toList (by decide) _) userHost
  · exact derive_github trimmed (short_form ho hr).1 (short_form ho hr).2 (host ':' (.inr rfl))

theorem stripEnd_append (t suf : Text) : stripEnd suf (t ++ suf) = some t := by
  rw [stripEnd, if_pos (List.suffix_append t suf), List.length_append, Nat.add_sub_cancel,
    List.take_left]

/-- The identity that is derived from a remote, when the rest of it is a name and slashes. -/
theorem resolve_of_rest (rust : LowerTable) {form rest : Text} (hf : form ∈ remoteForms)
    {n m : Nat} {repo' : Text} (ho : IsName owner) (hr : IsName repo) (hr' : IsName repo')
    (hrest : rest = form ++ path owner repo n)
    (without : (stripEnd ".git".toList rest).getD rest = form ++ path owner repo' m) :
    resolveRepositoryIdentity rust (.ok rest) =
      .ok (remoteParts rust (owner ++ '/' :: repo') rest) := by
  have name : normalizeGithubUrlToFullName rest = some (owner ++ '/' :: repo') := by
    unfold normalizeGithubUrlToFullName
    simp only [hrest ▸ trimOf_url form hf ho hr, without]
    exact findSome_forms hf ho hr'
  have provider : deriveProviderFromOrigin rest = .ok "github".toList := by
    rw [hrest]
    exact derive_url hf ho hr
  unfold resolveRepositoryIdentity
  simp only [bind, Except.bind, provider, if_true, name]
  rfl

end connector

/-! ### the suffix -/

theorem toLower_eq_iff {y : Char} (hy : y ∈ ".git".toList) (c : Char) :
    c.toLower = y ↔ Pattern.anyCase y c = true := by
  have small : y.toNat < 128 := by
    have : ".git".toList.all (fun d => decide (d.toNat < 128)) = true := by decide
    simpa using List.all_eq_true.1 this y hy
  have table : ".git".toList.all (fun y => (List.range 128).all fun n =>
      ((Char.ofNat n).toLower == y) == Pattern.anyCase y (Char.ofNat n)) = true := by decide
  have same (hc : c.toNat < 128) : (c.toLower == y) = Pattern.anyCase y c := by
    have := List.all_eq_true.1 (List.all_eq_true.1 table y hy) c.toNat (List.mem_range.2 hc)
    simpa using this
  constructor
  · intro h
    rw [← same (ascii_of_toLower (h ▸ small)), h, beq_self_eq_true]
  · intro h
    have hc : c.toNat < 128 := by
      have upper : ".git".toList.all (fun d => decide (d.toUpper.toNat < 128)) = true := by decide
      simp only [Pattern.anyCase, Bool.or_eq_true, beq_iff_eq] at h
      rcases h with rfl | rfl
      · exact small
      · simpa using List.all_eq_true.1 upper y hy
    rw [← same hc] at h
    exact eq_of_beq h

theorem isGit_iff {s : Text} : isGit s = true ↔ s.map Char.toLower = ".git".toList := by
  have go (l : Text) (hl : ∀ y ∈ l, y ∈ ".git".toList) (s : Text) :
      Pattern.matchChars (l.map Pattern.anyCase) s = true ↔ s.map Char.toLower = l := by
    induction l generalizing s with
    | nil => cases s <;> simp [Pattern.matchChars]
    | cons y ys ih =>
      rw [List.forall_mem_cons] at hl
      cases s with
      | nil => simp [Pattern.matchChars]
      | cons c cs =>
        simp only [List.map_cons, Pattern.matchChars, Bool.and_eq_true, List.cons.injEq,
          toLower_eq_iff hl.1, ih hl.2]
  exact go _ (fun _ h => h) s

theorem isGit_length {s : Text} (h : isGit s = true) : s.length = 4 :=
  Pattern.length_of_matchChars h

theorem isGit_isName {s : Text} (h : isGit s = true) : IsName s := by
  constructor
  · rintro rfl
    cases h
  · intro c hc
    have hm : c.toLower ∈ ".git".toList := by
      rw [← isGit_iff.1 h]
      exact List.mem_map_of_mem hc
    have small : ".git".toList.all (fun d => decide (d.toNat < 128)) = true := by decide
    have named : (!".git".toList.contains c.toLower || isNameCharAnyCase c) = true :=
      ascii_cases (p := fun c => !".git".toList.contains c.toLower || isNameCharAnyCase c)
        (by decide) (ascii_of_toLower (by simpa using List.all_eq_true.1 small _ hm))
    rwa [List.contains_iff_mem.2 hm, Bool.not_true, Bool.false_or] at named

theorem endsInGit_iff {t : Text} : endsInGit t = true ↔ ∃ g, isGit g = true ∧ g <:+ t := by
  constructor
  · intro h
    exact ⟨_, h, List.drop_suffix _ t⟩
  · rintro ⟨g, hg, u, rfl⟩
    unfold endsInGit
    rwa [List.length_append, isGit_length hg, Nat.add_sub_cancel, List.drop_left]

/-- A slash is not in the suffix, so the suffix is all behind it. -/
theorem suffix_after_slash {g x t : Text} (hg : isGit g = true) (h : g <:+ x ++ '/' :: t) :
    g <:+ t := by
  have slash : '/' ∉ g := (isGit_isName hg).notMem rfl
  rcases List.suffix_or_suffix_of_suffix h (List.suffix_append x ('/' :: t)) with h | h
  · rcases List.suffix_cons_iff.1 h with rfl | h
    · exact absurd List.mem_cons_self slash
    · exact h
  · exact absurd (h.subset List.mem_cons_self) slash

theorem isGit_git : isGit ".git".toList = true := by decide

/-! ### the names of the server -/

section server

variable {js : LowerTable} {provider t : Text}

theorem mem_splitOn {c : Char} (hc : c ∈ t) (hslash : c ≠ '/') : ∃ s ∈ t.splitOn '/', c ∈ s := by
  induction t with
  | nil => cases hc
  | cons d ds ih =>
    rw [List.splitOn_cons_eq_if_modifyHead]
    split
    · rename_i hd
      have hd : d = '/' := by simpa using hd
      obtain ⟨s, hs, hcs⟩ := ih ((List.mem_cons.1 hc).resolve_left fun h => hslash (h.trans hd))
      exact ⟨s, List.mem_cons_of_mem _ hs, hcs⟩
    · cases hsplit : ds.splitOn '/' with
      | nil => exact absurd hsplit (List.splitOn_ne_nil _ _)
      | cons s ss =>
        rw [hsplit] at ih
        rw [List.modifyHead_cons]
        rcases List.mem_cons.1 hc with rfl | hc
        · exact ⟨c :: s, by simp, by simp⟩
        · obtain ⟨s', hs', hcs⟩ := ih hc
          rcases List.mem_cons.1 hs' with rfl | hs'
          · exact ⟨d :: s', by simp, List.mem_cons_of_mem _ hcs⟩
          · exact ⟨s', List.mem_cons_of_mem _ hs', hcs⟩

/-- What the last expression asks for, and what follows for the ends. -/
structure FullName (t : Text) : Prop where
  chars : ∀ c ∈ t, isNameChar c = true ∨ c = '/'
  first : t.head? ≠ some '/'
  last : t.getLast? ≠ some '/'

theorem FullName.of_isFullName (h : isFullName t = true) : FullName t := by
  simp only [isFullName, Bool.and_eq_true, decide_eq_true_eq, List.all_eq_true,
    Bool.not_eq_true', List.isEmpty_eq_false_iff] at h
  obtain ⟨-, h⟩ := h
  refine ⟨fun c hc => ?_, fun hfirst => ?_, fun hlast => ?_⟩
  · by_cases hslash : c = '/'
    · exact .inr hslash
    · obtain ⟨s, hs, hcs⟩ := mem_splitOn hc hslash
      exact .inl ((h s hs).2 c hcs)
  · obtain ⟨rest, rfl⟩ : ∃ rest, t = '/' :: rest := List.head?_eq_some_iff.1 hfirst
    have : ('/' :: rest).splitOn '/' = [] :: rest.splitOn '/' := by
      rw [List.splitOn_cons_eq_if_modifyHead, if_pos (by simp)]
    exact (h [] (by simp [this])).1 rfl
  · obtain ⟨rest, rfl⟩ : ∃ rest, t = rest ++ ['/'] := List.getLast?_eq_some_iff.1 hlast
    have : (rest ++ ['/']).splitOn '/' = rest.splitOn '/' ++ [[]] :=
      List.splitOn_append_cons_self rest []
    exact (h [] (by simp [this])).1 rfl

theorem FullName.ascii (h : FullName t) : ∀ c ∈ t, c.toNat < 128 := by
  intro c hc
  rcases h.chars c hc with hn | rfl
  · exact isNameCharAnyCase_ascii (isNameChar_anyCase hn)
  · decide

theorem FullName.lower (h : FullName t) : js.lower t = t := by
  rw [js.lower_ascii h.ascii]
  refine (List.map_congr_left fun c hc => ?_).trans (List.map_id t)
  rcases h.chars c hc with hn | rfl
  · exact isNameChar_lower hn
  · rfl

theorem FullName.trim (h : FullName t) : trimOf isJsSpace t = t := by
  refine trimOf_eq_self fun c hc => ?_
  rcases h.chars c hc with hn | rfl
  · exact (nameChar_facts (isNameChar_anyCase hn)).2.2.2.2.1
  · decide

theorem FullName.notMem (h : FullName t) {d : Char} (hd : isNameChar d = false) (hs : d ≠ '/') :
    d ∉ t := by
  intro hm
  rcases h.chars d hm with hn | hn
  · simp [hd] at hn
  · exact hs hn

theorem FullName.strip (h : FullName t) : (t.rdropWhile isSlash).dropWhile isSlash = t := by
  have right : t.rdropWhile isSlash = t := by
    rw [List.rdropWhile_eq_self_iff]
    intro hne hl
    refine h.last ?_
    rw [List.getLast?_eq_some_getLast hne]
    exact congrArg some (eq_of_beq hl)
  rw [right]
  cases t with
  | nil => rfl
  | cons c cs =>
    refine List.dropWhile_cons_of_neg ?_
    intro hc
    exact h.first (by rw [eq_of_beq hc, List.head?_cons])

theorem length_strip_le (t : Text) : ((t.rdropWhile isSlash).dropWhile isSlash).length ≤ t.length :=
  (List.dropWhile_suffix _).length_le.trans (List.rdropWhile_prefix _ _).length_le

/-- A full name is kept exactly if it does not end in the suffix. -/
theorem FullName.normalize_iff (h : FullName t) (full : isFullName t = true)
    (hp : trimOf isJsSpace provider ≠ []) :
    normalizeRemoteFullName js provider t = some t ↔ endsInGit t = false := by
  have plain : (contains t "://".toList || t.contains '@' || t.any isJsSpace) = false := by
    have scheme : contains t "://".toList = false :=
      decide_eq_false fun hi => h.notMem (d := ':') (by decide) (by decide) (hi.subset (by simp))
    have user : t.contains '@' = false := by
      rw [← Bool.not_eq_true, List.contains_iff_mem]
      exact h.notMem (by decide) (by decide)
    have space : t.any isJsSpace = false := by
      rw [List.any_eq_false]
      intro c hc
      rcases h.chars c hc with hn | rfl
      · simp [(nameChar_facts (isNameChar_anyCase hn)).2.2.2.2.1]
      · decide
    rw [scheme, user, space]
    rfl
  unfold normalizeRemoteFullName
  simp only [if_neg hp, h.trim, plain, Bool.false_eq_true, if_false]
  cases hg : endsInGit t with
  | false =>
    unfold stripGit
    rw [hg]
    simp [h.strip, h.lower, full]
  | true =>
    simp only [Bool.true_eq_false, iff_false]
    intro hn
    unfold stripGit at hn
    rw [if_pos hg] at hn
    set name := ((t.take (t.length - 4)).rdropWhile isSlash).dropWhile isSlash with hname
    have ascii : ∀ c ∈ name, c.toNat < 128 := fun c hc => h.ascii c (List.mem_of_mem_take
      ((List.rdropWhile_prefix _ _).subset ((List.dropWhile_suffix _).subset hc)))
    have four : 4 ≤ t.length := by
      obtain ⟨g, hg, hs⟩ := endsInGit_iff.1 hg
      rw [← isGit_length hg]
      exact hs.length_le
    have short : name.length < t.length := by
      have := length_strip_le (t.take (t.length - 4))
      rw [← hname, List.length_take] at this
      omega
    split at hn
    · have := congrArg List.length (Option.some.inj hn)
      rw [js.lower_ascii ascii, List.length_map] at this
      omega
    · cases hn

/-- A name in lower case, if that is ASCII: the Kelvin sign is a `k` there. -/
def asciiLower (c : Char) : Char := if c.toNat = 0x212A then 'k' else c.toLower

theorem LowerTable.lower_eq (table : LowerTable) (h : ∀ c ∈ table.lower t, c.toNat < 128) :
    table.lower t = t.map asciiLower := by
  have go (before t : Text) (h : ∀ c ∈ table.lowerFrom before t, c.toNat < 128) :
      table.lowerFrom before t = t.map asciiLower := by
    induction t generalizing before with
    | nil => rfl
    | cons c cs ih =>
      rw [lowerFrom, List.forall_mem_append] at h
      rw [lowerFrom, ih _ h.2]
      obtain ⟨head, -⟩ := h
      unfold asciiLower
      split
      · rename_i hc
        rw [List.map_cons, if_neg (by omega)]
        rfl
      · rename_i hc
        rw [if_neg hc] at head
        split
        · rename_i dotted
          rw [if_pos dotted] at head
          exact absurd (head (Char.ofNat 0x307) (by simp)) (by decide)
        · rename_i dotted
          rw [if_neg dotted] at head
          split
          · rename_i kelvin
            rw [List.map_cons, if_pos kelvin]
            rfl
          · rename_i kelvin
            rw [if_neg kelvin] at head
            obtain ⟨d, ds, hd⟩ := List.exists_cons_of_ne_nil (table.nonempty before cs c)
            have small := head d (by rw [hd]; exact List.mem_cons_self)
            have large := table.nonAscii before cs c (by omega) d (by rw [hd]; exact List.mem_cons_self)
            omega
  exact go [] t h

theorem isGit_asciiLower {s : Text} : isGit (s.map asciiLower) = isGit s := by
  rw [Bool.eq_iff_iff, isGit_iff, isGit_iff, List.map_map]
  refine map_eq_iff fun y hy c => ?_
  unfold Function.comp asciiLower
  split
  · rename_i kelvin
    have hk : 'k'.toLower ∉ ".git".toList := by decide
    have hc : c.toLower.toNat = 0x212A := by rw [toLower_of_large (by omega), kelvin]
    have small : ".git".toList.all (fun d => decide (d.toNat < 128)) = true := by decide
    have hy' : y.toNat < 128 := by simpa using List.all_eq_true.1 small y hy
    constructor
    · rintro rfl
      exact absurd hy hk
    · rintro rfl
      omega
  · rw [toLower_toLower]

theorem endsInGit_lower (table : LowerTable) (h : ∀ c ∈ table.lower t, c.toNat < 128) :
    endsInGit (table.lower t) = endsInGit t := by
  unfold endsInGit
  rw [table.lower_eq h, List.length_map, ← List.map_drop, isGit_asciiLower]

theorem mem_slashes {a u : Text} (h : a <:+ u) (hu : ∀ c ∈ u, isSlash c = true) {g : Text}
    (hg : isGit g = true) (ha : ∀ c ∈ a, c ∈ g) : a = [] := by
  cases a with
  | nil => rfl
  | cons c cs =>
    have hc : c = '/' := eq_of_beq (hu c (h.subset List.mem_cons_self))
    exact absurd (hc ▸ ha c List.mem_cons_self) ((isGit_isName hg).notMem rfl)

/-- Slashes at the front do not hide the suffix, nor show one. -/
theorem endsInGit_dropWhile (t : Text) : endsInGit (t.dropWhile isSlash) = endsInGit t := by
  rw [Bool.eq_iff_iff, endsInGit_iff, endsInGit_iff]
  constructor
  · rintro ⟨g, hg, hs⟩
    exact ⟨g, hg, hs.trans (List.dropWhile_suffix _)⟩
  · rintro ⟨g, hg, hs⟩
    refine ⟨g, hg, ?_⟩
    rw [← List.takeWhile_append_dropWhile (p := isSlash) (l := t)] at hs
    rcases Substitute.suffix_append_cases hs with h | ⟨w, hw, hsuf, heq⟩
    · exact h
    · refine absurd (mem_slashes hsuf (fun c hc => List.mem_takeWhile_imp hc) hg ?_) hw
      intro c hc
      rw [heq]
      exact List.mem_append_left _ hc

theorem rdropWhile_slashes {start : Text} (n : Nat) (h : start.getLast? ≠ some '/') :
    (start ++ List.replicate n '/').rdropWhile isSlash = start := by
  induction n with
  | zero =>
    rw [List.replicate_zero, List.append_nil, List.rdropWhile_eq_self_iff]
    intro hne hl
    refine h ?_
    rw [List.getLast?_eq_some_getLast hne]
    exact congrArg some (eq_of_beq hl)
  | succ n ih =>
    rw [List.replicate_succ', ← List.append_assoc, List.rdropWhile_concat_pos _ _ _ rfl, ih]

/-- What the strips leave ends in the suffix, exactly if there was one more. -/
theorem endsInGit_strip (t : Text) :
    endsInGit (((stripGit t).rdropWhile isSlash).dropWhile isSlash) = true ↔ LeavesGit t := by
  rw [endsInGit_dropWhile]
  constructor
  · intro h
    obtain ⟨g, hg, start, hs⟩ := endsInGit_iff.1 h
    obtain ⟨n, hn⟩ : ∃ n, (stripGit t).rtakeWhile isSlash = List.replicate n '/' := by
      refine ⟨_, List.eq_replicate_of_mem fun c hc => ?_⟩
      have hslash : isSlash c = true := List.mem_rtakeWhile_imp hc
      exact eq_of_beq hslash
    have hsplit : stripGit t = start ++ g ++ List.replicate n '/' := by
      rw [hs, ← hn, List.rdropWhile_append_rtakeWhile]
    cases hgit : endsInGit t with
    | true =>
      refine ⟨start, g, n, hg, .inr ⟨_, hgit, ?_⟩⟩
      rw [← hsplit, stripGit, if_pos hgit, List.take_append_drop]
    | false =>
      rw [stripGit, hgit] at hsplit
      have hsplit : t = start ++ g ++ List.replicate n '/' := hsplit
      cases n with
      | zero =>
        have : endsInGit t = true :=
          endsInGit_iff.2 ⟨g, hg, start, by rw [hsplit, List.replicate_zero, List.append_nil]⟩
        rw [this] at hgit
        cases hgit
      | succ n => exact ⟨start, g, n, hg, .inl hsplit⟩
  · have last {start g : Text} (hg : isGit g = true) : (start ++ g).getLast? ≠ some '/' := by
      intro hl
      rw [List.getLast?_append_of_ne_nil _ (isGit_isName hg).1] at hl
      exact (isGit_isName hg).notMem rfl (List.mem_of_getLast? hl)
    rintro ⟨start, g, n, hg, rfl | ⟨g', hg', rfl⟩⟩
    · have bare : endsInGit (start ++ g ++ List.replicate (n + 1) '/') = false := by
        rw [← Bool.not_eq_true, endsInGit_iff]
        rintro ⟨g', hg', hs⟩
        rw [List.replicate_succ', ← List.append_assoc] at hs
        have := suffix_after_slash (t := []) hg' hs
        exact (isGit_isName hg').1 (List.suffix_nil.1 this)
      rw [stripGit, bare]
      refine endsInGit_iff.2 ⟨g, hg, ?_⟩
      show g <:+ (start ++ g ++ List.replicate (n + 1) '/').rdropWhile isSlash
      rw [rdropWhile_slashes _ (last hg)]
      exact List.suffix_append _ _
    · have ends : endsInGit (start ++ g ++ List.replicate n '/' ++ g') = true :=
        endsInGit_iff.2 ⟨g', hg', List.suffix_append _ _⟩
      rw [stripGit, if_pos ends, List.length_append, isGit_length hg', Nat.add_sub_cancel,
        List.take_left, rdropWhile_slashes _ (last hg)]
      exact endsInGit_iff.2 ⟨g, hg, List.suffix_append _ _⟩

theorem normalize_some {raw name : Text} (h : normalizeRemoteFullName js provider raw = some name) :
    trimOf isJsSpace provider ≠ [] ∧ isFullName name = true ∧ js.lower
      (((stripGit (trimOf isJsSpace raw)).rdropWhile isSlash).dropWhile isSlash) = name := by
  unfold normalizeRemoteFullName at h
  split at h
  · cases h
  · dsimp only at h
    split at h
    · cases h
    · split at h
      · rename_i hp _ hf
        obtain rfl := Option.some.inj h
        exact ⟨hp, hf, rfl⟩
      · cases h

theorem FullName.git_iff (h : FullName t) : ".git".toList <:+ t ↔ endsInGit t = true := by
  rw [endsInGit_iff]
  constructor
  · exact fun hs => ⟨_, isGit_git, hs⟩
  · rintro ⟨g, hg, hs⟩
    have low : g.map Char.toLower = g := by
      refine (List.map_congr_left fun c hc => ?_).trans (List.map_id g)
      rcases h.chars c (hs.subset hc) with hn | rfl
      · exact isNameChar_lower hn
      · rfl
    rwa [← isGit_iff.1 hg, low]

/-- A name that the server has made is stable, if it has taken off every suffix there was. -/
theorem stable_iff {raw name : Text} (h : normalizeRemoteFullName js provider raw = some name) :
    Stable js provider name ↔ ¬LeavesGit (trimOf isJsSpace raw) := by
  obtain ⟨hp, full, hlower⟩ := normalize_some h
  have hfull := FullName.of_isFullName full
  have left : endsInGit name = true ↔ LeavesGit (trimOf isJsSpace raw) := by
    rw [← endsInGit_strip, ← hlower, endsInGit_lower js (hlower ▸ hfull.ascii)]
  rw [← left, Bool.not_eq_true]
  constructor
  · intro hs
    exact (hfull.normalize_iff full hp).1 hs.again
  · intro hg
    refine ⟨(hfull.normalize_iff full hp).2 hg, ?_, hfull.first, hfull.last⟩
    rw [hfull.git_iff, hg]
    exact Bool.false_ne_true

end server

/-! ### agreement -/

namespace Spelling

/-- What the connector takes for the repository. -/
def derived (s : Spelling) (n : Nat) : Text :=
  if s.suffix = ".git".toList ∧ n = 0 then s.name.repo else s.name.repo ++ s.suffix

theorem url_eq (s : Spelling) :
    s.url = s.form ++ path s.name.owner (s.name.repo ++ s.suffix) s.slashes := by
  simp [url, path]

theorem isName_suffixed (s : Spelling) : IsName (s.name.repo ++ s.suffix) := by
  refine ⟨by simp [s.name.repo_chars.1], fun c hc => ?_⟩
  rcases List.mem_append.1 hc with hc | hc
  · exact s.name.repo_chars.2 c hc
  · rcases s.suffix_git with h | h
    · rw [h] at hc
      cases hc
    · exact (isGit_isName h).2 c hc

/-- Only the suffix in lower case and at the very end is taken off. -/
theorem without (s : Spelling) : ∃ m, (stripEnd ".git".toList s.url).getD s.url =
    s.form ++ path s.name.owner (s.derived s.slashes) m := by
  by_cases h : s.suffix = ".git".toList ∧ s.slashes = 0
  · refine ⟨0, ?_⟩
    have split : s.url = (s.form ++ path s.name.owner s.name.repo 0) ++ ".git".toList := by
      rw [url, h.1, h.2]
      simp [path]
    rw [derived, if_pos h, split, stripEnd_append, Option.getD_some]
  · refine ⟨s.slashes, ?_⟩
    rw [derived, if_neg h, ← url_eq, stripEnd, if_neg, Option.getD_none]
    intro hs
    cases hn : s.slashes with
    | zero =>
      have hs : ".git".toList <:+ s.form ++ s.name.owner ++ '/' :: (s.name.repo ++ s.suffix) := by
        rw [url, hn] at hs
        simpa using hs
      have hs := suffix_after_slash isGit_git hs
      rcases s.suffix_git with hg | hg
      · rw [hg, List.append_nil] at hs
        have := endsInGit_iff.2 ⟨_, isGit_git, hs⟩
        rw [s.name.bare] at this
        cases this
      · have same := List.suffix_of_suffix_length_le (List.suffix_append _ _) hs
          (by rw [isGit_length hg]; decide)
        exact h ⟨same.eq_of_length (isGit_length hg), hn⟩
    | succ n =>
      rw [url, hn, List.replicate_succ', ← List.append_assoc] at hs
      have := suffix_after_slash (t := []) isGit_git hs
      exact absurd (List.suffix_nil.1 this) (by decide)

theorem clean_iff (s : Spelling) : s.Clean ↔ s.derived s.slashes = s.name.repo := by
  unfold Clean derived
  split
  · rename_i h
    exact ⟨fun _ => rfl, fun _ => .inr h⟩
  · rename_i h
    rw [List.append_right_eq_self]
    exact or_iff_left h

end Spelling

theorem RepoName.ascii (name : RepoName) : ∀ c ∈ name.owner ++ '/' :: name.repo, c.toNat < 128 := by
  intro c hc
  rcases List.mem_append.1 hc with hc | hc
  · exact isNameCharAnyCase_ascii (name.owner_chars.2 c hc)
  · rcases List.mem_cons.1 hc with rfl | hc
    · decide
    · exact isNameCharAnyCase_ascii (name.repo_chars.2 c hc)

theorem isFullName_key (name : RepoName) : isFullName name.key = true := by
  have slash {t : Text} (ht : IsName t) : '/' ∉ t.map Char.toLower := by
    intro hm
    obtain ⟨c, hc, hl⟩ := List.mem_map.1 hm
    have := (nameChar_facts (ht.2 c hc)).2.2.2.2.2
    rw [hl] at this
    cases this
  have part {t : Text} (ht : IsName t) : ∀ c ∈ t, isNameChar c.toLower = true :=
    fun c hc => (nameChar_facts (ht.2 c hc)).2.2.2.2.2
  unfold isFullName RepoName.key
  rw [List.splitOn_append_cons_self_of_not_mem (slash name.owner_chars),
    List.splitOn_eq_singleton (slash name.repo_chars)]
  have owner := part name.owner_chars
  have repo := part name.repo_chars
  simpa [name.owner_chars.1, name.repo_chars.1] using ⟨owner, repo⟩

theorem endsInGit_key (name : RepoName) : endsInGit name.key = false := by
  rw [← Bool.not_eq_true, endsInGit_iff]
  rintro ⟨g, hg, hs⟩
  obtain ⟨h, hh, rfl⟩ : ∃ h, h <:+ name.repo ∧ h.map Char.toLower = g := by
    obtain ⟨start, hstart⟩ := suffix_after_slash hg hs
    refine ⟨name.repo.drop start.length, List.drop_suffix _ _, ?_⟩
    rw [List.map_drop, ← hstart, List.drop_left]
  have hg' : isGit h = true := by
    rw [isGit_iff] at hg ⊢
    rwa [List.map_map, show Char.toLower ∘ Char.toLower = Char.toLower from
      funext toLower_toLower] at hg
  have := endsInGit_iff.2 ⟨h, hg', hh⟩
  rw [name.bare] at this
  cases this

theorem agrees_iff (rust js : LowerTable) (s : Spelling) : s.Agrees rust js ↔ s.Clean := by
  obtain ⟨m, hm⟩ := s.without
  have isName : IsName (s.derived s.slashes) := by
    unfold Spelling.derived
    split
    · exact s.name.repo_chars
    · exact s.isName_suffixed
  have derived := resolve_of_rest rust s.form_mem s.name.owner_chars s.isName_suffixed isName
    s.url_eq hm
  have lowered : rust.lower (s.name.owner ++ '/' :: s.derived s.slashes) =
      s.name.owner.map Char.toLower ++ '/' :: (s.derived s.slashes).map Char.toLower := by
    rw [rust.lower_ascii, List.map_append, List.map_cons]
    · rfl
    · intro c hc
      rcases List.mem_append.1 hc with hc | hc
      · exact isNameCharAnyCase_ascii (s.name.owner_chars.2 c hc)
      · rcases List.mem_cons.1 hc with rfl | hc
        · decide
        · exact isNameCharAnyCase_ascii (isName.2 c hc)
  rw [s.clean_iff]
  constructor
  · rintro ⟨identity, hid, hkey, -⟩
    rw [derived] at hid
    obtain rfl := Except.ok.inj hid
    have hkey : s.name.owner.map Char.toLower ++ '/' :: (s.derived s.slashes).map Char.toLower =
        s.name.key := lowered ▸ hkey
    have length := congrArg List.length hkey
    simp only [RepoName.key, List.length_append, List.length_cons, List.length_map] at length
    unfold Spelling.derived at length ⊢
    split
    · rfl
    · rename_i hc
      rw [if_neg hc, List.length_append] at length
      rw [List.append_right_eq_self]
      exact List.length_eq_zero_iff.1 (by omega)
  · intro hd
    refine ⟨_, derived, ?_, ?_⟩
    · show rust.lower _ = _
      rw [lowered, hd]
      rfl
    · show normalizeRemoteFullName js "github".toList (rust.lower _) = some (rust.lower _)
      rw [lowered, hd]
      have full := isFullName_key s.name
      exact ((FullName.of_isFullName full).normalize_iff full (by decide)).2 (endsInGit_key s.name)

/-- The connector and the server agree on a spelling exactly if its suffix is where the connector
looks for it; and a name that the server has made is stable exactly if it was not given one suffix
more than it takes off. -/
theorem repository_identity_iff (rust js : LowerTable) :
    (∀ s : Spelling, s.Agrees rust js ↔ s.Clean) ∧
    ∀ provider raw name, normalizeRemoteFullName js provider raw = some name →
      (Stable js provider name ↔ ¬LeavesGit (trimOf isJsSpace raw)) :=
  ⟨agrees_iff rust js, fun _ _ _ h => stable_iff h⟩

/-- A table for texts in which only ASCII has a lower case. -/
def LowerTable.plain : LowerTable where
  map _ _ c := [c]
  nonempty _ _ c := List.cons_ne_nil _ _
  nonAscii _ _ c hc d hd := by
    rw [List.mem_singleton.1 hd]
    exact hc

theorem repository_identity_iff_sample :
    Stable .plain "github".toList "org/repo".toList := by
  refine ((repository_identity_iff .plain .plain).2 _ "Org/Repo.git".toList _ (by decide)).2 ?_
  rw [← endsInGit_strip]
  decide

/-- A slash behind the suffix hides it from the connector, and a suffix behind another one hides it
from the server. -/
theorem suffix_left :
    (∃ s : Spelling, s.url = "https://github.com/o/r.git/".toList ∧
      ∀ rust js, ¬s.Agrees rust js) ∧
    ∃ raw name, normalizeRemoteFullName .plain "github".toList raw = some name ∧
      normalizeRemoteFullName .plain "github".toList name ≠ some name := by
  refine ⟨⟨⟨"https://github.com/".toList,
    ⟨['o'], ['r'], ⟨by decide, Scan.forall_mem (by decide)⟩,
      ⟨by decide, Scan.forall_mem (by decide)⟩, by decide⟩,
    ".git".toList, 1, by decide, .inr isGit_git⟩, rfl, fun rust js h => ?_⟩,
    "o/r.git.git".toList, "o/r.git".toList, by decide, by decide⟩
  rcases (agrees_iff rust js _).1 h with h | ⟨-, h⟩
  · exact absurd h (by decide)
  · exact absurd h (by decide)

end Ceo.Connector.RepoIdentity
