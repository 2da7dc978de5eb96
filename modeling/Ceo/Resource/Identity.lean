import Mathlib.Data.List.Lex
import Mathlib.Data.List.DropRight
import Ceo.Lib.StableSort
import Ceo.Lib.Pattern
import Ceo.Lib.Scan
import Ceo.Jobs.Contract

/-!
# The identity of a URL

`normalizeUrlSource` (`resource/identity.ts`). A URL object is its record; the
parser, two of the setters and the query strings are parameters, as is the case
table.
-/

namespace Ceo.Resource.Identity

open Ceo.Lib Ceo.Lib.StableSort
open Ceo.Jobs (isJsSpace)

abbrev Text := List Char

/-- A query parameter: name and value. -/
abbrev Param := Text × Text

/-! ### URL objects -/

structure Url where
  /-- Without its colon. -/
  scheme : Text
  username : Text
  password : Text
  host : Option Text
  port : Option Nat
  opaquePath : Bool
  path : Text
  query : Option Text
  fragment : Option Text
  deriving DecidableEq, Repr

namespace Url

variable (u : Url)

def protocol : Text := u.scheme ++ [':']
def hostname : Text := u.host.getD []
def portText : Text := (u.port.map fun n => (toString n).toList).getD []
def hostWithPort : Text := u.hostname ++ (u.port.map fun n => ':' :: (toString n).toList).getD []
def search : Text := (u.query.map fun q => if q = [] then [] else '?' :: q).getD []

def credentials : Text :=
  if u.username = [] ∧ u.password = [] then []
  else u.username ++ (if u.password = [] then [] else ':' :: u.password) ++ ['@']

/-- `toString` -/
def href : Text :=
  u.protocol ++
    (match u.host with
      | some _ => "//".toList ++ u.credentials ++ u.hostWithPort
      | none => if !u.opaquePath && decide ("//".toList <+: u.path) then "/.".toList else []) ++
    u.path ++ (u.query.map fun q => '?' :: q).getD [] ++ (u.fragment.map fun f => '#' :: f).getD []

/-- Spaces at the end of an opaque path go when nothing is behind it. -/
def stripOpaque : Url :=
  if u.opaquePath ∧ u.query = none ∧ u.fragment = none then
    { u with path := u.path.rdropWhile (· == ' ') }
  else u

/-- `hash = ""` -/
def clearHash : Url := { u with fragment := none }.stripOpaque

/-- Without query and fragment. -/
def bare : Url := { u with query := none, fragment := none }

def setQuery (q : Text) : Url :=
  { u with query := if q = [] then none else some q }.stripOpaque

end Url

structure UrlApi where
  parse : Text → Option Url
  setProtocol : Text → Url → Url
  setHostname : Text → Url → Url
  parseQuery : Text → List Param
  serializeQuery : List Param → Text
  lower : Text → Text

namespace UrlApi

variable (api : UrlApi)

/-- What `searchParams` holds. -/
def params (u : Url) : List Param := api.parseQuery (u.query.getD [])

/-- What a change of `searchParams` does to its URL. -/
def update (l : List Param) (u : Url) : Url := u.setQuery (api.serializeQuery l)

end UrlApi

/-! ### the code -/

inductive ResourceKind where
  | video | webpage
  deriving DecidableEq, Repr

structure NormalizedUrlResult where
  sourceIdentity : Text
  canonicalRef : Text
  platform : Text
  platformId : Option Text
  resourceKind : ResourceKind
  deriving DecidableEq, Repr

def trim (t : Text) : Text := (t.dropWhile isJsSpace).rdropWhile isJsSpace

def trackingParams : List Text :=
  ["utm_source".toList, "utm_medium".toList, "utm_campaign".toList, "utm_term".toList,
    "utm_content".toList, "gclid".toList, "fbclid".toList, "spm_id_from".toList,
    "from_source".toList, "from".toList, "si".toList, "ref".toList, "feature".toList,
    "_hsenc".toList, "_hsmi".toList, "mc_cid".toList, "mc_eid".toList]

def isTracking (api : UrlApi) (key : Text) : Bool :=
  trackingParams.contains (api.lower key) || decide ("utm_".toList <+: api.lower key)

/-- `[0-9a-zA-Z]` -/
def isAlnum (c : Char) : Bool :=
  Pattern.digit c || ('a' ≤ c && c ≤ 'z') || ('A' ≤ c && c ≤ 'Z')

/-- `[A-Za-z0-9_-]` -/
def isIdChar (c : Char) : Bool := isAlnum c || c == '_' || c == '-'

/-- `path.split("/")[n] || null` -/
def segment (n : Nat) (path : Text) : Option Text :=
  ((path.splitOn '/')[n]?).filter (!·.isEmpty)

def youtubeHosts : List Text :=
  ["youtube.com".toList, "www.youtube.com".toList, "m.youtube.com".toList, "youtu.be".toList]

def youtubeVideoId (hostname path : Text) (params : List Param) : Option Text :=
  if hostname = "youtu.be".toList then segment 0 (path.drop 1)
  else if path = "/watch".toList then (params.find? (·.1 == ['v'])).map (·.2)
  else if "/shorts/".toList <+: path then segment 2 path
  else if "/live/".toList <+: path then segment 2 path
  else none

/-- `/^[0-9a-zA-Z_-]{10,12}$/` -/
def isVideoId (t : Text) : Bool := 10 ≤ t.length && t.length ≤ 12 && t.all isIdChar

def video (platform id canonicalRef : Text) : NormalizedUrlResult where
  sourceIdentity := platform ++ ':' :: id
  canonicalRef := canonicalRef
  platform := platform
  platformId := some id
  resourceKind := .video

def youtube (api : UrlApi) (hostname : Text) (u : Url) : Option NormalizedUrlResult :=
  if youtubeHosts.contains hostname then
    (youtubeVideoId hostname u.path (api.params u)).bind fun videoId =>
      if !videoId.isEmpty && isVideoId videoId then
        some (video "youtube".toList videoId ("https://www.youtube.com/watch?v=".toList ++ videoId))
      else none
  else none

def bilibiliHosts : List Text :=
  ["bilibili.com".toList, "www.bilibili.com".toList, "m.bilibili.com".toList]

/-- `BV[0-9a-zA-Z]{10}`, ignoring case, at the front. -/
def isBvid (t : Text) : Bool :=
  Pattern.matchChars (Pattern.litAnyCase "bv" ++ Pattern.rep 10 isAlnum) t

/-- The first match of `/(BV[0-9a-zA-Z]{10})/i`. -/
def findBvid : Text → Option Text
  | [] => none
  | c :: cs => if isBvid ((c :: cs).take 12) then some ((c :: cs).take 12) else findBvid cs

def bilibili (hostname : Text) (u : Url) : Option NormalizedUrlResult :=
  if bilibiliHosts.contains hostname then
    (findBvid u.path).map fun bvid =>
      video "bilibili".toList bvid ("https://www.bilibili.com/video/".toList ++ bvid)
  else none

/-- `/^\/sph\/([A-Za-z0-9_-]+)$/` -/
def sphId (path : Text) : Option Text :=
  if "/sph/".toList <+: path ∧ path.drop 5 ≠ [] ∧ (path.drop 5).all isIdChar then some (path.drop 5)
  else none

def weixin (hostname : Text) (u : Url) : Option NormalizedUrlResult :=
  if hostname = "weixin.qq.com".toList then
    (sphId u.path).map fun id =>
      video "weixin".toList id ("https://weixin.qq.com/sph/".toList ++ id)
  else none

/-- The order of code units. -/
def codeUnits (c : Char) : List Nat :=
  if c.toNat < 0x10000 then [c.toNat]
  else [0xD800 + (c.toNat - 0x10000) / 0x400, 0xDC00 + (c.toNat - 0x10000) % 0x400]

def nameLe (a b : Text) : Bool := decide (a.flatMap codeUnits ≤ b.flatMap codeUnits)

/-- `searchParams.delete` of the tracking parameters. -/
def deleteTracking (api : UrlApi) (u : Url) : List Param × Url :=
  let keysToDelete := ((api.params u).map (·.1)).filter (isTracking api)
  keysToDelete.foldl (fun s key =>
    let l := s.1.filter (·.1 != key)
    (l, api.update l s.2)) (api.params u, u)

/-- The URL object in the end. -/
def rewritten (api : UrlApi) (hostname : Text) (u : Url) : Url :=
  let u := api.setProtocol (api.lower u.protocol) u
  let u := api.setHostname hostname u
  let u := u.clearHash
  let u := if (u.protocol = "http:".toList ∧ u.portText = "80".toList) ∨
      (u.protocol = "https:".toList ∧ u.portText = "443".toList) then { u with port := none } else u
  let s := deleteTracking api u
  api.update (sortBy Prod.fst nameLe s.1) s.2

def originOf (u : Url) : Text := u.protocol ++ "//".toList ++ u.hostWithPort

def generic (api : UrlApi) (hostname : Text) (u : Url) : NormalizedUrlResult :=
  let u := rewritten api hostname u
  let normalizedUrl := if u.path = ['/'] ∧ u.search = [] then originOf u else u.href
  { sourceIdentity := "web:".toList ++ normalizedUrl
    canonicalRef := normalizedUrl
    platform := hostname
    platformId := none
    resourceKind := .webpage }

def normalized (api : UrlApi) (u : Url) : NormalizedUrlResult :=
  let hostname := api.lower u.hostname
  match youtube api hostname u with
  | some r => r
  | none =>
    match bilibili hostname u with
    | some r => r
    | none => (weixin hostname u).getD (generic api hostname u)

def normalizeUrlSource (api : UrlApi) (rawUrl : Text) : Except Text NormalizedUrlResult :=
  match api.parse (trim rawUrl) with
  | none => .error ("Invalid URL: ".toList ++ rawUrl)
  | some u => .ok (normalized api u)

/-! ### what is known of URLs -/

/-- The URL objects the code comes to. -/
inductive Object (api : UrlApi) : Url → Prop where
  | parsed {t : Text} {u : Url} (h : api.parse t = some u) : Object api u
  | hash {u : Url} (h : Object api u) : Object api u.clearHash
  | hostname {u : Url} (h : Object api u) : Object api (api.setHostname (api.lower u.hostname) u)
  | params {u : Url} {l : List Param} (h : Object api u) (hl : ∀ p ∈ l, p ∈ api.params u) :
    Object api (api.update l u)

def specialSchemes : List Text :=
  ["http".toList, "https".toList, "ws".toList, "wss".toList, "ftp".toList, "file".toList]

/-- What is parsed from a scheme, a host and a port alone. -/
def bareOrigin (u : Url) : Url where
  scheme := u.scheme
  username := []
  password := []
  host := some u.hostname
  port := u.port
  opaquePath := false
  path := if specialSchemes.contains u.scheme then ['/'] else []
  query := none
  fragment := none

def canonicalHosts : List Text :=
  ["www.youtube.com".toList, "www.bilibili.com".toList, "weixin.qq.com".toList]

theorem canonicalHosts_ascii : ∀ host ∈ canonicalHosts,
    (host.all fun c => decide (c.toNat < 128)) = true ∧ host.map Char.toLower = host :=
  Scan.forall_mem (by decide)

def plainUrl (host path : Text) (query : Option Text) : Url where
  scheme := "https".toList
  username := []
  password := []
  host := some host
  port := none
  opaquePath := false
  path := path
  query := query
  fragment := none

structure Lawful (api : UrlApi) : Prop where
  reparse : ∀ u, Object api u → api.parse u.href = some u
  trimmed : ∀ u, Object api u → trim u.href = u.href
  origin : ∀ u, Object api u → u.path = ['/'] → u.search = [] →
    trim (originOf u) = originOf u ∧ api.parse (originOf u) = some (bareOrigin u)
  plain : ∀ host ∈ canonicalHosts, ∀ path : Text, (∀ c ∈ path, isIdChar c = true ∨ c = '/') →
    path.head? = some '/' → ∀ query : Option Text,
    (∀ q, query = some q → q ≠ [] ∧ ∀ c ∈ q, isIdChar c = true ∨ c = '=') →
      trim (plainUrl host path query).href = (plainUrl host path query).href ∧
        api.parse (plainUrl host path query).href = some (plainUrl host path query)
  ascii : ∀ u, Object api u → ∀ c ∈ u.protocol ++ u.hostname, c.toNat < 128
  protocol : ∀ u, Object api u →
    u.protocol.map Char.toLower = u.protocol ∧ api.setProtocol u.protocol u = u
  setHostname : ∀ u, Object api u → api.setHostname (api.lower u.hostname) u =
    if u.opaquePath then u else { u with host := some (api.lower u.hostname) }
  opaqueHost : ∀ u, Object api u → u.opaquePath = true → u.host = none
  defaultPort : ∀ u, Object api u → ¬((u.protocol = "http:".toList ∧ u.portText = "80".toList) ∨
    (u.protocol = "https:".toList ∧ u.portText = "443".toList))
  query : ∀ q l, (∀ p ∈ l, p ∈ api.parseQuery q) → api.parseQuery (api.serializeQuery l) = l
  noQuery : api.parseQuery [] = [] ∧ api.serializeQuery [] = []
  plainQuery : ∀ id : Text, id ≠ [] → (∀ c ∈ id, isIdChar c = true) →
    api.parseQuery ("v=".toList ++ id) = [(['v'], id)]
  lower : ∀ t : Text, (∀ c ∈ t, c.toNat < 128) → api.lower t = t.map Char.toLower

/-! ### the order of names -/

theorem codeUnits_cons {a b : Char} {s t : Text}
    (h : codeUnits a ++ s.flatMap codeUnits = codeUnits b ++ t.flatMap codeUnits) :
    a = b ∧ s.flatMap codeUnits = t.flatMap codeUnits := by
  have valid (c : Char) : c.toNat < 0xD800 ∨ 0xDFFF < c.toNat ∧ c.toNat < 0x110000 := c.valid
  have ha := valid a
  have hb := valid b
  unfold codeUnits at h
  split at h
  · split at h
    · obtain ⟨hab, h⟩ := List.cons.inj h
      exact ⟨Char.toNat_inj.1 hab, h⟩
    · obtain ⟨hab, -⟩ := List.cons.inj h
      omega
  · split at h
    · obtain ⟨hab, -⟩ := List.cons.inj h
      omega
    · obtain ⟨h₁, h⟩ := List.cons.inj h
      obtain ⟨h₂, h⟩ := List.cons.inj h
      exact ⟨Char.toNat_inj.1 (by omega), h⟩

theorem codeUnits_inj {s t : Text} (h : s.flatMap codeUnits = t.flatMap codeUnits) : s = t := by
  have ne (c : Char) : codeUnits c ≠ [] := by
    unfold codeUnits
    split <;> simp
  induction s generalizing t with
  | nil =>
    cases t with
    | nil => rfl
    | cons b t =>
      rw [List.flatMap_nil, List.flatMap_cons] at h
      exact absurd (List.append_eq_nil_iff.1 h.symm).1 (ne b)
  | cons a s ih =>
    cases t with
    | nil =>
      rw [List.flatMap_nil, List.flatMap_cons] at h
      exact absurd (List.append_eq_nil_iff.1 h).1 (ne a)
    | cons b t =>
      rw [List.flatMap_cons, List.flatMap_cons] at h
      obtain ⟨rfl, rest⟩ := codeUnits_cons h
      rw [ih rest]

theorem nameOrder : Order nameLe where
  trans a b c hab hbc := by
    simp only [nameLe, decide_eq_true_eq] at *
    exact hab.trans hbc
  total a b := by
    simp only [nameLe, Bool.or_eq_true, decide_eq_true_eq]
    exact le_total _ _
  antisymm a b hab hba := by
    simp only [nameLe, decide_eq_true_eq] at *
    exact codeUnits_inj (le_antisymm hab hba)

/-! ### the object in the end -/

namespace Url

variable {u : Url}

theorem stripOpaque_of_not (h : u.opaquePath = false) : u.stripOpaque = u := by
  unfold stripOpaque
  rw [if_neg]
  simp [h]

@[simp] theorem stripOpaque_query : u.stripOpaque.query = u.query := by
  unfold stripOpaque
  split <;> rfl

@[simp] theorem stripOpaque_fragment : u.stripOpaque.fragment = u.fragment := by
  unfold stripOpaque
  split <;> rfl

@[simp] theorem stripOpaque_opaquePath : u.stripOpaque.opaquePath = u.opaquePath := by
  unfold stripOpaque
  split <;> rfl

@[simp] theorem stripOpaque_hostname : u.stripOpaque.hostname = u.hostname := by
  unfold stripOpaque
  split <;> rfl

theorem stripOpaque_stripOpaque : u.stripOpaque.stripOpaque = u.stripOpaque := by
  by_cases h : u.opaquePath ∧ u.query = none ∧ u.fragment = none
  · unfold stripOpaque
    simp only [if_pos h, List.rdropWhile_idempotent]
  · unfold stripOpaque
    simp only [if_neg h]

/-- A query that takes the place of another one. -/
theorem setQuery_stripOpaque {q : Text} (h : u.query = none → q = []) :
    u.stripOpaque.setQuery q = u.setQuery q := by
  by_cases hs : u.opaquePath ∧ u.query = none ∧ u.fragment = none
  · have hq := h hs.2.1
    obtain ⟨ho, hn, hf⟩ := hs
    unfold setQuery stripOpaque
    simp only [ho, hn, hf, hq, if_true, List.rdropWhile_idempotent, and_self]
  · unfold setQuery
    rw [show u.stripOpaque = u from if_neg hs]

theorem setQuery_setQuery {p q : Text} (h : p = [] → q = []) :
    (u.setQuery p).setQuery q = u.setQuery q := by
  have := setQuery_stripOpaque (u := { u with query := if p = [] then none else some p }) (q := q)
    fun hn => h (by
      by_contra hp
      simp [hp] at hn)
  exact this

theorem clearHash_setQuery {q : Text} (h : u.fragment = none) :
    (u.setQuery q).clearHash = u.setQuery q := by
  have hf : (u.setQuery q).fragment = none := by
    unfold setQuery
    rw [stripOpaque_fragment]
    exact h
  have : { u.setQuery q with fragment := none } = u.setQuery q := by rw [← hf]
  unfold clearHash
  rw [this]
  exact stripOpaque_stripOpaque

end Url

section rewriting

variable {api : UrlApi} (law : Lawful api) {u : Url}

include law

/-- The parameters that stay, in their order. -/
def keptParams (api : UrlApi) (u : Url) : List Param :=
  (api.params u).filter fun p => !isTracking api p.1

def canonicalParams (api : UrlApi) (u : Url) : List Param :=
  sortBy Prod.fst nameLe (keptParams api u)

theorem serialize_eq_nil {q : Text} {l : List Param} (hl : ∀ p ∈ l, p ∈ api.parseQuery q) :
    api.serializeQuery l = [] ↔ l = [] := by
  constructor
  · intro h
    rw [← law.query q l hl, h, law.noQuery.1]
  · rintro rfl
    exact law.noQuery.2

theorem update_update {l m : List Param} {q : Text} (hl : ∀ p ∈ l, p ∈ api.parseQuery q)
    (hm : ∀ p ∈ m, p ∈ l) : api.update m (api.update l u) = api.update m u := by
  refine Url.setQuery_setQuery fun h => ?_
  rw [serialize_eq_nil law hl] at h
  have : m = [] := by
    cases m with
    | nil => rfl
    | cons p ps => cases h ▸ hm p List.mem_cons_self
  rw [this, law.noQuery.2]

/-- The deletions one after the other leave what none of them takes, and a later query takes the
place of all that they have written. -/
theorem foldl_delete {q : Text} (keys : List Text) (l : List Param)
    (hl : ∀ p ∈ l, p ∈ api.parseQuery q) (x : Url) :
    (keys.foldl (fun s key => (s.1.filter (·.1 != key), api.update (s.1.filter (·.1 != key)) s.2))
        (l, x)).1 = l.filter (fun p => !keys.contains p.1) ∧
      ∀ m : List Param, (∀ p ∈ m, p ∈ l ∧ p.1 ∉ keys) →
        api.update m (keys.foldl (fun s key =>
          (s.1.filter (·.1 != key), api.update (s.1.filter (·.1 != key)) s.2)) (l, x)).2 =
            api.update m x := by
  induction keys generalizing l x with
  | nil => exact ⟨by simp, fun m _ => rfl⟩
  | cons key keys ih =>
    have sub : ∀ p ∈ l.filter (·.1 != key), p ∈ api.parseQuery q :=
      fun p hp => hl p (List.mem_of_mem_filter hp)
    obtain ⟨hlist, hupdate⟩ := ih (l.filter (·.1 != key)) sub (api.update (l.filter (·.1 != key)) x)
    rw [List.foldl_cons]
    refine ⟨hlist.trans ?_, fun m hm => ?_⟩
    · rw [List.filter_filter]
      refine List.filter_congr fun p _ => ?_
      rw [List.contains_cons, Bool.not_or, Bool.and_comm]
      rfl
    · have hm' : ∀ p ∈ m, p ∈ l.filter (·.1 != key) := fun p hp =>
        List.mem_filter.2 ⟨(hm p hp).1, by
          simpa using fun h : p.1 = key => (hm p hp).2 (h ▸ List.mem_cons_self)⟩
      rw [hupdate m fun p hp => ⟨hm' p hp, fun h => (hm p hp).2 (List.mem_cons_of_mem _ h)⟩]
      exact update_update law sub hm'

/-- The host as the setter leaves it. -/
def hostSet (api : UrlApi) (u : Url) : Url :=
  if u.opaquePath then u else { u with host := some (api.lower u.hostname) }

omit law in
theorem hostSet_query : (hostSet api u).query = u.query := by
  unfold hostSet
  split <;> rfl

/-- What the code does to a URL object, at once. -/
theorem rewritten_eq (h : Object api u) : rewritten api (api.lower u.hostname) u =
    api.update (canonicalParams api u) (hostSet api u).clearHash := by
  have ascii := law.ascii u h
  have protocol := law.protocol u h
  have hp : api.setProtocol (api.lower u.protocol) u = u := by
    rw [law.lower _ fun c hc => ascii c (List.mem_append_left _ hc), protocol.1, protocol.2]
  have hh : api.setHostname (api.lower u.hostname) u = hostSet api u := law.setHostname u h
  have obj : Object api (hostSet api u).clearHash := (hh ▸ h.hostname).hash
  have params : api.params (hostSet api u).clearHash = api.params u := by
    unfold UrlApi.params Url.clearHash
    rw [Url.stripOpaque_query, hostSet_query]
  unfold rewritten
  simp only [hp, hh, if_neg (law.defaultPort _ obj)]
  obtain ⟨hlist, hupdate⟩ := foldl_delete law
    (((api.params u).map (·.1)).filter (isTracking api)) (api.params u) (fun p hp => hp)
    (hostSet api u).clearHash
  have kept : (api.params u).filter (fun p =>
      !(((api.params u).map (·.1)).filter (isTracking api)).contains p.1) = keptParams api u := by
    refine List.filter_congr fun p hp => ?_
    rw [Bool.eq_iff_iff]
    simp only [Bool.not_eq_true', ← Bool.not_eq_true, List.contains_iff_mem, List.mem_filter,
      List.mem_map, not_and]
    exact ⟨fun h => h ⟨p, hp, rfl⟩, fun h _ => h⟩
  unfold deleteTracking
  rw [params]
  rw [hlist, kept]
  refine hupdate (canonicalParams api u) fun p hp => ?_
  have := List.mem_filter.1 (mem_sortBy.1 hp)
  refine ⟨this.1, fun hk => ?_⟩
  have := (List.mem_filter.1 hk).2
  simp_all

omit law in
theorem canonicalParams_mem {p : Param} (hp : p ∈ canonicalParams api u) : p ∈ api.params u :=
  List.mem_of_mem_filter (mem_sortBy.1 hp)

theorem canonicalParams_nil (h : u.query = none) : canonicalParams api u = [] := by
  unfold canonicalParams keptParams UrlApi.params
  rw [h, Option.getD_none, law.noQuery.1]
  simp [sortBy]

theorem rewritten_eq_bare (h : Object api u) : rewritten api (api.lower u.hostname) u =
    api.update (canonicalParams api u) (hostSet api u.bare) := by
  rw [rewritten_eq law h]
  unfold UrlApi.update Url.clearHash
  rw [Url.setQuery_stripOpaque fun hn => ?_]
  · unfold Url.setQuery hostSet Url.bare
    split <;> rfl
  · have hn : u.query = none := by
      exact hostSet_query.symm.trans hn
    rw [canonicalParams_nil law hn, law.noQuery.2]

theorem object_rewritten (h : Object api u) :
    Object api (rewritten api (api.lower u.hostname) u) := by
  have hh : api.setHostname (api.lower u.hostname) u = hostSet api u := law.setHostname u h
  rw [rewritten_eq law h]
  refine Object.params (hh ▸ h.hostname).hash fun p hp => ?_
  unfold UrlApi.params Url.clearHash
  rw [Url.stripOpaque_query, hostSet_query]
  exact canonicalParams_mem hp

theorem params_rewritten (h : Object api u) :
    api.params (rewritten api (api.lower u.hostname) u) = canonicalParams api u := by
  have hq := law.query (u.query.getD []) (canonicalParams api u) fun p hp => canonicalParams_mem hp
  rw [rewritten_eq law h]
  unfold UrlApi.params UrlApi.update Url.setQuery
  rw [Url.stripOpaque_query]
  split
  · next hn =>
    rw [hn] at hq
    exact hq
  · exact hq

theorem hostname_hostSet (h : Object api u) : (hostSet api u).hostname = api.lower u.hostname := by
  unfold hostSet
  split
  · next ho =>
    have hn : u.hostname = [] := by
      unfold Url.hostname
      rw [law.opaqueHost u h ho, Option.getD_none]
    rw [hn, law.lower [] (by simp)]
    rfl
  · rfl

theorem hostname_rewritten (h : Object api u) :
    (rewritten api (api.lower u.hostname) u).hostname = api.lower u.hostname := by
  rw [rewritten_eq law h]
  unfold UrlApi.update Url.setQuery Url.clearHash
  rw [Url.stripOpaque_hostname]
  refine Eq.trans ?_ (hostname_hostSet law h)
  exact Url.stripOpaque_hostname (u := { hostSet api u with fragment := none })

omit law in
theorem toLower_ascii : ∀ n < 128, (Char.ofNat n).toLower.toNat < 128 ∧
    (Char.ofNat n).toLower.toLower = (Char.ofNat n).toLower := by
  decide

theorem lower_lower {t : Text} (h : ∀ c ∈ t, c.toNat < 128) :
    api.lower (api.lower t) = api.lower t := by
  have ascii {c : Char} (hc : c ∈ t) := toLower_ascii c.toNat (h c hc)
  simp only [Char.ofNat_toNat] at ascii
  rw [law.lower t h, law.lower, List.map_map]
  · exact List.map_congr_left fun c hc => (ascii hc).2
  · intro c hc
    obtain ⟨d, hd, rfl⟩ := List.mem_map.1 hc
    exact (ascii hd).1

omit law in
theorem ofKey_keptParams {name : Text} (h : isTracking api name = false) :
    ofKey Prod.fst name (keptParams api u) = ofKey Prod.fst name (api.params u) := by
  unfold ofKey keptParams
  rw [List.filter_filter]
  refine List.filter_congr fun p _ => ?_
  by_cases hp : p.1 = name
  · simp [hp, h]
  · simp [hp]

omit law in
theorem ofKey_canonicalParams {name : Text} (h : isTracking api name = false) :
    ofKey Prod.fst name (canonicalParams api u) = ofKey Prod.fst name (api.params u) := by
  unfold canonicalParams
  rw [ofKey_sortBy nameOrder, ofKey_keptParams h]

omit law in
theorem keptParams_kept {p : Param} (hp : p ∈ keptParams api u) : isTracking api p.1 = false := by
  simpa using (List.mem_filter.1 hp).2

theorem canonicalParams_rewritten (h : Object api u) :
    canonicalParams api (rewritten api (api.lower u.hostname) u) = canonicalParams api u := by
  have kept : keptParams api (rewritten api (api.lower u.hostname) u) = canonicalParams api u := by
    unfold keptParams
    rw [params_rewritten law h]
    refine List.filter_eq_self.2 fun p hp => ?_
    simpa using keptParams_kept (mem_sortBy.1 hp)
  rw [canonicalParams, kept]
  exact sortBy_sortBy nameOrder _

theorem lower_hostname (h : Object api u) :
    api.lower (rewritten api (api.lower u.hostname) u).hostname = api.lower u.hostname := by
  rw [hostname_rewritten law h]
  exact lower_lower law fun c hc => law.ascii u h c (List.mem_append_right _ hc)

theorem rewritten_of_hosted (h : Object api u) (ho : u.opaquePath = false) :
    (rewritten api (api.lower u.hostname) u).path = u.path ∧
      (rewritten api (api.lower u.hostname) u).host = some (api.lower u.hostname) ∧
        (rewritten api (api.lower u.hostname) u).opaquePath = false := by
  have hs : hostSet api u = { u with host := some (api.lower u.hostname) } := by
    simp [hostSet, ho]
  rw [rewritten_eq law h, hs]
  unfold UrlApi.update Url.setQuery Url.clearHash
  rw [Url.stripOpaque_of_not (u := { u with host := some (api.lower u.hostname), fragment := none })
    ho]
  rw [Url.stripOpaque_of_not (by exact ho)]
  exact ⟨rfl, rfl, ho⟩

theorem hostSet_rewritten (h : Object api u) :
    hostSet api (rewritten api (api.lower u.hostname) u) =
      rewritten api (api.lower u.hostname) u := by
  cases ho : u.opaquePath with
  | false =>
    obtain ⟨-, host, notOpaque⟩ := rewritten_of_hosted law h ho
    have lower := lower_hostname law h
    revert host notOpaque lower
    generalize rewritten api (api.lower u.hostname) u = w
    intro host notOpaque lower
    have : { w with host := some (api.lower w.hostname) } = w := by rw [lower, ← host]
    exact (if_neg (by simp [notOpaque])).trans this
  | true =>
    have : (rewritten api (api.lower u.hostname) u).opaquePath = true := by
      rw [rewritten_eq law h]
      unfold UrlApi.update Url.setQuery Url.clearHash
      simp only [Url.stripOpaque_opaquePath]
      simp [hostSet, ho]
    exact if_pos this

/-- What the code does to a URL object changes nothing when it is done again. -/
theorem rewritten_rewritten (h : Object api u) :
    rewritten api (api.lower u.hostname) (rewritten api (api.lower u.hostname) u) =
      rewritten api (api.lower u.hostname) u := by
  have again := rewritten_eq law (object_rewritten law h)
  rw [lower_hostname law h, hostSet_rewritten law h, canonicalParams_rewritten law h] at again
  rw [again]
  have hf : (hostSet api u).clearHash.fragment = none := by
    unfold Url.clearHash
    rw [Url.stripOpaque_fragment]
  rw [rewritten_eq law h]
  unfold UrlApi.update
  rw [Url.clearHash_setQuery hf]
  exact Url.setQuery_setQuery id

/-! ### the pages of the providers -/

/-- The page of a provider. -/
def provided (api : UrlApi) (hostname : Text) (u : Url) : Option NormalizedUrlResult :=
  (youtube api hostname u).or ((bilibili hostname u).or (weixin hostname u))

omit law in
theorem normalized_eq : normalized api u =
    (provided api (api.lower u.hostname) u).getD (generic api (api.lower u.hostname) u) := by
  unfold normalized provided
  dsimp only
  generalize youtube api (api.lower u.hostname) u = y
  generalize bilibili (api.lower u.hostname) u = b
  cases y <;> cases b <;> simp

theorem isTracking_v : isTracking api ['v'] = false := by
  unfold isTracking
  rw [law.lower ['v'] (Scan.forall_mem (by decide))]
  decide

omit law in
theorem provided_congr {u u' : Url} {hostname : Text} (path : hostname ≠ [] → u.path = u'.path)
    (v : ofKey Prod.fst ['v'] (api.params u) = ofKey Prod.fst ['v'] (api.params u')) :
    provided api hostname u = provided api hostname u' := by
  by_cases hn : hostname = []
  · subst hn
    rfl
  · have find (l : List Param) :
        l.find? (·.1 == ['v']) = (ofKey Prod.fst ['v'] l).head? := by
      rw [← List.head?_filter]
      refine congrArg List.head? (List.filter_congr fun p _ => ?_)
      rw [Bool.eq_iff_iff]
      simp
    unfold provided youtube bilibili weixin youtubeVideoId
    rw [path hn, find, v, ← find]

theorem opaque_hostname (h : Object api u) (hn : api.lower u.hostname ≠ []) :
    u.opaquePath = false := by
  by_contra ho
  rw [Bool.not_eq_false] at ho
  refine hn ?_
  unfold Url.hostname
  rw [law.opaqueHost u h ho, Option.getD_none, law.lower [] (by simp)]
  rfl

theorem provided_rewritten (h : Object api u) :
    provided api (api.lower u.hostname) (rewritten api (api.lower u.hostname) u) =
      provided api (api.lower u.hostname) u := by
  refine provided_congr (fun hn => ?_) ?_
  · exact (rewritten_of_hosted law h (opaque_hostname law h hn)).1
  · rw [params_rewritten law h]
    exact ofKey_canonicalParams (isTracking_v law)

omit law in
theorem provided_bare (hostname : Text) {u : Url} (path : u.path = ['/'] ∨ u.path = []) :
    provided api hostname u = none := by
  have bare : segment 0 (u.path.drop 1) = none ∧ u.path ≠ "/watch".toList ∧
      ¬"/shorts/".toList <+: u.path ∧ ¬"/live/".toList <+: u.path ∧ findBvid u.path = none ∧
        sphId u.path = none := by
    rcases path with h | h <;> rw [h] <;> decide
  obtain ⟨segment_none, watch, shorts, live, bvid, sph⟩ := bare
  have id : youtubeVideoId hostname u.path (api.params u) = none := by
    unfold youtubeVideoId
    rw [segment_none, if_neg watch, if_neg shorts, if_neg live, ite_self]
  unfold provided youtube bilibili weixin
  rw [id, bvid, sph]
  simp only [Option.bind_none, Option.map_none, ite_self, Option.or_none]

omit law in
theorem plainUrl_href (host path : Text) (query : Option Text) : (plainUrl host path query).href =
    "https://".toList ++ host ++ path ++ (query.map fun q => '?' :: q).getD [] := by
  simp [plainUrl, Url.href, Url.protocol, Url.credentials, Url.hostWithPort, Url.hostname]

theorem parse_plain {host path : Text} {query : Option Text} (hh : host ∈ canonicalHosts)
    (hp : ∀ c ∈ path, isIdChar c = true ∨ c = '/') (head : path.head? = some '/')
    (hq : ∀ q, query = some q → q ≠ [] ∧ ∀ c ∈ q, isIdChar c = true ∨ c = '=')
    {r : NormalizedUrlResult}
    (provided : provided api host (plainUrl host path query) = some r) :
    normalizeUrlSource api (plainUrl host path query).href = .ok r := by
  obtain ⟨trimmed, parsed⟩ := law.plain host hh path hp head query hq
  have lower : api.lower (plainUrl host path query).hostname = host := by
    show api.lower host = host
    obtain ⟨ascii, lowered⟩ := canonicalHosts_ascii host hh
    rw [law.lower host fun c hc => of_decide_eq_true (List.all_eq_true.1 ascii c hc), lowered]
  unfold normalizeUrlSource
  rw [trimmed, parsed]
  show Except.ok (normalized api _) = _
  rw [normalized_eq, lower, provided, Option.getD_some]

theorem youtube_again {hostname : Text} {r : NormalizedUrlResult}
    (h : youtube api hostname u = some r) : normalizeUrlSource api r.canonicalRef = .ok r := by
  unfold youtube at h
  split at h
  · obtain ⟨id, -, h⟩ := Option.bind_eq_some_iff.1 h
    split at h
    · next hid =>
      cases h
      simp only [Bool.and_eq_true, Bool.not_eq_true', List.isEmpty_eq_false_iff] at hid
      obtain ⟨ne, ok⟩ := hid
      have chars : ∀ c ∈ id, isIdChar c = true := by
        simp only [isVideoId, Bool.and_eq_true, List.all_eq_true] at ok
        exact ok.2
      have found : youtube api "www.youtube.com".toList
          (plainUrl "www.youtube.com".toList "/watch".toList (some ("v=".toList ++ id))) =
            some (video "youtube".toList id ("https://www.youtube.com/watch?v=".toList ++ id)) := by
        have params : api.params (plainUrl "www.youtube.com".toList "/watch".toList
            (some ("v=".toList ++ id))) = [(['v'], id)] := law.plainQuery id ne chars
        have hid : youtubeVideoId "www.youtube.com".toList "/watch".toList [(['v'], id)] =
            some id := by
          unfold youtubeVideoId
          rw [if_neg (by decide), if_pos rfl]
          rfl
        unfold youtube
        rw [if_pos (by decide), params]
        refine (congrArg (Option.bind · _) hid).trans ?_
        exact if_pos (by simp [ne, ok])
      have href : (video "youtube".toList id
          ("https://www.youtube.com/watch?v=".toList ++ id)).canonicalRef =
            (plainUrl "www.youtube.com".toList "/watch".toList (some ("v=".toList ++ id))).href := by
        rw [plainUrl_href]
        rfl
      rw [href]
      refine parse_plain law (by decide) (Scan.forall_mem (by decide)) rfl ?_ ?_
      · rintro q hq
        cases hq
        refine ⟨by simp, fun c hc => ?_⟩
        rcases List.mem_append.1 hc with hc | hc
        · exact Scan.forall_mem (P := fun c => isIdChar c = true ∨ c = '=') (by decide) c hc
        · exact Or.inl (chars c hc)
      · unfold provided
        rw [found, Option.some_or]
    · cases h
  · cases h

omit law in
theorem isBvid_of_findBvid {t b : Text} (h : findBvid t = some b) : isBvid b = true := by
  induction t with
  | nil => cases h
  | cons c cs ih =>
    unfold findBvid at h
    split at h
    · next hb =>
      cases h
      exact hb
    · exact ih h

omit law in
theorem findBvid_video {b : Text} (h : isBvid b = true) :
    findBvid ("/video/".toList ++ b) = some b := by
  have len : b.length = 12 := Pattern.length_of_matchChars h
  have skip {c : Char} {cs : Text} (hc : Pattern.anyCase 'b' c = false) :
      findBvid (c :: cs) = findBvid cs := by
    have : isBvid ((c :: cs).take 12) = false := by
      show (Pattern.anyCase 'b' c && _) = false
      rw [hc, Bool.false_and]
    rw [findBvid, this]
    rfl
  show findBvid ('/' :: 'v' :: 'i' :: 'd' :: 'e' :: 'o' :: '/' :: b) = some b
  iterate 7 rw [skip (by decide)]
  cases b with
  | nil => cases len
  | cons c cs =>
    unfold findBvid
    rw [List.take_of_length_le (by omega), if_pos h]

omit law in
theorem isBvid_chars {b : Text} (h : isBvid b = true) : ∀ c ∈ b, isIdChar c = true := by
  have alnum {p : Pattern} (hp : ∀ q ∈ p, ∀ c, q c = true → isIdChar c = true) {t : Text}
      (ht : Pattern.matchChars p t = true) : ∀ c ∈ t, isIdChar c = true := by
    induction p generalizing t with
    | nil => cases t <;> simp_all [Pattern.matchChars]
    | cons q p ih =>
      cases t with
      | nil => simp
      | cons d ds =>
        simp only [Pattern.matchChars, Bool.and_eq_true] at ht
        rintro c (_ | ⟨_, hc⟩)
        · exact hp q List.mem_cons_self _ ht.1
        · exact ih (fun q hq => hp q (List.mem_cons_of_mem _ hq)) ht.2 c hc
  refine alnum (fun q hq c hc => ?_) h
  rcases List.mem_append.1 hq with hq | hq
  · obtain ⟨d, hd, rfl⟩ := List.mem_map.1 hq
    have letters : ∀ d ∈ "bv".toList, isIdChar d = true ∧ isIdChar d.toUpper = true :=
      Scan.forall_mem (by decide)
    simp only [Pattern.anyCase, Bool.or_eq_true, beq_iff_eq] at hc
    rcases hc with rfl | rfl
    · exact (letters _ hd).1
    · exact (letters _ hd).2
  · obtain ⟨-, rfl⟩ := List.mem_replicate.1 hq
    simp [isIdChar, hc]

theorem bilibili_again {hostname : Text} {r : NormalizedUrlResult}
    (h : bilibili hostname u = some r) : normalizeUrlSource api r.canonicalRef = .ok r := by
  unfold bilibili at h
  split at h
  · obtain ⟨b, hb, rfl⟩ := Option.map_eq_some_iff.1 h
    have ok := isBvid_of_findBvid hb
    have href : (video "bilibili".toList b
        ("https://www.bilibili.com/video/".toList ++ b)).canonicalRef =
          (plainUrl "www.bilibili.com".toList ("/video/".toList ++ b) none).href := by
      rw [plainUrl_href]
      simp [video]
    rw [href]
    refine parse_plain law (by decide) (fun c hc => ?_) rfl (fun q hq => by cases hq) ?_
    · rcases List.mem_append.1 hc with hc | hc
      · exact Scan.forall_mem (P := fun c => isIdChar c = true ∨ c = '/') (by decide) c hc
      · exact Or.inl (isBvid_chars ok c hc)
    · unfold provided youtube bilibili
      rw [if_neg (by decide), if_pos (by decide)]
      show Option.or none (Option.or ((findBvid ("/video/".toList ++ b)).map _) _) = _
      rw [findBvid_video ok]
      rfl
  · cases h

theorem weixin_again {hostname : Text} {r : NormalizedUrlResult}
    (h : weixin hostname u = some r) : normalizeUrlSource api r.canonicalRef = .ok r := by
  unfold weixin at h
  split at h
  · obtain ⟨id, hid, rfl⟩ := Option.map_eq_some_iff.1 h
    unfold sphId at hid
    split at hid
    · next found =>
      obtain ⟨-, ne, all⟩ := found
      cases hid
      revert ne all
      generalize u.path.drop 5 = id
      intro ne all
      have href : (video "weixin".toList id ("https://weixin.qq.com/sph/".toList ++ id)).canonicalRef =
          (plainUrl "weixin.qq.com".toList ("/sph/".toList ++ id) none).href := by
        rw [plainUrl_href]
        simp [video]
      rw [href]
      refine parse_plain law (by decide) (fun c hc => ?_) rfl (fun q hq => by cases hq) ?_
      · rcases List.mem_append.1 hc with hc | hc
        · exact Scan.forall_mem (P := fun c => isIdChar c = true ∨ c = '/') (by decide) c hc
        · exact Or.inl (List.all_eq_true.1 all c hc)
      · have sph : sphId ("/sph/".toList ++ id) = some id := by
          unfold sphId
          rw [if_pos ⟨List.prefix_append _ _, ne, all⟩]
          rfl
        unfold provided youtube bilibili weixin
        rw [if_neg (by decide), if_neg (by decide), if_pos rfl]
        show Option.or none (Option.or none ((sphId ("/sph/".toList ++ id)).map _)) = _
        rw [sph]
        rfl
    · cases hid
  · cases h

theorem provided_again {hostname : Text} {r : NormalizedUrlResult}
    (h : provided api hostname u = some r) : normalizeUrlSource api r.canonicalRef = .ok r := by
  unfold provided at h
  rcases Option.or_eq_some_iff.1 h with h | ⟨-, h⟩
  · exact youtube_again law h
  · rcases Option.or_eq_some_iff.1 h with h | ⟨-, h⟩
    · exact bilibili_again law h
    · exact weixin_again law h

/-! ### the canonical URL again -/

theorem originOf_again (h : Object api u) (path : u.path = ['/']) (search : u.search = [])
    (lower : api.lower u.hostname = u.hostname) :
    ∃ v, api.parse (trim (originOf u)) = some v ∧
      normalized api v =
        { sourceIdentity := "web:".toList ++ originOf u
          canonicalRef := originOf u
          platform := u.hostname
          platformId := none
          resourceKind := .webpage } := by
  obtain ⟨trimmed, parsed⟩ := law.origin u h path search
  have obj : Object api (bareOrigin u) := .parsed parsed
  have lower' : api.lower (bareOrigin u).hostname = u.hostname := lower
  have bare : (bareOrigin u).path = ['/'] ∨ (bareOrigin u).path = [] := by
    unfold bareOrigin
    split <;> simp
  have same : rewritten api (api.lower (bareOrigin u).hostname) (bareOrigin u) = bareOrigin u := by
    have hs : hostSet api (bareOrigin u) = bareOrigin u := by
      have : { bareOrigin u with host := some (api.lower (bareOrigin u).hostname) } =
          bareOrigin u := by
        rw [lower']
        rfl
      exact (if_neg (by simp [bareOrigin])).trans this
    rw [rewritten_eq law obj, hs, canonicalParams_nil law rfl]
    unfold UrlApi.update
    rw [law.noQuery.2]
    unfold Url.setQuery Url.clearHash
    rw [Url.stripOpaque_of_not (u := { bareOrigin u with fragment := none }) rfl]
    exact Url.stripOpaque_of_not rfl
  refine ⟨bareOrigin u, by rw [trimmed, parsed], ?_⟩
  rw [normalized_eq, lower', provided_bare _ bare, Option.getD_none]
  unfold generic
  rw [← lower', same, lower']
  have url : (if (bareOrigin u).path = ['/'] ∧ (bareOrigin u).search = [] then
      originOf (bareOrigin u) else (bareOrigin u).href) = originOf u := by
    split
    · rfl
    · next hno =>
      have hpath : (bareOrigin u).path = [] :=
        bare.resolve_left fun hp => hno ⟨hp, rfl⟩
      unfold Url.href
      rw [hpath]
      simp [bareOrigin, originOf, Url.protocol, Url.credentials, Url.hostWithPort, Url.hostname]
  simp only [url]

theorem generic_again (h : Object api u) (hno : provided api (api.lower u.hostname) u = none) :
    normalizeUrlSource api (generic api (api.lower u.hostname) u).canonicalRef =
      .ok (generic api (api.lower u.hostname) u) := by
  have obj := object_rewritten law h
  have lower := lower_hostname law h
  have none := (provided_rewritten law h).trans hno
  have again := rewritten_rewritten law h
  have hostname := hostname_rewritten law h
  unfold generic normalizeUrlSource
  revert obj lower none again hostname
  generalize rewritten api (api.lower u.hostname) u = w
  intro obj lower none again hostname
  by_cases hroot : w.path = ['/'] ∧ w.search = []
  · simp only [if_pos hroot]
    obtain ⟨v, parsed, normal⟩ := originOf_again law obj hroot.1 hroot.2 (lower.trans hostname.symm)
    rw [parsed]
    show Except.ok (normalized api v) = _
    rw [normal, hostname]
  · simp only [if_neg hroot]
    rw [law.trimmed w obj, law.reparse w obj]
    show Except.ok (normalized api w) = _
    rw [normalized_eq, lower, none, Option.getD_none]
    unfold generic
    rw [again]
    simp only [if_neg hroot]

theorem normalized_again (h : Object api u) :
    normalizeUrlSource api (normalized api u).canonicalRef = .ok (normalized api u) := by
  rw [normalized_eq]
  cases hp : provided api (api.lower u.hostname) u with
  | none => exact generic_again law h hp
  | some r => exact provided_again law hp

/-! ### the same page -/

/-- The URLs differ in the fragment, in tracking parameters and in the order of parameters of
different names. Without other parameters an opaque path loses the spaces at its end. -/
structure SamePage (api : UrlApi) (u u' : Url) : Prop where
  rest : u.bare = u'.bare ∨ keptParams api u = [] ∧ u.bare.stripOpaque = u'.bare.stripOpaque
  kept : ∀ name, isTracking api name = false →
    ofKey Prod.fst name (api.params u) = ofKey Prod.fst name (api.params u')

section pages

variable {u' : Url} (same : SamePage api u u')

include same

omit law in
theorem SamePage.opaquePath : u.opaquePath = u'.opaquePath := by
  rcases same.rest with h | ⟨-, h⟩
  · have := congrArg Url.opaquePath h
    exact this
  · have := congrArg Url.opaquePath h
    rwa [Url.stripOpaque_opaquePath, Url.stripOpaque_opaquePath] at this

omit law in
theorem SamePage.bare_eq (ho : u.opaquePath = false) : u.bare = u'.bare := by
  rcases same.rest with h | ⟨-, h⟩
  · exact h
  · rwa [Url.stripOpaque_of_not (by exact ho),
      Url.stripOpaque_of_not (by exact same.opaquePath ▸ ho)] at h

omit law in
theorem SamePage.hostname : u.hostname = u'.hostname := by
  rcases same.rest with h | ⟨-, h⟩
  · have := congrArg Url.hostname h
    exact this
  · have := congrArg Url.hostname h
    rwa [Url.stripOpaque_hostname, Url.stripOpaque_hostname] at this

omit law in
theorem SamePage.canonicalParams : canonicalParams api u = canonicalParams api u' := by
  refine sortBy_congr nameOrder fun name => ?_
  cases tracking : isTracking api name with
  | false => rw [ofKey_keptParams tracking, ofKey_keptParams tracking, same.kept name tracking]
  | true =>
    have none (v : Url) : ofKey Prod.fst name (keptParams api v) = [] := by
      refine List.filter_eq_nil_iff.2 fun p hp => ?_
      have := keptParams_kept hp
      intro hk
      have hk : p.1 = name := by simpa using hk
      rw [hk, tracking] at this
      cases this
    rw [none, none]

theorem SamePage.rewritten (h : Object api u) (h' : Object api u') :
    rewritten api (api.lower u.hostname) u = rewritten api (api.lower u'.hostname) u' := by
  rw [rewritten_eq_bare law h, rewritten_eq_bare law h', same.canonicalParams]
  cases ho : u.opaquePath with
  | false => rw [same.bare_eq ho]
  | true =>
    rcases same.rest with bare | ⟨none, bare⟩
    · rw [bare]
    · have canonical : Identity.canonicalParams api u' = [] := by
        rw [← same.canonicalParams, Identity.canonicalParams, none]
        simp [sortBy]
      have hs : hostSet api u.bare = u.bare := if_pos ho
      have hs' : hostSet api u'.bare = u'.bare := if_pos (same.opaquePath ▸ ho)
      rw [canonical, hs, hs']
      unfold UrlApi.update
      rw [law.noQuery.2]
      exact bare

theorem SamePage.normalized (h : Object api u) (h' : Object api u') :
    normalized api u = normalized api u' := by
  have provided : provided api (api.lower u.hostname) u =
      provided api (api.lower u'.hostname) u' := by
    rw [← same.hostname]
    refine provided_congr (fun hn => ?_) (same.kept _ (isTracking_v law))
    have := congrArg Url.path (same.bare_eq (opaque_hostname law h hn))
    exact this
  have generic : generic api (api.lower u.hostname) u = generic api (api.lower u'.hostname) u' := by
    unfold Identity.generic
    rw [same.rewritten law h h', ← same.hostname]
  rw [normalized_eq, normalized_eq, provided, generic]

end pages

end rewriting

/-- A canonical URL is its own, with its identity; URLs of the same page have one identity. -/
theorem url_identity (api : UrlApi) (law : Lawful api) :
    (∀ raw r, normalizeUrlSource api raw = .ok r →
      normalizeUrlSource api r.canonicalRef = .ok r) ∧
    ∀ raw raw' u u', api.parse (trim raw) = some u → api.parse (trim raw') = some u' →
      SamePage api u u' →
      ∃ r, normalizeUrlSource api raw = .ok r ∧ normalizeUrlSource api raw' = .ok r := by
  refine ⟨fun raw r h => ?_, fun raw raw' u u' hu hu' same => ⟨normalized api u, ?_, ?_⟩⟩
  · unfold normalizeUrlSource at h
    split at h
    · cases h
    · next u hu =>
      cases h
      exact normalized_again law (.parsed hu)
  · unfold normalizeUrlSource
    rw [hu]
  · unfold normalizeUrlSource
    rw [hu', same.normalized law (.parsed hu) (.parsed hu')]

/-! ### an instance

The https URLs whose characters need no encoding, with their queries. -/

def isHostChar (c : Char) : Bool := Pattern.digit c || ('a' ≤ c && c ≤ 'z') || c == '.' || c == '-'
def isPathChar (c : Char) : Bool := isIdChar c || c == '/'
def isQueryChar (c : Char) : Bool := isIdChar c || c == '=' || c == '&'

/-- Such a URL, with its fragment. -/
def simpleUrl (host path : Text) (query fragment : Option Text) : Url :=
  { plainUrl host path query with fragment := fragment }

def isSimple (u : Url) : Bool :=
  u == simpleUrl u.hostname u.path u.query u.fragment &&
    (!u.hostname.isEmpty && u.hostname.all isHostChar) &&
    (u.path.head? == some '/' && u.path.all isPathChar) &&
    u.query.all (·.all isQueryChar) && u.fragment.all (·.all isIdChar)

def splitUrl (t : Text) : Url :=
  let host := (t.drop 8).takeWhile isHostChar
  let afterHost := (t.drop 8).dropWhile isHostChar
  let path := afterHost.takeWhile isPathChar
  let afterPath := afterHost.dropWhile isPathChar
  let hasQuery := afterPath.head? == some '?'
  let query := if hasQuery then some ((afterPath.drop 1).takeWhile isQueryChar) else none
  let rest := if hasQuery then (afterPath.drop 1).dropWhile isQueryChar else afterPath
  simpleUrl host (if path = [] then ['/'] else path) query
    (if rest.head? == some '#' then some (rest.drop 1) else none)

def splitQuery (q : Text) : List Param :=
  ((q.splitOn '&').filter (!·.isEmpty)).map fun t =>
    (t.takeWhile (· != '='), (t.dropWhile (· != '=')).drop 1)

def pairText (p : Param) : Text := p.1 ++ '=' :: p.2

def simpleApi : UrlApi where
  parse t :=
    let u := splitUrl t
    if isSimple u && (t == u.href || t == originOf u) then some u else none
  setProtocol _ u := u
  setHostname h u := if u.opaquePath then u else { u with host := some h }
  parseQuery := splitQuery
  serializeQuery l := ['&'].intercalate (l.map pairText)
  lower t := t.map Char.toLower

theorem splitAt {p : Char → Bool} {s t : Text} (hs : s.all p = true)
    (ht : ∀ c, t.head? = some c → p c = false) :
    (s ++ t).takeWhile p = s ∧ (s ++ t).dropWhile p = t := by
  have hs := List.all_eq_true.1 hs
  rw [List.takeWhile_append_of_pos hs, List.dropWhile_append_of_pos hs]
  cases t with
  | nil => simp
  | cons c t => simp [ht c rfl]

section simple

variable {u : Url}

/-- What a simple URL is made of. -/
theorem isSimple_iff : isSimple u = true ↔
    ∃ host path query fragment, u = simpleUrl host path query fragment ∧ host ≠ [] ∧
      host.all isHostChar = true ∧ path.head? = some '/' ∧ path.all isPathChar = true ∧
      query.all (·.all isQueryChar) = true ∧ fragment.all (·.all isIdChar) = true := by
  unfold isSimple
  simp only [Bool.and_eq_true, beq_iff_eq, Bool.not_eq_true', List.isEmpty_eq_false_iff]
  constructor
  · rintro ⟨⟨⟨⟨hu, ne, host⟩, head, path⟩, query⟩, fragment⟩
    exact ⟨_, _, _, _, hu, ne, host, head, path, query, fragment⟩
  · rintro ⟨host, path, query, fragment, rfl, ne, hh, head, hp, hq, hf⟩
    exact ⟨⟨⟨⟨rfl, ne, hh⟩, head, hp⟩, hq⟩, hf⟩

theorem simpleUrl_href (host path : Text) (query fragment : Option Text) :
    (simpleUrl host path query fragment).href = "https://".toList ++ (host ++ (path ++
      ((query.map fun q => '?' :: q).getD [] ++ (fragment.map fun f => '#' :: f).getD []))) := by
  simp [simpleUrl, plainUrl, Url.href, Url.protocol, Url.credentials, Url.hostWithPort,
    Url.hostname]

theorem splitUrl_href (h : isSimple u = true) : splitUrl u.href = u := by
  obtain ⟨host, path, query, fragment, rfl, -, hh, head, hp, hq, hf⟩ := isSimple_iff.1 h
  rw [simpleUrl_href]
  have hpath := splitAt (t := path ++ ((query.map fun q => '?' :: q).getD [] ++
    (fragment.map fun f => '#' :: f).getD [])) hh (fun c hc => by
      cases path with
      | nil => cases head
      | cons d ds =>
        cases head
        cases hc
        decide)
  have htail := splitAt (t := (query.map fun q => '?' :: q).getD [] ++
    (fragment.map fun f => '#' :: f).getD []) hp (fun c hc => by
      cases query with
      | some q =>
        cases hc
        decide
      | none =>
        cases fragment with
        | some f =>
          cases hc
          decide
        | none => cases hc)
  have hne : path ≠ [] := by rintro rfl; cases head
  unfold splitUrl
  simp only [show ∀ t : Text, ("https://".toList ++ t).drop 8 = t from fun _ => rfl, hpath, htail,
    if_neg hne]
  cases query with
  | none => cases fragment <;> simp
  | some q =>
    have hquery := splitAt (s := q) (t := (fragment.map fun f => '#' :: f).getD []) hq
      (fun c hc => by
        cases fragment with
        | some f =>
          cases hc
          decide
        | none => cases hc)
    simp only [Option.map_some, Option.getD_some, List.cons_append, List.head?_cons,
      beq_self_eq_true, if_true, List.drop_succ_cons, List.drop_zero, hquery]
    cases fragment <;> simp

theorem mem_intercalate {x c : Char} {ls : List Text} :
    c ∈ [x].intercalate ls → c = x ∨ ∃ l ∈ ls, c ∈ l := by
  induction ls with
  | nil => intro h; cases h
  | cons l ls ih =>
    cases ls with
    | nil =>
      rw [List.intercalate_singleton]
      exact fun h => Or.inr ⟨l, List.mem_cons_self, h⟩
    | cons m ls =>
      rw [List.intercalate_cons_cons]
      intro h
      rcases List.mem_append.1 h with h | h
      · rcases List.mem_append.1 h with h | h
        · exact Or.inr ⟨l, List.mem_cons_self, h⟩
        · exact Or.inl (List.mem_singleton.1 h)
      · rcases ih h with h | ⟨k, hk, h⟩
        · exact Or.inl h
        · exact Or.inr ⟨k, List.mem_cons_of_mem _ hk, h⟩

theorem mem_splitOn {a : Char} {q : Text} : ∀ t ∈ q.splitOn a, a ∉ t ∧ ∀ c ∈ t, c ∈ q := by
  induction q with
  | nil => simp
  | cons d q ih =>
    rw [List.splitOn_cons_eq_if_modifyHead]
    split
    · rintro t (_ | ⟨_, ht⟩)
      · simp
      · exact (ih t ht).imp_right fun h c hc => List.mem_cons_of_mem _ (h c hc)
    · next hd =>
      generalize q.splitOn a = pieces at ih
      cases pieces with
      | nil => intro t ht; cases ht
      | cons s pieces =>
        obtain ⟨clean, sub⟩ := ih s List.mem_cons_self
        rintro t (_ | ⟨_, ht⟩)
        · refine ⟨fun h => ?_, fun c hc => ?_⟩
          · rcases List.mem_cons.1 h with rfl | h
            · simp at hd
            · exact clean h
          · rcases List.mem_cons.1 hc with rfl | hc
            · exact List.mem_cons_self
            · exact List.mem_cons_of_mem _ (sub c hc)
        · exact (ih t (List.mem_cons_of_mem _ ht)).imp_right
            fun h c hc => List.mem_cons_of_mem _ (h c hc)

/-- A name has no `=`, and neither half a `&`; their characters are the query's. -/
theorem mem_splitQuery {q : Text} {p : Param} (h : p ∈ splitQuery q) :
    '=' ∉ p.1 ∧ '&' ∉ pairText p ∧ ∀ c ∈ pairText p, c ∈ q ∨ c = '=' := by
  obtain ⟨t, ht, rfl⟩ := List.mem_map.1 h
  obtain ⟨clean, sub⟩ := mem_splitOn t (List.mem_of_mem_filter ht)
  have mem : ∀ c ∈ pairText (t.takeWhile (· != '='), (t.dropWhile (· != '=')).drop 1),
      c ∈ t ∨ c = '=' := by
    intro c hc
    rcases List.mem_append.1 hc with hc | hc
    · exact Or.inl ((List.takeWhile_sublist _).subset hc)
    · rcases List.mem_cons.1 hc with rfl | hc
      · exact Or.inr rfl
      · exact Or.inl ((List.dropWhile_sublist _).subset (List.mem_of_mem_drop hc))
  refine ⟨fun h => ?_, fun h => ?_, fun c hc => (mem c hc).imp_left (sub c)⟩
  · have := List.mem_takeWhile_imp h
    simp at this
  · rcases mem _ h with h | h
    · exact clean h
    · cases h

theorem splitQuery_serialize {q : Text} {l : List Param} (hl : ∀ p ∈ l, p ∈ splitQuery q) :
    splitQuery (['&'].intercalate (l.map pairText)) = l := by
  cases l with
  | nil => rfl
  | cons p ps =>
    have pieces : ∀ t ∈ (p :: ps).map pairText, '&' ∉ t := by
      intro t ht
      obtain ⟨r, hr, rfl⟩ := List.mem_map.1 ht
      exact (mem_splitQuery (hl r hr)).2.1
    unfold splitQuery
    rw [List.splitOn_intercalate '&' pieces (by simp)]
    rw [List.filter_eq_self.2 fun t ht => by
      obtain ⟨r, hr, rfl⟩ := List.mem_map.1 ht
      simp [pairText]]
    rw [List.map_map]
    refine (List.map_congr_left fun r hr => ?_).trans (List.map_id _)
    obtain ⟨name, -, -⟩ := mem_splitQuery (hl r hr)
    have half := splitAt (p := (· != '=')) (s := r.1) (t := '=' :: r.2) (by
      rw [List.all_eq_true]
      rintro c hc
      rw [bne_iff_ne]
      rintro rfl
      exact name hc) (fun c hc => by cases hc; rfl)
    show ((pairText r).takeWhile _, ((pairText r).dropWhile _).drop 1) = r
    unfold pairText
    rw [half.1, half.2]
    rfl

theorem hostChar_lower {c : Char} (h : isHostChar c = true) : c.toNat < 128 ∧ c.toLower = c := by
  have small : c.toNat < 128 := by
    simp only [isHostChar, Pattern.digit, Bool.or_eq_true, Bool.and_eq_true, decide_eq_true_eq,
      Char.le_def, UInt32.le_iff_toNat_le, beq_iff_eq] at h
    rcases h with ((⟨-, h⟩ | ⟨-, h⟩) | rfl) | rfl
    · exact Nat.lt_of_le_of_lt h (by decide)
    · exact Nat.lt_of_le_of_lt h (by decide)
    · decide
    · decide
  have lower : ∀ n < 128, isHostChar (Char.ofNat n) = true →
      (Char.ofNat n).toLower = Char.ofNat n := by decide
  have := lower c.toNat small
  rw [Char.ofNat_toNat] at this
  exact ⟨small, this h⟩

theorem simple_setHostname (h : isSimple u = true) :
    simpleApi.setHostname (simpleApi.lower u.hostname) u = u := by
  obtain ⟨host, path, query, fragment, rfl, -, hh, -⟩ := isSimple_iff.1 h
  have lower : host.map Char.toLower = host :=
    (List.map_congr_left fun c hc => (hostChar_lower (List.all_eq_true.1 hh c hc)).2).trans
      (List.map_id _)
  show { simpleUrl host path query fragment with host := some (host.map Char.toLower) } = _
  rw [lower]
  rfl

theorem simple_object (h : Object simpleApi u) : isSimple u = true := by
  induction h with
  | parsed h =>
    change (if _ then _ else _) = _ at h
    split at h
    · next hs =>
      cases h
      exact (Bool.and_eq_true_iff.1 hs).1
    · cases h
  | hash _ ih =>
    obtain ⟨host, path, query, fragment, rfl, ne, hh, head, hp, hq, hf⟩ := isSimple_iff.1 ih
    rw [Url.clearHash, Url.stripOpaque_of_not rfl]
    exact isSimple_iff.2 ⟨host, path, query, none, rfl, ne, hh, head, hp, hq, rfl⟩
  | hostname _ ih =>
    rw [simple_setHostname ih]
    exact ih
  | @params u l _ hl ih =>
    obtain ⟨host, path, query, fragment, rfl, ne, hh, head, hp, hq, hf⟩ := isSimple_iff.1 ih
    rw [UrlApi.update, Url.setQuery, Url.stripOpaque_of_not rfl]
    by_cases hs : simpleApi.serializeQuery l = []
    · rw [if_pos hs]
      exact isSimple_iff.2 ⟨host, path, none, fragment, rfl, ne, hh, head, hp, rfl, hf⟩
    · rw [if_neg hs]
      refine isSimple_iff.2 ⟨host, path, some _, fragment, rfl, ne, hh, head, hp, ?_, hf⟩
      refine List.all_eq_true.2 fun c hc => ?_
      rcases mem_intercalate hc with rfl | ⟨t, ht, hc⟩
      · decide
      · obtain ⟨r, hr, rfl⟩ := List.mem_map.1 ht
        rcases (mem_splitQuery (hl r hr)).2.2 c hc with hc | rfl
        · cases query with
          | none => cases hc
          | some q => exact List.all_eq_true.1 hq c hc
        · decide

theorem trim_eq_self {t : Text} (h : ∀ c ∈ t, isJsSpace c = false) : trim t = t := by
  have front : t.dropWhile isJsSpace = t := by
    cases t with
    | nil => rfl
    | cons c t => rw [List.dropWhile_cons, if_neg (by simp [h c List.mem_cons_self])]
  unfold trim
  rw [front, List.rdropWhile_eq_self_iff]
  exact fun hne => by simp [h _ (List.getLast_mem hne)]

/-- What a simple URL is written in. -/
def isUrlChar (c : Char) : Bool :=
  isHostChar c || isIdChar c || "https:/?#=&".toList.contains c

theorem urlChar_not_space {c : Char} (h : isUrlChar c = true) : isJsSpace c = false := by
  have small : c.toNat < 128 := by
    simp only [isUrlChar, Bool.or_eq_true, List.contains_iff_mem] at h
    rcases h with (h | h) | h
    · exact (hostChar_lower h).1
    · simp only [isIdChar, isAlnum, Pattern.digit, Bool.or_eq_true, Bool.and_eq_true,
        decide_eq_true_eq, Char.le_def, UInt32.le_iff_toNat_le, beq_iff_eq] at h
      rcases h with (((⟨-, h⟩ | ⟨-, h⟩) | ⟨-, h⟩) | rfl) | rfl
      · exact Nat.lt_of_le_of_lt h (by decide)
      · exact Nat.lt_of_le_of_lt h (by decide)
      · exact Nat.lt_of_le_of_lt h (by decide)
      · decide
      · decide
    · exact Scan.forall_mem (P := fun c => c.toNat < 128) (by decide) c h
  have spaceless : ∀ n < 128, isUrlChar (Char.ofNat n) = true → isJsSpace (Char.ofNat n) = false := by
    decide +kernel
  have := spaceless c.toNat small
  rw [Char.ofNat_toNat] at this
  exact this h

theorem urlChar_of_all {p : Char → Bool} (hp : ∀ c, p c = true → isUrlChar c = true) {t : Text}
    (h : t.all p = true) : t.all isUrlChar = true :=
  List.all_eq_true.2 fun c hc => hp c (List.all_eq_true.1 h c hc)

theorem isUrlChar_host (c : Char) (h : isHostChar c = true) : isUrlChar c = true := by
  simp [isUrlChar, h]

theorem isUrlChar_id (c : Char) (h : isIdChar c = true) : isUrlChar c = true := by
  simp [isUrlChar, h]

theorem isUrlChar_path (c : Char) (h : isPathChar c = true) : isUrlChar c = true := by
  simp only [isPathChar, Bool.or_eq_true, beq_iff_eq] at h
  rcases h with h | rfl
  · exact isUrlChar_id c h
  · decide

theorem isUrlChar_query (c : Char) (h : isQueryChar c = true) : isUrlChar c = true := by
  simp only [isQueryChar, Bool.or_eq_true, beq_iff_eq] at h
  rcases h with (h | rfl) | rfl
  · exact isUrlChar_id c h
  · decide
  · decide

theorem trim_simple (h : isSimple u = true) : trim u.href = u.href := by
  obtain ⟨host, path, query, fragment, rfl, -, hh, -, hp, hq, hf⟩ := isSimple_iff.1 h
  have all : (simpleUrl host path query fragment).href.all isUrlChar = true := by
    rw [simpleUrl_href]
    simp only [List.all_append, Bool.and_eq_true]
    refine ⟨by decide, urlChar_of_all isUrlChar_host hh, urlChar_of_all isUrlChar_path hp, ?_, ?_⟩
    · cases query with
      | none => rfl
      | some q => exact Bool.and_eq_true_iff.2 ⟨by decide, urlChar_of_all isUrlChar_query hq⟩
    · cases fragment with
      | none => rfl
      | some f => exact Bool.and_eq_true_iff.2 ⟨by decide, urlChar_of_all isUrlChar_id hf⟩
  exact trim_eq_self fun c hc => urlChar_not_space (List.all_eq_true.1 all c hc)

theorem origin_simple (h : isSimple u = true) :
    trim (originOf u) = originOf u ∧ simpleApi.parse (originOf u) = some (bareOrigin u) := by
  obtain ⟨host, path, query, fragment, rfl, ne, hh, -⟩ := isSimple_iff.1 h
  have origin : originOf (simpleUrl host path query fragment) = "https://".toList ++ host := by
    simp [originOf, simpleUrl, plainUrl, Url.protocol, Url.hostWithPort, Url.hostname]
  have bare : bareOrigin (simpleUrl host path query fragment) =
      simpleUrl host ['/'] none none := by
    simp [bareOrigin, simpleUrl, plainUrl, Url.hostname, specialSchemes]
  have simple : isSimple (simpleUrl host ['/'] none none) = true :=
    isSimple_iff.2 ⟨host, ['/'], none, none, rfl, ne, hh, rfl, by decide, rfl, rfl⟩
  have split : splitUrl ("https://".toList ++ host) = simpleUrl host ['/'] none none := by
    have hhost := splitAt (t := []) hh (fun c hc => by cases hc)
    rw [List.append_nil] at hhost
    unfold splitUrl
    simp only [show ("https://".toList ++ host).drop 8 = host from rfl, hhost]
    rfl
  rw [origin, bare]
  constructor
  · refine trim_eq_self fun c hc => urlChar_not_space ?_
    rcases List.mem_append.1 hc with hc | hc
    · exact Scan.forall_mem (P := fun c => isUrlChar c = true) (by decide) c hc
    · exact isUrlChar_host c (List.all_eq_true.1 hh c hc)
  · have again : originOf (simpleUrl host ['/'] none none) = "https://".toList ++ host := by
      simp [originOf, simpleUrl, plainUrl, Url.protocol, Url.hostWithPort, Url.hostname]
    change (if _ then _ else _) = _
    rw [split, simple, again, beq_self_eq_true, Bool.or_true, Bool.and_true, if_pos rfl]

theorem parse_simple (h : isSimple u = true) : simpleApi.parse u.href = some u := by
  change (if _ then _ else _) = _
  rw [splitUrl_href h, h, beq_self_eq_true, Bool.true_or, Bool.and_true, if_pos rfl]

theorem simple_plain {host path : Text} {query : Option Text} (hh : host ∈ canonicalHosts)
    (hp : ∀ c ∈ path, isIdChar c = true ∨ c = '/') (head : path.head? = some '/')
    (hq : ∀ q, query = some q → q ≠ [] ∧ ∀ c ∈ q, isIdChar c = true ∨ c = '=') :
    isSimple (plainUrl host path query) = true := by
  have hosts : ∀ host ∈ canonicalHosts, host ≠ [] ∧ host.all isHostChar = true :=
    Scan.forall_mem (by decide)
  refine isSimple_iff.2 ⟨host, path, query, none, rfl, (hosts host hh).1, (hosts host hh).2, head,
    ?_, ?_, rfl⟩
  · exact List.all_eq_true.2 fun c hc => by simpa [isPathChar] using hp c hc
  · cases query with
    | none => rfl
    | some q =>
      refine List.all_eq_true.2 fun c hc => ?_
      rcases (hq q rfl).2 c hc with h | h
      · simp [isQueryChar, h]
      · simp [isQueryChar, h]

theorem splitQuery_plain {id : Text} (h : ∀ c ∈ id, isIdChar c = true) :
    splitQuery ("v=".toList ++ id) = [(['v'], id)] := by
  have clean : '&' ∉ "v=".toList ++ id := by
    intro hc
    rcases List.mem_append.1 hc with hc | hc
    · exact absurd hc (by decide)
    · exact absurd (h _ hc) (by decide)
  unfold splitQuery
  rw [List.splitOn_eq_singleton clean]
  rfl

theorem lawful_simpleApi : Lawful simpleApi where
  reparse _ h := parse_simple (simple_object h)
  trimmed _ h := trim_simple (simple_object h)
  origin _ h _ _ := origin_simple (simple_object h)
  plain _ hh _ hp head _ hq :=
    have simple := simple_plain hh hp head hq
    ⟨trim_simple simple, parse_simple simple⟩
  ascii u h c hc := by
    obtain ⟨host, path, query, fragment, rfl, -, hh, -⟩ := isSimple_iff.1 (simple_object h)
    rcases List.mem_append.1 hc with hc | hc
    · exact Scan.forall_mem (P := fun c => c.toNat < 128) (l := "https:".toList) (by decide) c hc
    · exact (hostChar_lower (List.all_eq_true.1 hh c hc)).1
  protocol u h := by
    obtain ⟨host, path, query, fragment, rfl, -⟩ := isSimple_iff.1 (simple_object h)
    exact ⟨by show "https:".toList.map _ = "https:".toList; decide, rfl⟩
  setHostname _ _ := rfl
  opaqueHost u h ho := by
    obtain ⟨host, path, query, fragment, rfl, -⟩ := isSimple_iff.1 (simple_object h)
    cases ho
  defaultPort u h := by
    obtain ⟨host, path, query, fragment, rfl, -⟩ := isSimple_iff.1 (simple_object h)
    rintro (⟨-, hp⟩ | ⟨-, hp⟩) <;> cases hp
  query _ _ hl := splitQuery_serialize hl
  noQuery := ⟨rfl, rfl⟩
  plainQuery _ _ h := splitQuery_plain h
  lower _ _ := rfl

end simple

theorem url_identity_simple :
    ∃ r, normalizeUrlSource simpleApi
        "https://example.com/a?b=1&a=2&utm_source=x#top".toList = .ok r ∧
      normalizeUrlSource simpleApi "https://example.com/a?a=2&b=1".toList = .ok r :=
  (url_identity simpleApi lawful_simpleApi).2 _ _
    (simpleUrl "example.com".toList "/a".toList (some "b=1&a=2&utm_source=x".toList)
      (some "top".toList))
    (simpleUrl "example.com".toList "/a".toList (some "a=2&b=1".toList) none)
    (by decide +kernel) (by decide +kernel)
    { rest := .inl rfl
      kept := by
        intro name tracking
        have first : simpleApi.params (simpleUrl "example.com".toList "/a".toList
            (some "b=1&a=2&utm_source=x".toList) (some "top".toList)) =
              [(['b'], ['1']), (['a'], ['2']), ("utm_source".toList, ['x'])] := by decide +kernel
        have second : simpleApi.params (simpleUrl "example.com".toList "/a".toList
            (some "a=2&b=1".toList) none) = [(['a'], ['2']), (['b'], ['1'])] := by decide +kernel
        rw [first, second]
        have utm : "utm_source".toList ≠ name := by
          rintro rfl
          exact absurd tracking (by decide)
        unfold ofKey
        by_cases ha : ['a'] = name
        · subst ha
          decide
        · by_cases hb : ['b'] = name
          · subst hb
            decide
          · generalize "utm_source".toList = utmSource at utm
            simp [ha, hb, utm] }

end Ceo.Resource.Identity
