import Ceo.Resource.Capture

/-!
# One resource for an identity, and one for a hash

What each call of the resource service does to the identities and the hashes of
the resources, and the calls under which no two resources share one.
-/

namespace Ceo.Resource

open Ceo.Lib Ceo.Jobs

/-! ### lookups of one match -/

theorem length_eraseDups_le_one {l : List String} :
    l.eraseDups.length ≤ 1 ↔ ∀ a ∈ l, ∀ b ∈ l, a = b := by
  cases l with
  | nil => simp
  | cons x xs =>
    rw [List.eraseDups_cons]
    constructor
    · intro h
      have hnil : (xs.filter fun b => !b == x).eraseDups = [] := by
        rw [List.length_cons] at h
        exact List.eq_nil_of_length_eq_zero (by omega)
      have same : ∀ a ∈ x :: xs, a = x := by
        intro a ha
        rcases List.mem_cons.1 ha with rfl | ha
        · rfl
        · by_contra hne
          have hmem : a ∈ (xs.filter fun b => !b == x).eraseDups :=
            List.mem_eraseDups.2 (List.mem_filter.2 ⟨ha, by simpa using hne⟩)
          rw [hnil] at hmem
          cases hmem
      intro a ha b hb
      rw [same a ha, same b hb]
    · intro h
      have hnil : (xs.filter fun b => !b == x) = [] :=
        List.filter_eq_nil_iff.2 fun b hb => by
          simp [h b (List.mem_cons_of_mem _ hb) x List.mem_cons_self]
      rw [hnil]
      simp

theorem onlyMatch_ok_iff {message : String → String} {found : List LocatedResource}
    {result : Option LocatedResource} :
    onlyMatch message found = .ok result ↔
      (∀ r ∈ found, ∀ r' ∈ found, r.resourceId = r'.resourceId) ∧ result = found.head? := by
  have hsame : (found.map (·.resourceId)).eraseDups.length ≤ 1 ↔
      ∀ r ∈ found, ∀ r' ∈ found, r.resourceId = r'.resourceId := by
    rw [length_eraseDups_le_one]
    simp only [List.forall_mem_map]
  rw [← hsame]
  unfold onlyMatch
  dsimp only
  split
  next h => exact ⟨fun h => (by cases h), fun ⟨h', _⟩ => absurd h (by omega)⟩
  next h =>
    constructor
    · intro hr
      cases hr
      exact ⟨by omega, rfl⟩
    · rintro ⟨-, rfl⟩
      rfl

/-- A lookup that the members that match agree on finds one of them, if there is one. -/
theorem onlyMatch_filter {message : String → String} {s : Store} {p : LocatedResource → Bool}
    (same : ∀ r ∈ s.items, ∀ r' ∈ s.items, p r = true → p r' = true →
      r.resourceId = r'.resourceId) :
    onlyMatch message (s.items.filter p) = .ok (s.items.filter p).head? :=
  onlyMatch_ok_iff.2 ⟨fun r hr r' hr' =>
    same r (List.mem_filter.1 hr).1 r' (List.mem_filter.1 hr').1 (List.mem_filter.1 hr).2
      (List.mem_filter.1 hr').2, rfl⟩

theorem onlyMatch_filter_of_mem {message : String → String} {s : Store}
    {p : LocatedResource → Bool} {r : LocatedResource} (hr : r ∈ s.items) (hp : p r = true)
    (same : ∀ r ∈ s.items, ∀ r' ∈ s.items, p r = true → p r' = true →
      r.resourceId = r'.resourceId) :
    onlyMatch message (s.items.filter p) = .ok (some r) := by
  rw [onlyMatch_filter same]
  cases hh : (s.items.filter p).head? with
  | none =>
    rw [List.head?_eq_none_iff] at hh
    have : r ∈ s.items.filter p := List.mem_filter.2 ⟨hr, hp⟩
    rw [hh] at this
    cases this
  | some r' =>
    obtain ⟨hr', hp'⟩ := List.mem_filter.1 (List.mem_of_head? hh)
    rw [Keyed.eq_of_key hr' hr (same r' hr' r hr hp' hp)]

theorem onlyMatch_some {message : String → String} {s : Store} {p : LocatedResource → Bool}
    {r : LocatedResource} (h : onlyMatch message (s.items.filter p) = .ok (some r)) :
    r ∈ s.items ∧ p r = true :=
  List.mem_filter.1 (List.mem_of_head? (onlyMatch_ok_iff.1 h).2.symm)

theorem onlyMatch_none {message : String → String} {s : Store} {p : LocatedResource → Bool}
    (h : onlyMatch message (s.items.filter p) = .ok none) : ∀ r ∈ s.items, p r = false := by
  have hnil := List.head?_eq_none_iff.1 (onlyMatch_ok_iff.1 h).2.symm
  intro r hr
  simpa using List.filter_eq_nil_iff.1 hnil r hr

/-! ### operations -/

variable {w : Services} {s : Store}

/-- The content of the first asset that is attached. -/
def firstAttached : List ResourceOperation → Option (List UInt8)
  | [] => none
  | .attachSourceAsset _ _ data :: _ => some data
  | .other :: operations => firstAttached operations

/-- What operations leave of a resource, and what they can make of its hash and identity. -/
structure Executed (w : Services) (s : Store) (operations : List ResourceOperation)
    (r r' : LocatedResource) : Prop where
  resourceId : r'.resourceId = r.resourceId
  sourceAliases : r'.sourceAliases = r.sourceAliases
  sourceType : r'.sourceType = r.sourceType
  sourceHash : r'.sourceHash = r.sourceHash ∨ ∃ h, r'.sourceHash = some h ∧
    ∀ other ∈ s.items, other.resourceId ≠ r.resourceId → other.sourceHash ≠ some h
  sourceIdentity : r'.sourceIdentity =
    r.sourceIdentity.or ((firstAttached operations).map (fileIdentity w))

theorem findResourceByHash_none {hash exclude : String}
    (h : findResourceByHash s hash exclude = none) :
    ∀ r ∈ s.items, r.resourceId ≠ exclude → r.sourceHash ≠ some hash := by
  intro r hr hne heq
  have := List.find?_eq_none.1 h r hr
  simp [heq, hne] at this

theorem executeResourceOperation_executed {op : ResourceOperation} {r r' : LocatedResource}
    (h : executeResourceOperation w s r op = .ok r') : Executed w s [op] r r' := by
  unfold executeResourceOperation at h
  split at h
  · cases h
    exact ⟨rfl, rfl, rfl, .inl rfl, (Option.or_none).symm⟩
  next filename mimeType data =>
    split at h
    · cases h
    split at h
    · cases h
    next hnone =>
      cases h
      exact ⟨rfl, rfl, rfl, .inr ⟨_, rfl, findResourceByHash_none hnone⟩, rfl⟩

theorem executeResourceOperations_executed {operations : List ResourceOperation}
    {r r' : LocatedResource} (h : executeResourceOperations w s r operations = .ok r') :
    Executed w s operations r r' := by
  induction operations generalizing r with
  | nil =>
    cases h
    exact ⟨rfl, rfl, rfl, .inl rfl, (Option.or_none).symm⟩
  | cons op operations ih =>
    unfold executeResourceOperations at h
    rw [List.foldlM_cons] at h
    cases hop : executeResourceOperation w s r op with
    | error e =>
      rw [hop] at h
      cases h
    | ok m =>
      rw [hop] at h
      have first := executeResourceOperation_executed hop
      have rest := ih h
      refine ⟨rest.resourceId.trans first.resourceId, rest.sourceAliases.trans first.sourceAliases,
        rest.sourceType.trans first.sourceType, ?_, ?_⟩
      · rcases rest.sourceHash with hrest | ⟨hash, hrest, hothers⟩
        · rw [hrest]
          exact first.sourceHash
        · exact .inr ⟨hash, hrest, first.resourceId ▸ hothers⟩
      · rw [rest.sourceIdentity, first.sourceIdentity, Option.or_assoc]
        cases op <;> rfl

theorem answersTo_iff {r : LocatedResource} {i : String} :
    r.answersTo i = true ↔ r.sourceIdentity = some i ∨ i ∈ r.sourceAliases := by
  rw [LocatedResource.answersTo, Bool.or_eq_true, beq_iff_eq, List.contains_iff_mem]

theorem Executed.answersTo {operations : List ResourceOperation} {r r' : LocatedResource}
    (h : Executed w s operations r r') {i : String} (hi : r'.answersTo i = true) :
    r.answersTo i = true ∨ r.sourceIdentity = none ∧
      ∃ data, firstAttached operations = some data ∧ i = fileIdentity w data := by
  rw [answersTo_iff, h.sourceAliases, h.sourceIdentity] at hi
  rw [answersTo_iff]
  cases hr : r.sourceIdentity with
  | some j =>
    rw [hr] at hi
    exact .inl hi
  | none =>
    rw [hr, Option.none_or] at hi
    rcases hi with hi | hi
    · obtain ⟨data, hdata, hfile⟩ := Option.map_eq_some_iff.1 hi
      exact .inr ⟨rfl, data, hdata, hfile.symm⟩
    · exact .inl (.inr hi)

theorem Executed.keeps_answer {operations : List ResourceOperation} {r r' : LocatedResource}
    (h : Executed w s operations r r') {i : String} (hi : r.answersTo i = true) :
    r'.answersTo i = true := by
  rw [answersTo_iff] at hi ⊢
  rw [h.sourceAliases, h.sourceIdentity]
  rcases hi with hi | hi
  · rw [hi]
    exact .inl rfl
  · exact .inr hi

/-! ### the revisit of a URL -/

theorem mem_addAlias {r : LocatedResource} {aliasSet : List String} {i j : String} :
    (r.sourceIdentity = some j ∨ j ∈ addAlias r aliasSet i) ↔
      (r.sourceIdentity = some j ∨ j ∈ aliasSet) ∨ j = i := by
  unfold addAlias
  by_cases h : some i ≠ r.sourceIdentity ∧ i ∉ aliasSet
  · rw [if_pos h, List.mem_append, List.mem_singleton, or_assoc]
  · rw [if_neg h]
    refine ⟨.inl, fun hj => hj.elim id ?_⟩
    rintro rfl
    rw [not_and_or, not_not, not_not] at h
    exact h.imp Eq.symm id

theorem mem_grownAliases {r : LocatedResource} {c : ResourceLookupCriteria} {j : String} :
    (r.sourceIdentity = some j ∨ j ∈ grownAliases r c) ↔
      r.answersTo j = true ∨ j = c.preferredIdentity ∨ j = c.baselineIdentity := by
  unfold grownAliases
  rw [mem_addAlias, mem_addAlias, List.mem_eraseDups, answersTo_iff, or_assoc]

theorem applyResolverRevisitUpdates_fields (r : LocatedResource)
    (metadata : Option ContentMetadataV1) :
    let r' := (applyResolverRevisitUpdates w r metadata).1
    r'.resourceId = r.resourceId ∧ r'.sourceAliases = r.sourceAliases ∧
      r'.sourceType = r.sourceType ∧ r'.sourceIdentity = r.sourceIdentity ∧
      r'.sourceHash = r.sourceHash := by
  unfold applyResolverRevisitUpdates
  cases metadata with
  | none => exact ⟨rfl, rfl, rfl, rfl, rfl⟩
  | some m =>
    dsimp only
    split <;> exact ⟨rfl, rfl, rfl, rfl, rfl⟩

/-- What a revisit leaves of a resource; it answers to its old identities and, where the attempt is
fresh, to the two it was looked for by. -/
structure Revisited (c : ResourceLookupCriteria) (fresh : Bool) (r r' : LocatedResource) :
    Prop where
  resourceId : r'.resourceId = r.resourceId
  sourceType : r'.sourceType = r.sourceType
  sourceIdentity : r'.sourceIdentity = r.sourceIdentity
  sourceHash : r'.sourceHash = r.sourceHash
  answersTo : ∀ i, r'.answersTo i = true ↔ r.answersTo i = true ∨
    fresh = true ∧ (i = c.preferredIdentity ∨ i = c.baselineIdentity)

theorem aliased_revisited (c : ResourceLookupCriteria) (r : LocatedResource) :
    Revisited c true r (updateAliases r c) := by
  unfold updateAliases aliasChanged
  by_cases h : grownAliases r c = r.sourceAliases.eraseDups
  · rw [if_neg (by simp [h])]
    refine ⟨rfl, rfl, rfl, rfl, fun i => ?_⟩
    have hi := mem_grownAliases (r := r) (c := c) (j := i)
    rw [h, List.mem_eraseDups, ← answersTo_iff] at hi
    simpa using hi
  · rw [if_pos (by simp [h])]
    refine ⟨rfl, rfl, rfl, rfl, fun i => ?_⟩
    rw [answersTo_iff]
    simpa using mem_grownAliases (r := r) (c := c) (j := i)

theorem Revisited.of_fields {c : ResourceLookupCriteria} {fresh : Bool} {r r' r'' : LocatedResource}
    (h : Revisited c fresh r r') (hid : r''.resourceId = r'.resourceId)
    (haliases : r''.sourceAliases = r'.sourceAliases) (htype : r''.sourceType = r'.sourceType)
    (hidentity : r''.sourceIdentity = r'.sourceIdentity)
    (hhash : r''.sourceHash = r'.sourceHash) : Revisited c fresh r r'' := by
  refine ⟨hid.trans h.resourceId, htype.trans h.sourceType, hidentity.trans h.sourceIdentity,
    hhash.trans h.sourceHash, fun i => ?_⟩
  rw [answersTo_iff, haliases, hidentity, ← answersTo_iff]
  exact h.answersTo i

theorem revisitUrl_revisited (p : Prepared) (c : ResourceLookupCriteria) (r : LocatedResource) :
    Revisited c (freshAttempt p.attempt r).isSome r (revisitUrl w p c r) := by
  unfold revisitUrl
  cases hfresh : freshAttempt p.attempt r with
  | none => exact ⟨rfl, rfl, rfl, rfl, fun i => by simp⟩
  | some current =>
    have aliased := aliased_revisited c r
    obtain ⟨hid, haliases, htype, hidentity, hhash⟩ :=
      applyResolverRevisitUpdates_fields (w := w) (updateAliases r c) p.metadata
    dsimp only
    split <;> split <;> exact aliased.of_fields hid haliases htype hidentity hhash

theorem revisit_keeps (p : Prepared) (r : LocatedResource) :
    (revisit w p r).resourceId = r.resourceId ∧
      ∀ i, r.answersTo i = true → (revisit w p r).answersTo i = true := by
  unfold revisit
  split
  next c _ =>
    have hrev := revisitUrl_revisited (w := w) p c r
    exact ⟨hrev.resourceId, fun i hi => (hrev.answersTo i).2 (.inl hi)⟩
  · exact ⟨rfl, fun _ h => h⟩
  · exact ⟨rfl, fun _ h => h⟩

/-! ### the conditions -/

/-- Neither two resources that answer to one identity, nor two with one hash. -/
structure Kept (s : Store) : Prop where
  identity : Keyed.Apart (fun r i => LocatedResource.answersTo r i = true) s
  hash : Keyed.Apart (fun r h => r.sourceHash = some h) s
  /-- What has no identity was captured by a file descriptor. -/
  identified : ∀ r ∈ s.items, r.sourceIdentity = none → r.sourceAliases = [] ∧ r.sourceType ≠ .url

/-- No other resource answers to the identity of the content that is attached first. -/
def AttachKeeps (w : Services) (s : Store) (resourceId : String)
    (operations : List ResourceOperation) : Prop :=
  ∀ data, firstAttached operations = some data →
    ∀ r ∈ s.items, r.resourceId ≠ resourceId → r.answersTo (fileIdentity w data) = false

def SourceKeeps (w : Services) (s : Store) (input : CaptureInput) : Prop :=
  match input.source with
  | .url url outcome =>
    ∀ norm, w.normalizeUrlSource url = .ok norm →
      (∀ r ∈ s.items, ∀ r' ∈ s.items,
        (urlCriteria w norm outcome.metadata).matchesUrl r = true →
        (urlCriteria w norm outcome.metadata).matchesUrl r' = true →
        r.resourceId = r'.resourceId) ∧
      ∀ r ∈ s.items, (urlCriteria w norm outcome.metadata).matchesUrl r = true →
        r.answersTo norm.sourceIdentity = true ∨
          (freshAttempt outcome.attemptRecord r).isSome = true
  | .fileDescriptor _ _ => AttachKeeps w s input.resourceId input.initialOperations
  | .fileInline _ _ data =>
    ∀ r ∈ s.items, r.sourceHash = some (fileHash w data) → r.answersTo (fileIdentity w data) = true
  | .externalRef _ _ _ => True

/-- The calls that leave identities and hashes apart. -/
def Keeps (w : Services) (s : Store) : ServiceCall → Prop
  | .capture input => SourceKeeps w s input
  | .apply resourceId operations =>
    ∀ r ∈ s.items, r.resourceId = resourceId → r.sourceIdentity = none →
      AttachKeeps w s resourceId operations
  | .managed _ _ | .delete _ => True

/-! ### replacing and adding -/

theorem Kept.put {r r' : LocatedResource} (hs : Kept s) (hr : r ∈ s.items)
    (hid : r'.resourceId = r.resourceId)
    (identity : ∀ i, r'.answersTo i = true → r.answersTo i = true ∨
      ∀ other ∈ s.items, other.resourceId ≠ r.resourceId → other.answersTo i = false)
    (hash : r'.sourceHash = r.sourceHash ∨ ∃ h, r'.sourceHash = some h ∧
      ∀ other ∈ s.items, other.resourceId ≠ r.resourceId → other.sourceHash ≠ some h)
    (identified : r'.sourceIdentity = none → r'.sourceAliases = [] ∧ r'.sourceType ≠ .url) :
    Kept (s.put r') := by
  refine ⟨hs.identity.put hr hid fun i hi => ?_, hs.hash.put hr hid fun h hh => ?_, ?_⟩
  · refine (identity i hi).imp id fun hothers other hother hne => ?_
    rw [hothers other hother hne]
    exact Bool.false_ne_true
  · rcases hash with hsame | ⟨h', hh', hothers⟩
    · exact .inl (hsame ▸ hh)
    · rw [hh'] at hh
      cases hh
      exact .inr hothers
  · intro b hb
    rcases (Keyed.mem_put hr hid).1 hb with rfl | ⟨hb, -⟩
    · exact identified
    · exact hs.identified b hb

theorem Kept.add {r : LocatedResource} (hs : Kept s)
    (fresh : r.resourceId ∉ s.items.map (·.resourceId))
    (identity : ∀ i, r.answersTo i = true → ∀ other ∈ s.items, other.answersTo i = false)
    (hash : ∀ h, r.sourceHash = some h → ∀ other ∈ s.items, other.sourceHash ≠ some h)
    (identified : r.sourceIdentity = none → r.sourceAliases = [] ∧ r.sourceType ≠ .url) :
    Kept (s.add r) := by
  refine ⟨hs.identity.add fresh fun i hi other hother => ?_, hs.hash.add fresh hash, ?_⟩
  · rw [identity i hi other hother]
    exact Bool.false_ne_true
  · intro b hb
    rcases (Keyed.mem_add fresh).1 hb with rfl | hb
    · exact identified
    · exact hs.identified b hb

/-! ### what a source is looked for by -/

/-- The identities a new resource gets from its source. -/
def Lookup.identities : Lookup → List String
  | .url c => [c.preferredIdentity, c.baselineIdentity]
  | .identity sourceIdentity => [sourceIdentity]
  | .provisional => []

structure FreshFrom (p : Prepared) : Prop where
  resourceId : ∀ id, (p.fresh id).resourceId = id
  answersTo : ∀ id i, (p.fresh id).answersTo i = true ↔ i ∈ p.lookup.identities
  identified : ∀ id, (p.fresh id).sourceIdentity = none →
    p.lookup = .provisional ∧ (p.fresh id).sourceAliases = [] ∧ (p.fresh id).sourceType ≠ .url

theorem answersTo_own {r : LocatedResource} {i j : String} (hid : r.sourceIdentity = some j)
    (haliases : r.sourceAliases = []) : r.answersTo i = true ↔ i ∈ [j] := by
  rw [answersTo_iff, hid, haliases, List.mem_singleton, Option.some.injEq]
  exact ⟨fun h => (h.resolve_right List.not_mem_nil).symm, fun h => .inl h.symm⟩

theorem prepareUrl_ok {url : String} {outcome : ResolverOutcome} {p : Prepared}
    (h : prepareUrl w url outcome = .ok p) :
    ∃ norm, w.normalizeUrlSource url = .ok norm ∧
      p.lookup = .url (urlCriteria w norm outcome.metadata) ∧ p.attempt = outcome.attemptRecord ∧
      FreshFrom p ∧ ∀ id, (p.fresh id).sourceHash = none := by
  unfold prepareUrl at h
  cases hnorm : w.normalizeUrlSource url with
  | error e =>
    rw [hnorm] at h
    cases h
  | ok norm =>
    rw [hnorm] at h
    change (checkProviderId w norm outcome.metadata >>= fun _ => _) = Except.ok p at h
    cases hcheck : checkProviderId w norm outcome.metadata with
    | error e =>
      rw [hcheck] at h
      cases h
    | ok u =>
      rw [hcheck] at h
      cases h
      refine ⟨norm, rfl, rfl, rfl, ⟨fun _ => rfl, fun id i => ?_, fun id h => (by cases h)⟩,
        fun _ => rfl⟩
      rw [answersTo_iff]
      dsimp only [Lookup.identities]
      rw [List.mem_pair, Option.some.injEq]
      split
      next hsame =>
        constructor
        · rintro (h | h)
          · exact .inl h.symm
          · cases h
        · rintro (h | h)
          · exact .inl h.symm
          · exact .inl (hsame.trans h.symm)
      next => rw [List.mem_singleton, eq_comm]; rfl

theorem prepareSource_fresh {source : ResourceSource} {p : Prepared}
    (h : prepareSource w source = .ok p) : FreshFrom p := by
  cases source with
  | url url outcome =>
    obtain ⟨norm, -, -, -, hfresh, -⟩ := prepareUrl_ok h
    exact hfresh
  | fileDescriptor filename hostRef =>
    cases h
    exact ⟨fun _ => rfl, fun id i => by simp [answersTo_iff, Lookup.identities],
      fun _ _ => ⟨rfl, rfl, nofun⟩⟩
  | fileInline filename mimeType data =>
    rw [prepareSource] at h
    split at h
    · cases h
    · cases h
      exact ⟨fun _ => rfl, fun _ _ => answersTo_own rfl rfl, fun _ h => (by cases h)⟩
  | externalRef provider ref canonicalRef =>
    cases h
    exact ⟨fun _ => rfl, fun _ _ => answersTo_own rfl rfl, fun _ h => (by cases h)⟩

/-- The resource is one a lookup of this kind finds. -/
def Lookup.finds : Lookup → LocatedResource → Bool
  | .url c, r => c.matchesUrl r
  | .identity sourceIdentity, r => r.answersTo sourceIdentity
  | .provisional, _ => false

theorem findExisting_some {p : Prepared} {r : LocatedResource}
    (h : findExisting s p = .ok (some r)) : r ∈ s.items ∧ p.lookup.finds r = true := by
  unfold findExisting at h
  cases hl : p.lookup with
  | url c =>
    rw [hl] at h
    exact onlyMatch_some h
  | identity i =>
    rw [hl] at h
    exact onlyMatch_some h
  | provisional =>
    rw [hl] at h
    cases h

theorem findExisting_none {p : Prepared} (h : findExisting s p = .ok none) :
    ∀ r ∈ s.items, p.lookup.finds r = false := by
  unfold findExisting at h
  cases hl : p.lookup with
  | url c =>
    rw [hl] at h
    exact onlyMatch_none h
  | identity i =>
    rw [hl] at h
    exact onlyMatch_none h
  | provisional => exact fun _ _ => rfl

/-- What answers to one of the identities is found. -/
theorem finds_of_answersTo {l : Lookup} {r : LocatedResource} {i : String}
    (hi : i ∈ l.identities) (hr : r.answersTo i = true) : l.finds r = true := by
  cases l with
  | url c =>
    rw [Lookup.finds, ResourceLookupCriteria.matchesUrl]
    rcases List.mem_pair.1 hi with rfl | rfl <;> simp [hr]
  | identity j =>
    rw [List.mem_singleton.1 hi] at hr
    exact hr
  | provisional => cases hi

theorem Kept.identity_ne_none (hs : Kept s) {l : Lookup} {r : LocatedResource} (hr : r ∈ s.items)
    (hfinds : l.finds r = true) : r.sourceIdentity ≠ none := by
  intro hnone
  obtain ⟨haliases, htype⟩ := hs.identified r hr hnone
  have hno (i : String) : r.answersTo i = false := by
    rw [← Bool.not_eq_true, answersTo_iff, hnone, haliases]
    simp
  cases l with
  | url c =>
    rw [Lookup.finds, ResourceLookupCriteria.matchesUrl, hno, hno] at hfinds
    simp [htype] at hfinds
  | identity i =>
    rw [Lookup.finds, hno] at hfinds
    cases hfinds
  | provisional => cases hfinds

/-! ### steps -/

/-- The members that a lookup finds agree. -/
def Lookup.Agrees (s : Store) (l : Lookup) : Prop :=
  ∀ r ∈ s.items, ∀ r' ∈ s.items, l.finds r = true → l.finds r' = true →
    r.resourceId = r'.resourceId

theorem Kept.agrees (hs : Kept s) (i : String) : (Lookup.identity i).Agrees s :=
  fun r hr r' hr' h h' => hs.identity r hr r' hr' i h h'

theorem SourceKeeps.agrees (hs : Kept s) {input : CaptureInput} (hk : SourceKeeps w s input)
    {p : Prepared} (hp : prepareSource w input.source = .ok p) : p.lookup.Agrees s := by
  unfold SourceKeeps at hk
  cases hsource : input.source with
  | url url outcome =>
    rw [hsource] at hk hp
    obtain ⟨norm, hnorm, hlookup, -⟩ := prepareUrl_ok hp
    rw [hlookup]
    exact (hk norm hnorm).1
  | fileDescriptor filename hostRef =>
    rw [hsource] at hp
    cases hp
    exact fun _ _ _ _ h => (by cases h)
  | fileInline filename mimeType data =>
    rw [hsource, prepareSource] at hp
    split at hp
    · cases hp
    · cases hp
      exact hs.agrees _
  | externalRef provider ref canonicalRef =>
    rw [hsource] at hp
    cases hp
    exact hs.agrees _

theorem revisit_found {p : Prepared} (agrees : p.lookup.Agrees s) {r : LocatedResource}
    (hr : r ∈ s.items) (hfinds : p.lookup.finds r = true) :
    (revisit w p r).resourceId = r.resourceId ∧
      (revisit w p r).sourceIdentity = r.sourceIdentity ∧
      (revisit w p r).sourceHash = r.sourceHash ∧
      ∀ i, (revisit w p r).answersTo i = true → r.answersTo i = true ∨
        ∀ other ∈ s.items, other.resourceId ≠ r.resourceId → other.answersTo i = false := by
  unfold revisit
  cases hl : p.lookup with
  | url c =>
    have hrev := revisitUrl_revisited (w := w) p c r
    refine ⟨hrev.resourceId, hrev.sourceIdentity, hrev.sourceHash, fun i hi => ?_⟩
    refine ((hrev.answersTo i).1 hi).imp id fun ⟨_, hi⟩ other hother hne => ?_
    rw [← Bool.not_eq_true]
    intro hanswers
    have hmem : i ∈ p.lookup.identities := by
      rw [hl]
      exact List.mem_pair.2 hi
    exact hne (agrees other hother r hr (finds_of_answersTo hmem hanswers) hfinds)
  | identity i => exact ⟨rfl, rfl, rfl, fun _ h => .inl h⟩
  | provisional => exact ⟨rfl, rfl, rfl, fun _ h => .inl h⟩

/-- The identity of the URL or of the content, or the reference. -/
def sourceKey (w : Services) : ResourceSource → Option String
  | .url url _ =>
    match w.normalizeUrlSource url with
    | .ok norm => some norm.sourceIdentity
    | .error _ => none
  | .fileDescriptor _ _ => none
  | .fileInline _ _ data => some (fileIdentity w data)
  | .externalRef provider ref _ => some (provider ++ ":" ++ ref)

/-- The resource is there and answers to the identity. -/
def Carries (resourceId sourceIdentity : String) (s : Store) : Prop :=
  ∃ r ∈ s.items, r.resourceId = resourceId ∧ r.answersTo sourceIdentity = true

theorem capture_found {input : CaptureInput} {p : Prepared} {found r : LocatedResource}
    (hs : Kept s) (agrees : p.lookup.Agrees s) (hfound : findExisting s p = .ok (some found))
    (hr : executeResourceOperations w s (revisit w p found) input.initialOperations = .ok r) :
    Kept (s.put r) ∧ r.resourceId = found.resourceId ∧
      ∀ i, (revisit w p found).answersTo i = true → r.answersTo i = true := by
  obtain ⟨hmem, hfinds⟩ := findExisting_some hfound
  obtain ⟨hid, hidentity, hhash, hanswers⟩ := revisit_found (w := w) agrees hmem hfinds
  have hne : (revisit w p found).sourceIdentity ≠ none :=
    hidentity ▸ hs.identity_ne_none hmem hfinds
  have executed := executeResourceOperations_executed hr
  refine ⟨hs.put hmem (executed.resourceId.trans hid) (fun i hi => ?_) ?_ (fun hnone => ?_),
    executed.resourceId.trans hid, fun i => executed.keeps_answer⟩
  · rcases executed.answersTo hi with hi | ⟨hnone, -⟩
    · exact hanswers i hi
    · exact absurd hnone hne
  · rcases executed.sourceHash with h | ⟨h, heq, hothers⟩
    · exact .inl (h.trans hhash)
    · exact .inr ⟨h, heq, hid ▸ hothers⟩
  · rw [executed.sourceIdentity] at hnone
    exact absurd (Option.or_eq_none_iff.1 hnone).1 hne

theorem SourceKeeps.attach {input : CaptureInput} (hk : SourceKeeps w s input) {p : Prepared}
    (hp : prepareSource w input.source = .ok p) (hl : p.lookup = .provisional) :
    AttachKeeps w s input.resourceId input.initialOperations := by
  unfold SourceKeeps at hk
  cases hsource : input.source with
  | url url outcome =>
    rw [hsource] at hp
    obtain ⟨norm, -, hlookup, -⟩ := prepareUrl_ok hp
    rw [hlookup] at hl
    cases hl
  | fileDescriptor filename hostRef =>
    rw [hsource] at hk
    exact hk
  | fileInline filename mimeType data =>
    rw [hsource, prepareSource] at hp
    split at hp
    · cases hp
    · cases hp
      cases hl
  | externalRef provider ref canonicalRef =>
    rw [hsource] at hp
    cases hp
    cases hl

/-- A new resource has the hash of its content, which no resource has that is not found. -/
theorem SourceKeeps.hash {input : CaptureInput} (hk : SourceKeeps w s input) {p : Prepared}
    (hp : prepareSource w input.source = .ok p) (hnone : ∀ r ∈ s.items, p.lookup.finds r = false)
    {id h : String} (hh : (p.fresh id).sourceHash = some h) :
    ∀ other ∈ s.items, other.sourceHash ≠ some h := by
  unfold SourceKeeps at hk
  cases hsource : input.source with
  | url url outcome =>
    rw [hsource] at hp
    obtain ⟨norm, -, -, -, -, hhash⟩ := prepareUrl_ok hp
    rw [hhash] at hh
    cases hh
  | fileDescriptor filename hostRef =>
    rw [hsource] at hp
    cases hp
    cases hh
  | fileInline filename mimeType data =>
    rw [hsource, prepareSource] at hp
    rw [hsource] at hk
    split at hp
    · cases hp
    · cases hp
      cases hh
      intro other hother heq
      have hfinds := hnone other hother
      rw [Lookup.finds, hk other hother heq] at hfinds
      cases hfinds
  | externalRef provider ref canonicalRef =>
    rw [hsource] at hp
    cases hp
    cases hh

theorem capture_fresh {input : CaptureInput} {p : Prepared} {r : LocatedResource} (hs : Kept s)
    (hk : SourceKeeps w s input) (hp : prepareSource w input.source = .ok p)
    (unused : input.resourceId ∉ s.items.map (·.resourceId))
    (hnone : findExisting s p = .ok none)
    (hr : executeResourceOperations w s (p.fresh input.resourceId) input.initialOperations = .ok r) :
    Kept (s.add r) := by
  have fresh := prepareSource_fresh hp
  have executed := executeResourceOperations_executed hr
  have hid : r.resourceId = input.resourceId := executed.resourceId.trans (fresh.resourceId _)
  have hother {other : LocatedResource} (h : other ∈ s.items) :
      other.resourceId ≠ (p.fresh input.resourceId).resourceId := by
    rw [fresh.resourceId]
    rintro heq
    exact unused (List.mem_map.2 ⟨other, h, heq⟩)
  refine hs.add (hid ▸ unused) (fun i hi other hmem => ?_) (fun h hh other hmem => ?_)
    (fun h => ?_)
  · rw [← Bool.not_eq_true]
    intro hanswers
    rcases executed.answersTo hi with hi | ⟨hidentity, data, hdata, rfl⟩
    · have hfinds := finds_of_answersTo ((fresh.answersTo _ _).1 hi) hanswers
      rw [findExisting_none hnone other hmem] at hfinds
      cases hfinds
    · have attach := hk.attach hp (fresh.identified _ hidentity).1
      have hne := hother hmem
      rw [fresh.resourceId] at hne
      rw [attach data hdata other hmem hne] at hanswers
      cases hanswers
  · rcases executed.sourceHash with hsame | ⟨h', hh', hothers⟩
    · exact hk.hash hp (findExisting_none hnone) (hsame ▸ hh) other hmem
    · rw [hh'] at hh
      cases hh
      exact hothers other hmem (hother hmem)
  · rw [executed.sourceIdentity] at h
    obtain ⟨-, haliases, htype⟩ := fresh.identified _ (Option.or_eq_none_iff.1 h).1
    exact ⟨executed.sourceAliases.trans haliases, executed.sourceType.symm ▸ htype⟩

theorem sourceKey_mem {source : ResourceSource} {p : Prepared} {k : String}
    (hp : prepareSource w source = .ok p) (hk : sourceKey w source = some k) :
    k ∈ p.lookup.identities := by
  cases source with
  | url url outcome =>
    obtain ⟨norm, hnorm, hlookup, -⟩ := prepareUrl_ok hp
    rw [sourceKey, hnorm] at hk
    cases hk
    rw [hlookup]
    exact List.mem_pair.2 (.inr rfl)
  | fileDescriptor filename hostRef => cases hk
  | fileInline filename mimeType data =>
    cases hk
    rw [prepareSource] at hp
    split at hp
    · cases hp
    · cases hp
      exact List.mem_singleton_self _
  | externalRef provider ref canonicalRef =>
    cases hk
    cases hp
    exact List.mem_singleton_self _

theorem SourceKeeps.key {input : CaptureInput} (hk : SourceKeeps w s input) {p : Prepared}
    (hp : prepareSource w input.source = .ok p) {found : LocatedResource} (hmem : found ∈ s.items)
    (hfinds : p.lookup.finds found = true) {k : String}
    (hkey : sourceKey w input.source = some k) : (revisit w p found).answersTo k = true := by
  have hidentities := sourceKey_mem hp hkey
  unfold revisit
  cases hl : p.lookup with
  | url c =>
    rw [hl] at hidentities hfinds
    refine ((revisitUrl_revisited p c found).answersTo k).2 ?_
    unfold SourceKeeps at hk
    cases hsource : input.source with
    | url url outcome =>
      rw [hsource] at hp hk hkey
      obtain ⟨norm, hnorm, hlookup, hattempt, -⟩ := prepareUrl_ok hp
      rw [hlookup] at hl
      cases hl
      rw [sourceKey, hnorm] at hkey
      cases hkey
      rw [hattempt]
      exact ((hk norm hnorm).2 found hmem hfinds).imp id fun h => ⟨h, .inr rfl⟩
    | fileDescriptor filename hostRef =>
      rw [hsource] at hkey
      cases hkey
    | fileInline filename mimeType data =>
      rw [hsource, prepareSource] at hp
      split at hp
      · cases hp
      · cases hp
        cases hl
    | externalRef provider ref canonicalRef =>
      rw [hsource] at hp
      cases hp
      cases hl
  | identity i =>
    rw [hl] at hidentities hfinds
    rw [List.mem_singleton.1 hidentities]
    exact hfinds
  | provisional =>
    rw [hl] at hidentities
    cases hidentities

theorem capture_ok {input : CaptureInput} {receipt : Receipt} {t : Store}
    (h : capture w s input = .ok (receipt, t)) :
    ∃ p r, prepareSource w input.source = .ok p ∧ receipt.resourceId = r.resourceId ∧
      ((∃ found, findExisting s p = .ok (some found) ∧
          executeResourceOperations w s (revisit w p found) input.initialOperations = .ok r ∧
          t = s.put r) ∨
        findExisting s p = .ok none ∧
          executeResourceOperations w s (p.fresh input.resourceId) input.initialOperations = .ok r ∧
          t = s.add r) := by
  unfold capture at h
  cases hp : prepareSource w input.source with
  | error e =>
    rw [hp] at h
    cases h
  | ok p =>
    rw [hp] at h
    change (findExisting s p >>= fun _ => _) = Except.ok (receipt, t) at h
    cases hfound : findExisting s p with
    | error e =>
      rw [hfound] at h
      cases h
    | ok existing =>
      rw [hfound] at h
      cases existing with
      | some found =>
        change (executeResourceOperations w s (revisit w p found) input.initialOperations >>=
          fun r => pure (⟨r.resourceId, true⟩, s.put r)) = Except.ok (receipt, t) at h
        cases hr : executeResourceOperations w s (revisit w p found) input.initialOperations with
        | error e =>
          rw [hr] at h
          cases h
        | ok r =>
          rw [hr] at h
          cases h
          exact ⟨p, r, rfl, rfl, .inl ⟨found, hfound, hr, rfl⟩⟩
      | none =>
        change (executeResourceOperations w s (p.fresh input.resourceId) input.initialOperations >>=
          fun r => pure (⟨r.resourceId, false⟩, s.add r)) = Except.ok (receipt, t) at h
        cases hr : executeResourceOperations w s (p.fresh input.resourceId)
            input.initialOperations with
        | error e =>
          rw [hr] at h
          cases h
        | ok r =>
          rw [hr] at h
          cases h
          exact ⟨p, r, rfl, rfl, .inr ⟨hfound, hr, rfl⟩⟩

theorem capture_kept {input : CaptureInput} {receipt : Receipt} {t : Store} (hs : Kept s)
    (hk : SourceKeeps w s input) (unused : input.resourceId ∉ s.items.map (·.resourceId))
    (h : capture w s input = .ok (receipt, t)) :
    Kept t ∧ ∀ k, sourceKey w input.source = some k → Carries receipt.resourceId k t := by
  obtain ⟨p, r, hp, hreceipt, ⟨found, hfound, hr, rfl⟩ | ⟨hnone, hr, rfl⟩⟩ := capture_ok h
  · obtain ⟨hmem, hfinds⟩ := findExisting_some hfound
    obtain ⟨kept, hid, hanswers⟩ := capture_found hs (hk.agrees hs hp) hfound hr
    refine ⟨kept, fun k hkey => ⟨r, (Keyed.mem_put hmem hid).2 (.inl rfl), hreceipt.symm, ?_⟩⟩
    exact hanswers k (hk.key hp hmem hfinds hkey)
  · have fresh := prepareSource_fresh hp
    have executed := executeResourceOperations_executed hr
    have hid : r.resourceId ∉ s.items.map (·.resourceId) := by
      rw [executed.resourceId, fresh.resourceId]
      exact unused
    refine ⟨capture_fresh hs hk hp unused hnone hr, fun k hkey =>
      ⟨r, (Keyed.mem_add hid).2 (.inl rfl), hreceipt.symm, ?_⟩⟩
    exact executed.keeps_answer ((fresh.answersTo _ _).2 (sourceKey_mem hp hkey))

/-! ### runs -/

theorem apply_ok {resourceId : String} {operations : List ResourceOperation} {receipt : Receipt}
    {t : Store} (h : apply w s resourceId operations = .ok (receipt, t)) :
    ∃ found r, s.find resourceId = some found ∧
      executeResourceOperations w s found operations = .ok r ∧ t = s.put r := by
  unfold apply at h
  split at h
  · cases h
  split at h
  · cases h
  next found hfound =>
    cases hr : executeResourceOperations w s found operations with
    | error e =>
      rw [hr] at h
      cases h
    | ok r =>
      rw [hr] at h
      cases h
      exact ⟨found, r, hfound, hr, rfl⟩

theorem apply_kept {resourceId : String} {operations : List ResourceOperation} {receipt : Receipt}
    {t : Store} (hs : Kept s) (hk : Keeps w s (.apply resourceId operations))
    (h : apply w s resourceId operations = .ok (receipt, t)) : Kept t := by
  obtain ⟨found, r, hfound, hr, rfl⟩ := apply_ok h
  obtain ⟨hmem, rfl⟩ := Keyed.find_eq_some hfound
  have executed := executeResourceOperations_executed hr
  refine hs.put hmem executed.resourceId (fun i hi => ?_) executed.sourceHash (fun hnone => ?_)
  · refine (executed.answersTo hi).imp id ?_
    rintro ⟨hnone, data, hdata, rfl⟩
    exact hk found hmem rfl hnone data hdata
  · rw [executed.sourceIdentity] at hnone
    obtain ⟨haliases, htype⟩ := hs.identified found hmem (Option.or_eq_none_iff.1 hnone).1
    exact ⟨executed.sourceAliases.trans haliases, executed.sourceType.symm ▸ htype⟩

theorem applyManaged_ok {now : Nat} {input : ManagedJobResult} {receipt : Receipt} {t : Store}
    (h : applyManaged w s now input = .ok (receipt, t)) :
    ∃ found d, found ∈ s.items ∧ t = s.put { found with described := d } := by
  unfold applyManaged at h
  split at h
  · cases h
  next found hfound =>
    split at h
    · cases h
    · cases h
      exact ⟨found, _, (Keyed.find_eq_some hfound).1, rfl⟩

theorem delete_ok {resourceId : String} {receipt : Receipt} {t : Store}
    (h : delete s resourceId = .ok (receipt, t)) : t = s.erase resourceId := by
  unfold delete at h
  split at h
  · cases h
  · cases h
    rfl

theorem serve_kept {call : ServiceCall} {receipt : Receipt} {t : Store} (hs : Kept s)
    (hk : Keeps w s call) (unused : call.idUnused s = true) (h : serve w s call = .ok (receipt, t)) :
    Kept t := by
  cases call with
  | capture input => exact (capture_kept hs hk (of_decide_eq_true unused) h).1
  | apply resourceId operations => exact apply_kept hs hk h
  | managed now input =>
    obtain ⟨found, d, hmem, rfl⟩ := applyManaged_ok h
    exact hs.put hmem rfl (fun i hi => .inl hi) (.inl rfl) (hs.identified found hmem)
  | delete resourceId =>
    rw [delete_ok h]
    exact ⟨hs.identity.erase _, hs.hash.erase _,
      fun r hr => hs.identified r (Keyed.mem_erase.1 hr).1⟩

section carries

variable {id k : String} (hs : Carries id k s)
include hs

theorem Carries.put {found r : LocatedResource} (hmem : found ∈ s.items)
    (hid : r.resourceId = found.resourceId)
    (hanswers : ∀ i, found.answersTo i = true → r.answersTo i = true) : Carries id k (s.put r) := by
  obtain ⟨m, hm, rfl, hk⟩ := hs
  by_cases heq : m.resourceId = r.resourceId
  · obtain rfl := Keyed.eq_of_key hm hmem (heq.trans hid)
    exact ⟨r, (Keyed.mem_put hm hid).2 (.inl rfl), hid, hanswers k hk⟩
  · exact ⟨m, (Keyed.mem_put hmem hid).2 (.inr ⟨hm, heq⟩), rfl, hk⟩

theorem Carries.add {r : LocatedResource} : Carries id k (s.add r) := by
  obtain ⟨m, hm, hid, hk⟩ := hs
  by_cases h : r.resourceId ∈ s.items.map (·.resourceId)
  · rw [Keyed.add, dif_pos h]
    exact ⟨m, hm, hid, hk⟩
  · exact ⟨m, (Keyed.mem_add h).2 (.inr hm), hid, hk⟩

/-- A resource that is not deleted keeps the identities it answers to. -/
theorem Carries.serve {call : ServiceCall} {receipt : Receipt} {t : Store}
    (hdelete : call ≠ .delete id) (h : serve w s call = .ok (receipt, t)) : Carries id k t := by
  cases call with
  | capture input =>
    obtain ⟨p, r, hp, -, ⟨found, hfound, hr, rfl⟩ | ⟨-, -, rfl⟩⟩ := capture_ok h
    · have executed := executeResourceOperations_executed hr
      obtain ⟨hid, hanswers⟩ := revisit_keeps (w := w) p found
      exact hs.put (findExisting_some hfound).1 (executed.resourceId.trans hid)
        fun i hi => executed.keeps_answer (hanswers i hi)
    · exact hs.add
  | apply resourceId operations =>
    obtain ⟨found, r, hfound, hr, rfl⟩ := apply_ok h
    have executed := executeResourceOperations_executed hr
    exact hs.put (Keyed.find_eq_some hfound).1 executed.resourceId fun i => executed.keeps_answer
  | managed now input =>
    obtain ⟨found, d, hmem, rfl⟩ := applyManaged_ok h
    exact hs.put hmem rfl fun i hi => hi
  | delete resourceId =>
    obtain ⟨m, hm, rfl, hk⟩ := hs
    rw [delete_ok h]
    exact ⟨m, Keyed.mem_erase.2 ⟨hm, fun heq => hdelete (heq ▸ rfl)⟩, rfl, hk⟩

end carries

/-! ### runs -/

theorem storeAfter_cases (w : Services) (s : Store) (call : ServiceCall) :
    (∃ receipt, serve w s call = .ok (receipt, storeAfter w s call)) ∨ storeAfter w s call = s := by
  unfold storeAfter
  split
  next receipt t h => exact .inl ⟨receipt, h⟩
  · exact .inr rfl

theorem kept_of_reachable (hs : ((resourceSystem w).guard (Keeps w)).Reachable s) : Kept s := by
  refine hs.inv (I := Kept) ?_ ?_
  · rintro _ rfl
    exact ⟨Keyed.apart_empty, Keyed.apart_empty, fun _ h => (by cases h)⟩
  · rintro s call t kept ⟨hk, hstep⟩
    obtain ⟨unused, ht⟩ := Option.ite_none_right_eq_some.1 hstep
    obtain rfl := Option.some.inj ht
    rcases storeAfter_cases w s call with ⟨receipt, h⟩ | h
    · exact serve_kept kept hk unused h
    · rw [h]
      exact kept

theorem Carries.run {id k : String} {l : List ServiceCall} {t : Store} (hs : Carries id k s)
    (hrun : (resourceSystem w).Run s l t) (hdelete : ∀ call ∈ l, call ≠ .delete id) :
    Carries id k t := by
  induction hrun with
  | nil => exact hs
  | cons hstep _ ih =>
    obtain ⟨-, ht⟩ := Option.ite_none_right_eq_some.1 hstep
    obtain rfl := Option.some.inj ht
    refine ih ?_ fun call hcall => hdelete call (List.mem_cons_of_mem _ hcall)
    rcases storeAfter_cases w _ _ with ⟨receipt, h⟩ | h
    · exact hs.serve (hdelete _ List.mem_cons_self) h
    · rw [h]
      exact hs

/-- What holds of the resources the service wrote itself. -/
structure UniqueResources (s : Store) : Prop where
  identity : ∀ r ∈ s.items, ∀ r' ∈ s.items, ∀ i,
    r.answersTo i = true → r'.answersTo i = true → r = r'
  hash : ∀ r ∈ s.items, ∀ r' ∈ s.items, ∀ h,
    r.sourceHash = some h → r'.sourceHash = some h → r = r'
  lookup : ∀ i, ∃ found, findResourceByIdentity s i = .ok found

theorem Kept.unique (hs : Kept s) : UniqueResources s where
  identity r hr r' hr' i h h' := Keyed.eq_of_key hr hr' (hs.identity r hr r' hr' i h h')
  hash r hr r' hr' h hh hh' := Keyed.eq_of_key hr hr' (hs.hash r hr r' hr' h hh hh')
  lookup i := ⟨_, onlyMatch_filter (hs.agrees i)⟩

/-- A capture of a source whose identity a resource answers to finds that resource. -/
theorem findExisting_of_carries {input : CaptureInput} {p : Prepared} {id k : String}
    (hs : Kept s) (hk : SourceKeeps w s input) (hp : prepareSource w input.source = .ok p)
    (hkey : sourceKey w input.source = some k) (hcarries : Carries id k s) :
    ∃ r, findExisting s p = .ok (some r) ∧ r.resourceId = id := by
  obtain ⟨r, hr, hid, hanswers⟩ := hcarries
  have hfinds := finds_of_answersTo (sourceKey_mem hp hkey) hanswers
  have agrees := hk.agrees hs hp
  refine ⟨r, ?_, hid⟩
  unfold findExisting
  unfold Lookup.Agrees at agrees
  cases hl : p.lookup with
  | url c =>
    rw [hl] at hfinds agrees
    exact onlyMatch_filter_of_mem hr hfinds agrees
  | identity i =>
    rw [hl] at hfinds agrees
    exact onlyMatch_filter_of_mem hr hfinds agrees
  | provisional =>
    rw [hl] at hfinds
    cases hfinds

/-- **One resource for an identity and one for a hash**, in every run whose calls keep them apart;
and a source that has been captured is found again as long as its resource is there. -/
theorem unique_of_keeps (w : Services) :
    (∀ s, ((resourceSystem w).guard (Keeps w)).Reachable s → UniqueResources s) ∧
    ∀ s input receipt t l u, ((resourceSystem w).guard (Keeps w)).Reachable s →
      Keeps w s (.capture input) → ServiceCall.idUnused s (.capture input) = true →
      capture w s input = .ok (receipt, t) →
      ((resourceSystem w).guard (Keeps w)).Run t l u →
      (∀ call ∈ l, call ≠ .delete receipt.resourceId) →
      ∀ again k p, sourceKey w input.source = some k → sourceKey w again.source = some k →
        Keeps w u (.capture again) → prepareSource w again.source = .ok p →
        ∃ r, findExisting u p = .ok (some r) ∧ r.resourceId = receipt.resourceId := by
  refine ⟨fun s hs => (kept_of_reachable hs).unique, ?_⟩
  intro s input receipt t l u hs hk unused hcapture hrun hdelete again k p hkey hagain hkeeps hp
  have kept := kept_of_reachable hs
  obtain ⟨-, hcarries⟩ := capture_kept kept hk (of_decide_eq_true unused) hcapture
  have hstep : ((resourceSystem w).guard (Keeps w)).Step s (.capture input) t :=
    ⟨hk, Option.ite_none_right_eq_some.2 ⟨unused, by rw [storeAfter, serve, hcapture]⟩⟩
  have hu := kept_of_reachable ((hs.step hstep).run hrun)
  exact findExisting_of_carries hu hkeeps hp hagain
    ((hcarries k hkey).run hrun.of_guard hdelete)

/-! ### two resources for one content -/

def sampleServices : Services where
  normalizeUrlSource url := .error (.plain ("Invalid URL: " ++ url))
  validateSourceAsset _ _ _ := .ok ⟨".txt", "txt", "text/plain"⟩
  sha256 data := toString (data.map UInt8.toNat)
  toLowerCase := id
  urlProtocol _ := none
  printed _ := ""

def captureFile (data : List UInt8) (resourceId : String) : ServiceCall :=
  .capture ⟨.fileInline "a.txt" "text/plain" data, resourceId, []⟩

/-- The file of the first resource is replaced, and its old content attached to a second; then the
new content is captured as a third. -/
def sampleCalls : List ServiceCall :=
  [captureFile [1] "res-1",
   .apply "res-1" [.attachSourceAsset "b.txt" "text/plain" [2]],
   .capture ⟨.fileDescriptor "a.txt" none, "res-2", []⟩,
   .apply "res-2" [.attachSourceAsset "a.txt" "text/plain" [1]],
   captureFile [2] "res-3"]

/-- Two distinct resources for which the test holds. -/
def shared (test : LocatedResource → Bool) (s : Store) : Bool :=
  s.items.any fun r => s.items.any fun r' =>
    test r && test r' && r.resourceId != r'.resourceId

theorem shared_iff {test : LocatedResource → Bool} {s : Store} :
    shared test s = true ↔ ∃ r ∈ s.items, ∃ r' ∈ s.items,
      (test r = true ∧ test r' = true) ∧ r.resourceId ≠ r'.resourceId := by
  simp only [shared, List.any_eq_true, Bool.and_eq_true, bne_iff_ne]

set_option maxRecDepth 10000 in
/-- Two resources answer to the identity of one content, and two have the hash of another. -/
theorem content_shared :
    ∃ s, (resourceSystem sampleServices).Reachable s ∧ ¬UniqueResources s ∧
      shared (·.answersTo (fileIdentity sampleServices [1])) s = true ∧
      shared (·.sourceHash == some (fileHash sampleServices [2])) s = true := by
  obtain ⟨s, hrun, hcheck⟩ := @LTS.exists_run_ofOption _ _ (· = (.empty : Store))
    (fun s call => if call.idUnused s then some (storeAfter sampleServices s call) else none)
    .empty sampleCalls
    (fun s => shared (·.answersTo (fileIdentity sampleServices [1])) s &&
      shared (·.sourceHash == some (fileHash sampleServices [2])) s) (by decide +kernel)
  obtain ⟨hidentity, hhash⟩ := Bool.and_eq_true_iff.1 hcheck
  refine ⟨s, ⟨.empty, sampleCalls, rfl, hrun⟩, fun unique => ?_, hidentity, hhash⟩
  obtain ⟨r, hr, r', hr', ⟨h, h'⟩, hne⟩ := shared_iff.1 hidentity
  exact hne (congrArg _ (unique.identity r hr r' hr' _ h h'))

def sampleFile (resourceId : String) : CaptureInput :=
  ⟨.fileInline "a.txt" "text/plain" [1], resourceId, []⟩

/-- A file that is captured a second time. -/
theorem unique_of_keeps_sample :
    ∃ t p r, capture sampleServices .empty (sampleFile "res-1") = .ok (⟨"res-1", false⟩, t) ∧
      UniqueResources t ∧ prepareSource sampleServices (sampleFile "res-2").source = .ok p ∧
      findExisting t p = .ok (some r) ∧ r.resourceId = "res-1" := by
  have keeps : Keeps sampleServices .empty (.capture (sampleFile "res-1")) := fun _ hr => by cases hr
  obtain ⟨t, ht⟩ : ∃ t, capture sampleServices .empty (sampleFile "res-1") =
      .ok (⟨"res-1", false⟩, t) := ⟨_, rfl⟩
  obtain ⟨p, hp⟩ : ∃ p, prepareSource sampleServices (sampleFile "res-2").source = .ok p := ⟨_, rfl⟩
  have reached : ((resourceSystem sampleServices).guard (Keeps sampleServices)).Reachable t :=
    LTS.Reachable.step (LTS.Reachable.init rfl) (a := .capture (sampleFile "res-1"))
      ⟨keeps, by cases ht; rfl⟩
  have again : Keeps sampleServices t (.capture (sampleFile "res-2")) := by
    cases ht
    intro r hr _
    obtain rfl := List.mem_singleton.1 hr
    decide +kernel
  obtain ⟨unique, found⟩ := unique_of_keeps sampleServices
  obtain ⟨r, hr, hid⟩ := found .empty (sampleFile "res-1") ⟨"res-1", false⟩ t [] t (.init rfl) keeps
    rfl ht (.nil t) (fun _ h => by cases h) (sampleFile "res-2") _ p rfl rfl again hp
  exact ⟨t, p, r, ht, unique t reached, hp, hr, hid⟩

end Ceo.Resource
