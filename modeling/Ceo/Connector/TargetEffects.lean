import Ceo.Connector.Targets

/-!
# What the target operations write

A call writes a sequence of `Effect`s on the tables, each with what the checks
before it have found (`exec_effects`). A registration takes one target
(`Takes`) and enables the binding of its device.
-/

namespace Ceo.Connector.Targets

open Ceo.Lib Ceo.Connector.Eligibility
open Ceo.Connector.RepoIdentity (LowerTable)
open ControlPlane

theorem ok_of_bind {ε α β : Type} {x : Except ε α} {f : α → Except ε β} {b : β}
    (h : (x >>= f) = .ok b) : ∃ a, x = .ok a ∧ f a = .ok b := by
  cases x with
  | error e => cases h
  | ok a => exact ⟨a, rfl, h⟩

theorem ensure_ok {holds : Bool} {e : TargetError} {u : Unit} (h : ensure holds e = .ok u) :
    holds = true := by
  cases holds with
  | true => rfl
  | false => cases h

/-! ### the effects -/

/-- What the constraints ask of a row of `execution_targets`. -/
structure RowOk (db : ControlPlane) (t : ExecutionTargetRecord) : Prop where
  targetAlias : targetAliasRe t.targetAlias = true
  kind : t.kind ∈ v1ValidTargetKinds
  workspaceId : t.workspaceId ∈ db.workspaces
  repository : t.repositoryProvider.isSome = t.repositoryFullName.isSome ∧
    t.repositoryExternalId.isSome = t.repositoryFullName.isSome

/-- No other enabled target of the workspace has the repository of `t`. -/
def Unowned (db : ControlPlane) (t : ExecutionTargetRecord) : Prop :=
  ∀ u ∈ db.targets.items, u.id ≠ t.id → u.workspaceId = t.workspaceId → u.disabledAtMs = none →
    u.repositoryProvider = t.repositoryProvider → u.repositoryExternalId ≠ t.repositoryExternalId

def SameRepository (t t' : ExecutionTargetRecord) : Prop :=
  t'.repositoryProvider = t.repositoryProvider ∧ t'.repositoryExternalId = t.repositoryExternalId ∧
    t'.repositoryFullName.isSome = t.repositoryFullName.isSome

structure RowChange (op : Op) (db : ControlPlane) (t t' : ExecutionTargetRecord) : Prop where
  id : t'.id = t.id
  workspaceId : t'.workspaceId = t.workspaceId
  kind : t'.kind = t.kind
  targetAlias : t'.targetAlias = t.targetAlias ∨ targetAliasRe t'.targetAlias = true ∧
    ∀ u ∈ db.targets.items, u.workspaceId = t.workspaceId → u.targetAlias = t'.targetAlias → u.id = t.id
  repository : SameRepository t t' ∨
    (t.repositoryProvider = none ∨ t.repositoryExternalId = none ∨ t.repositoryFullName = none) ∧
      t'.repositoryProvider.isSome ∧ t'.repositoryExternalId.isSome ∧ t'.repositoryFullName.isSome ∧
      Unowned db t'
  enabled : t'.disabledAtMs = none → t.disabledAtMs = none ∨ ∃ id now, op = .enable id now

/-- The calls that enable or disable a binding. -/
def Op.onBindings : Op → Bool
  | .register .. | .bind .. | .unbind .. => true
  | _ => false

inductive Effect (op : Op) (db : ControlPlane) : ControlPlane → Prop where
  | target {t t' : ExecutionTargetRecord} (ht : t ∈ db.targets.items) (change : RowChange op db t t') :
    Effect op db (db.putTarget t')
  | newTarget {row : ExecutionTargetRecord} {targets : Keyed ExecutionTargetRecord.id}
    {input : RegisterInput} {draws : Draws} {now : Int} (call : op = .register input draws now)
    (inserted : db.targets.insert sameAlias row = some targets) (ok : RowOk db row)
    (unowned : row.repositoryProvider.isSome → input.repositorySource = some .remoteUrl →
      Unowned db row) (named : row.repositoryProvider.isSome → input.repositorySource ≠ none) :
    Effect op db { db with targets }
  | binding {b : DeviceTargetBindingRecord}
    {bindings : Keyed fun b : DeviceTargetBindingRecord => (b.deviceId, b.targetId)}
    (call : op.onBindings = true) (rows : ∀ x ∈ bindings.items, x = b ∨ x ∈ db.bindings.items)
    (device : ∃ d ∈ db.devices.items, d.id = b.deviceId)
    (target : ∃ t ∈ db.targets.items, t.id = b.targetId) : Effect op db { db with bindings }
  | deleted {id : String} (call : op = .deleteRow id) : Effect op db (db.deleteExecutionTargetRow id)
  | newDefault {workspaceId targetId : String} {t : ExecutionTargetRecord}
    (ht : db.targets.find targetId = some t) (hw : t.workspaceId = workspaceId) :
    Effect op db { db with
      defaultAgentRuntime := Function.update db.defaultAgentRuntime workspaceId (some targetId) }
  | identity {users : Keyed UserRecord.id} {devices : Keyed DeviceRecord.id}
    {memberships : Keyed fun m : WorkspaceMembershipRecord => (m.workspaceId, m.userId)}
    {workspaces : List String} {githubRepository : String → Option GithubRepositoryBinding}
    (kept : ∀ d ∈ db.devices.items, ∃ d' ∈ devices.items, d'.id = d.id)
    (grows : db.workspaces ⊆ workspaces) :
    Effect op db { db with users, devices, memberships, workspaces, githubRepository }

abbrev Effects (op : Op) : ControlPlane → ControlPlane → Prop := Relation.ReflTransGen (Effect op)

/-! ### what the checks say -/

section checks

variable {js : LowerTable} {db db' : ControlPlane}

theorem normalizeTargetAlias_ok {name targetAlias : String}
    (h : normalizeTargetAlias js name = .ok targetAlias) : targetAliasRe targetAlias = true := by
  obtain ⟨_, hre, h⟩ := ok_of_bind h
  obtain rfl : lower js (trim name) = targetAlias := Except.ok.inj h
  exact ensure_ok hre

theorem getTarget_ok {targetId : String} {e : TargetError} {t : ExecutionTargetRecord}
    (h : db.getTarget targetId e = .ok t) : db.targets.find targetId = some t := by
  unfold getTarget at h
  cases hf : db.targets.find targetId with
  | none => rw [hf] at h; cases h
  | some u => rw [hf] at h; cases h; rfl

/-- The device acts for a user who is active. -/
structure ActsFor (db : ControlPlane) (deviceId : String) (device : DeviceRecord) : Prop where
  found : db.devices.find deviceId = some device
  unrevoked : device.revokedAtMs = none
  active : ∃ user, db.users.find device.userId = some user ∧ user.disabledAt = none

theorem getDevice_ok {deviceId revoked : String} {device : DeviceRecord}
    (h : db.getDevice deviceId revoked = .ok device) :
    db.devices.find deviceId = some device ∧ device.revokedAtMs = none := by
  unfold getDevice at h
  cases hf : db.devices.find deviceId with
  | none => rw [hf] at h; cases h
  | some d =>
    rw [hf] at h
    dsimp only at h
    split_ifs at h with hr
    cases h
    exact ⟨rfl, not_not.1 hr⟩

theorem actsFor_of_ok {deviceId revoked : String} {device : DeviceRecord} {u : Unit}
    (h : db.getDevice deviceId revoked = .ok device) (ho : db.ensureOwner device = .ok u) :
    ActsFor db deviceId device := by
  obtain ⟨found, unrevoked⟩ := getDevice_ok h
  have hactive := ensure_ok ho
  unfold isActiveUser at hactive
  obtain ⟨user, hu, hd⟩ := (Option.any_eq_true _ _).1 hactive
  exact ⟨found, unrevoked, user, hu, of_decide_eq_true hd⟩

theorem role_isSome {workspaceId userId : String} (h : (db.role workspaceId userId).isSome) :
    ∃ m, db.memberships.find (workspaceId, userId) = some m := by
  unfold role at h
  rw [Option.isSome_map] at h
  exact Option.isSome_iff_exists.1 h

theorem deviceRole_ok {deviceId workspaceId revoked role : String}
    (h : db.deviceRole deviceId workspaceId revoked = .ok role) :
    ∃ device, ActsFor db deviceId device ∧ workspaceId ∈ db.workspaces ∧
      ∃ m, db.memberships.find (workspaceId, device.userId) = some m := by
  obtain ⟨device, hd, h⟩ := ok_of_bind h
  obtain ⟨_, ho, h⟩ := ok_of_bind h
  obtain ⟨_, hw, h⟩ := ok_of_bind h
  refine ⟨device, actsFor_of_ok hd ho, of_decide_eq_true (ensure_ok hw), ?_⟩
  cases hr : db.role workspaceId device.userId with
  | none => rw [hr] at h; cases h
  | some role => exact role_isSome (by rw [hr]; rfl)

theorem visibleTarget_ok {device : DeviceRecord} {targetId : String} {t : ExecutionTargetRecord}
    (h : db.visibleTarget device targetId = .ok t) :
    db.targets.find targetId = some t ∧
      ∃ m, db.memberships.find (t.workspaceId, device.userId) = some m := by
  obtain ⟨target, ht, h⟩ := ok_of_bind h
  obtain ⟨_, hm, h⟩ := ok_of_bind h
  cases h
  exact ⟨getTarget_ok ht, role_isSome (ensure_ok hm)⟩

theorem ensureDeviceBinding_ok {deviceId targetId bindingId : String} {now : Int} {bound : Bound}
    (h : db.ensureDeviceBinding deviceId targetId bindingId now = .ok (db', bound)) :
    (∃ bindings, db' = { db with bindings }) ∧ bound.binding ∈ db'.bindings.items ∧
      bound.binding.deviceId = deviceId ∧ bound.binding.targetId = targetId ∧
      bound.binding.disabledAtMs = none ∧
      ∀ x ∈ db'.bindings.items, x = bound.binding ∨ x ∈ db.bindings.items := by
  unfold ensureDeviceBinding at h
  cases hf : db.bindings.find (deviceId, targetId) with
  | some existing =>
    obtain ⟨hmem, hkey⟩ := Keyed.find_eq_some hf
    obtain ⟨hd, ht⟩ := Prod.mk.inj hkey
    rw [hf] at h
    dsimp only at h
    split_ifs at h with he
    · cases h
      obtain ⟨b, hb⟩ : ∃ b, b = { existing with disabledAtMs := none, updatedAtMs := now } := ⟨_, rfl⟩
      have hput {x : DeviceTargetBindingRecord} : x ∈ (db.bindings.put b).items ↔ x = b ∨ _ :=
        Keyed.mem_put hmem (hb ▸ rfl)
      rw [← hb]
      exact ⟨⟨_, rfl⟩, hput.2 (.inl rfl), hb ▸ hd, hb ▸ ht, hb ▸ rfl,
        fun x hx => (hput.1 hx).imp_right And.left⟩
    · cases h
      exact ⟨⟨_, rfl⟩, hmem, hd, ht, not_not.1 he, fun x hx => .inr hx⟩
  | none =>
    rw [hf] at h
    dsimp only at h
    split at h
    · cases h
    next bindings hins =>
      cases h
      have hmem := (Keyed.insert_eq_some hins).2.2
      exact ⟨⟨_, rfl⟩, (hmem _).2 (.inl rfl), rfl, rfl, rfl, fun x hx => (hmem x).1 hx⟩

theorem ensureDeviceBinding_effect {op : Op} {deviceId targetId bindingId : String} {now : Int}
    {bound : Bound} (h : db.ensureDeviceBinding deviceId targetId bindingId now = .ok (db', bound))
    (device : ∃ d ∈ db.devices.items, d.id = deviceId)
    (target : ∃ t ∈ db.targets.items, t.id = targetId) (call : op.onBindings = true) :
    Effect op db db' := by
  obtain ⟨⟨bindings, rfl⟩, -, hd, ht, -, hrows⟩ := ensureDeviceBinding_ok h
  exact .binding call hrows (hd ▸ device) (ht ▸ target)

end checks

/-! ### what the calls do -/

section calls

variable {js : LowerTable} {db db' : ControlPlane} {op : Op}

theorem mem_of_find {targetId : String} {t : ExecutionTargetRecord}
    (h : db.targets.find targetId = some t) : t ∈ db.targets.items ∧ t.id = targetId :=
  Keyed.find_eq_some h

theorem disable_effects (targetId : String) (now : Int) :
    Effects op db (db.disableExecutionTarget targetId now) := by
  unfold disableExecutionTarget
  cases hf : db.targets.find targetId with
  | none => exact .refl
  | some t =>
    dsimp only
    split_ifs with he
    · exact .refl
    · refine .single (.target (mem_of_find hf).1 ⟨rfl, rfl, rfl, .inl rfl, .inl ⟨rfl, rfl, rfl⟩, ?_⟩)
      intro h
      cases h

theorem enable_effects (targetId : String) (now : Int) :
    Effects (.enable targetId now) db (db.enableExecutionTarget targetId now) := by
  unfold enableExecutionTarget
  cases hf : db.targets.find targetId with
  | none => exact .refl
  | some t =>
    dsimp only
    split_ifs with he
    · exact .refl
    · exact .single (.target (mem_of_find hf).1
        ⟨rfl, rfl, rfl, .inl rfl, .inl ⟨rfl, rfl, rfl⟩, fun _ => .inr ⟨_, _, rfl⟩⟩)

theorem rename_effects {targetId newAlias actorUserId : String} {now : Int} {replayed : Bool}
    (h : db.renameExecutionTarget js targetId newAlias actorUserId now = .ok (db', replayed)) :
    Effects op db db' := by
  obtain ⟨targetAlias, ha, h⟩ := ok_of_bind h
  obtain ⟨t, ht, h⟩ := ok_of_bind h
  obtain ⟨_, -, h⟩ := ok_of_bind h
  obtain ⟨_, -, h⟩ := ok_of_bind h
  obtain ⟨hmem, hid⟩ := mem_of_find (getTarget_ok ht)
  split_ifs at h
  · cases h
    exact .refl
  · obtain ⟨_, hfree, h⟩ := ok_of_bind h
    cases h
    refine .single (.target hmem ⟨rfl, rfl, rfl, .inr ⟨normalizeTargetAlias_ok ha, ?_⟩,
      .inl ⟨rfl, rfl, rfl⟩, .inl⟩)
    intro u hu hw hua
    have hnone := List.find?_eq_none.1 (Option.isNone_iff_eq_none.1 (ensure_ok hfree)) u hu
    simp only [Bool.and_eq_true, decide_eq_true_eq, not_and, not_not] at hnone
    exact (hnone ⟨hw, hua⟩).trans hid.symm

theorem attach_effects {input : AttachInput} {now : Int} {replayed : Bool}
    (h : db.attachRepositoryIdentityToTarget js input now = .ok (db', replayed)) :
    Effects op db db' := by
  obtain ⟨⟨provider, fullName⟩, -, h⟩ := ok_of_bind h
  obtain ⟨_, -, h⟩ := ok_of_bind h
  obtain ⟨t, ht, h⟩ := ok_of_bind h
  obtain ⟨_, hw, h⟩ := ok_of_bind h
  obtain ⟨_, -, h⟩ := ok_of_bind h
  obtain ⟨_, -, h⟩ := ok_of_bind h
  obtain ⟨_, -, h⟩ := ok_of_bind h
  obtain ⟨hmem, hid⟩ := mem_of_find (getTarget_ok ht)
  have hws : t.workspaceId = input.workspaceId := of_decide_eq_true (ensure_ok hw)
  dsimp only at h
  split_ifs at h with hall
  · obtain ⟨_, -, h⟩ := ok_of_bind h
    cases h
    exact .refl
  · split at h
    · cases h
    next hnone =>
      cases h
      refine .single (.target hmem ⟨rfl, rfl, rfl, .inl rfl, .inr ⟨?_, rfl, rfl, rfl, ?_⟩, .inl⟩)
      · by_contra hsome
        simp only [not_or] at hsome
        exact hall (by simp [Option.isSome_iff_ne_none, hsome])
      · intro u hu hne huw hue hup hux
        have := List.filter_eq_nil_iff.1 hnone u hu
        simp only [Bool.and_eq_true, decide_eq_true_eq, Bool.or_eq_true] at this
        exact this ⟨⟨⟨⟨huw.trans hws, fun h => hne (h.trans hid.symm)⟩, hue⟩, hup⟩, .inl (.inl hux)⟩

theorem setDefault_effects {workspaceId targetId actorUserId : String} {replayed : Bool}
    (h : db.setDefaultAgentRuntimeTarget workspaceId targetId actorUserId = .ok (db', replayed)) :
    Effects op db db' := by
  obtain ⟨_, -, h⟩ := ok_of_bind h
  obtain ⟨t, ht, h⟩ := ok_of_bind h
  obtain ⟨_, hw, h⟩ := ok_of_bind h
  obtain ⟨_, -, h⟩ := ok_of_bind h
  obtain ⟨_, -, h⟩ := ok_of_bind h
  obtain ⟨_, -, h⟩ := ok_of_bind h
  cases h
  exact .single (.newDefault (getTarget_ok ht) (of_decide_eq_true (ensure_ok hw)))

theorem device_mem {deviceId : String} {device : DeviceRecord}
    (h : db.devices.find deviceId = some device) : ∃ d ∈ db.devices.items, d.id = deviceId :=
  ⟨device, Keyed.find_eq_some h⟩

theorem unbind_effects {deviceId targetId : String} {now : Int}
    (h : db.unbindTargetForDevice deviceId targetId now = .ok db') :
    Effects (.unbind deviceId targetId now) db db' := by
  obtain ⟨device, hd, h⟩ := ok_of_bind h
  obtain ⟨t, ht, h⟩ := ok_of_bind h
  have htarget : ∃ t ∈ db.targets.items, t.id = targetId := ⟨t, mem_of_find (visibleTarget_ok ht).1⟩
  cases hf : db.bindings.find (deviceId, targetId) with
  | none =>
    rw [hf] at h
    cases h
    exact .refl
  | some b =>
    obtain ⟨hmem, hkey⟩ := Keyed.find_eq_some hf
    rw [hf] at h
    dsimp only at h
    split_ifs at h
    · cases h
      exact .refl
    · cases h
      refine .single (.binding rfl (fun x hx => ((Keyed.mem_put hmem ?_).1 hx).imp_right And.left) ?_ ?_)
      · rfl
      · exact (Prod.mk.inj hkey).1 ▸ device_mem (getDevice_ok hd).1
      · exact (Prod.mk.inj hkey).2 ▸ htarget

theorem bind_ok {deviceId targetId bindingId : String} {now : Int} {bound : Bound}
    (h : db.bindTargetForDevice deviceId targetId bindingId now = .ok (db', bound)) :
    ∃ device t m, ActsFor db deviceId device ∧ db.targets.find targetId = some t ∧
      t.disabledAtMs = none ∧ db.memberships.find (t.workspaceId, device.userId) = some m ∧
      db.ensureDeviceBinding deviceId targetId bindingId now = .ok (db', bound) := by
  obtain ⟨device, hd, h⟩ := ok_of_bind h
  obtain ⟨_, ho, h⟩ := ok_of_bind h
  obtain ⟨t, ht, h⟩ := ok_of_bind h
  obtain ⟨_, he, h⟩ := ok_of_bind h
  obtain ⟨hf, m, hm⟩ := visibleTarget_ok ht
  exact ⟨device, t, m, actsFor_of_ok hd ho, hf, of_decide_eq_true (ensure_ok he), hm, h⟩

/-- Which target a registration takes: the one with the repository, the one with the alias, or a new
one. -/
inductive Takes (db : ControlPlane) (input : RegisterInput) (repository : Option Repository)
    (draws : Draws) (now : Int) : ControlPlane → ExecutionTargetRecord → Prop where
  | owner {t : ExecutionTargetRecord} {repo : Repository} (named : repository = some repo)
    (owners : db.targetsOf input.workspaceId repo.provider repo.externalId = [t]) :
    Takes db input repository draws now db t
  | existing {t : ExecutionTargetRecord} (ht : t ∈ db.targets.items)
    (workspaceId : t.workspaceId = input.workspaceId) (enabled : t.disabledAtMs = none)
    (provider : t.repositoryProvider = repository.map (·.provider))
    (externalId : t.repositoryExternalId = repository.map (·.externalId))
    (unowned : input.repositorySource = some .remoteUrl → ∀ repo, repository = some repo →
      db.targetsOf input.workspaceId repo.provider repo.externalId = []) :
    Takes db input repository draws now (db.putTarget (refreshFullName t repository now))
      (refreshFullName t repository now)
  | new {targetAlias : String} {targets : Keyed ExecutionTargetRecord.id}
    (valid : targetAliasRe targetAlias = true)
    (inserted : db.targets.insert sameAlias (newTarget input targetAlias repository draws.targetId now) =
      some targets)
    (unowned : input.repositorySource = some .remoteUrl → ∀ repo, repository = some repo →
      db.targetsOf input.workspaceId repo.provider repo.externalId = []) :
    Takes db input repository draws now { db with targets }
      (newTarget input targetAlias repository draws.targetId now)

theorem registerByAlias_ok {input : RegisterInput} {targetAlias role : String}
    {repository : Option Repository} {draws : Draws} {now : Int} {r : Registered}
    (h : db.registerByAlias input targetAlias role repository draws now = .ok (db', r))
    (valid : targetAliasRe targetAlias = true)
    (unowned : input.repositorySource = some .remoteUrl → ∀ repo, repository = some repo →
      db.targetsOf input.workspaceId repo.provider repo.externalId = []) :
    ∃ mid bound, Takes db input repository draws now mid r.target ∧
      mid.ensureDeviceBinding input.deviceId r.target.id draws.bindingId now = .ok (db', bound) := by
  unfold registerByAlias at h
  cases hf : db.targetByAlias input.workspaceId targetAlias with
  | none =>
    rw [hf] at h
    obtain ⟨_, -, h⟩ := ok_of_bind h
    dsimp only at h
    split at h
    · cases h
    next targets hins =>
      obtain ⟨⟨db'', bound⟩, hb, h⟩ := ok_of_bind h
      cases h
      exact ⟨_, bound, .new valid hins unowned, hb⟩
  | some t =>
    rw [hf] at h
    obtain ⟨_, he, h⟩ := ok_of_bind h
    obtain ⟨_, hsame, h⟩ := ok_of_bind h
    obtain ⟨⟨db'', bound⟩, hb, h⟩ := ok_of_bind h
    cases h
    have hmem := List.mem_of_find?_eq_some hf
    have hwa := List.find?_some hf
    simp only [Bool.and_eq_true, decide_eq_true_eq] at hwa
    have hmeta := ensure_ok hsame
    simp only [Bool.and_eq_true, decide_eq_true_eq] at hmeta
    exact ⟨_, bound, .existing hmem hwa.1 (of_decide_eq_true (ensure_ok he)) hmeta.1.2 hmeta.2 unowned,
      hb⟩

/-- **What a registration does.** -/
theorem register_ok {input : RegisterInput} {draws : Draws} {now : Int} {r : Registered}
    (h : db.registerExecutionTargetForDevice js input draws now = .ok (db', r)) :
    ∃ device m repository mid bound, ActsFor db input.deviceId device ∧
      input.workspaceId ∈ db.workspaces ∧
      db.memberships.find (input.workspaceId, device.userId) = some m ∧
      trim input.kind ∈ v1ValidTargetKinds ∧ db.repositoryOf js input = .ok repository ∧
      Takes db input repository draws now mid r.target ∧
      mid.ensureDeviceBinding input.deviceId r.target.id draws.bindingId now = .ok (db', bound) := by
  obtain ⟨targetAlias, ha, h⟩ := ok_of_bind h
  obtain ⟨_, -, h⟩ := ok_of_bind h
  obtain ⟨_, hk, h⟩ := ok_of_bind h
  obtain ⟨role, hrole, h⟩ := ok_of_bind h
  obtain ⟨repository, hrepo, h⟩ := ok_of_bind h
  obtain ⟨device, acts, hw, m, hm⟩ := deviceRole_ok hrole
  have valid := normalizeTargetAlias_ok ha
  suffices ∃ mid bound, Takes db input repository draws now mid r.target ∧
      mid.ensureDeviceBinding input.deviceId r.target.id draws.bindingId now = .ok (db', bound) by
    obtain ⟨mid, bound, htakes, hbound⟩ := this
    exact ⟨device, m, repository, mid, bound, acts, hw, hm, of_decide_eq_true (ensure_ok hk), hrepo,
      htakes, hbound⟩
  split at h
  next repo hfilter =>
    obtain ⟨hsome, -⟩ := Option.filter_eq_some_iff.1 hfilter
    unfold registerByRepository at h
    split at h
    next hnil =>
      subst hsome
      exact registerByAlias_ok h valid fun _ repo' h' => Option.some.inj h' ▸ hnil
    next t howners =>
      obtain ⟨_, -, h⟩ := ok_of_bind h
      obtain ⟨⟨db'', bound⟩, hb, h⟩ := ok_of_bind h
      cases h
      exact ⟨db, bound, .owner hsome howners, hb⟩
    · cases h
  next hfilter =>
    refine registerByAlias_ok h valid fun hsource repo hsome => ?_
    rw [hsome, Option.filter_some, if_pos (decide_eq_true hsource)] at hfilter
    cases hfilter

/-- The target that is taken is there, enabled, in the workspace and with the repository. -/
theorem Takes.target {input : RegisterInput} {repository : Option Repository} {draws : Draws}
    {now : Int} {mid : ControlPlane} {t : ExecutionTargetRecord}
    (h : Takes db input repository draws now mid t) :
    t ∈ mid.targets.items ∧ t.workspaceId = input.workspaceId ∧ t.disabledAtMs = none ∧
      t.repositoryProvider = repository.map (·.provider) ∧
      t.repositoryExternalId = repository.map (·.externalId) := by
  cases h with
  | @owner t repo named owners =>
    have ht : t ∈ db.targetsOf input.workspaceId repo.provider repo.externalId := by
      rw [owners]
      exact List.mem_singleton_self t
    obtain ⟨hmem, hp⟩ := List.mem_filter.1 ht
    simp only [Bool.and_eq_true, decide_eq_true_eq] at hp
    rw [named]
    exact ⟨hmem, hp.1.1.1, hp.2, hp.1.1.2, hp.1.2⟩
  | @existing t ht workspaceId enabled provider externalId =>
    have same : (refreshFullName t repository now).id = t.id ∧
        (refreshFullName t repository now).workspaceId = t.workspaceId ∧
        (refreshFullName t repository now).disabledAtMs = t.disabledAtMs ∧
        (refreshFullName t repository now).repositoryProvider = t.repositoryProvider ∧
        (refreshFullName t repository now).repositoryExternalId = t.repositoryExternalId := by
      unfold refreshFullName
      split
      · exact ⟨rfl, rfl, rfl, rfl, rfl⟩
      · split_ifs <;> exact ⟨rfl, rfl, rfl, rfl, rfl⟩
    obtain ⟨hid, hw, he, hp, hx⟩ := same
    exact ⟨(Keyed.mem_put ht hid).2 (.inl rfl), hw.trans workspaceId, he.trans enabled,
      hp.trans provider, hx.trans externalId⟩
  | new valid inserted =>
    exact ⟨((Keyed.insert_eq_some inserted).2.2 _).2 (.inl rfl), rfl, rfl, rfl, rfl⟩

theorem Takes.frame {input : RegisterInput} {repository : Option Repository} {draws : Draws}
    {now : Int} {mid : ControlPlane} {t : ExecutionTargetRecord}
    (h : Takes db input repository draws now mid t) : ∃ targets, mid = { db with targets } := by
  cases h with
  | owner => exact ⟨db.targets, rfl⟩
  | existing => exact ⟨_, rfl⟩
  | new => exact ⟨_, rfl⟩

theorem unowned_of_targetsOf {t : ExecutionTargetRecord} {repo : Repository}
    (h : db.targetsOf t.workspaceId repo.provider repo.externalId = [])
    (provider : t.repositoryProvider = some repo.provider)
    (externalId : t.repositoryExternalId = some repo.externalId) : Unowned db t := by
  intro u hu _ hw he hp hx
  have hnone := List.filter_eq_nil_iff.1 h u hu
  simp only [Bool.and_eq_true, decide_eq_true_eq] at hnone
  exact hnone ⟨⟨⟨hw, hp.trans provider⟩, hx.trans externalId⟩, he⟩

theorem repositoryOf_none {input : RegisterInput} {repo : Repository}
    (h : db.repositoryOf js input = .ok (some repo)) : input.repositorySource ≠ none := by
  intro hnone
  unfold repositoryOf at h
  rw [hnone] at h
  cases h

theorem Takes.effects {input : RegisterInput} {repository : Option Repository} {draws : Draws}
    {now : Int} {mid : ControlPlane} {t : ExecutionTargetRecord}
    (h : Takes db input repository draws now mid t) (kind : trim input.kind ∈ v1ValidTargetKinds)
    (workspace : input.workspaceId ∈ db.workspaces) (named : db.repositoryOf js input = .ok repository)
    (ok : ∀ t ∈ db.targets.items, RowOk db t) : Effects (.register input draws now) db mid := by
  cases h with
  | owner => exact .refl
  | @existing t ht workspaceId enabled provider externalId =>
    refine .single (.target ht ?_)
    unfold refreshFullName
    cases repository with
    | none => exact ⟨rfl, rfl, rfl, .inl rfl, .inl ⟨rfl, rfl, rfl⟩, .inl⟩
    | some repo =>
      dsimp only
      split_ifs
      · exact ⟨rfl, rfl, rfl, .inl rfl, .inl ⟨rfl, rfl, rfl⟩, .inl⟩
      · refine ⟨rfl, rfl, rfl, .inl rfl, .inl ⟨rfl, rfl, ?_⟩, .inl⟩
        rw [← (ok t ht).repository.1, provider]
        rfl
  | new valid inserted unowned =>
    refine .single (.newTarget rfl inserted ⟨valid, kind, workspace, ?_⟩ ?_ ?_)
    · cases repository <;> exact ⟨rfl, rfl⟩
    · intro hsome hsource
      obtain ⟨repo, rfl⟩ : ∃ repo, repository = some repo := by
        cases repository with
        | none => cases hsome
        | some repo => exact ⟨repo, rfl⟩
      exact unowned_of_targetsOf (unowned hsource repo rfl) rfl rfl
    · intro hsome
      cases repository with
      | none => cases hsome
      | some repo => exact repositoryOf_none named

theorem register_effects {input : RegisterInput} {draws : Draws} {now : Int} {r : Registered}
    (h : db.registerExecutionTargetForDevice js input draws now = .ok (db', r))
    (ok : ∀ t ∈ db.targets.items, RowOk db t) : Effects (.register input draws now) db db' := by
  obtain ⟨device, m, repository, mid, bound, acts, hw, hm, hk, hrepo, htakes, hbound⟩ := register_ok h
  refine (htakes.effects hk hw hrepo ok).tail (ensureDeviceBinding_effect hbound ?_ ?_ rfl)
  · obtain ⟨targets, rfl⟩ := htakes.frame
    exact device_mem acts.found
  · exact ⟨r.target, htakes.target.1, rfl⟩

/-- **Every call is a sequence of effects.** -/
theorem exec_effects (ok : ∀ t ∈ db.targets.items, RowOk db t) (op : Op) :
    Effects op db (exec js db op) := by
  cases op with
  | register input draws now =>
    dsimp only [exec]
    cases h : db.registerExecutionTargetForDevice js input draws now with
    | error e => exact .refl
    | ok a => exact register_effects h ok
  | rename targetId newAlias actorUserId now =>
    dsimp only [exec]
    cases h : db.renameExecutionTarget js targetId newAlias actorUserId now with
    | error e => exact .refl
    | ok a => exact rename_effects h
  | attach input now =>
    dsimp only [exec]
    cases h : db.attachRepositoryIdentityToTarget js input now with
    | error e => exact .refl
    | ok a => exact attach_effects h
  | setDefault workspaceId targetId actorUserId =>
    dsimp only [exec]
    cases h : db.setDefaultAgentRuntimeTarget workspaceId targetId actorUserId with
    | error e => exact .refl
    | ok a => exact setDefault_effects h
  | disable targetId now => exact disable_effects targetId now
  | enable targetId now => exact enable_effects targetId now
  | deleteRow targetId => exact .single (.deleted rfl)
  | bind deviceId targetId bindingId now =>
    dsimp only [exec]
    cases h : db.bindTargetForDevice deviceId targetId bindingId now with
    | error e => exact .refl
    | ok a =>
      obtain ⟨device, t, m, acts, ht, -, -, hbound⟩ := bind_ok h
      exact .single (ensureDeviceBinding_effect hbound (device_mem acts.found)
        ⟨t, mem_of_find ht⟩ rfl)
  | unbind deviceId targetId now =>
    dsimp only [exec]
    cases h : db.unbindTargetForDevice deviceId targetId now with
    | error e => exact .refl
    | ok a => exact unbind_effects h
  | addDevice device =>
    refine .single (.identity (fun d hd => ⟨d, ?_, rfl⟩) (List.Subset.refl _))
    by_cases hnew : device.id ∈ db.devices.items.map DeviceRecord.id
    · unfold Keyed.add
      rwa [dif_pos hnew]
    · exact (Keyed.mem_add hnew).2 (.inr hd)
  | revokeDevice deviceId now =>
    refine .single (.identity (fun d hd => ?_) (List.Subset.refl _))
    refine Keyed.exists_mem_update _ (P := fun d' => d'.id = d.id) ?_ ⟨d, hd, rfl⟩
    exact fun _ h => h
  | user user => exact .single (.identity (fun d hd => ⟨d, hd, rfl⟩) (List.Subset.refl _))
  | membership membership => exact .single (.identity (fun d hd => ⟨d, hd, rfl⟩) (List.Subset.refl _))
  | workspace workspaceId =>
    exact .single (.identity (fun d hd => ⟨d, hd, rfl⟩) (List.subset_cons_self _ _))
  | repository workspaceId binding =>
    exact .single (.identity (fun d hd => ⟨d, hd, rfl⟩) (List.Subset.refl _))

end calls

end Ceo.Connector.Targets
