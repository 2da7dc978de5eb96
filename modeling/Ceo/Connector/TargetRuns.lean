import Ceo.Connector.TargetEffects

/-!
# Targets, bindings and defaults over runs

What the foreign keys and the unique constraints promise (`Sound`) is kept by
every effect, and so is the repository of a target once it has one (`RowKept`).
-/

namespace Ceo.Connector.Targets

open Ceo.Lib Ceo.Connector.Eligibility
open Ceo.Connector.RepoIdentity (LowerTable)
open ControlPlane

/-! ### the constraints -/

structure Sound (db : ControlPlane) : Prop where
  rows : ∀ t ∈ db.targets.items, RowOk db t
  /-- `UNIQUE(workspace_id, alias)` -/
  aliases : Keyed.Apart (fun t x => (t.workspaceId, t.targetAlias) = x) db.targets
  bindings : ∀ b ∈ db.bindings.items,
    (∃ d ∈ db.devices.items, d.id = b.deviceId) ∧ ∃ t ∈ db.targets.items, t.id = b.targetId
  defaults : ∀ w id, db.defaultAgentRuntime w = some id →
    ∃ t ∈ db.targets.items, t.id = id ∧ t.workspaceId = w

/-- What a row keeps while it is there. -/
structure RowKept (t t' : ExecutionTargetRecord) : Prop where
  id : t'.id = t.id
  workspaceId : t'.workspaceId = t.workspaceId
  kind : t'.kind = t.kind
  repository : t.repositoryProvider.isSome → SameRepository t t'

section invariants

variable {op : Op} {db db' : ControlPlane}

theorem RowKept.refl (t : ExecutionTargetRecord) : RowKept t t :=
  ⟨rfl, rfl, rfl, fun _ => ⟨rfl, rfl, rfl⟩⟩

theorem RowKept.trans {t u v : ExecutionTargetRecord} (h : RowKept t u) (h' : RowKept u v) :
    RowKept t v := by
  refine ⟨h'.id.trans h.id, h'.workspaceId.trans h.workspaceId, h'.kind.trans h.kind, fun hs => ?_⟩
  obtain ⟨hp, hx, hn⟩ := h.repository hs
  obtain ⟨hp', hx', hn'⟩ := h'.repository (hp ▸ hs)
  exact ⟨hp'.trans hp, hx'.trans hx, hn'.trans hn⟩

theorem RowChange.ok {t t' : ExecutionTargetRecord} (h : RowChange op db t t') (ok : RowOk db t) :
    RowOk db t' where
  targetAlias := by
    rcases h.targetAlias with ha | ⟨ha, -⟩
    · exact ha ▸ ok.targetAlias
    · exact ha
  kind := h.kind ▸ ok.kind
  workspaceId := h.workspaceId ▸ ok.workspaceId
  repository := by
    rcases h.repository with ⟨hp, hx, hn⟩ | ⟨-, hp, hx, hn, -⟩
    · rw [hp, hx, hn]
      exact ok.repository
    · rw [hp, hx, hn]
      exact ⟨rfl, rfl⟩

theorem RowChange.kept {t t' : ExecutionTargetRecord} (h : RowChange op db t t') (ok : RowOk db t) :
    RowKept t t' := by
  refine ⟨h.id, h.workspaceId, h.kind, fun hs => h.repository.resolve_right ?_⟩
  rintro ⟨hnone, -⟩
  obtain ⟨hp, hx⟩ := ok.repository
  rw [hs] at hp
  rw [← hp] at hx
  rcases hnone with hnone | hnone | hnone
  · rw [hnone] at hs
    cases hs
  · rw [hnone] at hx
    cases hx
  · rw [hnone] at hp
    cases hp

theorem mem_putTarget {t t' u : ExecutionTargetRecord} (ht : t ∈ db.targets.items) (hid : t'.id = t.id) :
    u ∈ (db.putTarget t').targets.items ↔ u = t' ∨ u ∈ db.targets.items ∧ u.id ≠ t'.id :=
  Keyed.mem_put ht hid

/-- The row that `t` has become is under its id. -/
theorem exists_putTarget {t t' u : ExecutionTargetRecord} (ht : t ∈ db.targets.items)
    (hid : t'.id = t.id) (hu : u ∈ db.targets.items) :
    u = t ∧ t' ∈ (db.putTarget t').targets.items ∨ u ∈ (db.putTarget t').targets.items := by
  by_cases hut : u.id = t.id
  · exact .inl ⟨Keyed.eq_of_key hu ht hut, (mem_putTarget ht hid).2 (.inl rfl)⟩
  · exact .inr ((mem_putTarget ht hid).2 (.inr ⟨hu, hid ▸ hut⟩))

theorem Effect.workspaces (e : Effect op db db') : db.workspaces ⊆ db'.workspaces := by
  cases e with
  | identity _ grows => exact grows
  | target | newTarget | binding | deleted | newDefault => exact List.Subset.refl _

/-- **A target is kept, unless it is deleted.** -/
theorem Effect.keeps (e : Effect op db db') (h : Sound db) {t : ExecutionTargetRecord}
    (ht : t ∈ db.targets.items) (undeleted : op ≠ .deleteRow t.id) :
    ∃ t' ∈ db'.targets.items, RowKept t t' := by
  cases e with
  | @target u u' hu change =>
    rcases exists_putTarget hu change.id ht with ⟨rfl, hmem⟩ | hmem
    · exact ⟨u', hmem, change.kept (h.rows t hu)⟩
    · exact ⟨t, hmem, .refl t⟩
  | newTarget _ inserted =>
    exact ⟨t, ((Keyed.insert_eq_some inserted).2.2 t).2 (.inr ht), .refl t⟩
  | deleted call =>
    refine ⟨t, Keyed.mem_erase.2 ⟨ht, fun hid => undeleted ?_⟩, .refl t⟩
    rw [call, hid]
  | binding | newDefault | identity => exact ⟨t, ht, .refl t⟩

/-- **Every effect keeps the constraints.** -/
theorem Effect.sound (e : Effect op db db') (h : Sound db) : Sound db' := by
  have okMono {t : ExecutionTargetRecord} (ok : RowOk db t) : RowOk db' t :=
    ⟨ok.targetAlias, ok.kind, e.workspaces ok.workspaceId, ok.repository⟩
  have kept {t : ExecutionTargetRecord} (ht : t ∈ db.targets.items)
      (undeleted : op ≠ .deleteRow t.id) : ∃ t' ∈ db'.targets.items, RowKept t t' :=
    e.keeps h ht undeleted
  cases e with
  | @target t t' ht change =>
    refine ⟨fun u hu => ?_, ?_, fun b hb => ⟨(h.bindings b hb).1, ?_⟩, fun w id hd => ?_⟩
    · rcases (mem_putTarget ht change.id).1 hu with rfl | ⟨hu, -⟩
      · exact okMono (change.ok (h.rows t ht))
      · exact okMono (h.rows u hu)
    · refine h.aliases.put ht change.id fun x hx => ?_
      rcases change.targetAlias with ha | ⟨-, hfree⟩
      · exact .inl (by rw [← hx, change.workspaceId, ha])
      · refine .inr fun u hu hne hux => hne ?_
        obtain ⟨hw, ha⟩ := Prod.mk.inj (hux.trans hx.symm)
        exact hfree u hu (hw.trans change.workspaceId) ha
    · obtain ⟨u, hu, hid⟩ := (h.bindings b hb).2
      rcases exists_putTarget ht change.id hu with ⟨rfl, hmem⟩ | hmem
      · exact ⟨t', hmem, change.id.trans hid⟩
      · exact ⟨u, hmem, hid⟩
    · obtain ⟨u, hu, hid, hw⟩ := h.defaults w id hd
      rcases exists_putTarget ht change.id hu with ⟨rfl, hmem⟩ | hmem
      · exact ⟨t', hmem, change.id.trans hid, change.workspaceId.trans hw⟩
      · exact ⟨u, hmem, hid, hw⟩
  | @newTarget row targets _ _ _ _ inserted ok =>
    obtain ⟨hkey, hclash, hmem⟩ := Keyed.insert_eq_some inserted
    have old {u : ExecutionTargetRecord} (hu : u ∈ db.targets.items) : u ∈ targets.items :=
      (hmem u).2 (.inr hu)
    refine ⟨fun u hu => ?_, ?_, fun b hb => ?_, fun w id hd => ?_⟩
    · rcases (hmem u).1 hu with rfl | hu
      · exact okMono ok
      · exact okMono (h.rows u hu)
    · intro u hu v hv x hux hvx
      have clash {a : ExecutionTargetRecord} (ha : a ∈ db.targets.items)
          (hrow : (row.workspaceId, row.targetAlias) = x)
          (hax : (a.workspaceId, a.targetAlias) = x) : False := by
        obtain ⟨hw, ht⟩ := Prod.mk.inj (hrow.trans hax.symm)
        have hno := hclash a ha
        rw [sameAlias, hw, ht, beq_self_eq_true, beq_self_eq_true] at hno
        cases hno
      rcases (hmem u).1 hu with rfl | hu <;> rcases (hmem v).1 hv with rfl | hv
      · rfl
      · exact (clash hv hux hvx).elim
      · exact (clash hu hvx hux).elim
      · exact h.aliases u hu v hv x hux hvx
    · obtain ⟨hd, t, ht, hid⟩ := h.bindings b hb
      exact ⟨hd, t, old ht, hid⟩
    · obtain ⟨t, ht, hid, hw⟩ := h.defaults w id hd
      exact ⟨t, old ht, hid, hw⟩
  | @binding b bindings _ rows device target =>
    refine ⟨fun t ht => okMono (h.rows t ht), h.aliases, fun x hx => ?_, h.defaults⟩
    rcases rows x hx with rfl | hx
    · exact ⟨device, target⟩
    · exact h.bindings x hx
  | @deleted id call =>
    refine ⟨fun t ht => okMono (h.rows t (Keyed.mem_erase.1 ht).1), h.aliases.erase id, fun b hb => ?_,
      fun w targetId hd => ?_⟩
    · obtain ⟨hmem, hne⟩ := List.mem_filter.1 hb
      obtain ⟨hdev, t, ht, hid⟩ := h.bindings b hmem
      exact ⟨hdev, t, Keyed.mem_erase.2 ⟨ht, hid ▸ of_decide_eq_true hne⟩, hid⟩
    · obtain ⟨hd, hne⟩ := Option.filter_eq_some_iff.1 hd
      obtain ⟨t, ht, hid, hw⟩ := h.defaults w targetId hd
      exact ⟨t, Keyed.mem_erase.2 ⟨ht, hid ▸ of_decide_eq_true hne⟩, hid, hw⟩
  | @newDefault workspaceId targetId t ht hw =>
    refine ⟨fun t ht => okMono (h.rows t ht), h.aliases, h.bindings, fun w id hd => ?_⟩
    by_cases hww : w = workspaceId
    · subst hww
      dsimp only at hd
      rw [Function.update_self] at hd
      cases hd
      exact ⟨t, (mem_of_find ht).1, (mem_of_find ht).2, hw⟩
    · dsimp only at hd
      rw [Function.update_of_ne hww] at hd
      exact h.defaults w id hd
  | identity keepsDevices grows =>
    refine ⟨fun t ht => okMono (h.rows t ht), h.aliases, fun b hb => ?_, h.defaults⟩
    obtain ⟨⟨d, hd, hid⟩, ht⟩ := h.bindings b hb
    obtain ⟨d', hd', hid'⟩ := keepsDevices d hd
    exact ⟨⟨d', hd', hid'.trans hid⟩, ht⟩

theorem Effects.sound (e : Effects op db db') (h : Sound db) : Sound db' := by
  induction e with
  | refl => exact h
  | tail _ e ih => exact e.sound ih

theorem Effects.keeps (e : Effects op db db') (h : Sound db) {t : ExecutionTargetRecord}
    (ht : t ∈ db.targets.items) (undeleted : op ≠ .deleteRow t.id) :
    ∃ t' ∈ db'.targets.items, RowKept t t' := by
  induction e with
  | refl => exact ⟨t, ht, .refl t⟩
  | tail es e ih =>
    obtain ⟨u, hu, kept⟩ := ih
    obtain ⟨v, hv, kept'⟩ := e.keeps (Effects.sound es h) hu (kept.id ▸ undeleted)
    exact ⟨v, hv, kept.trans kept'⟩

variable {js : LowerTable} {s s' : ControlPlane} {l : List Op}

theorem sound_empty : Sound .empty :=
  ⟨fun _ h => (List.not_mem_nil h).elim, Keyed.apart_empty, fun _ h => (List.not_mem_nil h).elim,
    fun _ _ h => by cases h⟩

theorem exec_sound (h : Sound db) (op : Op) : Sound (exec js db op) :=
  Effects.sound (exec_effects h.rows op) h

theorem reachable_sound (hs : (controlPlane js).Reachable s) : Sound s :=
  hs.inv (fun h => h ▸ sound_empty) fun h hstep => hstep ▸ exec_sound h _

end invariants

/-! ### who can run a target -/

/-- The binding is there and enabled. -/
def Live (db : ControlPlane) (deviceId targetId : String) : Prop :=
  ∃ b ∈ db.bindings.items, b.deviceId = deviceId ∧ b.targetId = targetId ∧ b.disabledAtMs = none

/-- The device itself binds the target, or registers one. -/
def Op.Binds (op : Op) (deviceId targetId : String) : Prop :=
  (∃ input draws now, op = .register input draws now ∧ input.deviceId = deviceId) ∨
    ∃ bindingId now, op = .bind deviceId targetId bindingId now

section eligibility

variable {js : LowerTable} {db db' : ControlPlane} {deviceId targetId : String}

theorem live_of_eligible
    (h : (resolveEligibleBinding db.toControlStore deviceId targetId).isEligible = true) :
    Live db deviceId targetId := by
  obtain ⟨-, -, -, b, -, -, -, -, -, -, -, hb, hlive, -⟩ := eligible_iff.1 h
  obtain ⟨hmem, hkey⟩ := Keyed.find_eq_some hb
  exact ⟨b, hmem, (Prod.mk.inj hkey).1, (Prod.mk.inj hkey).2, hlive⟩

theorem Effects.bindings {op : Op} (e : Effects op db db') (call : op.onBindings = false) :
    ∀ x ∈ db'.bindings.items, x ∈ db.bindings.items := by
  induction e with
  | refl => exact fun _ => id
  | tail _ e ih =>
    cases e with
    | binding on =>
      rw [call] at on
      cases on
    | deleted => exact fun x hx => ih x (List.mem_filter.1 hx).1
    | target | newTarget | newDefault | identity => exact ih

/-- A binding that is enabled now, and was not, makes the target one that the device can run. -/
theorem eligible_of_bound {mid : ControlPlane} {bindingId : String} {now : Int} {bound : Bound}
    {device : DeviceRecord} {t : ExecutionTargetRecord} {m : WorkspaceMembershipRecord} {d id : String}
    (acts : ActsFor mid d device) (ht : mid.targets.find id = some t) (enabled : t.disabledAtMs = none)
    (hm : mid.memberships.find (t.workspaceId, device.userId) = some m)
    (h : mid.ensureDeviceBinding d id bindingId now = .ok (db', bound))
    (before : ¬Live mid deviceId targetId) (after : Live db' deviceId targetId) :
    d = deviceId ∧ id = targetId ∧
      (resolveEligibleBinding db'.toControlStore deviceId targetId).isEligible = true := by
  obtain ⟨⟨bindings, rfl⟩, hmem, hd, hid, hlive, hrows⟩ := ensureDeviceBinding_ok h
  obtain ⟨x, hx, hxd, hxt, hxl⟩ := after
  rcases hrows x hx with rfl | hold
  · obtain rfl := hd.symm.trans hxd
    obtain rfl := hid.symm.trans hxt
    obtain ⟨user, hu, ha⟩ := acts.active
    refine ⟨rfl, rfl, eligible_iff.2 ⟨device, user, t, bound.binding, m, acts.found, acts.unrevoked, hu,
      ha, ht, enabled, ?_, hlive, hm⟩⟩
    rw [← hxd, ← hxt]
    exact find_of_mem hmem
  · exact (before ⟨x, hold, hxd, hxt, hxl⟩).elim

/-- **Only the device itself enables a binding**, while its owner may run the target. -/
theorem live_new {op : Op} (h : Sound db) (before : ¬Live db deviceId targetId)
    (after : Live (exec js db op) deviceId targetId) :
    op.Binds deviceId targetId ∧
      (resolveEligibleBinding (exec js db op).toControlStore deviceId targetId).isEligible = true := by
  cases hcall : op.onBindings with
  | false =>
    obtain ⟨x, hx, hd⟩ := after
    exact (before ⟨x, (exec_effects h.rows op).bindings hcall x hx, hd⟩).elim
  | true =>
    cases op with
    | register input draws now =>
      dsimp only [exec] at after ⊢
      cases hreg : db.registerExecutionTargetForDevice js input draws now with
      | error e =>
        rw [hreg] at after
        exact (before after).elim
      | ok a =>
        rw [hreg] at after
        obtain ⟨device, m, repository, mid, bound, acts, -, hm, -, -, htakes, hbound⟩ := register_ok hreg
        obtain ⟨hmem, hw, he, -⟩ := htakes.target
        obtain ⟨targets, rfl⟩ := htakes.frame
        have acts' : ActsFor { db with targets } input.deviceId device :=
          ⟨acts.found, acts.unrevoked, acts.active⟩
        obtain ⟨rfl, -, helig⟩ :=
          eligible_of_bound acts' (find_of_mem hmem) he (hw ▸ hm) hbound before after
        exact ⟨.inl ⟨_, _, _, rfl, rfl⟩, helig⟩
    | bind d id bindingId now =>
      dsimp only [exec] at after ⊢
      cases hbind : db.bindTargetForDevice d id bindingId now with
      | error e =>
        rw [hbind] at after
        exact (before after).elim
      | ok a =>
        rw [hbind] at after
        obtain ⟨device, t, m, acts, ht, he, hm, hbound⟩ := bind_ok hbind
        obtain ⟨rfl, rfl, helig⟩ := eligible_of_bound acts ht he hm hbound before after
        exact ⟨.inr ⟨_, _, rfl⟩, helig⟩
    | unbind d id now =>
      dsimp only [exec] at after
      cases hun : db.unbindTargetForDevice d id now with
      | error e =>
        rw [hun] at after
        exact (before after).elim
      | ok a =>
        rw [hun] at after
        refine (before ?_).elim
        obtain ⟨device, -, hun⟩ := ok_of_bind hun
        obtain ⟨t, -, hun⟩ := ok_of_bind hun
        cases hf : db.bindings.find (d, id) with
        | none =>
          rw [hf] at hun
          cases hun
          exact after
        | some b =>
          rw [hf] at hun
          dsimp only at hun
          split_ifs at hun
          · cases hun
            exact after
          · cases hun
            obtain ⟨x, hx, hd, ht, hl⟩ := after
            rcases (Keyed.mem_put (Keyed.find_eq_some hf).1 (by rfl)).1 hx with rfl | ⟨hold, -⟩
            · cases hl
            · exact ⟨x, hold, hd, ht, hl⟩
    | rename | attach | setDefault | disable | enable | deleteRow | addDevice | revokeDevice | user
    | membership | workspace | repository => cases hcall

end eligibility

/-! ### who has a repository -/

/-- Two enabled targets of a workspace with the same repository are one. -/
def OneOwner (db : ControlPlane) : Prop :=
  ∀ t ∈ db.targets.items, ∀ u ∈ db.targets.items, t.disabledAtMs = none → u.disabledAtMs = none →
    t.workspaceId = u.workspaceId → t.repositoryProvider.isSome →
    t.repositoryProvider = u.repositoryProvider → t.repositoryExternalId = u.repositoryExternalId → t = u

/-- No target is enabled again, and none is registered with the repository of the workspace. -/
def Op.byRemote : Op → Prop
  | .enable _ _ => False
  | .register input _ _ => input.repositorySource ≠ some .workspaceRepository
  | _ => True

section owners

variable {op : Op} {db db' : ControlPlane}

/-- A row that comes in, or has changed, where no other has its repository. -/
theorem OneOwner.of_rows {t : ExecutionTargetRecord} (h : OneOwner db)
    (rows : ∀ u ∈ db'.targets.items, u = t ∨ u ∈ db.targets.items ∧ u.id ≠ t.id)
    (unowned : t.disabledAtMs = none → t.repositoryProvider.isSome → Unowned db t) : OneOwner db' := by
  intro u hu v hv hue hve hw hs hp hx
  rcases rows u hu with rfl | ⟨hu, hune⟩ <;> rcases rows v hv with rfl | ⟨hv, hvne⟩
  · rfl
  · exact (unowned hue hs v hv hvne hw.symm hve hp.symm hx.symm).elim
  · exact (unowned hve (hp ▸ hs) u hu hune hw hue hp hx).elim
  · exact h u hu v hv hue hve hw hs hp hx

theorem Effect.oneOwner (e : Effect op db db') (remote : op.byRemote) (h : OneOwner db) :
    OneOwner db' := by
  cases e with
  | @target t t' ht change =>
    refine h.of_rows (fun u hu => (mem_putTarget ht change.id).1 hu) fun he hs => ?_
    have hte : t.disabledAtMs = none := by
      rcases change.enabled he with hte | ⟨id, now, rfl⟩
      · exact hte
      · cases remote
    rcases change.repository with ⟨hp, hx, -⟩ | ⟨-, -, -, -, hunowned⟩
    · intro u hu hne hw hue hup hux
      rw [change.id] at hne
      refine hne (congrArg ExecutionTargetRecord.id (h u hu t ht hue hte ?_ ?_ ?_ ?_))
      · rw [hw, change.workspaceId]
      · rwa [hup]
      · rw [hup, hp]
      · rw [hux, hx]
    · exact hunowned
  | @newTarget row targets input draws now call inserted ok unowned named =>
    obtain ⟨hkey, -, hmem⟩ := Keyed.insert_eq_some inserted
    refine h.of_rows (t := row) (fun u hu => ?_) fun _ hs => unowned hs ?_
    · rcases (hmem u).1 hu with rfl | hu
      · exact .inl rfl
      · exact .inr ⟨hu, fun hid => hkey (hid ▸ List.mem_map_of_mem hu)⟩
    · have hnamed := named hs
      subst call
      cases hsource : input.repositorySource with
      | none => exact absurd hsource hnamed
      | some source =>
        cases source with
        | workspaceRepository => exact absurd hsource remote
        | remoteUrl => rfl
  | deleted =>
    intro t ht u hu
    exact h t (Keyed.mem_erase.1 ht).1 u (Keyed.mem_erase.1 hu).1
  | binding | newDefault | identity => exact h

theorem Effects.oneOwner (e : Effects op db db') (remote : op.byRemote) (h : OneOwner db) :
    OneOwner db' := by
  induction e with
  | refl => exact h
  | tail _ e ih => exact e.oneOwner remote ih

/-- The only target that a registration of a repository can take. -/
theorem Takes.of_owner {input : RegisterInput} {repo : Repository} {draws : Draws} {now : Int}
    {mid : ControlPlane} {t u : ExecutionTargetRecord}
    (h : Takes db input (some repo) draws now mid t) (source : input.repositorySource = some .remoteUrl)
    (hu : u ∈ db.targetsOf input.workspaceId repo.provider repo.externalId) : mid = db ∧ t = u := by
  cases h with
  | owner named owners =>
    cases named
    rw [owners] at hu
    exact ⟨rfl, (List.mem_singleton.1 hu).symm⟩
  | existing _ _ _ _ _ unowned | new _ _ unowned =>
    rw [unowned source repo rfl] at hu
    exact (List.not_mem_nil hu).elim

end owners

/-! ### the results -/

variable {js : LowerTable}

/-- **The constraints hold in every reachable state**: a target is found by its workspace and alias, a
binding is of a device and a target that are there, and the default target of a workspace is one of its
own, which can at most be disabled. -/
theorem tables_consistent {s : ControlPlane} (hs : (controlPlane js).Reachable s) :
    (∀ t ∈ s.targets.items, s.targetByAlias t.workspaceId t.targetAlias = some t ∧
      targetAliasRe t.targetAlias = true) ∧
    (∀ b ∈ s.bindings.items, (s.devices.find b.deviceId).isSome ∧ (s.targets.find b.targetId).isSome) ∧
    ∀ w, s.resolveDefaultAgentRuntimeTarget w = .notConfigured ∨
      s.resolveDefaultAgentRuntimeTarget w =
        .unavailable "The configured default Agent Runtime target is disabled." ∨
      ∃ t ∈ s.targets.items, s.resolveDefaultAgentRuntimeTarget w = .ok t ∧ t.workspaceId = w ∧
        t.disabledAtMs = none := by
  have h := reachable_sound hs
  refine ⟨fun t ht => ⟨?_, (h.rows t ht).targetAlias⟩, fun b hb => ?_, fun w => ?_⟩
  · cases hf : s.targetByAlias t.workspaceId t.targetAlias with
    | none => simpa using List.find?_eq_none.1 hf t ht
    | some u =>
      have hwa := List.find?_some hf
      simp only [Bool.and_eq_true, decide_eq_true_eq] at hwa
      have hu := List.mem_of_find?_eq_some hf
      have hid := h.aliases u hu t ht (t.workspaceId, t.targetAlias) (Prod.ext hwa.1 hwa.2) rfl
      exact congrArg some (Keyed.eq_of_key hu ht hid)
  · obtain ⟨⟨d, hd, hdid⟩, t, ht, htid⟩ := h.bindings b hb
    rw [← hdid, ← htid, find_of_mem hd, find_of_mem ht]
    exact ⟨rfl, rfl⟩
  · unfold resolveDefaultAgentRuntimeTarget
    cases hd : s.defaultAgentRuntime w with
    | none => exact .inl rfl
    | some id =>
      obtain ⟨t, ht, rfl, rfl⟩ := h.defaults w id hd
      dsimp only
      rw [find_of_mem ht]
      dsimp only
      rw [if_neg (not_not.2 rfl)]
      split_ifs with he
      · exact .inr (.inl rfl)
      · exact .inr (.inr ⟨t, ht, rfl, rfl, not_not.1 he⟩)

/-- **Who can run a target was bound to it by its own request**: at some call of the device, which then
could run it, and the binding has been enabled in every state since. -/
theorem eligible_since_bound {s : ControlPlane} {deviceId targetId : String}
    (hs : (controlPlane js).Reachable s)
    (h : (resolveEligibleBinding s.toControlStore deviceId targetId).isEligible = true) :
    ∃ s₁ op l, (controlPlane js).Reachable s₁ ∧ op.Binds deviceId targetId ∧
      (resolveEligibleBinding (exec js s₁ op).toControlStore deviceId targetId).isEligible = true ∧
      ((controlPlane js).guard fun s _ => Live s deviceId targetId).Run (exec js s₁ op) l s := by
  obtain ⟨s₀, l, rfl, hr⟩ := hs
  have none_live : ¬Live .empty deviceId targetId := by
    rintro ⟨b, hb, -⟩
    exact List.not_mem_nil hb
  obtain ⟨s₁, op, s₂, l₁, l₂, hr₁, hdead, hstep, hlive, hr₂⟩ :=
    hr.since (P := fun s => Live s deviceId targetId) none_live (live_of_eligible h)
  cases hstep
  have hreach : (controlPlane js).Reachable s₁ := ⟨_, l₁, rfl, hr₁⟩
  obtain ⟨hbinds, helig⟩ := live_new (reachable_sound hreach) hdead hlive
  exact ⟨s₁, op, l₂, hreach, hbinds, helig, hr₂⟩

/-- **A repository has one enabled target in a workspace**, where targets come by their remote and none
is enabled again; registrations are then never refused for there being several. -/
theorem repository_has_one_target {s : ControlPlane}
    (hs : ((controlPlane js).guard fun _ op => op.byRemote).Reachable s) :
    (∀ t ∈ s.targets.items, ∀ u ∈ s.targets.items, t.disabledAtMs = none → u.disabledAtMs = none →
      t.workspaceId = u.workspaceId → t.repositoryProvider.isSome →
      t.repositoryProvider = u.repositoryProvider →
      t.repositoryExternalId = u.repositoryExternalId → t = u) ∧
    ∀ w provider externalId, (s.targetsOf w provider externalId).length ≤ 1 := by
  have h : Sound s ∧ OneOwner s := by
    refine hs.inv (I := fun s => Sound s ∧ OneOwner s) ?_ ?_
    · rintro s rfl
      exact ⟨sound_empty, fun t ht => (List.not_mem_nil ht).elim⟩
    · rintro s op s' ⟨hsound, hone⟩ ⟨remote, hstep⟩
      cases hstep
      exact ⟨exec_sound hsound op, (exec_effects hsound.rows op).oneOwner remote hone⟩
  refine ⟨h.2, fun w provider externalId => ?_⟩
  have hnodup : (s.targetsOf w provider externalId).Nodup :=
    (List.Nodup.of_map _ s.targets.nodup).filter _
  have heq : ∀ t ∈ s.targetsOf w provider externalId, ∀ u ∈ s.targetsOf w provider externalId, t = u := by
    intro t ht u hu
    obtain ⟨ht, hpt⟩ := List.mem_filter.1 ht
    obtain ⟨hu, hpu⟩ := List.mem_filter.1 hu
    simp only [Bool.and_eq_true, decide_eq_true_eq] at hpt hpu
    refine h.2 t ht u hu hpt.2 hpu.2 (hpt.1.1.1.trans hpu.1.1.1.symm) ?_
      (hpt.1.1.2.trans hpu.1.1.2.symm) (hpt.1.2.trans hpu.1.2.symm)
    rw [hpt.1.1.2]
    rfl
  rcases hl : s.targetsOf w provider externalId with _ | ⟨t, _ | ⟨u, l⟩⟩
  · exact Nat.zero_le _
  · exact Nat.le_refl _
  · rw [hl] at hnodup heq
    obtain rfl := heq t (List.mem_cons_self ..) u (List.mem_cons_of_mem _ (List.mem_cons_self ..))
    exact absurd (List.mem_cons_self ..) (List.nodup_cons.1 hnodup).1

namespace Sample

def device (id : String) : DeviceRecord where
  id := id
  userId := "usr_1"
  displayName := "Laptop"
  platform := "linux"
  createdAtMs := 1
  updatedAtMs := 1
  revokedAtMs := none

/-- A user with a workspace and two devices. -/
def ready : List Op :=
  [.user ⟨"usr_1", none⟩, .workspace "ws_1", .membership ⟨"wm_1", "ws_1", "usr_1", "owner"⟩,
    .addDevice (device "dev_1"), .addDevice (device "dev_2")]

def input (deviceId targetAlias fullName : String) : RegisterInput where
  deviceId := deviceId
  workspaceId := "ws_1"
  targetAlias := targetAlias
  displayName := "Project"
  kind := "coding"
  repositorySource := some .remoteUrl
  repositoryProvider := some "github"
  repositoryFullName := some fullName

def first : RegisterInput := input "dev_1" "project" "Org/Repo.git"
def second : RegisterInput := input "dev_2" "other" "org/repo"
def draws (n : String) : Draws := ⟨"tgt_" ++ n, "dtb_" ++ n⟩

def run (ops : List Op) : ControlPlane := ops.foldl (exec .plain) .empty

def registers : List Op :=
  ready ++ [.register first (draws "1") 2, .register second (draws "2") 3,
    .setDefault "ws_1" "tgt_1" "usr_1"]

theorem reachable_run (ops : List Op) : (controlPlane .plain).Reachable (run ops) :=
  ⟨.empty, ops, rfl, LTS.run_ofFun _ _ _ _⟩

theorem written_of_isOk {α : Type} (db : ControlPlane) (x : Except TargetError (ControlPlane × α))
    (h : x.isOk = true) : ∃ a, x = .ok (written db x, a) := by
  cases x with
  | error e => cases h
  | ok a => exact ⟨a.2, rfl⟩

theorem guarded_run {P : Op → Prop} {s : ControlPlane} {ops : List Op} (h : ∀ op ∈ ops, P op) :
    ((controlPlane .plain).guard fun _ op => P op).Run s ops (ops.foldl (exec .plain) s) := by
  induction ops generalizing s with
  | nil => exact .nil s
  | cons op ops ih =>
    exact .cons ⟨h op (List.mem_cons_self ..), rfl⟩ (ih fun op' h' => h op' (List.mem_cons_of_mem _ h'))

end Sample

theorem tables_consistent_run :
    (Sample.run Sample.registers).targets.items ≠ [] ∧
    (∀ t ∈ (Sample.run Sample.registers).targets.items,
      (Sample.run Sample.registers).targetByAlias t.workspaceId t.targetAlias = some t ∧
        targetAliasRe t.targetAlias = true) :=
  ⟨by decide +kernel, (tables_consistent (Sample.reachable_run _)).1⟩

/-- The second device runs the target that the first one has registered. -/
theorem eligible_since_bound_run :
    ∃ s₁ op l, (controlPlane .plain).Reachable s₁ ∧ op.Binds "dev_2" "tgt_1" ∧
      (resolveEligibleBinding (exec .plain s₁ op).toControlStore "dev_2" "tgt_1").isEligible = true ∧
      ((controlPlane .plain).guard fun s _ => Live s "dev_2" "tgt_1").Run (exec .plain s₁ op) l
        (Sample.run Sample.registers) :=
  eligible_since_bound (Sample.reachable_run _) (by decide +kernel)

theorem repository_has_one_target_run :
    ∃ s : ControlPlane, s.targets.items ≠ [] ∧
      ∀ w provider externalId, (s.targetsOf w provider externalId).length ≤ 1 := by
  have hs : ((controlPlane .plain).guard fun _ op => op.byRemote).Reachable
      (Sample.run Sample.registers) := by
    refine ⟨.empty, Sample.registers, rfl, ?_⟩
    have allowed : ∀ op ∈ Sample.registers, op.byRemote := by
      simp [Sample.registers, Sample.ready, Op.byRemote, Sample.first, Sample.second, Sample.input]
    exact Sample.guarded_run allowed
  exact ⟨_, by decide +kernel, (repository_has_one_target hs).2⟩

end Ceo.Connector.Targets
