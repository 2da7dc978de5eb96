import Mathlib.Data.Set.Card
import Ceo.Lib.Keyed

/-!
# Who may run a target

The rule that a device may run a target is written three times in
`connector/control-store.ts`: as branches in `resolveEligibleBinding`, as a join
of five tables in `listEligibleTargetIdsForDevice`, and as the count that the
two target lists report. A table is a list of rows with unique keys, so a join
on a key adds one row or none.
-/

namespace Ceo.Connector.Eligibility

open Ceo.Lib

/-! ### the tables -/

structure UserRecord where
  id : String
  disabledAt : Option Int
  deriving DecidableEq, Repr

structure DeviceRecord where
  id : String
  userId : String
  displayName : String
  platform : String
  createdAtMs : Int
  updatedAtMs : Int
  revokedAtMs : Option Int
  deriving DecidableEq, Repr

structure ExecutionTargetRecord where
  id : String
  workspaceId : String
  targetAlias : String
  displayName : String
  kind : String
  repositoryProvider : Option String
  repositoryExternalId : Option String
  repositoryFullName : Option String
  createdAtMs : Int
  updatedAtMs : Int
  disabledAtMs : Option Int
  deriving DecidableEq, Repr

structure DeviceTargetBindingRecord where
  id : String
  deviceId : String
  targetId : String
  createdAtMs : Int
  updatedAtMs : Int
  disabledAtMs : Option Int
  deriving DecidableEq, Repr

structure WorkspaceMembershipRecord where
  id : String
  workspaceId : String
  userId : String
  role : String
  deriving DecidableEq, Repr

/-- The five tables, under their unique constraints, and the defaults of the workspaces. -/
structure ControlStore where
  users : Keyed UserRecord.id
  devices : Keyed DeviceRecord.id
  targets : Keyed ExecutionTargetRecord.id
  bindings : Keyed fun b : DeviceTargetBindingRecord => (b.deviceId, b.targetId)
  memberships : Keyed fun m : WorkspaceMembershipRecord => (m.workspaceId, m.userId)
  defaultAgentRuntime : String → Option String

variable (db : ControlStore)

/-! ### resolveEligibleBinding -/

inductive EligibleBindingResolution where
  | ineligible (reason : String)
  | eligible (binding : DeviceTargetBindingRecord) (device : DeviceRecord)
      (target : ExecutionTargetRecord)
  deriving DecidableEq, Repr

def EligibleBindingResolution.isEligible : EligibleBindingResolution → Bool
  | ineligible _ => false
  | eligible .. => true

def resolveEligibleBinding (deviceId targetId : String) : EligibleBindingResolution :=
  match db.devices.find deviceId with
  | none => .ineligible "Device not found."
  | some device =>
    if device.revokedAtMs ≠ none then .ineligible "Device has been revoked."
    else
      match db.users.find device.userId with
      | none => .ineligible "Device owner user not found."
      | some user =>
        if user.disabledAt ≠ none then .ineligible "Device owner user is disabled."
        else
          match db.targets.find targetId with
          | none => .ineligible "Execution target not found."
          | some target =>
            if target.disabledAtMs ≠ none then .ineligible "Execution target is disabled."
            else
              match db.bindings.find (deviceId, targetId) with
              | none => .ineligible "DeviceTargetBinding does not exist."
              | some binding =>
                if binding.disabledAtMs ≠ none then .ineligible "DeviceTargetBinding is disabled."
                else
                  match db.memberships.find (target.workspaceId, device.userId) with
                  | none =>
                    .ineligible "Device owner is not a member of the target workspace."
                  | some _ => .eligible binding device target

/-! ### listEligibleTargetIdsForDevice -/

/-- `JOIN`: the rows for which the condition holds. -/
def join {α β : Type} (rows : List α) (on : α → Bool) (select : α → List β) : List β :=
  (rows.filter on).flatMap select

/-- The rows of the query, before they are ordered. -/
def eligibleRows (deviceId : String) : List DeviceTargetBindingRecord :=
  db.bindings.items.flatMap fun dtb =>
    join db.devices.items (fun d => decide (d.id = dtb.deviceId)) fun d =>
      join db.users.items (fun u => decide (u.id = d.userId)) fun u =>
        join db.targets.items (fun et => decide (et.id = dtb.targetId)) fun et =>
          join db.memberships.items
            (fun wm => decide ((wm.workspaceId, wm.userId) = (et.workspaceId, d.userId))) fun _ =>
            if dtb.deviceId = deviceId ∧ dtb.disabledAtMs = none ∧ d.revokedAtMs = none ∧
                u.disabledAt = none ∧ et.disabledAtMs = none then
              [dtb]
            else []

def listEligibleTargetIdsForDevice (deviceId : String) : List String :=
  ((eligibleRows db deviceId).mergeSort fun a b => decide (a.createdAtMs ≤ b.createdAtMs)).map
    (·.targetId)

/-! ### the target lists -/

/-- The rows that `countStmt` counts. -/
def activeBindings (workspaceId targetId : String) : List DeviceTargetBindingRecord :=
  db.bindings.items.flatMap fun dtb =>
    join db.devices.items (fun d => decide (d.id = dtb.deviceId)) fun d =>
      join db.users.items (fun u => decide (u.id = d.userId)) fun u =>
        join db.memberships.items
          (fun wm => decide ((wm.workspaceId, wm.userId) = (workspaceId, d.userId))) fun _ =>
          if dtb.targetId = targetId ∧ dtb.disabledAtMs = none ∧ d.revokedAtMs = none ∧
              u.disabledAt = none then
            [dtb]
          else []

def activeBindingCount (target : ExecutionTargetRecord) : Nat :=
  let rawActiveBindingCount := (activeBindings db target.workspaceId target.id).length
  if target.disabledAtMs = none then rawActiveBindingCount else 0

inductive ControlStoreError where
  | notFound (message : String)
  | deviceRevoked (message : String)
  | permission (message : String)
  deriving DecidableEq, Repr

/-- The targets of the workspaces of a user, each with the membership. -/
def targetsOfUser (userId : String) (workspaceId : Option String) :
    List (ExecutionTargetRecord × WorkspaceMembershipRecord) :=
  (db.targets.items.flatMap fun et =>
    join db.memberships.items
      (fun wm => decide ((wm.workspaceId, wm.userId) = (et.workspaceId, userId))) fun wm =>
      if (workspaceId.filter (· != "")).all fun w => et.workspaceId == w then [(et, wm)] else
        []).mergeSort fun a b =>
    decide (a.1.createdAtMs ≤ b.1.createdAtMs)

structure VisibleTarget where
  target : ExecutionTargetRecord
  thisBinding : Option DeviceTargetBindingRecord
  activeBindingCount : Nat
  isDefaultAgentRuntime : Bool
  deriving DecidableEq, Repr

def listTargetsVisibleToDevice (deviceId : String) (workspaceId : Option String) :
    Except ControlStoreError (List VisibleTarget) :=
  match db.devices.find deviceId with
  | none => .error (.notFound ("Device '" ++ deviceId ++ "' not found."))
  | some device =>
    if device.revokedAtMs ≠ none then
      .error (.deviceRevoked ("Device '" ++ deviceId ++ "' has been revoked."))
    else
      match (db.users.find device.userId).filter fun u => decide (u.disabledAt = none) with
      | none => .error (.permission ("Device owner user '" ++ device.userId ++ "' is not active."))
      | some _ =>
        .ok ((targetsOfUser db device.userId workspaceId).map fun (target, _) =>
          { target
            thisBinding := db.bindings.find (deviceId, target.id)
            activeBindingCount := activeBindingCount db target
            isDefaultAgentRuntime :=
              decide (db.defaultAgentRuntime target.workspaceId = some target.id) })

structure UserTarget where
  target : ExecutionTargetRecord
  workspaceRole : String
  activeBindingCount : Nat
  isDefaultAgentRuntime : Bool
  deriving DecidableEq, Repr

def listTargetsForUser (userId : String) (workspaceId : Option String) :
    Except ControlStoreError (List UserTarget) :=
  match (db.users.find userId).filter fun u => decide (u.disabledAt = none) with
  | none => .error (.permission ("User '" ++ userId ++ "' is not active."))
  | some _ =>
    .ok ((targetsOfUser db userId workspaceId).map fun (target, wm) =>
      { target
        workspaceRole := wm.role
        activeBindingCount := activeBindingCount db target
        isDefaultAgentRuntime :=
          decide (db.defaultAgentRuntime target.workspaceId = some target.id) })

/-! ### a join on a key -/

theorem filter_key {α κ : Type} [DecidableEq κ] {key : α → κ} (s : Keyed key) (k : κ) :
    s.items.filter (fun a => decide (key a = k)) = (s.find k).toList := by
  obtain ⟨items, nodup⟩ := s
  unfold Keyed.find
  induction items with
  | nil => rfl
  | cons a items ih =>
    rw [List.map_cons, List.nodup_cons] at nodup
    by_cases ha : key a = k
    · have none_left : items.filter (fun b => decide (key b = k)) = [] := by
        refine List.filter_eq_nil_iff.2 fun b hb hk => nodup.1 ?_
        rw [ha, ← of_decide_eq_true hk]
        exact List.mem_map_of_mem hb
      rw [List.filter_cons_of_pos (by simp [ha]), List.find?_cons_of_pos (by simp [ha]), none_left]
      rfl
    · rw [List.filter_cons_of_neg (by simp [ha]), List.find?_cons_of_neg (by simp [ha]), ih nodup.2]

/-- A join on the key of a table adds its one row, or leaves nothing. -/
theorem join_key {α β κ : Type} [DecidableEq κ] {key : α → κ} (s : Keyed key) (k : κ)
    (select : α → List β) :
    join s.items (fun a => decide (key a = k)) select =
      match s.find k with
      | none => []
      | some a => select a := by
  unfold join
  rw [filter_key]
  cases s.find k with
  | none => rfl
  | some a => exact List.flatMap_singleton select a

theorem flatMap_rows {α : Type} {l : List α} {f : α → List α} {p : α → Bool}
    (h : ∀ a ∈ l, f a = if p a = true then [a] else []) : l.flatMap f = l.filter p := by
  induction l with
  | nil => rfl
  | cons a l ih =>
    rw [List.flatMap_cons, h a (List.mem_cons_self ..), ih fun b hb => h b (List.mem_cons_of_mem _ hb)]
    cases hp : p a with
    | true => rw [List.filter_cons_of_pos hp]; rfl
    | false => rw [List.filter_cons_of_neg (by simp [hp])]; rfl

theorem find_of_mem {α κ : Type} [DecidableEq κ] {key : α → κ} {s : Keyed key} {a : α}
    (h : a ∈ s.items) : s.find (key a) = some a := by
  cases hfind : s.find (key a) with
  | none => exact absurd (List.find?_eq_none.1 hfind a h) (by simp)
  | some b =>
    obtain ⟨hb, hk⟩ := Keyed.find_eq_some hfind
    rw [Keyed.eq_of_key hb h hk]

/-! ### one rule -/

variable {db : ControlStore}

/-- The binding's own device may run its target. -/
def runnable (db : ControlStore) (dtb : DeviceTargetBindingRecord) : Bool :=
  (resolveEligibleBinding db dtb.deviceId dtb.targetId).isEligible

theorem eligible_iff {deviceId targetId : String} :
    (resolveEligibleBinding db deviceId targetId).isEligible = true ↔
      ∃ device user target binding membership,
        db.devices.find deviceId = some device ∧ device.revokedAtMs = none ∧
        db.users.find device.userId = some user ∧ user.disabledAt = none ∧
        db.targets.find targetId = some target ∧ target.disabledAtMs = none ∧
        db.bindings.find (deviceId, targetId) = some binding ∧ binding.disabledAtMs = none ∧
        db.memberships.find (target.workspaceId, device.userId) = some membership := by
  unfold resolveEligibleBinding
  constructor
  · intro h
    split at h
    · cases h
    · next device hd =>
      split at h
      · cases h
      · next hr =>
        split at h
        · cases h
        · next user hu =>
          split at h
          · cases h
          · next ha =>
            split at h
            · cases h
            · next target ht =>
              split at h
              · cases h
              · next he =>
                split at h
                · cases h
                · next binding hb =>
                  split at h
                  · cases h
                  · next hn =>
                    split at h
                    · cases h
                    · next membership hm =>
                      exact ⟨device, user, target, binding, membership, hd, not_not.1 hr, hu,
                        not_not.1 ha, ht, not_not.1 he, hb, not_not.1 hn, hm⟩
  · rintro ⟨device, user, target, binding, membership, hd, hr, hu, ha, ht, he, hb, hn, hm⟩
    simp [hd, hr, hu, ha, ht, he, hb, hn, hm, EligibleBindingResolution.isEligible]

theorem runnable_iff {dtb : DeviceTargetBindingRecord} (hdtb : dtb ∈ db.bindings.items) :
    runnable db dtb = true ↔
      ∃ device user target membership,
        db.devices.find dtb.deviceId = some device ∧ device.revokedAtMs = none ∧
        db.users.find device.userId = some user ∧ user.disabledAt = none ∧
        db.targets.find dtb.targetId = some target ∧ target.disabledAtMs = none ∧
        dtb.disabledAtMs = none ∧
        db.memberships.find (target.workspaceId, device.userId) = some membership := by
  have hbinding : db.bindings.find (dtb.deviceId, dtb.targetId) = some dtb := find_of_mem hdtb
  unfold runnable
  rw [eligible_iff, hbinding]
  constructor
  · rintro ⟨device, user, target, binding, membership, hd, hr, hu, ha, ht, he, hb, hn, hm⟩
    obtain rfl := Option.some.inj hb
    exact ⟨device, user, target, membership, hd, hr, hu, ha, ht, he, hn, hm⟩
  · rintro ⟨device, user, target, membership, hd, hr, hu, ha, ht, he, hn, hm⟩
    exact ⟨device, user, target, dtb, membership, hd, hr, hu, ha, ht, he, rfl, hn, hm⟩

/-- The join has the bindings of the device that are runnable, once each. -/
theorem eligibleRows_eq (deviceId : String) : eligibleRows db deviceId =
    db.bindings.items.filter fun dtb => decide (dtb.deviceId = deviceId) && runnable db dtb := by
  refine flatMap_rows fun dtb hdtb => ?_
  by_cases hrun : runnable db dtb = true
  · obtain ⟨device, user, target, membership, hd, hr, hu, ha, ht, he, hn, hm⟩ :=
      (runnable_iff hdtb).1 hrun
    simp only [join_key db.devices, join_key db.users, join_key db.targets,
      join_key db.memberships, hd, hr, hu, ha, ht, he, hn, hm, hrun, and_self, and_true,
      Bool.and_true, decide_eq_true_eq]
  · rw [if_neg (by simp [hrun]), join_key db.devices]
    split
    · rfl
    · next device hd =>
      rw [join_key db.users]
      split
      · rfl
      · next user hu =>
        rw [join_key db.targets]
        split
        · rfl
        · next target ht =>
          rw [join_key db.memberships]
          split
          · rfl
          · next membership hm =>
            rw [if_neg]
            rintro ⟨-, hn, hr, ha, he⟩
            exact hrun ((runnable_iff hdtb).2
              ⟨device, user, target, membership, hd, hr, hu, ha, ht, he, hn, hm⟩)

/-- The count of an enabled target counts its runnable bindings. -/
theorem activeBindings_eq {target : ExecutionTargetRecord}
    (htarget : db.targets.find target.id = some target) (henabled : target.disabledAtMs = none) :
    activeBindings db target.workspaceId target.id =
      db.bindings.items.filter fun dtb => decide (dtb.targetId = target.id) && runnable db dtb := by
  refine flatMap_rows fun dtb hdtb => ?_
  by_cases hid : dtb.targetId = target.id
  · by_cases hrun : runnable db dtb = true
    · obtain ⟨device, user, target', membership, hd, hr, hu, ha, ht, he, hn, hm⟩ :=
        (runnable_iff hdtb).1 hrun
      rw [hid, htarget] at ht
      obtain rfl := Option.some.inj ht
      simp only [join_key db.devices, join_key db.users, join_key db.memberships, hd, hr, hu, ha,
        hn, hm, hid, hrun, and_self, decide_true, Bool.and_true]
    · rw [if_neg (by simp [hrun]), join_key db.devices]
      split
      · rfl
      · next device hd =>
        rw [join_key db.users]
        split
        · rfl
        · next user hu =>
          rw [join_key db.memberships]
          split
          · rfl
          · next membership hm =>
            rw [if_neg]
            rintro ⟨-, hn, hr, ha⟩
            exact hrun ((runnable_iff hdtb).2
              ⟨device, user, target, membership, hd, hr, hu, ha, by rw [hid]; exact htarget,
                henabled, hn, hm⟩)
  · simp [join, hid]

/-! ### the listing -/

theorem mem_list_iff {deviceId targetId : String} :
    targetId ∈ listEligibleTargetIdsForDevice db deviceId ↔
      (resolveEligibleBinding db deviceId targetId).isEligible = true := by
  unfold listEligibleTargetIdsForDevice
  simp only [List.mem_map, List.mem_mergeSort, eligibleRows_eq, List.mem_filter, Bool.and_eq_true,
    decide_eq_true_eq]
  constructor
  · rintro ⟨dtb, ⟨-, rfl, hrun⟩, rfl⟩
    exact hrun
  · intro h
    obtain ⟨_, _, _, dtb, _, -, -, -, -, -, -, hb, -⟩ := eligible_iff.1 h
    obtain ⟨hdtb, hkey⟩ := Keyed.find_eq_some hb
    obtain ⟨rfl, rfl⟩ := Prod.mk.inj hkey
    exact ⟨dtb, ⟨hdtb, rfl, h⟩, rfl⟩

/-- A device has one binding for a target. -/
theorem list_nodup (deviceId : String) : (listEligibleTargetIdsForDevice db deviceId).Nodup := by
  unfold listEligibleTargetIdsForDevice
  refine (((List.mergeSort_perm _ _).map _).nodup_iff).2 ?_
  rw [eligibleRows_eq]
  refine List.Nodup.map_on ?_ (db.bindings.nodup.of_map.filter _)
  intro a ha b hb htarget
  simp only [List.mem_filter, Bool.and_eq_true, decide_eq_true_eq] at ha hb
  exact Keyed.eq_of_key ha.1 hb.1 (Prod.ext (ha.2.1.trans hb.2.1.symm) htarget)

/-! ### the count -/

/-- The devices that may run a target. -/
def eligibleDevices (db : ControlStore) (targetId : String) : Set String :=
  {deviceId | (resolveEligibleBinding db deviceId targetId).isEligible = true}

theorem activeBindingCount_eq {target : ExecutionTargetRecord} (h : target ∈ db.targets.items) :
    activeBindingCount db target = (eligibleDevices db target.id).ncard := by
  have htarget : db.targets.find target.id = some target := find_of_mem h
  unfold activeBindingCount
  dsimp only
  split
  · next henabled =>
    rw [activeBindings_eq htarget henabled]
    let rows := db.bindings.items.filter fun dtb =>
      decide (dtb.targetId = target.id) && runnable db dtb
    have hset : eligibleDevices db target.id = ↑(rows.map (·.deviceId)).toFinset := by
      ext deviceId
      simp only [rows, eligibleDevices, Set.mem_ofPred_eq, List.coe_toFinset, List.mem_map,
        List.mem_filter, Bool.and_eq_true, decide_eq_true_eq]
      constructor
      · intro he
        obtain ⟨_, _, _, dtb, _, -, -, -, -, -, -, hb, -⟩ := eligible_iff.1 he
        obtain ⟨hdtb, hkey⟩ := Keyed.find_eq_some hb
        obtain ⟨hdev, hid⟩ := Prod.mk.inj hkey
        refine ⟨dtb, ⟨hdtb, hid, ?_⟩, hdev⟩
        rw [runnable, hdev, hid]
        exact he
      · rintro ⟨dtb, ⟨-, hid, hrun⟩, rfl⟩
        rw [runnable, hid] at hrun
        exact hrun
    have hnodup : (rows.map (·.deviceId)).Nodup := by
      refine List.Nodup.map_on ?_ (db.bindings.nodup.of_map.filter _)
      intro a ha b hb hdev
      simp only [rows, List.mem_filter, Bool.and_eq_true, decide_eq_true_eq] at ha hb
      exact Keyed.eq_of_key ha.1 hb.1 (Prod.ext hdev (ha.2.1.trans hb.2.1.symm))
    rw [hset, Set.ncard_coe_finset, List.toFinset_card_of_nodup hnodup, List.length_map]
  · next hdisabled =>
    have hempty : eligibleDevices db target.id = ∅ := by
      rw [Set.eq_empty_iff_forall_notMem]
      intro deviceId he
      obtain ⟨_, _, target', _, _, -, -, -, -, ht, hen, -⟩ := eligible_iff.1 he
      rw [htarget] at ht
      obtain rfl := Option.some.inj ht
      exact hdisabled hen
    rw [hempty, Set.ncard_empty]

theorem targetsOfUser_mem {userId : String} {workspaceId : Option String}
    {r : ExecutionTargetRecord × WorkspaceMembershipRecord}
    (h : r ∈ targetsOfUser db userId workspaceId) : r.1 ∈ db.targets.items := by
  unfold targetsOfUser join at h
  rw [List.mem_mergeSort] at h
  obtain ⟨et, het, hrow⟩ := List.mem_flatMap.1 h
  obtain ⟨wm, -, hr⟩ := List.mem_flatMap.1 hrow
  split at hr
  · rw [List.mem_singleton.1 hr]
    exact het
  · cases hr

/-- The three ways to say that a device may run a target. -/
structure Agrees (db : ControlStore) : Prop where
  listed : ∀ deviceId targetId,
    (resolveEligibleBinding db deviceId targetId).isEligible = true ↔
      targetId ∈ listEligibleTargetIdsForDevice db deviceId
  once : ∀ deviceId, ∀ targetId ∈ listEligibleTargetIdsForDevice db deviceId,
    (listEligibleTargetIdsForDevice db deviceId).count targetId = 1
  visible : ∀ deviceId workspaceId rows,
    listTargetsVisibleToDevice db deviceId workspaceId = .ok rows → ∀ r ∈ rows,
      r.activeBindingCount = (eligibleDevices db r.target.id).ncard
  user : ∀ userId workspaceId rows,
    listTargetsForUser db userId workspaceId = .ok rows → ∀ r ∈ rows,
      r.activeBindingCount = (eligibleDevices db r.target.id).ncard

theorem eligibility_agrees (db : ControlStore) : Agrees db where
  listed _ _ := mem_list_iff.symm
  once deviceId _ h := List.count_eq_one_of_mem (list_nodup deviceId) h
  visible deviceId workspaceId rows h r hr := by
    unfold listTargetsVisibleToDevice at h
    split at h
    · cases h
    · split at h
      · cases h
      · split at h
        · cases h
        · obtain rfl := Except.ok.inj h
          obtain ⟨row, hrow, rfl⟩ := List.mem_map.1 hr
          exact activeBindingCount_eq (targetsOfUser_mem hrow)
  user userId workspaceId rows h r hr := by
    unfold listTargetsForUser at h
    split at h
    · cases h
    · obtain rfl := Except.ok.inj h
      obtain ⟨row, hrow, rfl⟩ := List.mem_map.1 hr
      exact activeBindingCount_eq (targetsOfUser_mem hrow)

end Ceo.Connector.Eligibility
