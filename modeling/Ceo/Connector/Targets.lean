import Ceo.Connector.Eligibility
import Ceo.Connector.RepoIdentity

/-!
# The execution targets

The operations of `connector/control-store.ts` on targets, bindings and default
targets. A call is one transaction: it answers and writes, or it throws and
leaves the tables as they are.
-/

namespace Ceo.Connector.Targets

open Ceo.Lib Ceo.Connector.Eligibility
open Ceo.Connector.RepoIdentity (LowerTable trimOf normalizeRemoteFullName)
open Ceo.Jobs (isJsSpace jsLength)

structure GithubRepositoryBinding where
  githubRepositoryId : String
  fullName : String
  deriving DecidableEq, Repr

/-- The tables of the control store, and what it reads of the workspaces. -/
structure ControlPlane extends ControlStore where
  workspaces : List String
  githubRepository : String → Option GithubRepositoryBinding

inductive TargetError where
  | validation (message : String)
  | notFound (message : String)
  | deviceRevoked (message : String)
  | permission (message : String)
  | conflict (message : String)
  | disabled (message : String)
  | repositoryNotFound (message : String)
  /-- A unique constraint. -/
  | constraint
  deriving DecidableEq, Repr

def ensure (holds : Bool) (e : TargetError) : Except TargetError Unit :=
  if holds then .ok () else .error e

/-! ### names -/

def lower (js : LowerTable) (s : String) : String := String.ofList (js.lower s.toList)

def trim (s : String) : String := String.ofList (trimOf isJsSpace s.toList)

def isAliasStart (c : Char) : Bool := ('a' ≤ c && c ≤ 'z') || ('0' ≤ c && c ≤ '9')

/-- `/^[a-z0-9][a-z0-9_-]{0,63}$/` -/
def targetAliasRe (s : String) : Bool :=
  match s.toList with
  | [] => false
  | c :: cs => isAliasStart c && cs.length ≤ 63 && cs.all fun c => isAliasStart c || c == '_' || c == '-'

def v1ValidTargetKinds : List String := ["general_automation", "coding"]

def normalizeTargetAlias (js : LowerTable) (name : String) : Except TargetError String := do
  let normalized := lower js (trim name)
  ensure (targetAliasRe normalized) (.validation ("Target alias '" ++ name ++
    "' is invalid; must match ^[a-z0-9][a-z0-9_-]\x7b0,63\x7d$ " ++
    "(lowercase alphanumeric, hyphen, underscore, 1-64 chars)."))
  return normalized

structure Repository where
  provider : String
  externalId : String
  fullName : String
  deriving DecidableEq, Repr

namespace ControlPlane

variable (js : LowerTable) (db : ControlPlane)

/-! ### one target -/

def targetNotFound (targetId : String) : TargetError :=
  .notFound ("ExecutionTarget '" ++ targetId ++ "' not found.")

def getTarget (targetId : String) (missing : TargetError) : Except TargetError ExecutionTargetRecord :=
  match db.targets.find targetId with
  | none => .error missing
  | some target => .ok target

/-- `UPDATE execution_targets`, the row by its id. -/
def putTarget (target : ExecutionTargetRecord) : ControlPlane :=
  { db with targets := db.targets.put target }

def disableExecutionTarget (targetId : String) (now : Int) : ControlPlane :=
  match db.targets.find targetId with
  | none => db
  | some target =>
    if target.disabledAtMs ≠ none then db
    else db.putTarget { target with disabledAtMs := some now, updatedAtMs := now }

def enableExecutionTarget (targetId : String) (now : Int) : ControlPlane :=
  match db.targets.find targetId with
  | none => db
  | some target =>
    if target.disabledAtMs = none then db
    else db.putTarget { target with disabledAtMs := none, updatedAtMs := now }

/-- The row with what refers to it. -/
def deleteExecutionTargetRow (targetId : String) : ControlPlane :=
  { db with
    targets := db.targets.erase targetId
    bindings :=
      { items := db.bindings.items.filter fun b => b.targetId ≠ targetId
        nodup := db.bindings.nodup.sublist (List.filter_sublist.map _) }
    defaultAgentRuntime := fun w => (db.defaultAgentRuntime w).filter (· ≠ targetId) }

/-- The target of a workspace that has an alias. -/
def targetByAlias (workspaceId targetAlias : String) : Option ExecutionTargetRecord :=
  db.targets.items.find? fun t => t.workspaceId = workspaceId && t.targetAlias = targetAlias

def role (workspaceId userId : String) : Option String :=
  (db.memberships.find (workspaceId, userId)).map (·.role)

def renameExecutionTarget (targetId newAlias actorUserId : String) (now : Int) :
    Except TargetError (ControlPlane × Bool) := do
  let targetAlias ← normalizeTargetAlias js newAlias
  let target ← db.getTarget targetId (targetNotFound targetId)
  ensure (db.role target.workspaceId actorUserId).isSome (targetNotFound targetId)
  ensure (db.role target.workspaceId actorUserId = some "owner")
    (.permission "Only workspace owners can rename execution targets.")
  if targetAlias = target.targetAlias then return (db, true)
  else
    ensure ((db.targets.items.find? fun t => t.workspaceId = target.workspaceId &&
        t.targetAlias = targetAlias && t.id ≠ targetId).isNone)
      (.conflict ("ExecutionTarget with alias '" ++ targetAlias ++ "' already exists in workspace '" ++
        target.workspaceId ++ "'."))
    return (db.putTarget { target with targetAlias := targetAlias, updatedAtMs := now }, false)

/-! ### what a device may do in a workspace -/

def getDevice (deviceId : String) (revoked : String) : Except TargetError DeviceRecord :=
  match db.devices.find deviceId with
  | none => .error (.notFound ("Device '" ++ deviceId ++ "' not found."))
  | some device =>
    if device.revokedAtMs ≠ none then .error (.deviceRevoked (revoked ++ " '" ++ deviceId ++ "'."))
    else .ok device

def isActiveUser (userId : String) : Bool :=
  (db.users.find userId).any fun u => u.disabledAt = none

def ensureOwner (device : DeviceRecord) : Except TargetError Unit :=
  ensure (db.isActiveUser device.userId)
    (.permission ("Device owner user '" ++ device.userId ++ "' is not active."))

/-- The role of the owner of a device in a workspace. -/
def deviceRole (deviceId workspaceId revoked : String) : Except TargetError String := do
  let device ← db.getDevice deviceId revoked
  db.ensureOwner device
  ensure (workspaceId ∈ db.workspaces) (.notFound ("Workspace '" ++ workspaceId ++ "' not found."))
  match db.role workspaceId device.userId with
  | none => .error (.permission
      ("User '" ++ device.userId ++ "' is not a member of workspace '" ++ workspaceId ++ "'."))
  | some role => return role

/-! ### bindings -/

structure Bound where
  binding : DeviceTargetBindingRecord
  bindingCreated : Bool
  replayed : Bool
  deriving DecidableEq, Repr

/-- The binding is enabled or inserted; `bindTargetForDevice` has this once more. -/
def ensureDeviceBinding (deviceId targetId bindingId : String) (now : Int) :
    Except TargetError (ControlPlane × Bound) :=
  match db.bindings.find (deviceId, targetId) with
  | some existing =>
    if existing.disabledAtMs ≠ none then
      let binding := { existing with disabledAtMs := none, updatedAtMs := now }
      .ok ({ db with bindings := db.bindings.put binding }, ⟨binding, false, false⟩)
    else .ok (db, ⟨existing, false, true⟩)
  | none =>
    let binding : DeviceTargetBindingRecord :=
      { id := bindingId, deviceId, targetId, createdAtMs := now, updatedAtMs := now,
        disabledAtMs := none }
    match db.bindings.insert (fun a b => a.id == b.id) binding with
    | none => .error .constraint
    | some bindings => .ok ({ db with bindings }, ⟨binding, true, false⟩)

/-- The target, which the owner of the device can see. -/
def visibleTarget (device : DeviceRecord) (targetId : String) :
    Except TargetError ExecutionTargetRecord := do
  let notFound := TargetError.notFound ("Execution target '" ++ targetId ++ "' not found.")
  let target ← db.getTarget targetId notFound
  ensure (db.role target.workspaceId device.userId).isSome notFound
  return target

def bindTargetForDevice (deviceId targetId bindingId : String) (now : Int) :
    Except TargetError (ControlPlane × Bound) := do
  let device ← db.getDevice deviceId "Cannot bind revoked device"
  db.ensureOwner device
  let target ← db.visibleTarget device targetId
  ensure (target.disabledAtMs = none)
    (.disabled ("Execution target '" ++ targetId ++ "' is disabled."))
  db.ensureDeviceBinding deviceId targetId bindingId now

/-- A device whose owner is disabled can still unbind. -/
def unbindTargetForDevice (deviceId targetId : String) (now : Int) : Except TargetError ControlPlane := do
  let device ← db.getDevice deviceId "Cannot unbind from revoked device"
  let _ ← db.visibleTarget device targetId
  match db.bindings.find (deviceId, targetId) with
  | none => return db
  | some binding =>
    if binding.disabledAtMs ≠ none then return db
    else
      return { db with
        bindings := db.bindings.put { binding with disabledAtMs := some now, updatedAtMs := now } }

/-! ### repositories -/

/-- The numeric id where the repository is the one of the workspace, else the name. -/
def externalIdOf (workspaceId fullName : String) : String :=
  match db.githubRepository workspaceId with
  | none => fullName
  | some repo => if lower js repo.fullName = fullName then repo.githubRepositoryId else fullName

inductive RepositorySource where
  | workspaceRepository | remoteUrl
  deriving DecidableEq, Repr

structure RegisterInput where
  deviceId : String
  workspaceId : String
  targetAlias : String
  displayName : String
  kind : String
  repositorySource : Option RepositorySource
  repositoryProvider : Option String
  repositoryFullName : Option String
  deriving DecidableEq, Repr

/-- The identity that a registration names. -/
def repositoryOf (input : RegisterInput) : Except TargetError (Option Repository) :=
  match input.repositorySource with
  | none => .ok none
  | some .workspaceRepository =>
    match db.githubRepository input.workspaceId with
    | none => .error (.repositoryNotFound
        ("Workspace '" ++ input.workspaceId ++ "' has no GitHub repository binding."))
    | some repo => .ok (some ⟨"github", repo.githubRepositoryId, repo.fullName⟩)
  | some .remoteUrl =>
    match input.repositoryProvider, input.repositoryFullName with
    | some provider, some fullName =>
      let provider := lower js (trim provider)
      match normalizeRemoteFullName js provider.toList fullName.toList with
      | none => .error (.validation
          "remote_url repository source requires a valid provider and normalized full_name.")
      | some name =>
        let fullName := String.ofList name
        .ok (some ⟨provider, db.externalIdOf js input.workspaceId fullName, fullName⟩)
    | _, _ => .error (.validation
        "remote_url repository source requires repository_provider and repository_full_name.")

/-- The enabled targets of a workspace that have an identity. -/
def targetsOf (workspaceId provider externalId : String) : List ExecutionTargetRecord :=
  db.targets.items.filter fun t => t.workspaceId = workspaceId &&
    t.repositoryProvider = some provider && t.repositoryExternalId = some externalId &&
    t.disabledAtMs = none

/-! ### registration -/

/-- What is drawn for new rows. -/
structure Draws where
  targetId : String
  bindingId : String
  deriving DecidableEq, Repr

structure Registered where
  target : ExecutionTargetRecord
  binding : DeviceTargetBindingRecord
  targetCreated : Bool
  bindingCreated : Bool
  replayed : Bool
  deriving DecidableEq, Repr

def sameAlias (a b : ExecutionTargetRecord) : Bool :=
  a.workspaceId == b.workspaceId && a.targetAlias == b.targetAlias

def ensureDeviceBindingAndReturn (target : ExecutionTargetRecord) (deviceId bindingId : String)
    (now : Int) (targetCreated : Bool) : Except TargetError (ControlPlane × Registered) := do
  let (db, bound) ← db.ensureDeviceBinding deviceId target.id bindingId now
  return (db, ⟨target, bound.binding, targetCreated, bound.bindingCreated, bound.replayed⟩)

def newTarget (input : RegisterInput) (targetAlias : String) (repository : Option Repository)
    (targetId : String) (now : Int) : ExecutionTargetRecord where
  id := targetId
  workspaceId := input.workspaceId
  targetAlias := targetAlias
  displayName := trim input.displayName
  kind := trim input.kind
  repositoryProvider := repository.map (·.provider)
  repositoryExternalId := repository.map (·.externalId)
  repositoryFullName := repository.map (·.fullName)
  createdAtMs := now
  updatedAtMs := now
  disabledAtMs := none

def createTarget (input : RegisterInput) (targetAlias role : String) (repository : Option Repository)
    (draws : Draws) (now : Int) : Except TargetError (ControlPlane × Registered) := do
  ensure (role = "owner") (.permission "Only workspace owners can create execution targets.")
  let target := newTarget input targetAlias repository draws.targetId now
  match db.targets.insert sameAlias target with
  | none => .error .constraint
  | some targets =>
    ensureDeviceBindingAndReturn { db with targets } target input.deviceId draws.bindingId now true

/-- The full name of a repository may have changed. -/
def refreshFullName (target : ExecutionTargetRecord) (repository : Option Repository) (now : Int) :
    ExecutionTargetRecord :=
  match repository with
  | none => target
  | some repository =>
    if target.repositoryFullName = some repository.fullName then target
    else { target with repositoryFullName := some repository.fullName, updatedAtMs := now }

def registerByAlias (input : RegisterInput) (targetAlias role : String)
    (repository : Option Repository) (draws : Draws) (now : Int) :
    Except TargetError (ControlPlane × Registered) :=
  match db.targetByAlias input.workspaceId targetAlias with
  | none => db.createTarget input targetAlias role repository draws now
  | some existing => do
    ensure (existing.disabledAtMs = none)
      (.disabled ("Execution target with alias '" ++ targetAlias ++ "' is disabled."))
    ensure (existing.kind = trim input.kind && existing.displayName = trim input.displayName &&
        existing.repositoryProvider = repository.map (·.provider) &&
        existing.repositoryExternalId = repository.map (·.externalId))
      (.conflict ("Execution target with alias '" ++ targetAlias ++
        "' exists but metadata conflicts."))
    let target := refreshFullName existing repository now
    (db.putTarget target).ensureDeviceBindingAndReturn target input.deviceId draws.bindingId now false

/-- The enabled target with the repository is taken, whatever its alias. -/
def registerByRepository (input : RegisterInput) (targetAlias role : String) (repository : Repository)
    (draws : Draws) (now : Int) : Except TargetError (ControlPlane × Registered) :=
  match db.targetsOf input.workspaceId repository.provider repository.externalId with
  | [] => db.registerByAlias input targetAlias role (some repository) draws now
  | [target] => do
    ensure (target.kind = trim input.kind) (.conflict ("Execution target '" ++ target.targetAlias ++
      "' matches repository identity '" ++ repository.fullName ++ "' but has kind '" ++ target.kind ++
      "' instead of '" ++ trim input.kind ++ "'."))
    db.ensureDeviceBindingAndReturn target input.deviceId draws.bindingId now false
  | _ => .error (.conflict ("Multiple active execution targets in workspace '" ++ input.workspaceId ++
      "' resolve to the same repository identity '" ++ repository.fullName ++
      "'; refusing to choose one."))

def registerExecutionTargetForDevice (input : RegisterInput) (draws : Draws) (now : Int) :
    Except TargetError (ControlPlane × Registered) := do
  let targetAlias ← normalizeTargetAlias js input.targetAlias
  ensure (1 ≤ jsLength (trim input.displayName) && jsLength (trim input.displayName) ≤ 128)
    (.validation "ExecutionTarget display_name must be between 1 and 128 characters.")
  ensure (decide (trim input.kind ∈ v1ValidTargetKinds)) (.validation ("ExecutionTarget kind '" ++
    trim input.kind ++ "' is invalid for V1; must be one of: " ++
    ", ".intercalate v1ValidTargetKinds ++ "."))
  let role ← db.deviceRole input.deviceId input.workspaceId
    "Cannot register target for revoked device"
  let repository ← db.repositoryOf js input
  match repository.filter fun _ => input.repositorySource = some .remoteUrl with
  | some repository => db.registerByRepository input targetAlias role repository draws now
  | none => db.registerByAlias input targetAlias role repository draws now

/-! ### attaching a repository -/

structure AttachInput where
  deviceId : String
  workspaceId : String
  targetId : String
  provider : String
  fullName : String
  deriving DecidableEq, Repr

def attachedName (input : AttachInput) : Except TargetError (String × String) :=
  let provider := lower js (trim input.provider)
  match normalizeRemoteFullName js provider.toList input.fullName.toList with
  | none => .error (.validation ("attach-repository requires a valid provider and a normalized " ++
      "repository full_name (owner/repo)."))
  | some name => .ok (provider, String.ofList name)

def attachRepositoryIdentityToTarget (input : AttachInput) (now : Int) :
    Except TargetError (ControlPlane × Bool) := do
  let (provider, fullName) ← attachedName js input
  let _ ← db.deviceRole input.deviceId input.workspaceId
    "Cannot attach repository metadata for revoked device"
  let target ← db.getTarget input.targetId (targetNotFound input.targetId)
  ensure (target.workspaceId = input.workspaceId) (targetNotFound input.targetId)
  ensure (target.disabledAtMs = none)
    (.disabled ("ExecutionTarget '" ++ input.targetId ++ "' is disabled."))
  ensure (target.kind = "coding") (.conflict ("ExecutionTarget '" ++ input.targetId ++
    "' has kind '" ++ target.kind ++
    "'; repository identity can only be attached to coding targets."))
  ensure ((db.bindings.find (input.deviceId, input.targetId)).any fun b => b.disabledAtMs = none)
    (.conflict ("Device '" ++ input.deviceId ++ "' has no active binding for ExecutionTarget '" ++
      input.targetId ++ "'; legacy repository backfill requires an active this-device binding and " ++
      "never auto-binds."))
  let externalId := db.externalIdOf js input.workspaceId fullName
  if target.repositoryProvider.isSome && target.repositoryExternalId.isSome &&
      target.repositoryFullName.isSome then
    ensure (target.repositoryProvider = some provider && target.repositoryExternalId = some externalId &&
        target.repositoryFullName = some fullName)
      (.conflict ("ExecutionTarget '" ++ target.id ++ "' already owns repository identity '" ++
        target.repositoryProvider.getD "" ++ "/" ++ target.repositoryFullName.getD "" ++
        "'; refusing to overwrite it with '" ++ provider ++ "/" ++ fullName ++ "'."))
    return (db, true)
  else
    match db.targets.items.filter fun t => t.workspaceId = input.workspaceId && t.id ≠ input.targetId &&
        t.disabledAtMs = none && t.repositoryProvider = some provider &&
        (t.repositoryExternalId = some externalId || t.repositoryExternalId = some fullName ||
          t.repositoryFullName = some fullName) with
    | owner :: _ => .error (.conflict ("Another active execution target '" ++ owner.id ++
        "' already owns repository identity '" ++ provider ++ "/" ++ fullName ++
        "'; refusing to attach it to '" ++ target.id ++ "'."))
    | [] => return (db.putTarget { target with
        repositoryProvider := some provider
        repositoryExternalId := some externalId
        repositoryFullName := some fullName
        updatedAtMs := now }, false)

/-! ### the default target of a workspace -/

inductive DefaultResolution where
  | notConfigured
  | unavailable (reason : String)
  | ok (target : ExecutionTargetRecord)
  deriving DecidableEq, Repr

def resolveDefaultAgentRuntimeTarget (workspaceId : String) : DefaultResolution :=
  match db.defaultAgentRuntime workspaceId with
  | none => .notConfigured
  | some targetId =>
    match db.targets.find targetId with
    | none => .unavailable "The configured default Agent Runtime target no longer exists."
    | some target =>
      if target.workspaceId ≠ workspaceId then
        .unavailable "The configured default Agent Runtime target belongs to another workspace."
      else if target.disabledAtMs ≠ none then
        .unavailable "The configured default Agent Runtime target is disabled."
      else .ok target

def setDefaultAgentRuntimeTarget (workspaceId targetId actorUserId : String) :
    Except TargetError (ControlPlane × Bool) := do
  ensure (workspaceId ∈ db.workspaces) (.notFound ("Workspace '" ++ workspaceId ++ "' not found."))
  let target ← db.getTarget targetId (targetNotFound targetId)
  ensure (target.workspaceId = workspaceId) (targetNotFound targetId)
  ensure (target.disabledAtMs = none) (.disabled ("ExecutionTarget '" ++ targetId ++ "' is disabled."))
  ensure (db.role workspaceId actorUserId).isSome (.permission
    ("User '" ++ actorUserId ++ "' is not a member of workspace '" ++ workspaceId ++ "'."))
  ensure (db.role workspaceId actorUserId = some "owner")
    (.permission "Only workspace owners can change the workspace default agent runtime target.")
  return ({ db with
    defaultAgentRuntime := Function.update db.defaultAgentRuntime workspaceId (some targetId) },
    db.defaultAgentRuntime workspaceId = some targetId)

end ControlPlane

/-! ### runs -/

open ControlPlane (RegisterInput AttachInput Draws)

inductive Op where
  | register (input : RegisterInput) (draws : Draws) (now : Int)
  | rename (targetId newAlias actorUserId : String) (now : Int)
  | attach (input : AttachInput) (now : Int)
  | setDefault (workspaceId targetId actorUserId : String)
  | disable (targetId : String) (now : Int)
  | enable (targetId : String) (now : Int)
  | deleteRow (targetId : String)
  | bind (deviceId targetId bindingId : String) (now : Int)
  | unbind (deviceId targetId : String) (now : Int)
  /-- An enrolled device. -/
  | addDevice (device : DeviceRecord)
  | revokeDevice (deviceId : String) (now : Int)
  /-- What the identity store writes. -/
  | user (user : UserRecord)
  | membership (membership : WorkspaceMembershipRecord)
  | workspace (workspaceId : String)
  | repository (workspaceId : String) (binding : Option GithubRepositoryBinding)

theorem revoked_id (now : Int) (d : DeviceRecord) :
    ({ d with revokedAtMs := some now, updatedAtMs := now } : DeviceRecord).id = d.id := rfl

/-- What a call leaves: a call that throws has written nothing. -/
def written {α : Type} (db : ControlPlane) : Except TargetError (ControlPlane × α) → ControlPlane
  | .error _ => db
  | .ok (db', _) => db'

def exec (js : LowerTable) (db : ControlPlane) : Op → ControlPlane
  | .register input draws now => written db (db.registerExecutionTargetForDevice js input draws now)
  | .rename targetId newAlias actorUserId now =>
    written db (db.renameExecutionTarget js targetId newAlias actorUserId now)
  | .attach input now => written db (db.attachRepositoryIdentityToTarget js input now)
  | .setDefault workspaceId targetId actorUserId =>
    written db (db.setDefaultAgentRuntimeTarget workspaceId targetId actorUserId)
  | .disable targetId now => db.disableExecutionTarget targetId now
  | .enable targetId now => db.enableExecutionTarget targetId now
  | .deleteRow targetId => db.deleteExecutionTargetRow targetId
  | .bind deviceId targetId bindingId now =>
    written db (db.bindTargetForDevice deviceId targetId bindingId now)
  | .unbind deviceId targetId now =>
    written db ((db.unbindTargetForDevice deviceId targetId now).map (·, ()))
  | .addDevice device => { db with devices := db.devices.add device }
  | .revokeDevice deviceId now =>
    { db with
      devices := db.devices.update (fun d => d.id = deviceId && d.revokedAtMs.isNone)
        (fun d => { d with revokedAtMs := some now, updatedAtMs := now }) (revoked_id now) }
  | .user user => { db with users := db.users.set user }
  | .membership membership => { db with memberships := db.memberships.set membership }
  | .workspace workspaceId => { db with workspaces := workspaceId :: db.workspaces }
  | .repository workspaceId binding =>
    { db with githubRepository := Function.update db.githubRepository workspaceId binding }

def ControlPlane.empty : ControlPlane where
  users := .empty
  devices := .empty
  targets := .empty
  bindings := .empty
  memberships := .empty
  defaultAgentRuntime _ := none
  workspaces := []
  githubRepository _ := none

def controlPlane (js : LowerTable) : LTS ControlPlane Op := .ofFun (· = .empty) (exec js)

end Ceo.Connector.Targets
