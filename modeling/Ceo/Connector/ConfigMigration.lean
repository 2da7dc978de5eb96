import Ceo.Connector.ConfigWrites
import Ceo.Lib.Scan

/-!
# The migration of `config.json`

`ensure_config_schema_current` (`config.rs`) next to other processes that
write the file. A process that keeps to the connector's rules writes it under
`state.lock` only.
-/

namespace Ceo.Connector.ConfigMigration

open Ceo.Lib ConfigWrites

def configSchemaVersion : Nat := 3

structure LocalConfig where
  schemaVersion : Nat
  serverUrl : String
  targets : List (String × LocalTarget)
  deriving DecidableEq, Repr

/-- Its targets have a local path only. -/
structure LegacyLocalConfigV1 where
  serverUrl : String
  targets : List (String × String)
  deriving DecidableEq, Repr

/-- What the migration looks at: the workspace, alias and kind of a target are dropped. -/
structure LegacyLocalConfigV2 where
  serverUrl : String
  targets : List (String × LocalTarget)
  deriving DecidableEq, Repr

/-- `serde_json` on the four formats, the origin of a URL, and `LocalExecutorConfig::validate`. -/
structure Api where
  peekSchemaVersion : String → Except String Nat
  parseV1 : String → Except String LegacyLocalConfigV1
  parseV2 : String → Except String LegacyLocalConfigV2
  parse : String → Except String LocalConfig
  print : LocalConfig → String
  normalizeServerOrigin : String → Except String String
  validate : LocalExecutorConfig → Except String Unit

def unsupported (version : Nat) : String :=
  "Unsupported config schema_version: " ++ toString version

namespace Api

variable (api : Api)

def validateTargets (targets : List (String × LocalTarget)) : Except String Unit :=
  targets.forM fun t =>
    match t.2.executor with
    | some exec => api.validate exec
    | none => .ok ()

def migrateLegacyV2 (legacy : LegacyLocalConfigV2) : Except String LocalConfig :=
  match api.normalizeServerOrigin legacy.serverUrl with
  | .error e => .error e
  | .ok serverUrl =>
    match api.validateTargets legacy.targets with
    | .error e => .error e
    | .ok () => .ok ⟨configSchemaVersion, serverUrl, legacy.targets⟩

def migrateLegacyV1 (legacy : LegacyLocalConfigV1) : Except String LocalConfig :=
  match api.normalizeServerOrigin legacy.serverUrl with
  | .error e => .error e
  | .ok serverUrl =>
    .ok ⟨configSchemaVersion, serverUrl, legacy.targets.map fun t => (t.1, ⟨t.2, none⟩)⟩

/-- What is written in the place of a legacy file. -/
def migrate (version : Nat) (content : String) : Except String LocalConfig :=
  match version with
  | 2 =>
    match api.parseV2 content with
    | .error e => .error e
    | .ok legacy => api.migrateLegacyV2 legacy
  | 1 =>
    match api.parseV1 content with
    | .error e => .error e
    | .ok legacy => api.migrateLegacyV1 legacy
  | other => .error (unsupported other)

/-- `LocalConfig::load` of a file that is there. -/
def load (content : String) : Except String LocalConfig :=
  match api.peekSchemaVersion content with
  | .error e => .error e
  | .ok version =>
    if version = configSchemaVersion then
      match api.parse content with
      | .error e => .error e
      | .ok config =>
        if config.schemaVersion ≠ configSchemaVersion then
          .error (unsupported config.schemaVersion)
        else
          match api.validateTargets config.targets with
          | .error e => .error e
          | .ok () =>
            match api.normalizeServerOrigin config.serverUrl with
            | .error e => .error e
            | .ok _ => .ok config
    else if version = 1 ∨ version = 2 then
      .error ("legacy schema requires migration: " ++ toString version)
    else .error (unsupported version)

/-- The targets of a legacy file. -/
def legacyTargets (version : Nat) (content : String) : Option (List (String × LocalTarget)) :=
  match version with
  | 2 => (api.parseV2 content).toOption.map (·.targets)
  | 1 => (api.parseV1 content).toOption.map fun legacy =>
    legacy.targets.map fun t => (t.1, ⟨t.2, none⟩)
  | _ => none

end Api

/-! ### the migration and the others -/

inductive Holder where
  | migration | other
  deriving DecidableEq, Repr

inductive Stage where
  | start
  | waiting
  | locked
  | versioned (version : Nat)
  | read (version : Nat) (content : String)
  | replaced (config : LocalConfig)
  /-- With what has been written. -/
  | done (result : Except String Unit) (wrote : Option LocalConfig)
  deriving DecidableEq

namespace Stage

def holds : Stage → Bool
  | .locked | .versioned _ | .read .. | .replaced _ => true
  | _ => false

end Stage

structure State where
  file : Option String
  lock : Option Holder
  stage : Stage
  deriving DecidableEq

def State.release (s : State) (result : Except String Unit) (wrote : Option LocalConfig) : State :=
  { s with lock := none, stage := .done result wrote }

/-- The replaced file is there, its directory is not synced. -/
def syncError : String := "IO error: sync of the directory"

inductive Label where
  | peek | lock | peekAgain | readContent | replace | finish
  /-- A file call or the lock fails. -/
  | fail (e : String)
  | otherLock | otherUnlock
  | otherWrite (content : Option String)
  deriving DecidableEq, Repr

def Label.ofMigration : Label → Bool
  | .otherLock | .otherUnlock | .otherWrite _ => false
  | _ => true

variable (api : Api)

def step (s : State) : Label → Option State
  | .peek =>
    match s.stage, s.file with
    | .start, none => some { s with stage := .done (.ok ()) none }
    | .start, some content =>
      match api.peekSchemaVersion content with
      | .error e => some { s with stage := .done (.error e) none }
      | .ok version =>
        if version = configSchemaVersion then some { s with stage := .done (.ok ()) none }
        else if version = 1 ∨ version = 2 then some { s with stage := .waiting }
        else some { s with stage := .done (.error (unsupported version)) none }
    | _, _ => none
  | .lock =>
    match s.stage, s.lock with
    | .waiting, none => some { s with lock := some .migration, stage := .locked }
    | _, _ => none
  | .peekAgain =>
    match s.stage, s.file with
    | .locked, none => some (s.release (.error "IO error: No such file or directory") none)
    | .locked, some content =>
      match api.peekSchemaVersion content with
      | .error e => some (s.release (.error e) none)
      | .ok version =>
        if version = configSchemaVersion then some (s.release (.ok ()) none)
        else some { s with stage := .versioned version }
    | _, _ => none
  | .readContent =>
    match s.stage, s.file with
    | .versioned _, none => some (s.release (.error "IO error: No such file or directory") none)
    | .versioned version, some content => some { s with stage := .read version content }
    | _, _ => none
  | .replace =>
    match s.stage with
    | .read version content =>
      match api.migrate version content with
      | .error e => some (s.release (.error e) none)
      | .ok config => some { s with file := some (api.print config), stage := .replaced config }
    | _ => none
  | .finish =>
    match s.stage with
    | .replaced config => some (s.release (.ok ()) (some config))
    | _ => none
  | .fail e =>
    match s.stage with
    | .start | .waiting => some { s with stage := .done (.error e) none }
    | .locked | .versioned _ | .read .. => some (s.release (.error e) none)
    | .replaced config => some (s.release (.error syncError) (some config))
    | .done .. => none
  | .otherLock => if s.lock = none then some { s with lock := some .other } else none
  | .otherUnlock => if s.lock = some .other then some { s with lock := none } else none
  | .otherWrite content => some { s with file := content }

def system (init : Option String) : LTS State Label :=
  .ofOption (fun s => s = ⟨init, none, .start⟩) (step api)

/-- The others write under the lock. -/
def Disciplined (s : State) : Label → Prop
  | .otherWrite _ => s.lock = some .other
  | _ => True

/-! ### what a step of the migration does -/

/-- The file is left alone; or the very content that is in it, of the version that it says, makes
place for its migration, which can be loaded and has the same targets. -/
def Sound (s t : State) : Prop :=
  (t.file = s.file ∧ (t.stage = .done (.ok ()) none →
    s.file = none ∨ ∃ content, s.file = some content ∧
      api.peekSchemaVersion content = .ok configSchemaVersion)) ∨
  ∃ version content config, s.file = some content ∧
    api.peekSchemaVersion content = .ok version ∧ api.migrate version content = .ok config ∧
    t.file = some (api.print config) ∧ t.stage = .replaced config ∧
    api.load (api.print config) = .ok config ∧
    api.legacyTargets version content = some config.targets

/-- What the code relies on: an origin is its own, and a migrated configuration is parsed as it was
printed. -/
structure Api.Lawful : Prop where
  origin : ∀ url origin, api.normalizeServerOrigin url = .ok origin →
    api.normalizeServerOrigin origin = .ok origin
  reparsed : ∀ version content config, api.migrate version content = .ok config →
    api.peekSchemaVersion (api.print config) = .ok configSchemaVersion ∧
      api.parse (api.print config) = .ok config

structure Inv (s : State) : Prop where
  lock : s.lock = some .migration ↔ s.stage.holds = true
  versioned : ∀ version, s.stage = .versioned version → ∃ content, s.file = some content ∧
    api.peekSchemaVersion content = .ok version
  read : ∀ version content, s.stage = .read version content → s.file = some content ∧
    api.peekSchemaVersion content = .ok version
  wrote : ∀ e config, s.stage = .done (.error e) (some config) → e = syncError

section runs

variable {api} {s t : State}

theorem migrate_spec (law : api.Lawful) {version : Nat} {content : String} {config : LocalConfig}
    (h : api.migrate version content = .ok config) :
    api.load (api.print config) = .ok config ∧
      api.legacyTargets version content = some config.targets := by
  obtain ⟨peek, parse⟩ := law.reparsed version content config h
  have shape : config.schemaVersion = configSchemaVersion ∧
      (∃ url, api.normalizeServerOrigin url = .ok config.serverUrl) ∧
      api.validateTargets config.targets = .ok () ∧
      api.legacyTargets version content = some config.targets := by
    unfold Api.migrate at h
    unfold Api.legacyTargets
    split at h
    · cases hp : api.parseV2 content with
      | error e =>
        rw [hp] at h
        cases h
      | ok legacy =>
        rw [hp] at h
        simp only [Api.migrateLegacyV2] at h
        cases hn : api.normalizeServerOrigin legacy.serverUrl with
        | error e =>
          rw [hn] at h
          cases h
        | ok serverUrl =>
          rw [hn] at h
          cases hv : api.validateTargets legacy.targets with
          | error e =>
            rw [hv] at h
            cases h
          | ok u =>
            rw [hv] at h
            cases h
            exact ⟨rfl, ⟨_, hn⟩, hv, rfl⟩
    · cases hp : api.parseV1 content with
      | error e =>
        rw [hp] at h
        cases h
      | ok legacy =>
        rw [hp] at h
        simp only [Api.migrateLegacyV1] at h
        cases hn : api.normalizeServerOrigin legacy.serverUrl with
        | error e =>
          rw [hn] at h
          cases h
        | ok serverUrl =>
          rw [hn] at h
          cases h
          refine ⟨rfl, ⟨_, hn⟩, ?_, rfl⟩
          unfold Api.validateTargets
          rw [Scan.forM_ok_iff]
          intro t ht
          obtain ⟨u, -, rfl⟩ := List.mem_map.1 ht
          rfl
    · cases h
  obtain ⟨version_ok, ⟨url, origin⟩, valid, targets⟩ := shape
  refine ⟨?_, targets⟩
  unfold Api.load
  rw [peek]
  simp only [if_true, parse, version_ok, ne_eq, not_true_eq_false, if_false, valid,
    law.origin url config.serverUrl origin]

theorem sound_step (law : api.Lawful) (inv : Inv api s) {a : Label} (ha : a.ofMigration = true)
    (h : step api s a = some t) : Sound api s t := by
  cases a with
  | peek =>
    simp only [step] at h
    split at h
    · next hs hf =>
      cases h
      exact .inl ⟨rfl, fun _ => .inl hf⟩
    · next content hs hf =>
      split at h
      · cases h
        exact .inl ⟨rfl, fun hd => by cases hd⟩
      · next version hv =>
        split at h
        · next current =>
          cases h
          exact .inl ⟨rfl, fun _ => .inr ⟨content, hf, current ▸ hv⟩⟩
        · split at h
          · cases h
            exact .inl ⟨rfl, fun hd => by cases hd⟩
          · cases h
            exact .inl ⟨rfl, fun hd => by cases hd⟩
    · cases h
  | lock =>
    simp only [step] at h
    split at h
    · cases h
      exact .inl ⟨rfl, fun hd => by cases hd⟩
    · cases h
  | peekAgain =>
    simp only [step] at h
    split at h
    · cases h
      exact .inl ⟨rfl, fun hd => by cases hd⟩
    · next content hs hf =>
      split at h
      · cases h
        exact .inl ⟨rfl, fun hd => by cases hd⟩
      · next version hv =>
        split at h
        · next current =>
          cases h
          exact .inl ⟨rfl, fun _ => .inr ⟨content, hf, current ▸ hv⟩⟩
        · cases h
          exact .inl ⟨rfl, fun hd => by cases hd⟩
    · cases h
  | readContent =>
    simp only [step] at h
    split at h
    · cases h
      exact .inl ⟨rfl, fun hd => by cases hd⟩
    · cases h
      exact .inl ⟨rfl, fun hd => by cases hd⟩
    · cases h
  | replace =>
    simp only [step] at h
    split at h
    · next version content hs =>
      obtain ⟨hf, hv⟩ := inv.read version content hs
      split at h
      · cases h
        exact .inl ⟨rfl, fun hd => by cases hd⟩
      · next config hm =>
        cases h
        obtain ⟨load, targets⟩ := migrate_spec law hm
        exact .inr ⟨version, content, config, hf, hv, hm, rfl, rfl, load, targets⟩
    · cases h
  | finish =>
    simp only [step] at h
    split at h
    · cases h
      exact .inl ⟨rfl, fun hd => by cases hd⟩
    · cases h
  | fail e =>
    simp only [step] at h
    split at h
    · cases h
      exact .inl ⟨rfl, fun hd => by cases hd⟩
    · cases h
      exact .inl ⟨rfl, fun hd => by cases hd⟩
    · cases h
      exact .inl ⟨rfl, fun hd => by cases hd⟩
    · cases h
      exact .inl ⟨rfl, fun hd => by cases hd⟩
    · cases h
      exact .inl ⟨rfl, fun hd => by cases hd⟩
    · cases h
      exact .inl ⟨rfl, fun hd => by cases hd⟩
    · cases h
  | otherLock => cases ha
  | otherUnlock => cases ha
  | otherWrite content => cases ha

theorem inv_release {result : Except String Unit} {wrote : Option LocalConfig}
    (h : ∀ e config, result = .error e → wrote = some config → e = syncError) :
    Inv api (s.release result wrote) where
  lock := by simp [State.release, Stage.holds]
  versioned version hs := by cases hs
  read version content hs := by cases hs
  wrote e config hs := by
    cases hs
    exact h e config rfl rfl

/-- A stage without the lock, the lock and the file as they were. -/
theorem Inv.idle (inv : Inv api s) (idle : s.stage.holds = false) {stage : Stage}
    (h : stage.holds = false)
    (hw : ∀ e config, stage = .done (.error e) (some config) → e = syncError) :
    Inv api { s with stage := stage } where
  lock := by
    show s.lock = some .migration ↔ stage.holds = true
    rw [inv.lock, idle, h]
  versioned version hs := by
    cases hs
    cases h
  read version content hs := by
    cases hs
    cases h
  wrote := hw

/-- The lock and the file change hands while the migration does not hold the lock. -/
theorem Inv.others (inv : Inv api s) (idle : s.stage.holds = false) {lock : Option Holder}
    (hlock : lock ≠ some .migration) {file : Option String} :
    Inv api { s with lock := lock, file := file } where
  lock := by
    show lock = some .migration ↔ s.stage.holds = true
    rw [idle]
    simpa using hlock
  versioned version hs := by
    have hs : s.stage = .versioned version := hs
    rw [hs] at idle
    cases idle
  read version content hs := by
    have hs : s.stage = .read version content := hs
    rw [hs] at idle
    cases idle
  wrote := inv.wrote

/-- The next stage under the lock. -/
theorem Inv.under (inv : Inv api s) (held : s.stage.holds = true) {file : Option String}
    {stage : Stage} (h : stage.holds = true)
    (hv : ∀ version, stage = .versioned version → ∃ content, file = some content ∧
      api.peekSchemaVersion content = .ok version)
    (hr : ∀ version content, stage = .read version content → file = some content ∧
      api.peekSchemaVersion content = .ok version) :
    Inv api { s with file := file, stage := stage } where
  lock := by
    show s.lock = some .migration ↔ stage.holds = true
    rw [inv.lock, held, h]
  versioned := hv
  read := hr
  wrote e config hs := by
    have hs : stage = .done (.error e) (some config) := hs
    rw [hs] at h
    cases h

theorem inv_step (inv : Inv api s) {a : Label} (disciplined : Disciplined s a)
    (h : step api s a = some t) : Inv api t := by
  cases a with
  | peek =>
    simp only [step] at h
    split at h
    · next hs hf =>
      cases h
      exact inv.idle (by rw [hs]; rfl) rfl (by simp)
    · next content hs hf =>
      have idle : s.stage.holds = false := by rw [hs]; rfl
      split at h
      · cases h
        exact inv.idle idle rfl (by simp)
      · split at h
        · cases h
          exact inv.idle idle rfl (by simp)
        · split at h
          · cases h
            exact inv.idle idle rfl (by simp)
          · cases h
            exact inv.idle idle rfl (by simp)
    · cases h
  | lock =>
    simp only [step] at h
    split at h
    · cases h
      exact {
        lock := by simp [Stage.holds]
        versioned := by simp
        read := by simp
        wrote := by simp }
    · cases h
  | peekAgain =>
    simp only [step] at h
    split at h
    · cases h
      exact inv_release (by simp)
    · next content hs hf =>
      split at h
      · cases h
        exact inv_release (by simp)
      · next version hv =>
        split at h
        · cases h
          exact inv_release (by simp)
        · cases h
          refine inv.under (by rw [hs]; rfl) rfl (fun v hstage => ?_) (by simp)
          cases hstage
          exact ⟨content, hf, hv⟩
    · cases h
  | readContent =>
    simp only [step] at h
    split at h
    · cases h
      exact inv_release (by simp)
    · next version content hs hf =>
      cases h
      refine inv.under (by rw [hs]; rfl) rfl (by simp) (fun v c hstage => ?_)
      cases hstage
      obtain ⟨content', hf', hv⟩ := inv.versioned version hs
      rw [hf] at hf'
      cases hf'
      exact ⟨hf, hv⟩
    · cases h
  | replace =>
    simp only [step] at h
    split at h
    · next version content hs =>
      split at h
      · cases h
        exact inv_release (by simp)
      · cases h
        exact inv.under (by rw [hs]; rfl) rfl (by simp) (by simp)
    · cases h
  | finish =>
    simp only [step] at h
    split at h
    · cases h
      exact inv_release (by simp)
    · cases h
  | fail e =>
    simp only [step] at h
    split at h
    · next hs =>
      cases h
      exact inv.idle (by rw [hs]; rfl) rfl (by simp)
    · next hs =>
      cases h
      exact inv.idle (by rw [hs]; rfl) rfl (by simp)
    · cases h
      exact inv_release (by simp)
    · cases h
      exact inv_release (by simp)
    · cases h
      exact inv_release (by simp)
    · cases h
      refine inv_release fun e config he _ => ?_
      cases he
      rfl
    · cases h
  | otherLock =>
    simp only [step] at h
    split at h
    · next free =>
      cases h
      have idle : s.stage.holds = false := by
        rw [← Bool.not_eq_true, ← inv.lock, free]
        simp
      exact inv.others idle (by simp)
    · cases h
  | otherUnlock =>
    simp only [step] at h
    split at h
    · next held =>
      cases h
      have idle : s.stage.holds = false := by
        rw [← Bool.not_eq_true, ← inv.lock, held]
        simp
      exact inv.others idle (by simp)
    · cases h
  | otherWrite content =>
    cases h
    have held : s.lock = some .other := disciplined
    have idle : s.stage.holds = false := by
      rw [← Bool.not_eq_true, ← inv.lock, held]
      simp
    exact inv.others idle (by rw [held]; simp)

theorem disciplined_inv {init : Option String}
    (h : ((system api init).guard Disciplined).Reachable s) : Inv api s := by
  have start {s : State} (hs : (system api init).Init s) : Inv api s := by
    cases hs
    exact {
      lock := by simp [Stage.holds]
      versioned := by simp
      read := by simp
      wrote := by simp }
  exact LTS.Reachable.inv (L := (system api init).guard Disciplined) start
    (fun inv hstep => inv_step inv hstep.1 hstep.2) h

end runs

/-- Next to processes that write under the lock: a step of the migration leaves the file alone or
puts the migration of its content in its place; an error after that is of the directory only; and
a migrated file is left alone from the first look on. -/
theorem migration_safe (api : Api) (law : api.Lawful) (init : Option String) (s : State)
    (reached : ((system api init).guard Disciplined).Reachable s) :
    (∀ a t, a.ofMigration = true → step api s a = some t → Sound api s t) ∧
    (∀ e config, s.stage = .done (.error e) (some config) → e = syncError) ∧
    ∀ version content config, api.migrate version content = .ok config →
      s.stage = .start → s.file = some (api.print config) →
      step api s .peek = some { s with stage := .done (.ok ()) none } := by
  have inv := disciplined_inv reached
  refine ⟨fun a t ha h => sound_step law inv ha h, inv.wrote, ?_⟩
  intro version content config hm hs hf
  simp only [step, hs, hf, (law.reparsed version content config hm).1, if_true]

/-! ### a process that does not take the lock -/

namespace Sample

def targets : List (String × LocalTarget) := [("target-1", ⟨"/work/site", none⟩)]

def legacyText : String :=
  "\x7b\"schema_version\":2,\"server_url\":\"https://ceo.test\",\"targets\":\x7b\"target-1\":\x7b" ++
    "\"workspace_id\":\"w\",\"alias\":\"site\",\"kind\":\"coding\"," ++
    "\"local_path\":\"/work/site\"\x7d\x7d\x7d"

def migratedText : String :=
  "\x7b\"schema_version\":3,\"server_url\":\"https://ceo.test\",\"targets\":\x7b\"target-1\":\x7b" ++
    "\"local_path\":\"/work/site\"\x7d\x7d\x7d"

/-- Without the target. -/
def editedText : String :=
  "\x7b\"schema_version\":3,\"server_url\":\"https://ceo.test\",\"targets\":\x7b\x7d\x7d"

def migrated : LocalConfig := ⟨configSchemaVersion, "https://ceo.test", targets⟩

/-- `serde_json` on these texts. -/
def texts : Api where
  peekSchemaVersion text :=
    if text = legacyText then .ok 2
    else if text = migratedText ∨ text = editedText then .ok 3
    else .error "expected value at line 1 column 1"
  parseV1 _ := .error "expected value at line 1 column 1"
  parseV2 text :=
    if text = legacyText then .ok ⟨"https://ceo.test", targets⟩
    else .error "expected value at line 1 column 1"
  parse text :=
    if text = migratedText then .ok migrated
    else if text = editedText then .ok ⟨configSchemaVersion, "https://ceo.test", []⟩
    else .error "expected value at line 1 column 1"
  print config := if config = migrated then migratedText else editedText
  normalizeServerOrigin := .ok
  validate _ := .ok ()

theorem migrate_eq {version : Nat} {content : String} {config : LocalConfig}
    (h : texts.migrate version content = .ok config) : content = legacyText ∧ config = migrated := by
  unfold Api.migrate at h
  split at h
  · by_cases hc : content = legacyText
    · have hp : texts.parseV2 content = .ok ⟨"https://ceo.test", targets⟩ := if_pos hc
      rw [hp] at h
      cases h
      exact ⟨hc, rfl⟩
    · have hp : texts.parseV2 content = .error "expected value at line 1 column 1" := if_neg hc
      rw [hp] at h
      cases h
  · cases h
  · cases h

theorem lawful : texts.Lawful where
  origin _ _ _ := rfl
  reparsed version content config h := by
    obtain ⟨-, rfl⟩ := migrate_eq h
    decide +kernel

end Sample

/-- A file that is edited without the lock between read and replace is lost; and an error of the
directory's sync comes when the file is already replaced. -/
theorem migration_overwrites :
    (∃ s t, (system Sample.texts (some Sample.legacyText)).Reachable s ∧
      step Sample.texts s .replace = some t ∧ s.file = some Sample.editedText ∧
      t.file = some Sample.migratedText ∧ ¬Sound Sample.texts s t) ∧
    ∃ s e, (system Sample.texts (some Sample.legacyText)).Reachable s ∧
      s.stage = .done (.error e) (some Sample.migrated) ∧ s.file = some Sample.migratedText := by
  constructor
  · refine ⟨⟨some Sample.editedText, some .migration, .read 2 Sample.legacyText⟩,
      ⟨some Sample.migratedText, some .migration, .replaced Sample.migrated⟩,
      ⟨_, [.peek, .lock, .peekAgain, .readContent, .otherWrite (some Sample.editedText)], rfl,
        LTS.run_ofOption _ (by decide +kernel)⟩, by decide +kernel, rfl, rfl, ?_⟩
    rintro (⟨h, -⟩ | ⟨version, content, config, h, -, hm, -⟩)
    · exact absurd (Option.some.inj h) (by decide +kernel)
    · have hc := (Sample.migrate_eq hm).1
      rw [hc] at h
      exact absurd (Option.some.inj h) (by decide +kernel)
  · exact ⟨⟨some Sample.migratedText, none, .done (.error syncError) (some Sample.migrated)⟩,
      syncError, ⟨_, [.peek, .lock, .peekAgain, .readContent, .replace, .fail "sync"], rfl,
        LTS.run_ofOption _ (by decide +kernel)⟩, rfl, rfl⟩

theorem migration_safe_sample :
    step Sample.texts ⟨some Sample.migratedText, none, .start⟩ .peek =
      some ⟨some Sample.migratedText, none, .done (.ok ()) none⟩ :=
  (migration_safe Sample.texts Sample.lawful (some Sample.migratedText)
    ⟨some Sample.migratedText, none, .start⟩ (LTS.Reachable.init rfl)).2.2 2 Sample.legacyText
      Sample.migrated (by decide +kernel) rfl (by decide +kernel)

end Ceo.Connector.ConfigMigration
