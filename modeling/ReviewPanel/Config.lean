import ReviewPanel.Json.Record
import ReviewPanel.Toml.Document

/-!
# Configuration

The deadlines of a panel, where it keeps its documents, and what it does with a reviewer that is late
or a run that is there already.  Every setting has a default.  Times are in milliseconds and have 64
bits; none may be zero, and the ledger is looked at no less often than a run may take
(`Config.validate`).

A configuration is written in TOML or as a JSON document with the same names.
-/

namespace ReviewPanel

open Json (Value Reader)

/-- What happens to a reviewer whose time is over. -/
inductive TimeoutAction where
  /-- Nobody waits for it any longer. -/
  | detach
  /-- It is stopped. -/
  | abort
deriving DecidableEq, Repr

namespace TimeoutAction

/-- The name of the action. -/
def name : TimeoutAction → String
  | .detach => "detach"
  | .abort => "abort"

instance : Named TimeoutAction where
  all := [.detach, .abort]
  mem_all := by intro a; cases a <;> decide
  nodup_all := by decide
  name := name
  name_inj := by intro a b; cases a <;> cases b <;> simp [name]

/-- The action in a description. -/
def describe : TimeoutAction → String
  | .detach => "Detach"
  | .abort => "Abort"

end TimeoutAction

/-- What happens when a run is started under an identifier that is in use. -/
inductive RerunPolicy where
  /-- The new run is refused. -/
  | reject
  /-- An old run that has ended makes room. -/
  | archive
deriving DecidableEq, Repr

namespace RerunPolicy

/-- The name of the policy. -/
def name : RerunPolicy → String
  | .reject => "reject"
  | .archive => "archive"

instance : Named RerunPolicy where
  all := [.reject, .archive]
  mem_all := by intro p; cases p <;> decide
  nodup_all := by decide
  name := name
  name_inj := by intro a b; cases a <;> cases b <;> simp [name]

/-- The policy in a description. -/
def describe : RerunPolicy → String
  | .reject => "Reject"
  | .archive => "Archive"

end RerunPolicy

/-- The settings of a panel. -/
structure Config where
  /-- How long a role may take, in milliseconds. -/
  roleTimeout : Nat
  /-- How long a run may take, in milliseconds. -/
  globalTimeout : Nat
  /-- How often the ledger is looked at, in milliseconds. -/
  pollInterval : Nat
  /-- The directory that holds the documents of runs; without one they are kept in memory only. -/
  workspaceRoot : Option String
  onTimeout : TimeoutAction
  rerunPolicy : RerunPolicy
deriving DecidableEq, Repr

/-- Why there is no configuration. -/
inductive ConfigError where
  /-- The file cannot be read. -/
  | read (path reason : String)
  /-- The text is no configuration. -/
  | parse
  /-- A setting is out of range. -/
  | invalid (reason : String)
deriving DecidableEq, Repr

/-- The wording of a configuration error. -/
def ConfigError.message : ConfigError → String
  | .read path reason => "failed to read config " ++ path ++ ": " ++ reason
  | .parse => "failed to parse config"
  | .invalid reason => "invalid configuration: " ++ reason

/-- The greatest number of milliseconds. -/
def maxMillis : Nat := 18446744073709551615

/-- Whole milliseconds of a duration, at most the greatest number. -/
def millis (seconds nanoseconds : Nat) : Nat :=
  min maxMillis ((seconds * 1000000000 + nanoseconds) / 1000000)

namespace Config

/-- Five minutes for a role, fifteen for a run, four looks in a second, nothing on disk. -/
def default : Config where
  roleTimeout := 300000
  globalTimeout := 900000
  pollInterval := 250
  workspaceRoot := none
  onTimeout := .detach
  rerunPolicy := .reject

/-- The settings that may not be zero, in the order in which they are checked. -/
def durations (c : Config) : List (String × Nat) :=
  [("role_timeout_ms", c.roleTimeout), ("global_timeout_ms", c.globalTimeout),
    ("poll_interval_ms", c.pollInterval)]

/-- Names the first setting that is out of range. -/
def validate (c : Config) : Except ConfigError Unit :=
  match c.durations.find? fun d => d.2 == 0 with
  | some (name, _) => .error (.invalid (name ++ " must be greater than zero"))
  | none =>
    if c.globalTimeout < c.pollInterval then
      .error (.invalid "poll_interval_ms must not exceed global_timeout_ms")
    else .ok ()

/-- The document of a configuration. -/
def toValue (c : Config) : Value :=
  .obj [("role_timeout_ms", .nat c.roleTimeout), ("global_timeout_ms", .nat c.globalTimeout),
    ("poll_interval_ms", .nat c.pollInterval), ("workspace_root", .ofOption .str c.workspaceRoot),
    ("on_timeout", .word c.onTimeout), ("rerun_policy", .word c.rerunPolicy)]

/-- The fields of a configuration. -/
def fields : Json.Fields Config :=
  (((((Json.Fields.build Config.mk
    |>.defaulted "role_timeout_ms" Reader.natural default.roleTimeout)
    |>.defaulted "global_timeout_ms" Reader.natural default.globalTimeout)
    |>.defaulted "poll_interval_ms" Reader.natural default.pollInterval)
    |>.defaulted "workspace_root" (Reader.optional Reader.path) default.workspaceRoot)
    |>.defaulted "on_timeout" Reader.word default.onTimeout)
    |>.defaulted "rerun_policy" Reader.word default.rerunPolicy

/-- Reads a configuration. -/
def reader : Reader Config := Reader.record "AuditConfig" fields

/-! ### Reading TOML -/

/-- A number of milliseconds. -/
def tomlMillis? : Toml.Item → Option Nat
  | .scalar (.integer i) => if 0 ≤ i then some i.toNat else none
  | _ => none

/-- A text. -/
def tomlText? : Toml.Item → Option String
  | .scalar (.string s) => some s
  | _ => none

/-- A container without anything in it. -/
def isEmptyItem : Toml.Item → Bool
  | .array [] | .inline [] | .table _ [] => true
  | _ => false

/-- A word: a text, or a table with the word as its key and nothing under it. -/
def tomlWord? {κ : Type} [Named κ] : Toml.Item → Option κ
  | .scalar (.string s) => Named.ofName? s
  | .inline [(name, item)] => if isEmptyItem item then Named.ofName? name else none
  | .table _ ((name, item) :: _) => if isEmptyItem item then Named.ofName? name else none
  | _ => none

/-- The setting with a given name, or its default. -/
def setting? {α : Type} (entries : Toml.Entries) (name : String) (read : Toml.Item → Option α)
    (otherwise : α) : Option α :=
  match entries.get? name with
  | some item => read item
  | none => some otherwise

/-- The configuration in a TOML document. -/
def ofEntries? (entries : Toml.Entries) : Option Config := do
  return {
    roleTimeout := ← setting? entries "role_timeout_ms" tomlMillis? default.roleTimeout
    globalTimeout := ← setting? entries "global_timeout_ms" tomlMillis? default.globalTimeout
    pollInterval := ← setting? entries "poll_interval_ms" tomlMillis? default.pollInterval
    workspaceRoot := ← setting? entries "workspace_root" (fun i => (tomlText? i).map some) none
    onTimeout := ← setting? entries "on_timeout" tomlWord? default.onTimeout
    rerunPolicy := ← setting? entries "rerun_policy" tomlWord? default.rerunPolicy }

/-- Reads a TOML text and checks the settings. -/
def ofToml (text : String) : Except ConfigError Config :=
  match (Toml.parse? text).bind ofEntries? with
  | none => .error .parse
  | some c => do
    c.validate
    return c

/-- The configuration as a description. -/
def describe (c : Config) : String :=
  let role := c.roleTimeout
  let global := c.globalTimeout
  let poll := c.pollInterval
  let root := match c.workspaceRoot with
    | some path => "Some(" ++ Text.quoted path ++ ")"
    | none => "None"
  let action := c.onTimeout.describe
  let policy := c.rerunPolicy.describe
  s!"AuditConfig \x7b role_timeout_ms: {role}, global_timeout_ms: {global}, " ++
    s!"poll_interval_ms: {poll}, workspace_root: {root}, on_timeout: {action}, " ++
    s!"rerun_policy: {policy} \x7d"

end Config

end ReviewPanel
