import ReviewPanel.Panel.Basic

/-!
# The life of a run

A run is started under an identifier, which makes its directory, enters it in the ledger and starts a
supervisor for each role.  Once all its roles have ended it is finalized: the verdict is written,
attached and remembered.  A finalized run can be forgotten.

Each of the three calls is one step; what it did before it failed stays done, except where the call
undoes it.  Snapshots of changes that a call makes reach the scribe before the call goes on.  While a
verdict is on its way from the ledger to the documents, others' snapshots may arrive as well
(`Panel.arrivals`).
-/

namespace ReviewPanel.Panel

/-- Applies the rerun policy to an identifier that may be in use. -/
def clearPrevious (p : Panel) (id : RunId) : Panel × Except PanelError Unit :=
  let known := p.ledger.entries.get? id
  match p.config.rerunPolicy with
  | .reject => (p, if known.isSome then .error (.duplicateRun id) else .ok ())
  | .archive =>
    match p.ledger.retire id with
    | .error (.runNotComplete _) => (p, .error (.duplicateRun id))
    -- A directory may be left over from a run that this panel does not know.
    | retired =>
      let p := match retired with
        | .ok (ledger, _) =>
          { p with ledger, table := p.table.erase id, scribe := p.scribe.unregister id }
        | .error _ => p
      match p.config.workspaceRoot with
      | none => (p, .ok ())
      | some root =>
        match Workspace.archive p.disk root id (stamp p.nextStamp) with
        | .error e => (p, .error (.workspace e))
        | .ok (disk, _) => ({ p with disk, nextStamp := p.nextStamp + 1 }, .ok ())

/-- Makes and registers the directory of a run, if documents are kept. -/
def openWorkspace (p : Panel) (id : RunId) : Panel × Except PanelError (Option Workspace) :=
  match p.config.workspaceRoot with
  | none => (p, .ok none)
  | some root =>
    match Workspace.create p.disk root id with
    | (disk, .ok w) =>
      ({ p with disk, scribe := p.scribe.register w p.canSpawn }, .ok (some w))
    | (disk, .error (.alreadyExists _)) => ({ p with disk }, .error (.duplicateRun id))
    | (disk, .error e) => ({ p with disk }, .error (.workspace e))

/-- Undoes `openWorkspace`. -/
def closeWorkspace (p : Panel) (id : RunId) (w : Option Workspace) : Panel :=
  let p := { p with scribe := p.scribe.unregister id }
  match w with
  | none => p
  | some w =>
    match p.disk.removeTree (p.disk.locate w.dir) with
    | .ok disk => { p with disk }
    | .error _ => p

/-- Starts the review of a role and the supervisor that looks after it; a role that cannot run gets
none. -/
def spawn (p : Panel) (incarnation : Nat) (id : RunId) (item : WorkItem) (role : Role) : Panel :=
  match p.ledger.transition id role .running none p.now with
  | .error _ => p
  | .ok u =>
    let p := p.accept u
    let course := p.crew.reviewer role role item p.disk
    let s : Supervisor := {
      incarnation, runId := id, role
      backAt := course.delay.map (p.clock + ·)
      reply := course.reply
      dueAt := p.clock + p.config.roleTimeout
      returned := false
      stopped := false
      stage := .waiting }
    let handle := p.supervisors.length
    { p with supervisors := p.supervisors ++ [s] }.modifyIncarnation incarnation fun inc =>
      { inc with handles := inc.handles ++ [handle] }

/-- Starts a run that the ledger has accepted. -/
def launch (p : Panel) (id : RunId) (item : WorkItem) (roles : List Role) (w : Option Workspace) :
    Panel :=
  let i := p.incarnations.length
  let inc : Incarnation :=
    { runId := id, slots := .ofRoles roles w, handles := [], startedAt := p.clock, verdict := none }
  let p := { p with incarnations := p.incarnations ++ [inc] }
  let p := roles.foldl (fun p role => p.spawn i id item role) p
  -- The run can be found only once all its roles have been started.
  { p with table := p.table.insert id i }

/-- Starts a run. -/
def start (p : Panel) (id : RunId) (item : WorkItem) (roles : List Role) :
    Panel × Except PanelError RunId :=
  if !p.canSpawn then (p, .error .noRuntime)
  else
    match p.clearPrevious id with
    | (p, .error e) => (p, .error e)
    | (p, .ok ()) =>
      match p.openWorkspace id with
      | (p, .error e) => (p, .error e)
      | (p, .ok w) =>
        match p.ledger.create id item roles p.now with
        -- The directory is new, so removing it loses nothing.
        | .error e => (p.closeWorkspace id w, .error (.ofLedger e))
        | .ok u => ((p.accept u).launch id item roles w, .ok id)

/-- Starts a run under a new identifier. -/
def startFresh (p : Panel) (item : WorkItem) (roles : List Role) :
    Panel × Except PanelError RunId :=
  let id := "run-" ++ stamp p.nextStamp
  { p with nextStamp := p.nextStamp + 1 }.start id item roles

/-- The verdict of a run that has ended. -/
def aggregate (s : RunState) (slots : Slots) : Except PanelError Verdict :=
  if s.allComplete then .ok (Verdict.reduce s slots.findings) else .error (.runNotComplete s.runId)

/-- Writes the verdict of a run that is registered. -/
def writeVerdict (p : Panel) (id : RunId) (v : Verdict) : Except PanelError Panel :=
  match p.scribe.workspace? id with
  | none => .ok p
  | some w =>
    match w.writeVerdict p.disk v with
    | .ok disk => .ok { p with disk }
    | .error e => .error (.workspace e)

/-- Attaches the verdict of a run to the ledger and brings its state document up to date. -/
def attachVerdict (p : Panel) (id : RunId) (v : Verdict) : Except PanelError Panel :=
  match p.ledger.attach id v.toRef with
  | .error e => .error (.ofLedger e)
  | .ok u =>
    let p := p.arrivals.foldl deliver (p.accept u)
    let (scribe, disk) := p.scribe.flush p.disk id
    .ok { p with scribe, disk }

/-- Finalizes a run.  A second call returns the verdict of the first. -/
def finalize (p : Panel) (id : RunId) : Panel × Except PanelError Verdict :=
  match p.active id with
  | .error e => (p, .error e)
  | .ok (i, inc) =>
    match inc.verdict with
    | some v => (p, .ok v)
    | none =>
      match p.ledger.read id with
      | .error e => (p, .error (.ofLedger e))
      | .ok s =>
        match aggregate s inc.slots with
        | .error e => (p, .error e)
        | .ok v =>
          match p.writeVerdict id v with
          | .error e => (p, .error e)
          | .ok p =>
            match p.attachVerdict id v with
            | .error e => (p, .error e)
            | .ok p => (p.modifyIncarnation i fun inc => { inc with verdict := some v }, .ok v)

/-- Forgets a finalized run; its documents stay. -/
def forget (p : Panel) (id : RunId) : Panel × Except PanelError RunState :=
  match p.active id with
  | .error e => (p, .error e)
  | .ok (_, inc) =>
    if inc.verdict.isNone then (p, .error (.runNotComplete id))
    else
      match p.ledger.retire id with
      | .error e => (p, .error (.ofLedger e))
      | .ok (ledger, s) =>
        ({ p with ledger, scribe := p.scribe.unregister id, table := p.table.erase id }, .ok s)

end ReviewPanel.Panel
