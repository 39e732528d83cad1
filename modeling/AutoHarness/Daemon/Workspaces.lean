import Mathlib.Data.List.Infix
import AutoHarness.Foundation.Transition

/-! The daemon's workspace manager. A path resolves to the same directory whenever it is looked up; canonical paths
are lists of names. -/

namespace AutoHarness.Daemon.Workspaces
open Foundation

/-- The names of an absolute path. -/
abbrev Path := List String

/-- What the checks ask the file system. -/
structure FileSystem where
  isAbsolute : String → Bool
  /-- The names of the absolute path that a text stands for. -/
  resolve : String → Path
  realpath : Path → Option Path
  isSymbolicLink : Path → Bool := fun _ => false
  isDirectory : Path → Bool
  /-- `workspacePathKey`: the platform may fold case. -/
  pathKey : Path → Path := id
  /-- A path is looked up from the real path of any beginning of it. -/
  realpath_append : ∀ p c rest, realpath p = some c → realpath (p ++ rest) = realpath (c ++ rest)

def pathText (path : Path) : String := "/" ++ String.intercalate "/" path

def isWithinRoot (root candidate : Path) : Bool := root.isPrefixOf candidate

section Checks

variable (fs : FileSystem)

/-- The loop of `resolvePathForRootCheck`: `current` reversed, and the names that are missing. -/
def resolveUp : List String → Path → Except String Path
  | [], missing =>
    match fs.realpath [] with
    | some resolved => .ok (resolved ++ missing)
    | none =>
      if fs.isSymbolicLink [] then .error ("cannot resolve dangling symlink in path: " ++ pathText [])
      else .error "ENOENT: no such file or directory"
  | name :: parent, missing =>
    match fs.realpath (name :: parent).reverse with
    | some resolved => .ok (resolved ++ missing)
    | none =>
      if fs.isSymbolicLink (name :: parent).reverse then
        .error ("cannot resolve dangling symlink in path: " ++ pathText (name :: parent).reverse)
      else resolveUp parent (name :: missing)

def resolvePathForRootCheck (path : Path) : Except String Path := resolveUp fs path.reverse []

/-- A root that does not exist is dropped. -/
def usableRoots (allowedRoots : List String) : List Path :=
  allowedRoots.filterMap fun root => fs.realpath (fs.resolve root)

def assertWithinRoots (path : Path) (text : String) (allowedRoots : List String) : Except String Path :=
  match resolvePathForRootCheck fs path with
  | .error error => .error error
  | .ok resolved =>
    let roots := usableRoots fs allowedRoots
    if roots.isEmpty then .error "no usable allowed roots"
    else if roots.any fun root => isWithinRoot root resolved then .ok resolved
    else .error ("path is outside allowed roots: " ++ text)

/-- Without roots every path is allowed. -/
def assertPathWithinAllowedRoots (path : String) (allowedRoots : List String) : Except String Path :=
  if allowedRoots.isEmpty then .ok (fs.resolve path)
  else if fs.isAbsolute path = false then .error ("path must be absolute: " ++ path)
  else assertWithinRoots fs (fs.resolve path) path allowedRoots

def assertExistingPathWithinAllowedRoots (path : String) (allowedRoots : List String) : Except String Path :=
  match assertPathWithinAllowedRoots fs path allowedRoots with
  | .error error => .error error
  | .ok resolved =>
    match fs.realpath resolved with
    | some existing => .ok existing
    | none => .error ("terminal hook target does not exist: " ++ path)

def assertExistingDirectoryWithinAllowedRoots (path : Path) (allowedRoots : List String) : Except String Path :=
  match assertWithinRoots fs path (pathText path) allowedRoots with
  | .error error => .error error
  | .ok resolved =>
    match fs.realpath resolved with
    | none => .error ("workspace slot path must exist: " ++ pathText path)
    | some canonical =>
      if fs.isDirectory canonical then .ok canonical
      else .error ("workspace slot path must be a directory: " ++ pathText path)

def checkedPath (path : String) (roots : List String) : Except String Path :=
  if roots.isEmpty then .error "workspace sessions require non-empty allowedRoots"
  else
    match assertPathWithinAllowedRoots fs path roots with
    | .error error => .error error
    | .ok checked =>
      let rootPaths := roots.filterMap fun root => (assertPathWithinAllowedRoots fs root roots).toOption
      if rootPaths.contains checked then
        .error ("workspace path must be a strict descendant of an allowed root: " ++ path)
      else assertExistingDirectoryWithinAllowedRoots fs checked roots

end Checks

/-! ## Inventories -/

structure WorkspaceSlotConfig where
  id : String
  path : String
deriving DecidableEq

structure WorkspacePoolConfig where
  workspacePoolId : String
  slots : List WorkspaceSlotConfig
deriving DecidableEq

structure RepositoryConfig where
  path : String
  worktrees : List String := []
  /-- What `resolveHookPath` gives for the repository's terminal hook. -/
  terminalHookPath : Option String := none
deriving DecidableEq

structure DaemonConfig where
  allowedRoots : List String := []
  workspacePools : List WorkspacePoolConfig := []
  repositories : List RepositoryConfig := []
deriving DecidableEq

abbrev SlotKey := String × String

structure PlacedSlot where
  poolId : String
  slot : WorkspaceSlotConfig
deriving DecidableEq

def PlacedSlot.key (placed : PlacedSlot) : SlotKey := (placed.poolId, placed.slot.id)

namespace DaemonConfig

def slots (config : DaemonConfig) : List PlacedSlot :=
  config.workspacePools.flatMap fun pool => pool.slots.map fun slot => ⟨pool.workspacePoolId, slot⟩

def repositoryPaths (config : DaemonConfig) : List String :=
  config.repositories.flatMap fun repository => repository.path :: repository.worktrees

def find (config : DaemonConfig) (poolId slotId : String) : Except String WorkspaceSlotConfig :=
  match config.workspacePools.find? fun pool => pool.workspacePoolId == poolId with
  | none => .error ("Unknown workspace pool: " ++ poolId)
  | some pool =>
    match pool.slots.find? fun slot => slot.id == slotId with
    | none => .error ("Unknown workspace slot: " ++ slotId)
    | some slot => .ok slot

end DaemonConfig

/-- One lies in the other. -/
def overlaps (p q : Path) : Bool := isWithinRoot p q || isWithinRoot q p

def repositoryOverlap (slots : List (PlacedSlot × Path)) (targets : List Path) : Option String :=
  slots.findSome? fun slot => targets.findSome? fun target =>
    if overlaps slot.2 target then some ("workspace slot overlaps repository execution path: " ++ slot.1.slot.id)
    else none

def slotOverlap : List (PlacedSlot × Path) → Option String
  | [] => none
  | slot :: rest =>
    (rest.findSome? fun other =>
      if overlaps slot.2 other.2 then
        some ("workspace slots overlap: " ++ slot.1.slot.id ++ " and " ++ other.1.slot.id)
      else none).or (slotOverlap rest)

section Inventory

variable (fs : FileSystem)

/-- A path before it is compared with others. -/
def canonical (roots : List String) (path : String) : Except String Path :=
  if roots.isEmpty then resolvePathForRootCheck fs (fs.resolve path) else assertPathWithinAllowedRoots fs path roots

def canonicalSlots (roots : List String) : List PlacedSlot → Except String (List (PlacedSlot × Path))
  | [] => .ok []
  | placed :: rest =>
    match canonical fs roots placed.slot.path, canonicalSlots roots rest with
    | .ok path, .ok paths => .ok ((placed, path) :: paths)
    | .error error, _ => .error error
    | _, .error error => .error error

def canonicalPaths (roots : List String) : List String → Except String (List Path)
  | [] => .ok []
  | path :: rest =>
    match canonical fs roots path, canonicalPaths roots rest with
    | .ok path, .ok paths => .ok (path :: paths)
    | .error error, _ => .error error
    | _, .error error => .error error

/-- The part of `assertDaemonPathsAllowed` on workspace slots. -/
def workspacePathsAllowed (config : DaemonConfig) (roots : List String) : Except String Unit :=
  if config.slots.isEmpty then .ok ()
  else
    match canonicalSlots fs roots config.slots, canonicalPaths fs roots config.repositoryPaths with
    | .error error, _ => .error error
    | _, .error error => .error error
    | .ok slots, .ok targets =>
      match (repositoryOverlap slots targets).or (slotOverlap slots) with
      | some error => .error error
      | none => .ok ()

/-- The part of `assertDaemonPathsAllowed` on repositories. -/
def repositoryPathsAllowed (config : DaemonConfig) (roots : List String) : Except String Unit :=
  if roots.isEmpty then .ok ()
  else config.repositories.forM fun repository => do
    let _ ← assertPathWithinAllowedRoots fs repository.path roots
    if let some hook := repository.terminalHookPath then
      let _ ← assertExistingPathWithinAllowedRoots fs hook roots
    repository.worktrees.forM fun worktree => do
      let _ ← assertPathWithinAllowedRoots fs worktree roots

def assertDaemonPathsAllowed (config : DaemonConfig) (roots : List String) : Except String Unit :=
  match workspacePathsAllowed fs config roots with
  | .error error => .error error
  | .ok () => repositoryPathsAllowed fs config roots

def checkedSlots (roots : List String) : List PlacedSlot → Except String (List (PlacedSlot × Path))
  | [] => .ok []
  | placed :: rest =>
    match checkedPath fs placed.slot.path roots, checkedSlots roots rest with
    | .ok path, .ok paths => .ok ((placed, path) :: paths)
    | .error error, _ => .error error
    | _, .error error => .error error

/-- `assertBusyWorkspacePaths`: a candidate may not alias the path of a busy slot of the present inventory. -/
def assertBusyWorkspacePaths (config : DaemonConfig) (busy : List SlotKey) (candidate : List (PlacedSlot × Path))
    (roots : List String) : Except String Unit :=
  config.slots.forM fun placed => do
    if placed.key ∈ busy then
      if (candidate.find? fun next => next.1.key = placed.key).any fun next => next.1.slot.path ≠ placed.slot.path then
        throw ("cannot change the path of busy workspace slot: " ++ placed.slot.id)
      let currentPath ← checkedPath fs placed.slot.path roots
      -- a later slot of the same path takes the place of an earlier one in the map
      match (candidate.filter fun next => fs.pathKey next.2 = fs.pathKey currentPath).getLast? with
      | none => pure ()
      | some next =>
        if next.1.key = placed.key then pure ()
        else throw ("workspace path aliases leased slot: " ++ placed.slot.id)

/-- `ensureAll` of a candidate against the present inventory. -/
def ensureAll (config : DaemonConfig) (busy : List SlotKey) (candidate : DaemonConfig) : Except String Unit :=
  match assertDaemonPathsAllowed fs candidate candidate.allowedRoots with
  | .error error => .error error
  | .ok () =>
    match checkedSlots fs candidate.allowedRoots candidate.slots with
    | .error error => .error error
    | .ok checked => assertBusyWorkspacePaths fs config busy checked candidate.allowedRoots

end Inventory

/-! ## The manager -/

/-- Held, its directory about to be removed or removed, or no longer busy with `release` still to come. -/
inductive Stage where
  | held | checked | removed | destroyed
deriving DecidableEq, Repr

structure Claim where
  number : ℕ
  poolId : String
  slot : WorkspaceSlotConfig
  cwd : Path
  generation : ℕ
  stage : Stage := .held
deriving DecidableEq

def Claim.key (c : Claim) : SlotKey := (c.poolId, c.slot.id)

/-- The claim keeps its slot busy. -/
def Claim.live (c : Claim) : Bool := c.stage != .destroyed

/-- The manager, the claims made of it, and the candidate an inventory update has validated. -/
structure WorkspaceManager where
  config : DaemonConfig := {}
  busy : List SlotKey := []
  policyRoots : Option (List String) := none
  generation : ℕ := 0
  inventoryUpdateInProgress : Bool := false
  candidate : Option DaemonConfig := none
  claims : List Claim := []
  nextNumber : ℕ := 0
deriving DecidableEq

inductive Event where
  | claim (poolId slotId : String)
  | destroyWorkspaceAfter (number : ℕ)
  /-- `fs.rm` and `fs.mkdir` of a workspace being destroyed. -/
  | remove (number : ℕ)
  | destroyed (number : ℕ)
  | release (number : ℕ)
  | beginInventoryUpdate
  | ensureAll (next : DaemonConfig)
  /-- The candidate becomes the inventory; the root policy may be cleared with it. -/
  | apply (clearsPolicy : Bool)
  | endInventoryUpdate
  | setAllowedRootsPolicy (roots : List String)
deriving DecidableEq

namespace WorkspaceManager

def roots (m : WorkspaceManager) : List String := m.policyRoots.getD m.config.allowedRoots

def noteInventoryChange (m : WorkspaceManager) : WorkspaceManager := { m with generation := m.generation + 1 }

def setStage (m : WorkspaceManager) (number : ℕ) (stage : Stage) : WorkspaceManager :=
  { m with claims := m.claims.map fun c => if c.number = number then { c with stage := stage } else c }

def unbusy (m : WorkspaceManager) (key : SlotKey) : WorkspaceManager :=
  { m with busy := m.busy.filter fun k => k ≠ key }

/-- Each check in the order of the source; an error leaves the manager as it is. -/
def claim (fs : FileSystem) (m : WorkspaceManager) (poolId slotId : String) : Except String WorkspaceManager :=
  if m.inventoryUpdateInProgress then .error "host inventory update in progress"
  else if (poolId, slotId) ∈ m.busy then .error ("Workspace slot already busy: " ++ slotId)
  else
    match m.config.find poolId slotId with
    | .error error => .error error
    | .ok slot =>
      match checkedPath fs slot.path m.roots with
      | .error error => .error error
      | .ok cwd =>
        .ok { m with
          busy := (poolId, slotId) :: m.busy
          claims := ⟨m.nextNumber, poolId, slot, cwd, m.generation, .held⟩ :: m.claims
          nextNumber := m.nextNumber + 1 }

/-- `currentExecutionTarget` of a claim. -/
def currentExecutionTarget (fs : FileSystem) (m : WorkspaceManager) (c : Claim) : Except String Unit :=
  let changed := "host inventory changed after this workspace was claimed"
  let found : Except String Unit :=
    if c.generation ≠ m.generation then
      match m.config.find c.poolId c.slot.id with
      | .error error => .error error
      | .ok current => if current.path ≠ c.slot.path then .error changed else .ok ()
    else .ok ()
  match found with
  | .error error => .error error
  | .ok () =>
    match checkedPath fs c.slot.path m.roots with
    | .error error => .error (if c.generation ≠ m.generation then changed else error)
    | .ok current => if current ≠ c.cwd then .error changed else .ok ()

def next (fs : FileSystem) (m : WorkspaceManager) : Event → Option WorkspaceManager
  | .claim poolId slotId => (m.claim fs poolId slotId).toOption
  | .destroyWorkspaceAfter number =>
    match m.claims.find? fun c => c.number = number with
    | some c =>
      if c.stage = .held then
        match m.currentExecutionTarget fs c with
        | .ok () => some (m.setStage number .checked)
        | .error _ => some ((m.setStage number .destroyed).unbusy c.key)
      else none
    | none => none
  | .remove number =>
    match m.claims.find? fun c => c.number = number with
    | some c => if c.stage = .checked then some (m.setStage number .removed) else none
    | none => none
  | .destroyed number =>
    match m.claims.find? fun c => c.number = number with
    | some c =>
      if c.stage = .checked ∨ c.stage = .removed then some ((m.setStage number .destroyed).unbusy c.key) else none
    | none => none
  | .release number =>
    match m.claims.find? fun c => c.number = number with
    | some c =>
      if c.stage = .held ∨ c.stage = .destroyed then
        some ({ m with claims := m.claims.filter fun d => d.number ≠ number }.unbusy c.key)
      else none
    | none => none
  | .beginInventoryUpdate =>
    if m.inventoryUpdateInProgress then none
    else some { m with inventoryUpdateInProgress := true }.noteInventoryChange
  | .ensureAll next =>
    if m.inventoryUpdateInProgress then
      match Workspaces.ensureAll fs m.config m.busy next with
      | .ok () => some { m with candidate := some next }
      | .error _ => none
    else none
  | .apply clearsPolicy =>
    match m.candidate with
    | some next =>
      some { m with
        config := next
        candidate := none
        policyRoots := if clearsPolicy then none else m.policyRoots }.noteInventoryChange
    | none => none
  | .endInventoryUpdate =>
    if m.inventoryUpdateInProgress then
      some { m with inventoryUpdateInProgress := false, candidate := none }.noteInventoryChange
    else none
  | .setAllowedRootsPolicy roots => some { m with policyRoots := some roots }.noteInventoryChange

/-- A manager starts without an inventory; the one of the daemon's start is the first update. -/
def system (fs : FileSystem) : System WorkspaceManager Event where
  init m := m = {}
  step m event m' := m.next fs event = some m'

end WorkspaceManager

end AutoHarness.Daemon.Workspaces
