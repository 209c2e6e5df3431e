import Mathlib.Logic.Function.Basic
import Concorrd.Lib.Run
import Concorrd.Api.Extensions

/-!
# Installing and uninstalling extensions

An installed extension has a row, a directory and a mount. `install_extension` replaces the directory
first, then writes the row and then mounts it, with awaits in between; `uninstall_extension` removes the
directory and the mount and then the row. The three agree whenever no request is on its way, as long as
nothing fails after the directory was replaced, and each commit finds the directory as its request left
it (`registry_of_orderly`).
-/

namespace Concorrd.Api

open Machine

inductive ExtRequest where
  | install (userId remoteUrl : String)
  | uninstall (userId extId : String)

/-- How far a request has come. An install keeps the tree it has put into place. -/
inductive ExtPhase where
  | fetching (userId remoteUrl : String)
  | placed (remoteUrl : String) (manifest : Manifest) (tree : Tree)
  | storing (remoteUrl : String) (manifest : Manifest) (tree : Tree) (existing : Option ExtensionRow)
  | refreshing (extId : String)
  | installed (extId : String)
  | failed
  | uninstalling (userId extId : String)
  | deleting (extId : String)
  | ended

/-- Where a request begins. -/
def ExtRequest.begins : ExtRequest → ExtPhase
  | .install userId remoteUrl => .fetching userId remoteUrl
  | .uninstall userId extId => .uninstalling userId extId

/-- What becomes of a directory that is removed and of the one that is renamed in its place. -/
inductive DiskTurn where
  | fine
  | sticks (left : Tree)
  | renameFails

/-- A request goes on, with what it meets: what the URL led to, the name of the staging directory, the
disk, and a database that refuses. -/
structure ExtTurn where
  request : Nat
  fetched : Option Archive := none
  stagingName : String := ".staging-0"
  disk : DiskTurn := .fine
  fails : Bool := false

/-- The rows, the directories, the staging directories that were left behind, and the mounts. -/
structure Stores where
  rows : String → Option ExtensionRow := fun _ => none
  dirs : String → Option Tree := fun _ => none
  staging : List String := []
  mounted : List String := []

structure Registry extends Stores where
  phase : Nat → ExtPhase

namespace Stores

variable (s : Stores)

def setRow (extId : String) (row : Option ExtensionRow) : Stores :=
  { s with rows := Function.update s.rows extId row }

def setDir (extId : String) (tree : Option Tree) : Stores :=
  { s with dirs := Function.update s.dirs extId tree }

def leaveStaging (name : String) : Stores := { s with staging := s.staging ++ [name] }

/-- Remove the staging directory, ignoring errors. -/
def cleanStaging (name : String) : DiskTurn → Stores
  | .sticks _ => s.leaveStaging name
  | .fine | .renameFails => s

def registerMount (extId : String) : Stores :=
  if extId ∈ s.mounted ∨ s.dirs extId = none then s
  else { s with mounted := s.mounted ++ [extId] }

def unregisterMount (extId : String) : Stores :=
  { s with mounted := s.mounted.filter fun id => id ≠ extId }

/-- Put the staging directory in the place of the extension's. -/
def replace (name extId : String) (tree : Tree) : DiskTurn → Except Stores Stores
  | .fine => .ok (s.setDir extId (some tree))
  | .sticks left =>
    if s.dirs extId = none then .ok (s.setDir extId (some tree))
    else .error ((s.setDir extId (some left)).leaveStaging name)
  | .renameFails => .error ((s.setDir extId none).leaveStaging name)

/-- What is left of the directory of an extension that is removed, ignoring errors. -/
def removeDir (extId : String) : DiskTurn → Stores
  | .sticks left => if s.dirs extId = none then s else s.setDir extId (some left)
  | .fine | .renameFails => s.setDir extId none

end Stores

/-- The row of a manifest. -/
def Manifest.row (m : Manifest) (remoteUrl : String) : ExtensionRow where
  version := m.version
  pricing := m.pricing
  remoteUrl := some remoteUrl
  manifest := some (.obj m.members)

/-- A commit sets the columns that were set to something else. -/
def ExtensionRow.updated (loaded current new : ExtensionRow) : ExtensionRow where
  version := if new.version = loaded.version then current.version else new.version
  pricing := if new.pricing = loaded.pricing then current.pricing else new.pricing
  enabled := current.enabled
  remoteUrl := if new.remoteUrl = loaded.remoteUrl then current.remoteUrl else new.remoteUrl
  manifest := if new.manifest = loaded.manifest then current.manifest else new.manifest

/-- What the commit of an install makes of the row that is there: it inserts a row where it found none,
and changes the row where it found one. -/
def storedRow (existing current : Option ExtensionRow) (new : ExtensionRow) : Option ExtensionRow :=
  match existing, current with
  | none, none => some new
  | some loaded, some current => some (loaded.updated current new)
  | none, some _ | some _, none => none

namespace Registry

variable (rt : Runtime)

/-- No request has begun. -/
def opened (stores : Stores) (requests : Nat → ExtRequest) : Registry where
  toStores := stores
  phase n := (requests n).begins

variable (s : Registry)

def moved (stores : Stores) (n : Nat) (phase : ExtPhase) : Registry where
  toStores := stores
  phase := Function.update s.phase n phase

/-- Unpack the bundle, check its manifest and put it into place. -/
def place (t : ExtTurn) (remoteUrl : String) (archive : Archive) : Registry :=
  match unpackZip rt (rt.extensionsDir ++ [t.stagingName]) archive with
  | .error fault =>
    let stores := if fault.cleans then s.cleanStaging t.stagingName t.disk
      else s.leaveStaging t.stagingName
    s.moved stores t.request .failed
  | .ok (tree, raw) =>
    match validateManifest rt raw with
    | .error _ => s.moved (s.cleanStaging t.stagingName t.disk) t.request .failed
    | .ok manifest =>
      let finalDir := LexicalPath.follow rt.extensionsDir [manifest.id]
      if isExtensionDirectorySafe finalDir rt.extensionsDir = false then
        s.moved (s.cleanStaging t.stagingName t.disk) t.request .failed
      else
        match s.replace t.stagingName manifest.id tree t.disk with
        | .error stores => s.moved stores t.request .failed
        | .ok stores => s.moved stores t.request (.placed remoteUrl manifest tree)

/-- Load the row and remove the directory and the mount. -/
def remove (t : ExtTurn) (extId : String) : Registry :=
  if isValidExtensionId rt extId = false ∨ t.fails = true ∨ s.rows extId = none then
    s.moved s.toStores t.request .ended
  else
    s.moved ((s.removeDir extId t.disk).unregisterMount extId) t.request (.deleting extId)

/-- A request goes on to its next await. -/
def step (t : ExtTurn) : Registry :=
  match s.phase t.request with
  | .fetching userId remoteUrl =>
    match adminRequired rt userId with
    | .error _ => s.moved s.toStores t.request .failed
    | .ok _ =>
      match t.fetched with
      | none => s.moved s.toStores t.request .failed
      | some archive => s.place rt t remoteUrl archive
  | .placed remoteUrl manifest tree =>
    s.moved s.toStores t.request
      (if t.fails then .failed else .storing remoteUrl manifest tree (s.rows manifest.id))
  | .storing remoteUrl manifest _ existing =>
    if t.fails then s.moved s.toStores t.request .failed
    else
      match storedRow existing (s.rows manifest.id) (manifest.row remoteUrl) with
      | none => s.moved s.toStores t.request .failed
      | some row => s.moved (s.setRow manifest.id (some row)) t.request (.refreshing manifest.id)
  | .refreshing extId =>
    if t.fails = true ∨ s.rows extId = none then s.moved s.toStores t.request .failed
    else s.moved (s.registerMount extId) t.request (.installed extId)
  | .uninstalling userId extId =>
    match adminRequired rt userId with
    | .ok _ => s.remove rt t extId
    | .error _ => s.moved s.toStores t.request .ended
  | .deleting extId =>
    if t.fails then s.moved s.toStores t.request .ended
    else s.moved (s.setRow extId none) t.request .ended
  | .installed _ | .failed | .ended => s

end Registry

/-! ## What is asked of it -/

/-- The row of an extension says what its directory holds. -/
def Describes (rt : Runtime) (extId : String) (row : ExtensionRow) (tree : Tree) : Prop :=
  ∃ raw manifest, readManifest rt tree = .ok raw ∧ validateManifest rt raw = .ok manifest ∧
    manifest.id = extId ∧ row.manifest = some (.obj manifest.members)

namespace Stores

/-- An extension has a row exactly when it has a directory, and the row describes it. -/
def Agrees (rt : Runtime) (s : Stores) (extId : String) : Prop :=
  match s.rows extId, s.dirs extId with
  | none, none => True
  | some row, some tree => Describes rt extId row tree
  | none, some _ | some _, none => False

/-- The rows, the directories and the mounts agree. -/
def Consistent (rt : Runtime) (s : Stores) : Prop :=
  ∀ extId, s.Agrees rt extId ∧ (extId ∈ s.mounted ↔ s.dirs extId ≠ none)

end Stores

namespace ExtPhase

/-- An install that has put its bundle into place and not yet written the row, or an uninstall that
has removed the directory and not yet the row. -/
def Opens (extId : String) : ExtPhase → Prop
  | .placed _ manifest _ | .storing _ manifest _ _ => manifest.id = extId
  | .deleting id => id = extId
  | .fetching .. | .refreshing _ | .installed _ | .failed | .uninstalling .. | .ended => False

/-- An install that is going to mount the extension. -/
def Mounts (extId : String) : ExtPhase → Prop
  | .placed _ manifest _ | .storing _ manifest _ _ => manifest.id = extId
  | .refreshing id => id = extId
  | .fetching .. | .installed _ | .failed | .uninstalling .. | .deleting _ | .ended => False

/-- An install that has put its bundle into place. -/
def Committed : ExtPhase → Prop
  | .placed .. | .storing .. | .refreshing _ | .installed _ => True
  | .fetching .. | .failed | .uninstalling .. | .deleting _ | .ended => False

/-- An uninstall. -/
def Uninstalls : ExtPhase → Prop
  | .uninstalling .. | .deleting _ | .ended => True
  | .fetching .. | .placed .. | .storing .. | .refreshing _ | .installed _ | .failed => False

end ExtPhase

/-- The directory goes away. -/
def DiskTurn.Removes (s : Stores) (extId : String) : DiskTurn → Prop
  | .fine | .renameFails => True
  | .sticks _ => s.dirs extId = none

/-- The directory goes away and the new one takes its place. -/
def DiskTurn.Replaces (s : Stores) (extId : String) : DiskTurn → Prop
  | .fine => True
  | .sticks _ => s.dirs extId = none
  | .renameFails => False

/-- A staging directory is removed again. -/
def DiskTurn.Cleans : DiskTurn → Prop
  | .fine | .renameFails => True
  | .sticks _ => False

namespace Registry

variable (rt : Runtime) (s : Registry)

/-- No request is on its way. -/
def Quiet : Prop := ∀ n extId, ¬(s.phase n).Opens extId ∧ ¬(s.phase n).Mounts extId

/-- A bundle that is refused leaves no staging directory, and one that is not is put into place. -/
def Placeable (t : ExtTurn) (archive : Archive) : Prop :=
  match unpackZip rt (rt.extensionsDir ++ [t.stagingName]) archive with
  | .error fault => fault.cleans = true ∧ t.disk.Cleans
  | .ok (_, raw) =>
    match validateManifest rt raw with
    | .error _ => t.disk.Cleans
    | .ok manifest => t.disk.Replaces s.toStores manifest.id

/-- Nothing fails once the directory was touched, and a commit finds the directory as its request left
it, and the row as it was loaded. -/
def Orderly (t : ExtTurn) : Prop :=
  match s.phase t.request with
  | .fetching userId _ => adminRequired rt userId = .ok () →
    ∀ archive ∈ t.fetched, s.Placeable rt t archive
  | .placed .. => t.fails = false
  | .storing _ manifest tree existing =>
    t.fails = false ∧ s.dirs manifest.id = some tree ∧ s.rows manifest.id = existing
  | .refreshing extId => t.fails = false ∧ s.rows extId ≠ none
  | .uninstalling userId extId => adminRequired rt userId = .ok () →
    isValidExtensionId rt extId = true → s.rows extId ≠ none → t.disk.Removes s.toStores extId
  | .deleting extId => t.fails = false ∧ s.dirs extId = none
  | .installed _ | .failed | .ended => True

end Registry

/-! ## What an orderly step does -/

namespace Stores

variable {s : Stores} {extId : String} {tree : Tree} {disk : DiskTurn}

theorem cleanStaging_eq (cleans : disk.Cleans) (name : String) : s.cleanStaging name disk = s := by
  cases disk with
  | fine | renameFails => rfl
  | sticks left => exact cleans.elim

theorem replace_eq (replaces : disk.Replaces s extId) (name : String) :
    s.replace name extId tree disk = .ok (s.setDir extId (some tree)) := by
  cases disk with
  | fine => rfl
  | sticks left => exact if_pos replaces
  | renameFails => exact replaces.elim

theorem removeDir_eq (removes : disk.Removes s extId) : s.removeDir extId disk = s.setDir extId none := by
  cases disk with
  | fine | renameFails => rfl
  | sticks left =>
    have gone : s.dirs extId = none := removes
    rw [removeDir, if_pos gone, setDir, ← gone, Function.update_eq_self]

end Stores

/-- An id without separators and dots names a directory of its own. -/
theorem isExtensionDirectorySafe_of_valid {rt : Runtime} {extId : String}
    (valid : isValidExtensionId rt extId = true) (base : List String) :
    isExtensionDirectorySafe (LexicalPath.follow base [extId]) base = true := by
  have names : ".." ∉ [extId] := by
    rw [List.mem_singleton]
    rintro rfl
    simp [isValidExtensionId] at valid
  rw [LexicalPath.follow_of_names names, isExtensionDirectorySafe, decide_eq_true_eq]
  exact List.prefix_append base [extId]

namespace Registry

variable {rt : Runtime} {s : Registry} {t : ExtTurn} {n : Nat} {extId : String}

/-- What an orderly step can do. -/
inductive Steps (rt : Runtime) (s : Registry) (t : ExtTurn) : Registry → Prop where
  | stays (done : ∀ extId, ¬(s.phase t.request).Opens extId ∧ ¬(s.phase t.request).Mounts extId) :
      Steps rt s t s
  | refuses (userId remoteUrl : String) (here : s.phase t.request = .fetching userId remoteUrl) :
      Steps rt s t (s.moved s.toStores t.request .failed)
  | ends (userId extId : String) (here : s.phase t.request = .uninstalling userId extId) :
      Steps rt s t (s.moved s.toStores t.request .ended)
  | places (userId remoteUrl : String) (tree : Tree) (raw : Json) (manifest : Manifest)
      (here : s.phase t.request = .fetching userId remoteUrl)
      (read : readManifest rt tree = .ok raw) (valid : validateManifest rt raw = .ok manifest) :
      Steps rt s t (s.moved (s.setDir manifest.id (some tree)) t.request
        (.placed remoteUrl manifest tree))
  | loads (remoteUrl : String) (manifest : Manifest) (tree : Tree)
      (here : s.phase t.request = .placed remoteUrl manifest tree) :
      Steps rt s t (s.moved s.toStores t.request
        (.storing remoteUrl manifest tree (s.rows manifest.id)))
  | stores (remoteUrl : String) (manifest : Manifest) (tree : Tree) (existing : Option ExtensionRow)
      (row : ExtensionRow) (here : s.phase t.request = .storing remoteUrl manifest tree existing)
      (dir : s.dirs manifest.id = some tree) (written : row.manifest = some (.obj manifest.members)) :
      Steps rt s t (s.moved (s.setRow manifest.id (some row)) t.request (.refreshing manifest.id))
  | mounts (extId : String) (here : s.phase t.request = .refreshing extId) :
      Steps rt s t (s.moved (s.registerMount extId) t.request (.installed extId))
  | removes (userId extId : String) (here : s.phase t.request = .uninstalling userId extId) :
      Steps rt s t (s.moved ((s.setDir extId none).unregisterMount extId) t.request (.deleting extId))
  | deletes (extId : String) (here : s.phase t.request = .deleting extId) (dir : s.dirs extId = none) :
      Steps rt s t (s.moved (s.setRow extId none) t.request .ended)

theorem place_steps {userId remoteUrl : String} {archive : Archive}
    (here : s.phase t.request = .fetching userId remoteUrl) (placeable : s.Placeable rt t archive) :
    Steps rt s t (s.place rt t remoteUrl archive) := by
  unfold Placeable at placeable
  unfold place
  cases unpacked : unpackZip rt (rt.extensionsDir ++ [t.stagingName]) archive with
  | error fault =>
    simp only [unpacked] at placeable
    simp only [placeable.1, if_true, Stores.cleanStaging_eq placeable.2]
    exact .refuses userId remoteUrl here
  | ok found =>
    obtain ⟨tree, raw⟩ := found
    simp only [unpacked] at placeable
    dsimp only
    cases valid : validateManifest rt raw with
    | error e =>
      simp only [valid] at placeable
      simp only [Stores.cleanStaging_eq placeable]
      exact .refuses userId remoteUrl here
    | ok manifest =>
      simp only [valid] at placeable
      obtain ⟨members, -, sound, -⟩ := validateManifest_ok valid
      simp only [isExtensionDirectorySafe_of_valid sound, Bool.true_eq_false, if_false,
        Stores.replace_eq placeable]
      exact .places userId remoteUrl tree raw manifest here (readManifest_of_unpackZip unpacked) valid

theorem remove_steps {userId : String} (here : s.phase t.request = .uninstalling userId extId)
    (removes : isValidExtensionId rt extId = true → s.rows extId ≠ none →
      t.disk.Removes s.toStores extId) : Steps rt s t (s.remove rt t extId) := by
  unfold remove
  split
  · exact .ends userId extId here
  · rename_i goes
    rw [not_or, not_or, Bool.not_eq_false] at goes
    rw [Stores.removeDir_eq (removes goes.1 goes.2.2)]
    exact .removes userId extId here

/-- A commit that finds the row as it was loaded writes the row of the manifest. -/
theorem storedRow_self (existing : Option ExtensionRow) (new : ExtensionRow) :
    ∃ row, storedRow existing existing new = some row ∧ row.manifest = new.manifest := by
  cases existing with
  | none => exact ⟨new, rfl, rfl⟩
  | some loaded =>
    refine ⟨_, rfl, ?_⟩
    show (if new.manifest = loaded.manifest then loaded.manifest else new.manifest) = new.manifest
    split
    · rename_i same
      exact same.symm
    · rfl

theorem step_steps (orderly : s.Orderly rt t) : Steps rt s t (s.step rt t) := by
  unfold Orderly at orderly
  unfold step
  cases here : s.phase t.request with
  | fetching userId remoteUrl =>
    simp only [here] at orderly
    dsimp only
    cases admin : adminRequired rt userId with
    | error e => exact .refuses userId remoteUrl here
    | ok =>
      dsimp only
      cases fetched : t.fetched with
      | none => exact .refuses userId remoteUrl here
      | some archive => exact place_steps here (orderly admin archive fetched)
  | placed remoteUrl manifest tree =>
    simp only [here] at orderly
    simp only [orderly, Bool.false_eq_true, if_false]
    exact .loads remoteUrl manifest tree here
  | storing remoteUrl manifest tree existing =>
    simp only [here] at orderly
    obtain ⟨works, dir, rfl⟩ := orderly
    obtain ⟨row, stored, same⟩ := storedRow_self (s.rows manifest.id) (manifest.row remoteUrl)
    simp only [stored, works, Bool.false_eq_true, if_false]
    exact .stores remoteUrl manifest tree _ row here dir same
  | refreshing extId =>
    simp only [here] at orderly
    simp only [orderly.1, orderly.2, Bool.false_eq_true, or_self, if_false]
    exact .mounts extId here
  | uninstalling userId extId =>
    simp only [here] at orderly
    dsimp only
    cases admin : adminRequired rt userId with
    | error e => exact .ends userId extId here
    | ok => exact remove_steps here (orderly admin)
  | deleting extId =>
    simp only [here] at orderly
    simp only [orderly.1, Bool.false_eq_true, if_false]
    exact .deletes extId here orderly.2
  | installed | failed | ended =>
    refine .stays fun extId => ?_
    rw [here]
    exact ⟨id, id⟩

/-! ## The three agree -/

/-- The tree of an install is the one its manifest was read from. -/
def Backed (rt : Runtime) : ExtPhase → Prop
  | .placed _ manifest tree | .storing _ manifest tree _ =>
    ∃ raw, readManifest rt tree = .ok raw ∧ validateManifest rt raw = .ok manifest
  | .fetching .. | .refreshing _ | .installed _ | .failed | .uninstalling .. | .deleting _ | .ended =>
    True

/-- Where row and directory disagree a request is about to write the row, and where a directory is not
mounted an install is about to mount it. -/
structure Sound (rt : Runtime) (s : Registry) : Prop where
  agrees : ∀ extId, s.Agrees rt extId ∨ ∃ n, (s.phase n).Opens extId
  backed : ∀ n, Backed rt (s.phase n)
  mounted : ∀ extId ∈ s.mounted, s.dirs extId ≠ none
  mounting : ∀ extId, s.dirs extId ≠ none → extId ∈ s.mounted ∨ ∃ n, (s.phase n).Mounts extId
  clean : s.staging = []

variable {stores : Stores} {phase : ExtPhase}

theorem moved_self : (s.moved stores n phase).phase n = phase := Function.update_self ..

theorem moved_of_ne {m : Nat} (other : m ≠ n) : (s.moved stores n phase).phase m = s.phase m :=
  Function.update_of_ne other ..

/-- A request that is there stays, unless it is the one that moves. -/
theorem exists_moved {P : ExtPhase → Prop} (there : ∃ m, P (s.phase m))
    (keeps : P (s.phase n) → P phase) : ∃ m, P ((s.moved stores n phase).phase m) := by
  obtain ⟨m, holds⟩ := there
  refine ⟨m, ?_⟩
  by_cases same : m = n
  · rw [same] at holds
    rw [same, moved_self]
    exact keeps holds
  · rwa [moved_of_ne same]

theorem backed_moved (h : s.Sound rt) (new : Backed rt phase) (m : Nat) :
    Backed rt ((s.moved stores n phase).phase m) := by
  by_cases same : m = n
  · rw [same, moved_self]
    exact new
  · rw [moved_of_ne same]
    exact h.backed m

/-- A request that only moves on, with the same in view. -/
theorem sound_moved (h : s.Sound rt) (opens : ∀ extId, (s.phase n).Opens extId → phase.Opens extId)
    (mounts : ∀ extId, (s.phase n).Mounts extId → phase.Mounts extId) (new : Backed rt phase) :
    (s.moved s.toStores n phase).Sound rt where
  agrees extId := (h.agrees extId).imp_right fun there => exists_moved there (opens extId)
  backed := backed_moved h new
  mounted := h.mounted
  mounting extId dir := (h.mounting extId dir).imp_right fun there => exists_moved there (mounts extId)
  clean := h.clean

section

variable {id : String}

theorem agrees_setDir {tree : Option Tree} (other : id ≠ extId) (h : s.Agrees rt id) :
    (s.setDir extId tree).Agrees rt id := by
  have dir : (s.setDir extId tree).dirs id = s.dirs id := Function.update_of_ne other ..
  rw [Stores.Agrees, dir]
  exact h

theorem agrees_setRow {row : Option ExtensionRow} (other : id ≠ extId) (h : s.Agrees rt id) :
    (s.setRow extId row).Agrees rt id := by
  have same : (s.setRow extId row).rows id = s.rows id := Function.update_of_ne other ..
  rw [Stores.Agrees, same]
  exact h

theorem agrees_registerMount (h : s.Agrees rt id) : (s.registerMount extId).Agrees rt id := by
  unfold Stores.registerMount
  split <;> exact h

end

theorem sound_places (h : s.Sound rt) {userId remoteUrl : String} {tree : Tree} {raw : Json}
    {manifest : Manifest} (here : s.phase n = .fetching userId remoteUrl)
    (read : readManifest rt tree = .ok raw) (valid : validateManifest rt raw = .ok manifest) :
    (s.moved (s.setDir manifest.id (some tree)) n (.placed remoteUrl manifest tree)).Sound rt where
  agrees extId := by
    by_cases own : extId = manifest.id
    · exact .inr ⟨n, by rw [moved_self]; exact own.symm⟩
    · refine (h.agrees extId).imp (agrees_setDir own) fun there => exists_moved there fun opens => ?_
      rw [here] at opens
      exact opens.elim
  backed := backed_moved h ⟨raw, read, valid⟩
  mounted extId mem := by
    show Function.update s.dirs manifest.id (some tree) extId ≠ none
    by_cases own : extId = manifest.id
    · rw [own, Function.update_self]
      exact Option.some_ne_none tree
    · rw [Function.update_of_ne own]
      exact h.mounted extId mem
  mounting extId dir := by
    by_cases own : extId = manifest.id
    · exact .inr ⟨n, by rw [moved_self]; exact own.symm⟩
    · replace dir : Function.update s.dirs manifest.id (some tree) extId ≠ none := dir
      rw [Function.update_of_ne own] at dir
      refine (h.mounting extId dir).imp_right fun there => exists_moved there fun mounts => ?_
      rw [here] at mounts
      exact mounts.elim
  clean := h.clean

/-- A commit brings the row and the directory of its extension into agreement. -/
theorem sound_setRow (h : s.Sound rt) {row : Option ExtensionRow} (extId : String)
    (own : ∀ id, (s.phase n).Opens id → id = extId) (agree : (s.setRow extId row).Agrees rt extId)
    (mounts : ∀ id, (s.phase n).Mounts id → phase.Mounts id) (new : Backed rt phase) :
    (s.moved (s.setRow extId row) n phase).Sound rt where
  agrees id := by
    by_cases same : id = extId
    · rw [same]
      exact .inl agree
    · refine (h.agrees id).imp (agrees_setRow same) fun there => exists_moved there fun opens => ?_
      exact absurd (own id opens) same
  backed := backed_moved h new
  mounted := h.mounted
  mounting id dir := (h.mounting id dir).imp_right fun there => exists_moved there (mounts id)
  clean := h.clean

theorem sound_mounts (h : s.Sound rt) (here : s.phase n = .refreshing extId) :
    (s.moved (s.registerMount extId) n (.installed extId)).Sound rt := by
  have dirs : (s.registerMount extId).dirs = s.dirs := by
    unfold Stores.registerMount
    split <;> rfl
  have clean : (s.registerMount extId).staging = s.staging := by
    unfold Stores.registerMount
    split <;> rfl
  have mem (id : String) : id ∈ (s.registerMount extId).mounted ↔
      id ∈ s.mounted ∨ id = extId ∧ s.dirs extId ≠ none := by
    unfold Stores.registerMount
    split
    · rename_i known
      refine ⟨.inl, ?_⟩
      rintro (mem | ⟨rfl, dir⟩)
      · exact mem
      · exact known.resolve_right dir
    · rename_i new
      rw [not_or] at new
      simp only [List.mem_append, List.mem_singleton, new.2, ne_eq, not_false_eq_true, and_true]
  refine ⟨fun id => ?_, backed_moved h trivial, fun id mounted => ?_, fun id dir => ?_,
    clean.trans h.clean⟩
  · refine (h.agrees id).imp agrees_registerMount fun there => exists_moved there fun opens => ?_
    rw [here] at opens
    exact opens.elim
  · show (s.registerMount extId).dirs id ≠ none
    rw [dirs]
    rcases (mem id).mp mounted with mounted | ⟨rfl, dir⟩
    · exact h.mounted id mounted
    · exact dir
  · replace dir : (s.registerMount extId).dirs id ≠ none := dir
    rw [dirs] at dir
    show id ∈ (s.registerMount extId).mounted ∨ _
    rw [mem]
    by_cases own : id = extId
    · exact .inl (.inr ⟨own, own ▸ dir⟩)
    · refine (h.mounting id dir).imp .inl fun there => exists_moved there fun mounts => ?_
      rw [here] at mounts
      exact absurd mounts.symm own

theorem sound_removes (h : s.Sound rt) {userId : String}
    (here : s.phase n = .uninstalling userId extId) :
    (s.moved ((s.setDir extId none).unregisterMount extId) n (.deleting extId)).Sound rt where
  agrees id := by
    by_cases own : id = extId
    · exact .inr ⟨n, by rw [moved_self]; exact own.symm⟩
    · refine (h.agrees id).imp (agrees_setDir own) fun there => exists_moved there fun opens => ?_
      rw [here] at opens
      exact opens.elim
  backed := backed_moved h trivial
  mounted id mem := by
    obtain ⟨mounted, other⟩ := List.mem_filter.mp mem
    show Function.update s.dirs extId none id ≠ none
    rw [Function.update_of_ne (of_decide_eq_true other)]
    exact h.mounted id mounted
  mounting id dir := by
    replace dir : Function.update s.dirs extId none id ≠ none := dir
    have other : id ≠ extId := by
      rintro rfl
      exact dir (Function.update_self ..)
    rw [Function.update_of_ne other] at dir
    refine (h.mounting id dir).imp (fun mounted => ?_) fun there => exists_moved there fun mounts => ?_
    · exact List.mem_filter.mpr ⟨mounted, decide_eq_true other⟩
    · rw [here] at mounts
      exact mounts.elim
  clean := h.clean

/-- An orderly step keeps the invariant. -/
theorem sound_step (h : s.Sound rt) (orderly : s.Orderly rt t) : (s.step rt t).Sound rt := by
  have steps := step_steps orderly
  generalize s.step rt t = s' at steps
  cases steps with
  | stays => exact h
  | refuses userId remoteUrl here =>
    exact sound_moved h (by rw [here]; exact fun _ => id) (by rw [here]; exact fun _ => id) trivial
  | ends userId extId here =>
    exact sound_moved h (by rw [here]; exact fun _ => id) (by rw [here]; exact fun _ => id) trivial
  | places userId remoteUrl tree raw manifest here read valid => exact sound_places h here read valid
  | loads remoteUrl manifest tree here =>
    have backed := h.backed t.request
    rw [here] at backed
    exact sound_moved h (by rw [here]; exact fun _ => id) (by rw [here]; exact fun _ => id) backed
  | stores remoteUrl manifest tree existing row here dir written =>
    have backed := h.backed t.request
    rw [here] at backed
    obtain ⟨raw, read, valid⟩ := backed
    refine sound_setRow h manifest.id (by rw [here]; exact fun _ => Eq.symm) ?_
      (by rw [here]; exact fun _ => id) trivial
    have stored : (s.setRow manifest.id (some row)).rows manifest.id = some row :=
      Function.update_self ..
    rw [Stores.Agrees, stored, show (s.setRow manifest.id (some row)).dirs manifest.id = _ from dir]
    exact ⟨raw, manifest, read, valid, rfl, written⟩
  | mounts extId here => exact sound_mounts h here
  | removes userId extId here => exact sound_removes h here
  | deletes extId here dir =>
    refine sound_setRow h extId (by rw [here]; exact fun _ => Eq.symm) ?_
      (by rw [here]; exact fun _ => id) trivial
    have gone : (s.setRow extId none).rows extId = none := Function.update_self ..
    rw [Stores.Agrees, gone, show (s.setRow extId none).dirs extId = _ from dir]
    trivial

/-- Whenever no request is on its way, the three agree. -/
theorem Sound.consistent (h : s.Sound rt) (quiet : s.Quiet) : s.Consistent rt := by
  intro extId
  refine ⟨(h.agrees extId).resolve_right ?_, h.mounted extId, fun dir => ?_⟩
  · rintro ⟨n, opens⟩
    exact (quiet n extId).1 opens
  · refine (h.mounting extId dir).resolve_right ?_
    rintro ⟨n, mounts⟩
    exact (quiet n extId).2 mounts

theorem sound_opened (requests : Nat → ExtRequest) (start : stores.Consistent rt)
    (clean : stores.staging = []) : (opened stores requests).Sound rt where
  agrees extId := .inl (start extId).1
  backed n := by
    show Backed rt (requests n).begins
    cases requests n <;> trivial
  mounted extId mem := (start extId).2.mp mem
  mounting extId dir := .inl ((start extId).2.mpr dir)
  clean := clean

/-! ## An install that fails has changed nothing -/

/-- An install that has put its bundle into place does not fail, and an uninstall is no install. -/
theorem stays_committed (orderly : s.Orderly rt t) :
    ((s.phase n).Committed → ((s.step rt t).phase n).Committed) ∧
      ((s.phase n).Uninstalls → ((s.step rt t).phase n).Uninstalls) := by
  have steps := step_steps orderly
  generalize s.step rt t = s' at steps
  by_cases own : n = t.request
  · subst own
    cases steps with
    | stays => exact ⟨id, id⟩
    | refuses userId remoteUrl here => rw [here, moved_self]; exact ⟨False.elim, False.elim⟩
    | ends userId extId here => rw [here, moved_self]; exact ⟨False.elim, id⟩
    | places userId remoteUrl tree raw manifest here => rw [here, moved_self]; exact ⟨False.elim, id⟩
    | loads remoteUrl manifest tree here => rw [here, moved_self]; exact ⟨id, id⟩
    | stores remoteUrl manifest tree existing row here => rw [here, moved_self]; exact ⟨id, id⟩
    | mounts extId here => rw [here, moved_self]; exact ⟨id, id⟩
    | removes userId extId here => rw [here, moved_self]; exact ⟨False.elim, id⟩
    | deletes extId here => rw [here, moved_self]; exact ⟨False.elim, id⟩
  · cases steps with
    | stays => exact ⟨id, id⟩
    | refuses | ends | places | loads | stores | mounts | removes | deletes =>
      rw [moved_of_ne own]
      exact ⟨id, id⟩

/-- A step that changes the stores is one of an uninstall, or of an install that will not fail. -/
theorem step_untouched (orderly : s.Orderly rt t) :
    (s.step rt t).toStores = s.toStores ∨ ((s.step rt t).phase t.request).Committed ∨
      ((s.step rt t).phase t.request).Uninstalls := by
  have steps := step_steps orderly
  generalize s.step rt t = s' at steps
  cases steps with
  | stays | refuses | ends | loads => exact .inl rfl
  | places | stores | mounts => exact .inr (.inl (by rw [moved_self]; trivial))
  | removes | deletes => exact .inr (.inr (by rw [moved_self]; trivial))

/-- In an orderly run the rows, the directories and the mounts agree whenever no request is on its way,
each row describes its directory, no staging directory is left behind, and no step of an install that
fails changes any of them. -/
theorem registry_of_orderly (rt : Runtime) (stores : Stores) (requests : Nat → ExtRequest)
    (start : stores.Consistent rt) (clean : stores.staging = []) (ts : List ExtTurn)
    (orderly : Along (step rt) (Orderly rt) (opened stores requests) ts) :
    (run (step rt) (opened stores requests) ts).staging = [] ∧
    ((run (step rt) (opened stores requests) ts).Quiet →
      (run (step rt) (opened stores requests) ts).Consistent rt) ∧
    ∀ before t later, ts = before ++ t :: later →
      (run (step rt) (opened stores requests) ts).phase t.request = .failed →
        (run (step rt) (opened stores requests) (before ++ [t])).toStores =
          (run (step rt) (opened stores requests) before).toStores := by
  have sound : (run (step rt) (opened stores requests) ts).Sound rt :=
    invariant (Sound rt) (fun _ _ did h => sound_step h did) orderly
      (sound_opened requests start clean)
  refine ⟨sound.clean, sound.consistent, ?_⟩
  rintro before t later rfl failed
  obtain ⟨-, first, rest⟩ := along_append.mp orderly
  rw [run_append, run_cons] at failed
  rw [run_append, run_cons]
  refine (step_untouched first).resolve_right ?_
  rintro (committed | uninstalls)
  · have kept := invariant (fun s => (s.phase t.request).Committed)
      (fun _ _ did => (stays_committed did).1) rest committed
    rw [failed] at kept
    exact kept
  · have kept := invariant (fun s => (s.phase t.request).Uninstalls)
      (fun _ _ did => (stays_committed did).2) rest uninstalls
    rw [failed] at kept
    exact kept

/-- A manifest that asks for nothing, and one that asks for the outside. -/
def demoRuntime : Runtime where
  loads text := .ok <| .obj [("id", .str "com.demo"), ("version", .str text),
    ("entry", .str "index.html"),
    ("permissions", .arr (if text = "2" then [.str "fetch:external"] else []))]
  adminUserIds := "@ana:h"

/-- A zip with the manifest in it. -/
def demoBundle (text : String) : Archive := some [⟨"manifest.json", .ok text⟩]

theorem registry_one_install :
    (run (step demoRuntime) (opened {} fun _ => .install "@ana:h" "https://h/demo.zip")
      [{ request := 0, fetched := some (demoBundle "1") }, { request := 0 }, { request := 0 },
        { request := 0 }]).staging = [] := by
  refine (registry_of_orderly demoRuntime {} _ (fun extId => ⟨trivial, ?_⟩) rfl _ ?_).1
  · exact iff_of_false List.not_mem_nil (not_not_intro rfl)
  · refine ⟨fun _ archive same => ?_, rfl, ⟨rfl, by decide, by decide⟩, ⟨rfl, by decide⟩, trivial⟩
    cases same
    trivial

/-- Two installs of one extension cross: the row that is left asks for nothing, and the bundle in the
directory is the one that asks for the outside. -/
theorem crossed_installs : ∃ (rt : Runtime) (stores : Stores) (requests : Nat → ExtRequest)
    (ts : List ExtTurn), stores.Consistent rt ∧ stores.staging = [] ∧
      (run (step rt) (opened stores requests) ts).Quiet ∧
      ¬(run (step rt) (opened stores requests) ts).Consistent rt := by
  refine ⟨demoRuntime, {}, fun _ => .install "@ana:h" "https://h/demo.zip",
    [{ request := 0, fetched := some (demoBundle "1") },
      { request := 1, fetched := some (demoBundle "2") },
      { request := 1 }, { request := 1 }, { request := 1 },
      { request := 0 }, { request := 0 }, { request := 0 }], fun extId => ⟨trivial, ?_⟩, rfl, ?_, ?_⟩
  · exact iff_of_false List.not_mem_nil (not_not_intro rfl)
  · intro n extId
    rcases n with _ | _ | n <;> exact ⟨id, id⟩
  · intro consistent
    obtain ⟨raw, manifest, read, valid, -, same⟩ := (consistent "com.demo").1
    cases read
    cases valid
    exact absurd same (by decide)

end Registry

end Concorrd.Api
