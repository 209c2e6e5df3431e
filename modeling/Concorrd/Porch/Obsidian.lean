import Concorrd.Porch.Channels

/-!
# Vault bindings

Binding a channel to a vault directory. The file system is a parameter: what
canonicalising a path answers and whether a path is a directory. Paths are lists of
segments, so that a prefix test compares whole segments as the source's path type does.
-/

namespace Concorrd

/-- A path as its segments. -/
structure VaultPath where
  absolute : Bool
  segments : List String
  deriving DecidableEq, Repr

namespace VaultPath

/-- A path joined to a root; an absolute one replaces the root. -/
def join (root sub : VaultPath) : VaultPath :=
  if sub.absolute then sub else { root with segments := root.segments ++ sub.segments }

/-- The path lies at or below the root, segment by segment. -/
def startsWith (path root : VaultPath) : Bool :=
  path.absolute = root.absolute && root.segments.isPrefixOf path.segments

/-- What is left of a path below its root. -/
def stripPrefix (path root : VaultPath) : VaultPath :=
  ⟨false, path.segments.drop root.segments.length⟩

/-- The path as text. -/
def display (path : VaultPath) : String :=
  (if path.absolute then "/" else "") ++ "/".intercalate path.segments

end VaultPath

/-- What the file system answers to the two questions the binding asks. -/
structure VaultFiles where
  canonicalize : VaultPath → Except String VaultPath
  isDir : VaultPath → Bool

/-- Binding of a channel to a vault. -/
structure ObsidianChannelConfig where
  channelId : String
  vaultRoot : VaultPath
  subfolder : Option VaultPath
  followSymlinks : Bool
  deriving DecidableEq, Repr

/-- The canonical root, when it exists and is a directory. -/
def canonicalRoot (files : VaultFiles) (vaultRoot : VaultPath) : Except PorchError VaultPath :=
  match files.canonicalize vaultRoot with
  | .error e =>
    .error (.invalidInput ("vault_root " ++ vaultRoot.display ++
      " does not exist or is not accessible: " ++ e))
  | .ok root =>
    if files.isDir root then .ok root
    else .error (.invalidInput ("vault_root " ++ root.display ++ " is not a directory"))

/-- The subfolder relative to the canonical root, when it lies inside it. -/
def canonicalSubfolder (files : VaultFiles) (root : VaultPath) :
    Option VaultPath → Except PorchError (Option VaultPath)
  | none => .ok none
  | some sub =>
    if sub.absolute = false ∧ sub.segments = [] then .ok none
    else
      match files.canonicalize (root.join sub) with
      | .error e =>
        .error (.invalidInput ("subfolder " ++ sub.display ++
          " does not exist or is not accessible: " ++ e))
      | .ok canonSub =>
        if canonSub.startsWith root = false then
          .error (.invalidInput ("subfolder " ++ sub.display ++ " escapes vault_root"))
        else if files.isDir canonSub = false then
          .error (.invalidInput ("subfolder " ++ sub.display ++ " is not a directory"))
        else if (canonSub.stripPrefix root).segments = [] then .ok none
        else .ok (some (canonSub.stripPrefix root))

namespace Porch

/-- `ON CONFLICT(channel_id) DO UPDATE SET …` of a binding. -/
def obsidianConflict (new old : ObsidianChannelRow) : ObsidianChannelRow :=
  { old with
    cols := { old.cols with
      vaultRoot := new.cols.vaultRoot
      subfolder := new.cols.subfolder
      followSymlinks := new.cols.followSymlinks
      updatedAt := new.cols.updatedAt }
    syncDeviceId := new.syncDeviceId
    syncLamport := new.syncLamport
    syncTombstone := 0 }

/-- Bind a channel to a vault. -/
def setObsidianConfig (p : Porch) (files : VaultFiles) (channelId : String)
    (vaultRoot : VaultPath) (subfolder : Option VaultPath) (followSymlinks : Bool)
    (now : Int64) : Except PorchError (Outcome ObsidianChannelConfig) :=
  if (p.getChannel channelId).isNone then
    .error (.channelNotFound channelId)
  else
    match canonicalRoot files vaultRoot with
    | .error e => .error e
    | .ok root =>
      match canonicalSubfolder files root subfolder with
      | .error e => .error e
      | .ok sub =>
        let row := p.stampRow .obsidianChannels p.nextLamport
          ⟨channelId, root.display, sub.map VaultPath.display, if followSymlinks then 1 else 0,
            now⟩
        p.finish [⟨.obsidianChannels, row⟩] ⟨channelId, root, sub, followSymlinks⟩
          (p.db.upsert .obsidianChannels row (obsidianConflict row) fun _ => rfl)

variable {p : Porch} {now : Int64}

/-- On a conflict the binding leaves the row it would have inserted. -/
theorem obsidianConflict_eq {new old : ObsidianChannelRow} (hk : old.key = new.key)
    (alive : new.syncTombstone = 0) : obsidianConflict new old = new := by
  obtain ⟨cols, device, lamport, tombstone⟩ := new
  obtain ⟨cols', device', lamport', tombstone'⟩ := old
  cases cols
  cases cols'
  cases hk
  cases alive
  rfl

theorem localWrite_setObsidianConfig {files : VaultFiles} {channelId : String}
    {vaultRoot : VaultPath} {subfolder : Option VaultPath} {followSymlinks : Bool}
    {out : Outcome ObsidianChannelConfig}
    (h : p.setObsidianConfig files channelId vaultRoot subfolder followSymlinks now = .ok out) :
    LocalWrite p out [⟨.obsidianChannels, channelId⟩] [p.nextLamport] := by
  unfold setObsidianConfig at h
  split at h
  · cases h
  split at h
  · cases h
  split at h
  · cases h
  obtain ⟨db, hdb, rfl⟩ := finish_eq_ok h
  exact .of_one (Database.puts_of_upsert (fun _ hk => obsidianConflict_eq hk rfl) hdb) rfl rfl rfl

end Porch

end Concorrd
