import Concorrd.Porch.VaultNames

/-!
# A vault on a tree of files

What a file system of files, directories and links answers when a vault is bound, listed and read. A
request that is answered has a path that follows every link on its way (`resolveVaultPath_eq_ok_iff`).
-/

namespace Concorrd

/-- How deep links may lead through links. -/
def maxLinkDepth : Nat := 40

/-- A file with its bytes and its time, a directory with its time, or a link. -/
abbrev VaultNode := FileTree.Node (List UInt8 × Option Int64) (Option Int64)

/-- A file system: its tree, with the bytes and the time of every file and the time of every directory,
the directory that paths are relative to, and the lower case of a text. -/
structure VaultTree where
  tree : FileTree (List UInt8 × Option Int64) (Option Int64)
  workingDir : List String
  isDirectory : tree.IsDirectory workingDir
  toLowercase : String → String

namespace VaultTree

variable (fs : VaultTree)

/-- Where the segments of a path start. -/
def start (path : VaultPath) : List String := if path.absolute then [] else fs.workingDir

/-- The path without links. -/
def canonicalize (path : VaultPath) : Except String VaultPath :=
  if path.absolute = false ∧ path.segments = [] then .error "No such file or directory"
  else (fs.tree.walk maxLinkDepth (fs.start path) path.segments).map fun segs => ⟨true, segs⟩

/-- The file or directory that a path leads to. -/
def stat (path : VaultPath) : Except String VaultNode := do
  let real ← fs.canonicalize path
  (fs.tree.node real.segments).elim (.error "No such file or directory") .ok

def metadata (path : VaultPath) : Except String FileMeta := do
  match ← fs.stat path with
  | .file (bytes, modifiedAt) =>
    return { isDir := false, isFile := true, len := .ofNat bytes.length, modifiedAt := modifiedAt }
  | .directory modifiedAt =>
    return { isDir := true, isFile := false, len := 4096, modifiedAt := modifiedAt }
  | .link _ => .error "No such file or directory"

def read (path : VaultPath) : Except String (List UInt8) := do
  match ← fs.stat path with
  | .file (bytes, _) => return bytes
  | .directory _ => .error "Is a directory"
  | .link _ => .error "No such file or directory"

def readDir (path : VaultPath) : Except String (List (Except String (Option String))) := do
  let real ← fs.canonicalize path
  match ← fs.stat real with
  | .directory _ => return (fs.tree.children real.segments).map fun name => .ok (some name)
  | .file _ | .link _ => .error "Not a directory"

/-- Whether a path leads to a link, if it leads anywhere: the link is not followed. -/
def isSymlink (path : VaultPath) : Option Bool :=
  if path.absolute = false ∧ path.segments = [] then none
  else fs.tree.linkStatus maxLinkDepth (fs.start path) path.segments

/-- What the file system answers. -/
def disk : VaultDisk where
  canonicalize := fs.canonicalize
  isDir path := ((fs.stat path).toOption.map FileTree.Node.isDirectory).getD false
  readDir := fs.readDir
  isSymlink := fs.isSymlink
  metadata := fs.metadata
  read := fs.read
  toLowercase := fs.toLowercase

/-- The configuration is one that binding a channel on this file system has answered. -/
def Accepts (cfg : ObsidianChannelConfig) : Prop :=
  ∃ (p : Porch) (vaultRoot : VaultPath) (subfolder : Option VaultPath) (now : Int64)
    (out : Outcome ObsidianChannelConfig),
    p.setObsidianConfig fs.disk.toVaultFiles cfg.channelId vaultRoot subfolder cfg.followSymlinks now =
      .ok out ∧ out.answer = cfg

/-- A path that is its own canonical form: from the top, to a file or a directory, with no link on it. -/
structure IsCanonical (path : VaultPath) : Prop where
  absolute : path.absolute = true
  real : fs.tree.Real path.segments

variable {fs} {path root : VaultPath} {segs : List String}

/-! ## Canonical paths -/

theorem real_start (path : VaultPath) : fs.tree.Real (fs.start path) := by
  unfold start
  split
  · exact FileTree.isDirectory_top.real
  · exact fs.isDirectory.real

theorem canonicalize_eq_ok_iff : fs.canonicalize path = .ok root ↔
    ¬(path.absolute = false ∧ path.segments = []) ∧
      fs.tree.walk maxLinkDepth (fs.start path) path.segments = .ok root.segments ∧
        root.absolute = true := by
  unfold canonicalize
  split
  · rename_i empty
    refine iff_of_false (fun h => ?_) fun h => h.1 empty
    cases h
  · rename_i some
    cases fs.tree.walk maxLinkDepth (fs.start path) path.segments with
    | error e =>
      refine iff_of_false (fun h => ?_) fun h => ?_
      · cases h
      · cases h.2.1
    | ok segs =>
      constructor
      · intro h
        cases h
        exact ⟨some, rfl, rfl⟩
      · rintro ⟨-, same, absolute⟩
        cases root
        cases same
        cases absolute
        rfl

/-- What a path leads to is canonical. -/
theorem isCanonical_of_canonicalize (h : fs.canonicalize path = .ok root) : fs.IsCanonical root := by
  obtain ⟨-, walked, absolute⟩ := canonicalize_eq_ok_iff.mp h
  exact ⟨absolute, FileTree.real_walk (real_start path) walked⟩

theorem IsCanonical.canonicalize (canonical : fs.IsCanonical path) :
    fs.canonicalize path = .ok path := by
  refine canonicalize_eq_ok_iff.mpr ⟨?_, ?_, canonical.absolute⟩
  · rw [canonical.absolute]
    exact fun h => by cases h.1
  · rw [start, canonical.absolute, if_pos rfl]
    have real : fs.tree.Real ([] ++ path.segments) := canonical.real
    exact FileTree.walk_real real

theorem stat_eq_ok_iff {n : VaultNode} : fs.stat path = .ok n ↔
    ∃ real, fs.canonicalize path = .ok real ∧ fs.tree.node real.segments = some n := by
  rw [stat, except_bind_eq_ok]
  refine exists_congr fun real => and_congr_right fun _ => ?_
  cases fs.tree.node real.segments with
  | none =>
    refine iff_of_false (fun h => ?_) fun h => ?_
    · cases h
    · cases h
  | some node => exact ⟨fun h => congrArg some (Except.ok.inj h), fun h => congrArg _ (Option.some.inj h)⟩

theorem isDir_iff : fs.disk.isDir path = true ↔
    ∃ real, fs.canonicalize path = .ok real ∧ fs.tree.IsDirectory real.segments := by
  have isDir : fs.disk.isDir path =
      ((fs.stat path).toOption.map FileTree.Node.isDirectory).getD false := rfl
  rw [isDir]
  constructor
  · intro h
    cases found : fs.stat path with
    | error e =>
      rw [found] at h
      cases h
    | ok n =>
      obtain ⟨real, canonical, there⟩ := stat_eq_ok_iff.mp found
      rw [found] at h
      refine ⟨real, canonical, ?_⟩
      rw [FileTree.IsDirectory, there]
      exact congrArg some h
  · rintro ⟨real, canonical, directory⟩
    obtain ⟨n, there, isDirectory⟩ := Option.map_eq_some_iff.mp directory
    rw [stat_eq_ok_iff.mpr ⟨real, canonical, there⟩]
    exact isDirectory

/-! ## Accepted configurations -/

/-- The roots of an accepted configuration are directories without links on their paths, one in the
other. -/
structure Rooted (fs : VaultTree) (cfg : ObsidianChannelConfig) : Prop where
  root : fs.IsCanonical cfg.vaultRoot
  effective : fs.IsCanonical cfg.effectiveRoot
  directory : fs.tree.IsDirectory cfg.effectiveRoot.segments
  inside : cfg.effectiveRoot.startsWith cfg.vaultRoot = true

theorem startsWith_iff : path.startsWith root = true ↔
    path.absolute = root.absolute ∧ root.segments <+: path.segments := by
  rw [VaultPath.startsWith, Bool.and_eq_true, decide_eq_true_eq, List.isPrefixOf_iff_prefix]

theorem join_stripPrefix (below : path.startsWith root = true) :
    root.join (path.stripPrefix root) = path := by
  obtain ⟨absolute, segs, same⟩ := startsWith_iff.mp below
  cases path
  cases root
  cases absolute
  simp only at same
  rw [← same]
  simp only [VaultPath.join, VaultPath.stripPrefix, Bool.false_eq_true, if_false, List.drop_left]

theorem canonicalRoot_eq_ok {files : VaultFiles} {vaultRoot : VaultPath}
    (h : canonicalRoot files vaultRoot = .ok root) :
    files.canonicalize vaultRoot = .ok root ∧ files.isDir root = true := by
  unfold canonicalRoot at h
  split at h
  · cases h
  · split at h
    · cases h
      exact ⟨by assumption, by assumption⟩
    · cases h

theorem canonicalSubfolder_eq_ok {files : VaultFiles} {subfolder sub : Option VaultPath}
    (h : canonicalSubfolder files root subfolder = .ok sub) :
    sub = none ∨ ∃ asked canonSub, files.canonicalize asked = .ok canonSub ∧
      canonSub.startsWith root = true ∧ files.isDir canonSub = true ∧
        (canonSub.stripPrefix root).segments ≠ [] ∧ sub = some (canonSub.stripPrefix root) := by
  unfold canonicalSubfolder at h
  split at h
  · cases h
    exact .inl rfl
  split at h
  · cases h
    exact .inl rfl
  split at h
  · cases h
  rename_i canonSub canonical
  split at h
  · cases h
  rename_i below
  split at h
  · cases h
  rename_i directory
  split at h
  · cases h
    exact .inl rfl
  · rename_i more
    cases h
    exact .inr ⟨_, canonSub, canonical, Bool.of_not_eq_false below, Bool.of_not_eq_false directory,
      more, rfl⟩

/-- What binding a channel answers, and the row it stores. -/
theorem answer_of_setObsidianConfig {p : Porch} {files : VaultFiles} {channelId : String}
    {vaultRoot : VaultPath} {subfolder : Option VaultPath} {followSymlinks : Bool} {now : Int64}
    {out : Outcome ObsidianChannelConfig}
    (h : p.setObsidianConfig files channelId vaultRoot subfolder followSymlinks now = .ok out) :
    ∃ root sub, canonicalRoot files vaultRoot = .ok root ∧
      canonicalSubfolder files root subfolder = .ok sub ∧
      out.answer = ⟨channelId, root, sub, followSymlinks⟩ ∧
      ∃ row : ObsidianChannelRow, row.cols = ⟨channelId, root.display, sub.map VaultPath.display,
          if followSymlinks then 1 else 0, now⟩ ∧
        p.tables.Puts ⟨.obsidianChannels, row⟩ out.porch.tables := by
  unfold Porch.setObsidianConfig at h
  split at h
  · cases h
  split at h
  · cases h
  rename_i root found
  split at h
  · cases h
  rename_i sub found'
  obtain ⟨db, hdb, rfl⟩ := Porch.finish_eq_ok h
  exact ⟨root, sub, found, found', rfl, _, rfl,
    Database.puts_of_upsert (fun _ hk => Porch.obsidianConflict_eq hk rfl) hdb⟩

theorem IsCanonical.names (canonical : fs.IsCanonical path) :
    ∀ seg ∈ path.segments, FileTree.IsName seg := by
  obtain ⟨n, there, -⟩ := Option.map_eq_some_iff.mp canonical.real
  exact fun seg => FileTree.isName_of_node there

/-- A bound channel reads its configuration back. -/
theorem getObsidianConfig_of_setObsidianConfig {p : Porch} {channelId : String}
    {vaultRoot : VaultPath} {subfolder : Option VaultPath} {followSymlinks : Bool} {now : Int64}
    {out : Outcome ObsidianChannelConfig} (h : p.setObsidianConfig fs.disk.toVaultFiles channelId
      vaultRoot subfolder followSymlinks now = .ok out) :
    out.porch.getObsidianConfig channelId = some out.answer := by
  obtain ⟨root, sub, found, found', answer, row, cols, puts⟩ := answer_of_setObsidianConfig h
  obtain ⟨canonical, -⟩ := canonicalRoot_eq_ok found
  have rootCanonical := isCanonical_of_canonicalize canonical
  have key : row.key = channelId := congrArg ObsidianChannelCols.channelId cols
  have stored : out.porch.db.find? .obsidianChannels channelId = some row := by
    rw [← key]
    exact puts.table.find?_self
  have readsRoot : VaultPath.ofString root.display = root := by
    cases root
    cases rootCanonical.absolute
    exact VaultPath.ofString_display rootCanonical.names
  have readsSub : sub.map (VaultPath.ofString ∘ VaultPath.display) = sub := by
    rcases canonicalSubfolder_eq_ok found' with rfl | ⟨asked, canonSub, canonical', -, -, more, rfl⟩
    · rfl
    · refine congrArg some (VaultPath.ofString_display_below more fun seg mem => ?_)
      exact (isCanonical_of_canonicalize canonical').names seg (List.mem_of_mem_drop mem)
  have follows : decide ((if followSymlinks then 1 else 0 : Int64) ≠ 0) = followSymlinks := by
    cases followSymlinks
    · rfl
    · rfl
  rw [Porch.getObsidianConfig, stored, answer, Option.map_some, ObsidianChannelCols.toConfig, cols]
  simp only [Option.map_map, readsRoot, readsSub, follows]

/-- An accepted configuration is rooted. -/
theorem Accepts.rooted {cfg : ObsidianChannelConfig} (accepted : fs.Accepts cfg) : fs.Rooted cfg := by
  obtain ⟨p, vaultRoot, subfolder, now, out, h, answer⟩ := accepted
  obtain ⟨root, sub, found, found', same, -⟩ := answer_of_setObsidianConfig h
  rw [same] at answer
  have hroot : root = cfg.vaultRoot := congrArg ObsidianChannelConfig.vaultRoot answer
  have hsub : sub = cfg.subfolder := congrArg ObsidianChannelConfig.subfolder answer
  obtain ⟨canonical, isDir⟩ := canonicalRoot_eq_ok found
  have rootCanonical := isCanonical_of_canonicalize canonical
  have directory {path : VaultPath} (canonical : fs.IsCanonical path)
      (isDir : fs.disk.isDir path = true) : fs.tree.IsDirectory path.segments := by
    obtain ⟨real, leads, directory⟩ := isDir_iff.mp isDir
    cases canonical.canonicalize.symm.trans leads
    exact directory
  rcases canonicalSubfolder_eq_ok found' with
    none | ⟨asked, canonSub, canonical', below, isDir', -, some⟩
  · have effective : cfg.effectiveRoot = root := by
      rw [ObsidianChannelConfig.effectiveRoot, ← hsub, none, hroot]
    rw [← effective] at rootCanonical isDir
    refine ⟨?_, rootCanonical, directory rootCanonical isDir, ?_⟩
    · rwa [effective, hroot] at rootCanonical
    · rw [effective, hroot]
      exact startsWith_iff.mpr ⟨rfl, List.prefix_rfl⟩
  · have effective : cfg.effectiveRoot = canonSub := by
      rw [ObsidianChannelConfig.effectiveRoot, ← hsub, some, ← hroot]
      exact join_stripPrefix below
    have subCanonical := isCanonical_of_canonicalize canonical'
    refine ⟨hroot ▸ rootCanonical, ?_, ?_, ?_⟩
    · rwa [effective]
    · rw [effective]
      exact directory subCanonical isDir'
    · rwa [effective, ← hroot]

end VaultTree

end Concorrd
