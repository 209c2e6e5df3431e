import Concorrd.Porch.VaultConfined

/-!
# What a vault lists and what it serves

A listing and a request for a file walk the same tree by different code: one tests every entry of a
directory, the other every name of a path. `listing_agrees_with_reading` says where they agree: a listed
file is served if it is small enough and of a served type, and a served file is listed unless its name
is hidden. With links followed, both hold of what stays inside the vault.
-/

namespace Concorrd

/-! ## The entries of a listing -/

section Entries

variable {disk : VaultDisk} {cfg : ObsidianChannelConfig} {target : VaultPath} {relPath name : String}

theorem guard_eq_some_iff {P : Prop} [Decidable P] {u : Unit} :
    (guard P : Option Unit) = some u ↔ P := by
  rw [guard]
  split
  · rename_i holds
    exact iff_of_true rfl holds
  · rename_i fails
    refine iff_of_false (fun h => ?_) fails
    cases h

theorem ok_of_toOption {ε α : Type} {r : Except ε α} {a : α} (h : r.toOption = some a) : r = .ok a := by
  cases r with
  | error e => cases h
  | ok b => exact congrArg _ (Option.some.inj h)

/-- The entry of what a path leads to, when that is a file or a directory. -/
theorem fileMeta_of_entry {path : String} {found : Except String FileMeta} {entry : VaultEntry}
    (h : (found.toOption.bind fun fileMeta =>
      if fileMeta.isDir then some (⟨path, .directory, none, fileMeta.modifiedAt⟩ : VaultEntry)
      else if fileMeta.isFile then some ⟨path, .file, some fileMeta.len, fileMeta.modifiedAt⟩
      else none) = some entry) (file : entry.kind = .file) :
    ∃ fileMeta, found = .ok fileMeta ∧ fileMeta.isDir = false ∧ fileMeta.isFile = true ∧
      entry = ⟨path, .file, some fileMeta.len, fileMeta.modifiedAt⟩ := by
  obtain ⟨fileMeta, there, h⟩ := Option.bind_eq_some_iff.mp h
  split at h
  · cases h
    cases file
  · rename_i noDir
    split at h
    · rename_i isFile
      cases h
      exact ⟨fileMeta, ok_of_toOption there, Bool.of_not_eq_true noDir, isFile, rfl⟩
    · cases h

/-- A name is listed as a file when it is not hidden, its link is allowed and it leads to a file. -/
theorem vaultEntry_file_iff {entry : VaultEntry} :
    vaultEntry disk cfg target relPath name = some entry ∧ entry.kind = .file ↔
      name.toList.head? ≠ some '.' ∧
      (∃ link, disk.isSymlink (target.join ⟨false, [name]⟩) = some link ∧
        (link = true → cfg.followSymlinks = false → ∃ real,
          disk.canonicalize (target.join ⟨false, [name]⟩) = .ok real ∧
            real.startsWith cfg.vaultRoot = true)) ∧
      ∃ fileMeta, disk.metadata (target.join ⟨false, [name]⟩) = .ok fileMeta ∧
        fileMeta.isDir = false ∧ fileMeta.isFile = true ∧
        entry = {
          path := if relPath.isEmpty then name else trimSlashes relPath ++ "/" ++ name
          kind := .file
          size := some fileMeta.len
          modifiedAt := fileMeta.modifiedAt } := by
  constructor
  · rintro ⟨h, file⟩
    unfold vaultEntry at h
    obtain ⟨_, shown, h⟩ := Option.bind_eq_some_iff.mp h
    obtain ⟨link, isLink, h⟩ := Option.bind_eq_some_iff.mp h
    have visible : name.toList.head? ≠ some '.' := guard_eq_some_iff.mp shown
    dsimp only at h
    split at h
    · rename_i linked
      obtain ⟨real, found, h⟩ := Option.bind_eq_some_iff.mp h
      obtain ⟨_, inside, h⟩ := Option.bind_eq_some_iff.mp h
      exact ⟨visible, ⟨link, isLink, fun _ _ => ⟨real, ok_of_toOption found, guard_eq_some_iff.mp inside⟩⟩,
        fileMeta_of_entry h file⟩
    · rename_i free
      exact ⟨visible, ⟨link, isLink, fun linked off => absurd ⟨linked, off⟩ free⟩,
        fileMeta_of_entry h file⟩
  · rintro ⟨visible, ⟨link, isLink, allowed⟩, fileMeta, found, noDir, isFile, rfl⟩
    refine ⟨?_, rfl⟩
    have entry : ∀ path : String, ((disk.metadata (target.join ⟨false, [name]⟩)).toOption.bind
        fun fileMeta =>
          if fileMeta.isDir then some (⟨path, .directory, none, fileMeta.modifiedAt⟩ : VaultEntry)
          else if fileMeta.isFile then some ⟨path, .file, some fileMeta.len, fileMeta.modifiedAt⟩
          else none) = some ⟨path, .file, some fileMeta.len, fileMeta.modifiedAt⟩ := by
      intro path
      rw [found]
      show (if fileMeta.isDir then _ else _) = _
      rw [noDir, isFile]
      rfl
    unfold vaultEntry
    refine Option.bind_eq_some_iff.mpr ⟨(), guard_eq_some_iff.mpr visible,
      Option.bind_eq_some_iff.mpr ⟨link, isLink, ?_⟩⟩
    dsimp only
    split
    · rename_i linked
      obtain ⟨real, leads, inside⟩ := allowed linked.1 linked.2
      refine Option.bind_eq_some_iff.mpr ⟨real, by rw [leads]; rfl,
        Option.bind_eq_some_iff.mpr ⟨(), guard_eq_some_iff.mpr inside, ?_⟩⟩
      exact entry _
    · exact entry _

end Entries

namespace VaultTree

variable {fs : VaultTree} {cfg : ObsidianChannelConfig} {relPath name : String} {path : VaultPath}
  {segs : List String} {p : Porch} {channelId : String}

/-! ## Listing a tree -/

theorem mapM_names (names : List String) :
    ((names.map fun name => (.ok (some name) : Except String (Option String))).mapM
      fun entry => entry.mapError PorchError.io) = .ok (names.map some) := by
  induction names with
  | nil => rfl
  | cons name names ih =>
    rw [List.map_cons, List.mapM_cons, ih]
    rfl

theorem readDir_eq_ok_iff {found : List (Except String (Option String))}
    (canonical : fs.IsCanonical path) : fs.readDir path = .ok found ↔
      fs.tree.IsDirectory path.segments ∧
        found = (fs.tree.children path.segments).map fun name => .ok (some name) := by
  obtain ⟨n, there, -⟩ := Option.map_eq_some_iff.mp canonical.real
  have stat := stat_of_isCanonical canonical there
  rw [readDir, canonical.canonicalize, FileTree.IsDirectory, there]
  cases n with
  | file content =>
    refine iff_of_false (fun h => ?_) fun h => ?_
    · change (fs.stat path >>= _) = _ at h
      rw [stat] at h
      cases h
    · cases h.1
  | link target =>
    refine iff_of_false (fun h => ?_) fun h => ?_
    · change (fs.stat path >>= _) = _ at h
      rw [stat] at h
      cases h
    · cases h.1
  | directory data =>
    change (fs.stat path >>= _) = _ ↔ _
    rw [stat]
    refine ⟨fun h => ⟨rfl, (Except.ok.inj h).symm⟩, fun h => ?_⟩
    rw [h.2]
    rfl

/-- A directory that is answered lists its children that have an entry. -/
theorem listVault_eq_ok_iff {entries : List VaultEntry}
    (bound : p.getObsidianConfig channelId = some cfg) :
    p.listVault fs.disk channelId relPath = .ok entries ↔
      ∃ target, resolveVaultPath fs.disk cfg relPath = .ok target ∧
        fs.tree.IsDirectory target.segments ∧
        entries = ((fs.tree.children target.segments).filterMap
          (vaultEntry fs.disk cfg target relPath)).insertionSort fun a b => a.before fs.disk b := by
  have binding : p.obsidianBinding channelId = .ok cfg := by
    rw [Porch.obsidianBinding, bound]
  have shown (names : List String) : (names.map some).filterMap id = names := by
    rw [List.filterMap_map]
    exact List.filterMap_some
  constructor
  · intro h
    obtain ⟨cfg', bound', h⟩ := except_bind_eq_ok.mp h
    cases binding.symm.trans bound'
    obtain ⟨target, resolved, h⟩ := except_bind_eq_ok.mp h
    obtain ⟨found, read, h⟩ := except_bind_eq_ok.mp h
    obtain ⟨segs, -, leads, -⟩ := resolveVaultPath_eq_ok_iff.mp resolved
    obtain ⟨directory, rfl⟩ :=
      (readDir_eq_ok_iff (isCanonical_of_canonicalize leads)).mp (ok_of_mapError read)
    rw [mapM_names] at h
    refine ⟨target, resolved, directory, ?_⟩
    have same := Except.ok.inj h
    rw [shown] at same
    exact same.symm
  · rintro ⟨target, resolved, directory, rfl⟩
    obtain ⟨segs, -, leads, -⟩ := resolveVaultPath_eq_ok_iff.mp resolved
    have read : fs.disk.readDir target = _ :=
      (readDir_eq_ok_iff (isCanonical_of_canonicalize leads)).mpr ⟨directory, rfl⟩
    refine except_bind_eq_ok.mpr ⟨cfg, binding, except_bind_eq_ok.mpr ⟨target, resolved,
      except_bind_eq_ok.mpr ⟨_, by rw [read]; rfl, ?_⟩⟩⟩
    rw [mapM_names]
    show Except.ok _ = Except.ok _
    rw [shown]

/-! ## One name below a directory -/

section Below

variable {target : VaultPath} (rooted : fs.Rooted cfg)
  (leads : fs.canonicalize (cfg.effectiveRoot.join ⟨false, segs⟩) = .ok target)

include rooted leads

theorem walk_of_leads :
    fs.tree.walk maxLinkDepth cfg.effectiveRoot.segments segs = .ok target.segments := by
  rw [canonicalize_join rooted.effective] at leads
  cases walked : fs.tree.walk maxLinkDepth cfg.effectiveRoot.segments segs with
  | error e =>
    rw [walked] at leads
    cases leads
  | ok out =>
    rw [walked] at leads
    rw [← Except.ok.inj leads]

/-- A name behind a path leads where it leads from the directory of that path. -/
theorem canonicalize_below (name : String) :
    fs.canonicalize (cfg.effectiveRoot.join ⟨false, segs ++ [name]⟩) =
      fs.canonicalize (target.join ⟨false, [name]⟩) := by
  rw [canonicalize_join rooted.effective, canonicalize_join (isCanonical_of_canonicalize leads),
    FileTree.walk_append, walk_of_leads rooted leads]
  rfl

theorem isSymlink_below (isName : name ≠ "." ∧ name ≠ "..") :
    fs.isSymlink (cfg.effectiveRoot.join ⟨false, segs ++ [name]⟩) =
      fs.isSymlink (target.join ⟨false, [name]⟩) := by
  have here : fs.isSymlink (target.join ⟨false, [] ++ [name]⟩) = _ :=
    isSymlink_join (isCanonical_of_canonicalize leads) isName []
  have real : fs.tree.Real (target.segments ++ []) := by
    rw [List.append_nil]
    exact (isCanonical_of_canonicalize leads).real
  rw [isSymlink_join rooted.effective isName, walk_of_leads rooted leads]
  rw [FileTree.walk_real real, List.append_nil] at here
  exact here.symm

end Below

theorem names_of_concat (names : "." ∉ segs ++ [name] ∧ ".." ∉ segs ++ [name]) :
    ("." ∉ segs ∧ ".." ∉ segs) ∧ name ≠ "." ∧ name ≠ ".." := by
  simp only [List.mem_append, List.mem_singleton, not_or] at names
  exact ⟨⟨names.1.1, names.2.1⟩, Ne.symm names.1.2, Ne.symm names.2.2⟩

/-- What a path leads to stands in the directory that its other names lead to. -/
theorem parent_of_leads (rooted : fs.Rooted cfg) {target : VaultPath}
    (isName : name ≠ "." ∧ name ≠ "..")
    (leads : fs.canonicalize (cfg.effectiveRoot.join ⟨false, segs ++ [name]⟩) = .ok target) :
    ∃ parent, fs.canonicalize (cfg.effectiveRoot.join ⟨false, segs⟩) = .ok ⟨true, parent⟩ ∧
      fs.tree.IsDirectory parent ∧ (fs.tree.node (parent ++ [name])).isSome = true := by
  obtain ⟨parent, before, -, directory, there⟩ :=
    FileTree.parent_of_walk isName (walk_of_leads rooted leads)
  refine ⟨parent, ?_, directory, there⟩
  rw [canonicalize_join rooted.effective, before]
  rfl

/-- The request for the effective root leads to it. -/
theorem canonicalize_effectiveRoot (rooted : fs.Rooted cfg) :
    fs.canonicalize (cfg.effectiveRoot.join ⟨false, []⟩) = .ok cfg.effectiveRoot := by
  have here : cfg.effectiveRoot.join ⟨false, []⟩ = cfg.effectiveRoot := by
    rw [join_of_absolute rooted.effective.absolute, List.append_nil, ← rooted.effective.absolute]
  rw [here, rooted.effective.canonicalize]

/-- While links are checked, what a path leads to lies in the vault root. -/
theorem startsWith_of_links (rooted : fs.Rooted cfg) (names : "." ∉ segs ∧ ".." ∉ segs)
    (checked : ∀ before, before <+: segs → before ≠ [] →
      fs.isSymlink (cfg.effectiveRoot.join ⟨false, before⟩) = some true →
        ∃ real, fs.canonicalize (cfg.effectiveRoot.join ⟨false, before⟩) = .ok real ∧
          real.startsWith cfg.vaultRoot = true)
    {target : VaultPath}
    (leads : fs.canonicalize (cfg.effectiveRoot.join ⟨false, segs⟩) = .ok target) :
    target.startsWith cfg.vaultRoot = true := by
  induction segs using List.reverseRecOn generalizing target with
  | nil =>
    cases (canonicalize_effectiveRoot rooted).symm.trans leads
    exact rooted.inside
  | append_singleton segs name ih =>
    obtain ⟨rest, isName⟩ := names_of_concat names
    obtain ⟨parent, before, -, there⟩ := parent_of_leads rooted isName leads
    have inside := ih rest
      (fun before' short => checked before' (short.trans (List.prefix_append segs [name]))) before
    obtain ⟨n, there⟩ := Option.isSome_iff_exists.mp there
    have link := isSymlink_join rooted.effective isName segs
    rw [walk_of_leads rooted before] at link
    cases linked : n.isLink with
    | true =>
      have isLink : fs.isSymlink (cfg.effectiveRoot.join ⟨false, segs ++ [name]⟩) = some true := by
        rw [link]
        exact (congrArg (Option.map FileTree.Node.isLink) there).trans (congrArg some linked)
      obtain ⟨real, leads', below⟩ := checked (segs ++ [name]) List.prefix_rfl (by simp) isLink
      cases leads.symm.trans leads'
      exact below
    | false =>
      have noLink : (fs.tree.node (parent ++ [name])).map FileTree.Node.isLink ≠ some true := by
        rw [there, Option.map_some, linked]
        decide
      have straight := FileTree.walk_concat_of_no_link isName (walk_of_leads rooted before) noLink
        (walk_of_leads rooted leads)
      obtain ⟨absolute, short⟩ := startsWith_iff.mp inside
      refine startsWith_iff.mpr ⟨(isCanonical_of_canonicalize leads).absolute.trans absolute, ?_⟩
      rw [straight]
      exact short.trans (List.prefix_append parent [name])

/-! ## Listed and served -/

/-- What metadata are of. -/
theorem file_of_metadata {fileMeta : FileMeta} (h : fs.metadata path = .ok fileMeta)
    (isFile : fileMeta.isFile = true) : ∃ real bytes modifiedAt, fs.canonicalize path = .ok real ∧
      fs.tree.node real.segments = some (.file (bytes, modifiedAt)) ∧
      fileMeta.len = .ofNat bytes.length := by
  obtain ⟨n, found, h⟩ := except_bind_eq_ok.mp h
  obtain ⟨real, leads, there⟩ := stat_eq_ok_iff.mp found
  cases n with
  | file content =>
    cases h
    exact ⟨real, _, _, leads, there, rfl⟩
  | directory data =>
    cases h
    cases isFile
  | link target => cases h

theorem metadata_of_file {bytes : List UInt8} {modifiedAt : Option Int64} {real : VaultPath}
    (leads : fs.canonicalize path = .ok real)
    (there : fs.tree.node real.segments = some (.file (bytes, modifiedAt))) :
    fs.metadata path = .ok ⟨false, true, .ofNat bytes.length, modifiedAt⟩ ∧
      fs.read path = .ok bytes := by
  have stat := stat_eq_ok_iff.mpr ⟨real, leads, there⟩
  rw [metadata, read, stat]
  exact ⟨rfl, rfl⟩

/-- Where the names of a requested path lead. -/
def leadsTo (fs : VaultTree) (cfg : ObsidianChannelConfig) (relPath : String) : Option VaultPath :=
  (vaultSegments relPath).toOption.bind fun segs =>
    (fs.canonicalize (cfg.effectiveRoot.join ⟨false, segs⟩)).toOption

theorem leadsTo_eq {real : VaultPath} (asked : vaultSegments relPath = .ok segs)
    (leads : fs.canonicalize (cfg.effectiveRoot.join ⟨false, segs⟩) = .ok real) :
    fs.leadsTo cfg relPath = some real := by
  rw [leadsTo, asked]
  exact congrArg Except.toOption leads

/-- A listed file that may be served: it is small enough, its type is served, and if links are followed
it stays inside the vault. -/
structure Servable (fs : VaultTree) (cfg : ObsidianChannelConfig) (entry : VaultEntry) : Prop where
  small : ∀ size, entry.size = some size → size ≤ maxVaultFileBytes
  typed : ∀ real, fs.leadsTo cfg entry.path = some real → (mimeForPath real).isSome = true
  inside : cfg.followSymlinks = true →
    ∀ real, fs.leadsTo cfg entry.path = some real → real.startsWith cfg.vaultRoot = true

/-- A listed file is served. -/
theorem served_of_listed (rooted : fs.Rooted cfg) (bound : p.getObsidianConfig channelId = some cfg)
    {entries : List VaultEntry} (listed : p.listVault fs.disk channelId relPath = .ok entries)
    {entry : VaultEntry} (mem : entry ∈ entries) (file : entry.kind = .file)
    (servable : fs.Servable cfg entry) :
    ∃ bytes mime, p.readVaultFile fs.disk channelId entry.path = .ok (bytes, mime) := by
  obtain ⟨target, resolved, -, rfl⟩ := (listVault_eq_ok_iff bound).mp listed
  obtain ⟨segs, asked, leads, -, checked⟩ := resolveVaultPath_eq_ok_iff.mp resolved
  obtain ⟨name, child, made⟩ := List.mem_filterMap.mp ((List.mem_insertionSort _).mp mem)
  obtain ⟨-, ⟨link, isLink, allowed⟩, fileMeta, found, -, isFile, rfl⟩ :=
    vaultEntry_file_iff.mp ⟨made, file⟩
  obtain ⟨n, there⟩ := Option.isSome_iff_exists.mp (FileTree.mem_children.mp child)
  have isName : FileTree.IsName name :=
    FileTree.isName_of_node there (List.mem_append_right _ (List.mem_singleton_self name))
  have asked' := vaultSegments_entry asked isName
  obtain ⟨real, bytes, modifiedAt, leads', content, len⟩ := file_of_metadata found isFile
  rw [← canonicalize_below rooted leads name] at leads'
  have links : cfg.followSymlinks = false → ∀ before, before <+: segs ++ [name] → before ≠ [] →
      fs.isSymlink (cfg.effectiveRoot.join ⟨false, before⟩) = some true →
        ∃ real, fs.canonicalize (cfg.effectiveRoot.join ⟨false, before⟩) = .ok real ∧
          real.startsWith cfg.vaultRoot = true := by
    intro off before short more linked
    rcases List.prefix_concat_iff.mp short with rfl | short
    · rw [isSymlink_below rooted leads ⟨isName.2.1, isName.2.2.1⟩] at linked
      cases isLink.symm.trans linked
      rw [canonicalize_below rooted leads]
      exact allowed rfl off
    · exact checkLinks_eq_ok_iff.mp (checked off) before short more linked
  have inside : real.startsWith cfg.vaultRoot = true := by
    cases off : cfg.followSymlinks with
    | true => exact servable.inside off real (leadsTo_eq asked' leads')
    | false => exact startsWith_of_links rooted (names_of_vaultSegments asked') (links off) leads'
  obtain ⟨mime, typed⟩ := Option.isSome_iff_exists.mp (servable.typed real (leadsTo_eq asked' leads'))
  have canonical := isCanonical_of_canonicalize leads'
  obtain ⟨metadata, read⟩ := metadata_of_file canonical.canonicalize content
  refine ⟨bytes, mime, (Porch.readVaultFile_eq_ok_iff bound).mpr ⟨real, ?_, ⟨_, metadata, rfl, ?_⟩, typed,
    read⟩⟩
  · exact resolveVaultPath_eq_ok_iff.mpr
      ⟨segs ++ [name], asked', leads', inside, fun off => checkLinks_eq_ok_iff.mpr (links off)⟩
  · rw [← len]
    exact servable.small fileMeta.len rfl

/-- A served file has a name in a directory. -/
theorem exists_name_of_served (rooted : fs.Rooted cfg) {target : VaultPath}
    (leads : fs.canonicalize (cfg.effectiveRoot.join ⟨false, segs⟩) = .ok target) {bytes : List UInt8}
    {modifiedAt : Option Int64}
    (content : fs.tree.node target.segments = some (.file (bytes, modifiedAt))) :
    ∃ parents name, segs = parents ++ [name] := by
  rcases List.eq_nil_or_concat segs with rfl | ⟨parents, name, same⟩
  · cases (canonicalize_effectiveRoot rooted).symm.trans leads
    have directory := rooted.directory
    rw [FileTree.IsDirectory, content] at directory
    cases directory
  · exact ⟨parents, name, by rw [same, List.concat_eq_append]⟩

/-- A served file is listed, unless its name is hidden. -/
theorem listed_of_served (rooted : fs.Rooted cfg) (bound : p.getObsidianConfig channelId = some cfg)
    {bytes : List UInt8} {mime : String}
    (served : p.readVaultFile fs.disk channelId relPath = .ok (bytes, mime)) :
    ∃ parents name, vaultSegments relPath = .ok (parents ++ [name]) ∧
      ∀ dir, vaultSegments dir = .ok parents → name.toList.head? ≠ some '.' →
        (cfg.followSymlinks = true →
          ∀ real, fs.leadsTo cfg dir = some real → real.startsWith cfg.vaultRoot = true) →
        ∃ entries, p.listVault fs.disk channelId dir = .ok entries ∧
          ∃ entry ∈ entries, entry.kind = .file ∧ entry.size = some (.ofNat bytes.length) ∧
            vaultSegments entry.path = .ok (parents ++ [name]) := by
  obtain ⟨target, resolved, ⟨fileMeta, found, isFile, -⟩, -, read⟩ :=
    (Porch.readVaultFile_eq_ok_iff bound).mp served
  obtain ⟨segs, asked, leads, inside, checked⟩ := resolveVaultPath_eq_ok_iff.mp resolved
  obtain ⟨modifiedAt, content⟩ := node_of_read (isCanonical_of_canonicalize leads) read
  obtain ⟨parents, name, rfl⟩ := exists_name_of_served rooted leads content
  refine ⟨parents, name, asked, fun dir askedDir visible stays => ?_⟩
  have names := names_of_vaultSegments asked
  obtain ⟨rest, isName⟩ := names_of_concat names
  obtain ⟨parent, before, directory, there⟩ := parent_of_leads rooted isName leads
  have links := fun off => checkLinks_eq_ok_iff.mp (checked off)
  have linksBefore : cfg.followSymlinks = false → ∀ before, before <+: parents → before ≠ [] →
      fs.isSymlink (cfg.effectiveRoot.join ⟨false, before⟩) = some true →
        ∃ real, fs.canonicalize (cfg.effectiveRoot.join ⟨false, before⟩) = .ok real ∧
          real.startsWith cfg.vaultRoot = true :=
    fun off before short => links off before (short.trans (List.prefix_append parents [name]))
  have parentInside : VaultPath.startsWith ⟨true, parent⟩ cfg.vaultRoot = true := by
    cases off : cfg.followSymlinks with
    | true => exact stays off _ (leadsTo_eq askedDir before)
    | false => exact startsWith_of_links rooted rest (linksBefore off) before
  have resolvedDir : resolveVaultPath fs.disk cfg dir = .ok ⟨true, parent⟩ :=
    resolveVaultPath_eq_ok_iff.mpr ⟨parents, askedDir, before, parentInside,
      fun off => checkLinks_eq_ok_iff.mpr (linksBefore off)⟩
  obtain ⟨n, there'⟩ := Option.isSome_iff_exists.mp there
  have named : FileTree.IsName name :=
    FileTree.isName_of_node there' (List.mem_append_right _ (List.mem_singleton_self name))
  have leads' : fs.canonicalize (VaultPath.join ⟨true, parent⟩ ⟨false, [name]⟩) = .ok target := by
    rw [← canonicalize_below rooted before]
    exact leads
  obtain ⟨metadata, -⟩ := metadata_of_file leads' content
  have link : fs.isSymlink (VaultPath.join ⟨true, parent⟩ ⟨false, [name]⟩) = some n.isLink := by
    rw [← isSymlink_below rooted before isName, isSymlink_join rooted.effective isName,
      walk_of_leads rooted before]
    exact congrArg (Option.map FileTree.Node.isLink) there'
  obtain ⟨made, file⟩ : vaultEntry fs.disk cfg ⟨true, parent⟩ dir name =
      some ⟨if dir.isEmpty then name else trimSlashes dir ++ "/" ++ name, .file,
        some (.ofNat bytes.length), modifiedAt⟩ ∧ EntryKind.file = .file :=
    vaultEntry_file_iff.mpr ⟨visible, ⟨n.isLink, link, fun _ _ => ⟨target, leads', inside⟩⟩,
      ⟨false, true, .ofNat bytes.length, modifiedAt⟩, metadata, rfl, rfl, rfl⟩
  refine ⟨_, (listVault_eq_ok_iff bound).mpr ⟨⟨true, parent⟩, resolvedDir, directory, rfl⟩, _,
    (List.mem_insertionSort _).mpr (List.mem_filterMap.mpr
      ⟨name, FileTree.mem_children.mpr there, made⟩), file, rfl, vaultSegments_entry askedDir named⟩

/-- What a listing and reading say of each other. -/
structure Agrees (fs : VaultTree) (cfg : ObsidianChannelConfig) (p : Porch) (channelId : String) :
    Prop where
  served : ∀ dir entries, p.listVault fs.disk channelId dir = .ok entries →
    ∀ entry ∈ entries, entry.kind = .file → fs.Servable cfg entry →
      ∃ bytes mime, p.readVaultFile fs.disk channelId entry.path = .ok (bytes, mime)
  listed : ∀ relPath bytes mime, p.readVaultFile fs.disk channelId relPath = .ok (bytes, mime) →
    ∃ parents name, vaultSegments relPath = .ok (parents ++ [name]) ∧
      ∀ dir, vaultSegments dir = .ok parents → name.toList.head? ≠ some '.' →
        (cfg.followSymlinks = true →
          ∀ real, fs.leadsTo cfg dir = some real → real.startsWith cfg.vaultRoot = true) →
        ∃ entries, p.listVault fs.disk channelId dir = .ok entries ∧
          ∃ entry ∈ entries, entry.kind = .file ∧ entry.size = some (.ofNat bytes.length) ∧
            vaultSegments entry.path = .ok (parents ++ [name])

/-- **Listing and reading.** Under an accepted configuration, listed files that are small enough, of a
served type and, where links are followed, inside the vault are served, and served files whose names are
not hidden are listed. -/
theorem listing_agrees_with_reading (accepted : fs.Accepts cfg)
    (bound : p.getObsidianConfig channelId = some cfg) : fs.Agrees cfg p channelId where
  served _ _ listed _ mem file servable :=
    served_of_listed accepted.rooted bound listed mem file servable
  listed _ _ _ served := listed_of_served accepted.rooted bound served

theorem exists_bound_porch : ∃ p : Porch, p.getObsidianConfig "porch-default" = some sharedConfig := by
  obtain ⟨out, done, answer⟩ := exists_sharedPorch
  exact ⟨out.porch, by rw [getObsidianConfig_of_setObsidianConfig done, answer]⟩

theorem listing_agrees_with_reading_shared :
    ∃ p : Porch, p.getObsidianConfig "porch-default" = some sharedConfig ∧
      linkedTree.Agrees sharedConfig p "porch-default" := by
  obtain ⟨p, bound⟩ := exists_bound_porch
  exact ⟨p, bound, listing_agrees_with_reading linkedTree_accepts bound⟩

/-- A program is listed and not served, and a hidden file is served and not listed. -/
theorem program_listed_hidden_file_served :
    (sharedPorch.bind fun out =>
      (out.porch.listVault linkedTree.disk "porch-default" "").map fun entries =>
        entries.map fun entry => (entry.path, entry.kind)) =
      .ok [("link.md", .file), ("tool.exe", .file)] ∧
    (sharedPorch.bind fun out =>
      out.porch.readVaultFile linkedTree.disk "porch-default" "tool.exe").toOption = none ∧
    (sharedPorch.bind fun out =>
      out.porch.readVaultFile linkedTree.disk "porch-default" ".draft.md") =
      .ok ([36], "text/markdown") := by
  refine ⟨?_, ?_, ?_⟩
  all_goals decide +kernel

end VaultTree

end Concorrd
