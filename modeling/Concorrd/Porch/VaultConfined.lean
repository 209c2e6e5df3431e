import Concorrd.Porch.Migrate
import Concorrd.Porch.VaultTree

/-!
# What a vault request may reach

A requested path is followed from the effective root, and answered when it leads into the vault root.
With links not followed, every link on the requested path has to lead there too. `vault_confined` says
what that promises on a tree of files: the answer is a real path inside the vault, straight below the
effective root unless a link is on the way, and no content from outside is read.
-/

namespace Concorrd

/-! ## The checks -/

section Checks

variable {disk : VaultDisk} {cfg : ObsidianChannelConfig} {relPath : String} {path : VaultPath}
  {segs : List String}

theorem VaultPath.join_join (root : VaultPath) (segs segs' : List String) :
    (root.join ⟨false, segs⟩).join ⟨false, segs'⟩ = root.join ⟨false, segs ++ segs'⟩ := by
  simp only [VaultPath.join, Bool.false_eq_true, if_false, List.append_assoc]

/-- The links on a path pass when each leads into the vault root. -/
theorem checkLinks_eq_ok_iff {cursor : VaultPath} :
    checkLinks disk cfg relPath cursor segs = .ok () ↔
      ∀ before, before <+: segs → before ≠ [] →
        disk.isSymlink (cursor.join ⟨false, before⟩) = some true →
          ∃ target, disk.canonicalize (cursor.join ⟨false, before⟩) = .ok target ∧
            target.startsWith cfg.vaultRoot = true := by
  induction segs generalizing cursor with
  | nil =>
    refine iff_of_true rfl fun before short more => ?_
    exact absurd (List.prefix_nil.mp short) more
  | cons seg segs ih =>
    have further : (∀ before, before <+: seg :: segs → before ≠ [] →
        disk.isSymlink (cursor.join ⟨false, before⟩) = some true →
          ∃ target, disk.canonicalize (cursor.join ⟨false, before⟩) = .ok target ∧
            target.startsWith cfg.vaultRoot = true) ↔
        (disk.isSymlink (cursor.join ⟨false, [seg]⟩) = some true →
          ∃ target, disk.canonicalize (cursor.join ⟨false, [seg]⟩) = .ok target ∧
            target.startsWith cfg.vaultRoot = true) ∧
        checkLinks disk cfg relPath (cursor.join ⟨false, [seg]⟩) segs = .ok () := by
      rw [ih]
      constructor
      · intro all
        refine ⟨all [seg] ⟨segs, rfl⟩ (List.cons_ne_nil seg []), fun before short _ => ?_⟩
        rw [VaultPath.join_join]
        exact all (seg :: before) (List.prefix_cons_inj seg |>.mpr short) (List.cons_ne_nil seg before)
      · rintro ⟨first, rest⟩ before short more
        rcases List.prefix_cons_iff.mp short with empty | ⟨before, rfl, short'⟩
        · exact absurd empty more
        · by_cases last : before = []
          · rwa [last]
          · have there := rest before short' last
            rwa [VaultPath.join_join] at there
    rw [further, checkLinks]
    split
    · rename_i link
      split
      · rename_i failed
        refine iff_of_false (fun h => ?_) fun h => ?_
        · cases h
        · obtain ⟨target, found, -⟩ := h.1 link
          cases failed.symm.trans found
      · rename_i target found
        split
        · rename_i inside
          exact ⟨fun h => ⟨fun _ => ⟨target, found, inside⟩, h⟩, And.right⟩
        · rename_i outside
          refine iff_of_false (fun h => ?_) fun h => ?_
          · cases h
          · obtain ⟨target', found', inside⟩ := h.1 link
            cases found.symm.trans found'
            exact outside inside
    · rename_i noLink
      exact ⟨fun h => ⟨fun link => absurd link noLink, h⟩, And.right⟩

/-- A request is answered with where its names lead, if that is in the vault root and no link on the way
is refused. -/
theorem resolveVaultPath_eq_ok_iff : resolveVaultPath disk cfg relPath = .ok path ↔
    ∃ segs, vaultSegments relPath = .ok segs ∧
      disk.canonicalize (cfg.effectiveRoot.join ⟨false, segs⟩) = .ok path ∧
        path.startsWith cfg.vaultRoot = true ∧
          (cfg.followSymlinks = false → checkLinks disk cfg relPath cfg.effectiveRoot segs = .ok ()) := by
  rw [resolveVaultPath, except_bind_eq_ok]
  refine exists_congr fun segs => and_congr_right fun _ => ?_
  dsimp only
  cases found : disk.canonicalize (cfg.effectiveRoot.join ⟨false, segs⟩) with
  | error e =>
    refine iff_of_false (fun h => ?_) fun h => ?_
    · dsimp only at h
      split at h <;> cases h
    · cases h.1
  | ok resolved =>
    dsimp only
    split
    · rename_i outside
      refine iff_of_false (fun h => ?_) fun h => ?_
      · cases h
      · cases h.1
        rw [outside] at h
        cases h.2.1
    · rename_i inside
      split
      · rename_i off
        rw [except_bind_eq_ok]
        constructor
        · rintro ⟨_, checked, same⟩
          cases same
          exact ⟨rfl, Bool.of_not_eq_false inside, fun _ => checked⟩
        · rintro ⟨same, -, checked⟩
          cases same
          exact ⟨(), checked off, rfl⟩
      · rename_i on
        constructor
        · intro h
          cases h
          exact ⟨rfl, Bool.of_not_eq_false inside, fun off => absurd off on⟩
        · rintro ⟨same, -⟩
          cases same
          rfl

theorem names_of_vaultSegments (h : vaultSegments relPath = .ok segs) : "." ∉ segs ∧ ".." ∉ segs := by
  unfold vaultSegments at h
  dsimp only at h
  split at h
  · cases h
  · rename_i names
    rw [← Except.ok.inj h]
    refine ⟨fun mem => ?_, names⟩
    have other : "." ≠ "" ∧ "." ≠ "." := of_decide_eq_true (List.mem_filter.mp mem).2
    exact other.2 rfl

theorem ok_of_mapError {ε ε' α : Type} {r : Except ε α} {f : ε → ε'} {a : α}
    (h : r.mapError f = .ok a) : r = .ok a := by
  cases r with
  | error e => cases h
  | ok b => rw [Except.ok.inj h]

/-- The checks ask a disk for links and where they lead, and nothing else. -/
theorem resolveVaultPath_congr {disk' : VaultDisk} (links : disk.isSymlink = disk'.isSymlink)
    (leads : disk.canonicalize = disk'.canonicalize) :
    resolveVaultPath disk cfg relPath = resolveVaultPath disk' cfg relPath := by
  have checks (cursor : VaultPath) (segs : List String) :
      checkLinks disk cfg relPath cursor segs = checkLinks disk' cfg relPath cursor segs := by
    induction segs generalizing cursor with
    | nil => rfl
    | cons seg segs ih => rw [checkLinks, checkLinks, links, leads, ih]
  unfold resolveVaultPath
  simp only [leads, checks]

/-- A file is read when its path is answered, it is small enough and its type is served. -/
theorem Porch.readVaultFile_eq_ok_iff {p : Porch} {channelId : String} {bytes : List UInt8}
    {mime : String} (bound : p.getObsidianConfig channelId = some cfg) :
    p.readVaultFile disk channelId relPath = .ok (bytes, mime) ↔
      ∃ target, resolveVaultPath disk cfg relPath = .ok target ∧
        (∃ fileMeta, disk.metadata target = .ok fileMeta ∧ fileMeta.isFile = true ∧
          fileMeta.len ≤ maxVaultFileBytes) ∧
        mimeForPath target = some mime ∧ disk.read target = .ok bytes := by
  have binding : p.obsidianBinding channelId = .ok cfg := by
    rw [obsidianBinding, bound]
  constructor
  · intro h
    obtain ⟨cfg', bound', h⟩ := except_bind_eq_ok.mp h
    cases binding.symm.trans bound'
    obtain ⟨target, resolved, h⟩ := except_bind_eq_ok.mp h
    obtain ⟨fileMeta, found, h⟩ := except_bind_eq_ok.mp h
    split at h
    · cases h
    rename_i isFile
    split at h
    · cases h
    rename_i small
    split at h
    · cases h
    rename_i mime' served
    obtain ⟨content, read, h⟩ := except_bind_eq_ok.mp h
    cases h
    refine ⟨target, resolved, ⟨fileMeta, ok_of_mapError found, Bool.of_not_eq_false isFile,
      UInt64.not_lt.mp small⟩, served, ok_of_mapError read⟩
  · rintro ⟨target, resolved, ⟨fileMeta, found, isFile, small⟩, served, read⟩
    refine except_bind_eq_ok.mpr ⟨cfg, binding, except_bind_eq_ok.mpr ⟨target, resolved,
      except_bind_eq_ok.mpr ⟨fileMeta, by rw [found]; rfl, ?_⟩⟩⟩
    have isNoOther : ¬fileMeta.isFile = false := by
      rw [isFile]
      decide
    rw [if_neg isNoOther, if_neg (UInt64.not_lt.mpr small)]
    simp only [served, read]
    rfl

end Checks

namespace VaultTree

/-- What a path is that a request for names below the effective root is answered with: it is real, it
lies in the vault root, it is where the names lead, straight down unless a link is among them, and while
links are not followed every link among them leads into the vault root. -/
structure Confined (fs : VaultTree) (cfg : ObsidianChannelConfig) (segs : List String)
    (path : VaultPath) : Prop where
  names : ".." ∉ segs
  canonical : fs.IsCanonical path
  inside : path.startsWith cfg.vaultRoot = true
  leads : fs.canonicalize (cfg.effectiveRoot.join ⟨false, segs⟩) = .ok path
  direct : (∀ before, before <+: segs → before ≠ [] →
    fs.isSymlink (cfg.effectiveRoot.join ⟨false, before⟩) ≠ some true) →
      path = cfg.effectiveRoot.join ⟨false, segs⟩
  links : cfg.followSymlinks = false → ∀ before, before <+: segs → before ≠ [] →
    fs.isSymlink (cfg.effectiveRoot.join ⟨false, before⟩) = some true →
      ∃ target, fs.canonicalize (cfg.effectiveRoot.join ⟨false, before⟩) = .ok target ∧
        target.startsWith cfg.vaultRoot = true

/-- The file systems hold the same files, directories and links, and the same contents in the root. -/
structure SameInside (root : VaultPath) (fs fs' : VaultTree) : Prop where
  shape : ∀ path, (fs.tree.node path).map FileTree.Node.shape =
    (fs'.tree.node path).map FileTree.Node.shape
  inside : ∀ path, root.segments <+: path → fs.tree.node path = fs'.tree.node path
  workingDir : fs.workingDir = fs'.workingDir

variable {fs fs' : VaultTree} {cfg : ObsidianChannelConfig} {relPath : String} {path : VaultPath}
  {segs : List String}

/-! ## Below the effective root -/

theorem join_of_absolute {root : VaultPath} (absolute : root.absolute = true) (segs : List String) :
    root.join ⟨false, segs⟩ = ⟨true, root.segments ++ segs⟩ := by
  cases root
  cases absolute
  rfl

/-- Names below a real directory are followed from there. -/
theorem canonicalize_join {root : VaultPath} (canonical : fs.IsCanonical root) (segs : List String) :
    fs.canonicalize (root.join ⟨false, segs⟩) =
      (fs.tree.walk maxLinkDepth root.segments segs).map fun segs => ⟨true, segs⟩ := by
  have real : fs.tree.Real ([] ++ root.segments) := canonical.real
  have some : ¬((root.join ⟨false, segs⟩).absolute = false ∧ (root.join ⟨false, segs⟩).segments = []) := by
    rw [join_of_absolute canonical.absolute]
    exact fun h => by cases h.1
  rw [VaultTree.canonicalize, if_neg some, join_of_absolute canonical.absolute, start, if_pos rfl,
    FileTree.walk_append, FileTree.walk_real real]
  rfl

theorem isSymlink_join {root : VaultPath} (canonical : fs.IsCanonical root) {seg : String}
    (name : seg ≠ "." ∧ seg ≠ "..") (segs : List String) :
    fs.isSymlink (root.join ⟨false, segs ++ [seg]⟩) =
      (fs.tree.walk maxLinkDepth root.segments segs).toOption.bind fun parent =>
        (fs.tree.node (parent ++ [seg])).map FileTree.Node.isLink := by
  have real : fs.tree.Real ([] ++ root.segments) := canonical.real
  rw [join_of_absolute canonical.absolute, isSymlink, if_neg (fun h => by cases h.1), start, if_pos rfl,
    ← List.append_assoc, FileTree.linkStatus_concat name, FileTree.walk_append, FileTree.walk_real real]
  rfl

/-- Without a link on the way, names lead straight down. -/
theorem walk_of_no_link {root : VaultPath} (canonical : fs.IsCanonical root)
    (names : "." ∉ segs ∧ ".." ∉ segs)
    (noLink : ∀ before, before <+: segs → before ≠ [] →
      fs.isSymlink (root.join ⟨false, before⟩) ≠ some true) {out : List String}
    (leads : fs.tree.walk maxLinkDepth root.segments segs = .ok out) : out = root.segments ++ segs := by
  induction segs using List.reverseRecOn generalizing out with
  | nil =>
    have real : fs.tree.Real (root.segments ++ []) := by
      rw [List.append_nil]
      exact canonical.real
    exact (Except.ok.inj ((FileTree.walk_real real).symm.trans leads)).symm
  | append_singleton segs seg ih =>
    have name : seg ≠ "." ∧ seg ≠ ".." := by
      constructor
      · rintro rfl
        exact names.1 (List.mem_append_right segs (List.mem_singleton_self _))
      · rintro rfl
        exact names.2 (List.mem_append_right segs (List.mem_singleton_self _))
    have rest : "." ∉ segs ∧ ".." ∉ segs :=
      ⟨fun mem => names.1 (List.mem_append_left _ mem), fun mem => names.2 (List.mem_append_left _ mem)⟩
    have last := noLink (segs ++ [seg]) List.prefix_rfl (by simp)
    rw [isSymlink_join canonical name] at last
    have whole := leads
    rw [FileTree.walk_append] at whole
    cases before : fs.tree.walk maxLinkDepth root.segments segs with
    | error e =>
      rw [before] at whole
      cases whole
    | ok parent =>
      have straight := ih rest (fun before' short more =>
        noLink before' (short.trans (List.prefix_append segs [seg])) more) before
      rw [before] at last
      rw [FileTree.walk_concat_of_no_link name before last leads, straight, List.append_assoc]

/-- A request that is answered is answered with a confined path. -/
theorem confined_of_resolveVaultPath (rooted : fs.Rooted cfg)
    (h : resolveVaultPath fs.disk cfg relPath = .ok path) :
    ∃ segs, vaultSegments relPath = .ok segs ∧ fs.Confined cfg segs path := by
  obtain ⟨segs, asked, leads, inside, checked⟩ := resolveVaultPath_eq_ok_iff.mp h
  have names := names_of_vaultSegments asked
  refine ⟨segs, asked, names.2, isCanonical_of_canonicalize leads, inside, leads, fun noLink => ?_,
    fun off => checkLinks_eq_ok_iff.mp (checked off)⟩
  obtain ⟨-, -, absolute⟩ := canonicalize_eq_ok_iff.mp leads
  have walked := leads
  rw [show fs.disk.canonicalize = fs.canonicalize from rfl, canonicalize_join rooted.effective] at walked
  rw [join_of_absolute rooted.effective.absolute]
  cases out : fs.tree.walk maxLinkDepth cfg.effectiveRoot.segments segs with
  | error e =>
    rw [out] at walked
    cases walked
  | ok below =>
    rw [out] at walked
    rw [← Except.ok.inj walked, walk_of_no_link rooted.effective names noLink out]

/-! ## Reading -/

theorem stat_of_isCanonical (canonical : fs.IsCanonical path) {n : VaultNode}
    (there : fs.tree.node path.segments = some n) : fs.stat path = .ok n :=
  stat_eq_ok_iff.mpr ⟨path, canonical.canonicalize, there⟩

/-- What is read is the content of the file. -/
theorem node_of_read {bytes : List UInt8} (canonical : fs.IsCanonical path)
    (h : fs.read path = .ok bytes) :
    ∃ modifiedAt, fs.tree.node path.segments = some (.file (bytes, modifiedAt)) := by
  obtain ⟨n, there, -⟩ := Option.map_eq_some_iff.mp canonical.real
  rw [read, stat_of_isCanonical canonical there] at h
  cases n with
  | file content =>
    cases h
    exact ⟨_, there⟩
  | directory data => cases h
  | link target => cases h

/-- The same answer for the same content inside. -/
theorem resolveVaultPath_sameInside (same : SameInside cfg.vaultRoot fs fs') :
    resolveVaultPath fs.disk cfg relPath = resolveVaultPath fs'.disk cfg relPath := by
  have starts : fs.start = fs'.start := by
    funext path
    rw [start, start, same.workingDir]
  refine resolveVaultPath_congr ?_ ?_
  · funext path
    show fs.isSymlink path = fs'.isSymlink path
    rw [isSymlink, isSymlink, FileTree.linkStatus_congr same.shape, starts]
  · funext path
    show fs.canonicalize path = fs'.canonicalize path
    rw [canonicalize, canonicalize, FileTree.walk_congr same.shape, starts]

/-- A reader of the vault gets the same answer whatever the files outside of it hold. -/
theorem readVaultFile_sameInside {p : Porch} {channelId : String}
    (bound : p.getObsidianConfig channelId = some cfg) (same : SameInside cfg.vaultRoot fs fs') :
    p.readVaultFile fs.disk channelId relPath = p.readVaultFile fs'.disk channelId relPath := by
  have binding : p.obsidianBinding channelId = .ok cfg := by
    rw [Porch.obsidianBinding, bound]
  have answer : resolveVaultPath fs.disk cfg relPath = resolveVaultPath fs'.disk cfg relPath :=
    resolveVaultPath_sameInside same
  unfold Porch.readVaultFile
  simp only [binding, bind, Except.bind, answer]
  cases resolved : resolveVaultPath fs'.disk cfg relPath with
  | error e => rfl
  | ok target =>
    obtain ⟨segs, -, leads, inside, -⟩ := resolveVaultPath_eq_ok_iff.mp resolved
    obtain ⟨segs', -, leads', -⟩ := resolveVaultPath_eq_ok_iff.mp (answer.trans resolved)
    have canonical := isCanonical_of_canonicalize leads
    have canonical' := isCanonical_of_canonicalize leads'
    have stat : fs.stat target = fs'.stat target := by
      rw [VaultTree.stat, VaultTree.stat, canonical.canonicalize, canonical'.canonicalize]
      simp only [bind, Except.bind, same.inside _ (startsWith_iff.mp inside).2]
    have metadata : fs.disk.metadata target = fs'.disk.metadata target := by
      show fs.metadata target = fs'.metadata target
      rw [VaultTree.metadata, VaultTree.metadata, stat]
    have read : fs.disk.read target = fs'.disk.read target := by
      show fs.read target = fs'.read target
      rw [VaultTree.read, VaultTree.read, stat]
    simp only [metadata, read]

/-- What a request for a vault file promises. -/
structure Guards (fs : VaultTree) (cfg : ObsidianChannelConfig) (relPath : String) : Prop where
  resolved : ∀ path, resolveVaultPath fs.disk cfg relPath = .ok path →
    ∃ segs, vaultSegments relPath = .ok segs ∧ fs.Confined cfg segs path
  read : ∀ (p : Porch) (channelId : String), p.getObsidianConfig channelId = some cfg →
    ∀ bytes mime, p.readVaultFile fs.disk channelId relPath = .ok (bytes, mime) →
      ∃ segs path modifiedAt, vaultSegments relPath = .ok segs ∧ fs.Confined cfg segs path ∧
        fs.tree.node path.segments = some (.file (bytes, modifiedAt))
  outside : ∀ (p : Porch) (channelId : String), p.getObsidianConfig channelId = some cfg →
    ∀ fs', SameInside cfg.vaultRoot fs fs' →
      p.readVaultFile fs.disk channelId relPath = p.readVaultFile fs'.disk channelId relPath

/-- A vault with a note, and a folder in it with a link to the note, a hidden file and a program. -/
def linkedTree : VaultTree where
  tree :=
    { entries :=
        [([], .directory none), (["vault"], .directory none), (["vault", "note.md"], .file ([35], none)),
          (["vault", "shared"], .directory none),
          (["vault", "shared", "link.md"], .link ⟨false, ["..", "note.md"]⟩),
          (["vault", "shared", ".draft.md"], .file ([36], none)),
          (["vault", "shared", "tool.exe"], .file ([77, 90], none)),
          (["secret.md"], .file ([37], none))]
      distinct := by decide
      names := by decide
      top := rfl
      parents := by decide }
  workingDir := []
  isDirectory := rfl
  toLowercase := id

/-- The folder is bound, and links are not followed. -/
def sharedConfig : ObsidianChannelConfig where
  channelId := "porch-default"
  vaultRoot := ⟨true, ["vault"]⟩
  subfolder := some ⟨false, ["shared"]⟩
  followSymlinks := false

/-- The porch once the folder is bound. -/
def sharedPorch : Except PorchError (Outcome ObsidianChannelConfig) :=
  plainPorch.setObsidianConfig linkedTree.disk.toVaultFiles "porch-default" ⟨true, ["vault"]⟩
    (some ⟨false, ["shared"]⟩) false 0

theorem exists_sharedPorch : ∃ out, sharedPorch = .ok out ∧ out.answer = sharedConfig := by
  have bound : sharedPorch.map Outcome.answer = .ok sharedConfig := by decide
  cases done : sharedPorch with
  | error e =>
    rw [done] at bound
    cases bound
  | ok out =>
    rw [done] at bound
    exact ⟨out, rfl, Except.ok.inj bound⟩

theorem linkedTree_accepts : linkedTree.Accepts sharedConfig := by
  obtain ⟨out, done, answer⟩ := exists_sharedPorch
  exact ⟨plainPorch, _, _, 0, out, done, answer⟩

end VaultTree

end Concorrd
