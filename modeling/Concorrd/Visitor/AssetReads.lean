import Concorrd.Lib.Run
import Concorrd.Porch.AssetFiles
import Concorrd.Porch.Migrate
import Concorrd.Sync.Exchange

/-!
# Reading assets

The file path of an asset is written by the upload, and verbatim by a batch of another device.
`ReadsStayInside` says that every read opens a file of the assets directory and gives bytes of the
stored digest. Uploads keep it as long as no row names the file they write; a batch keeps it exactly
when the rows it stores are sound themselves.
-/

namespace Concorrd

namespace AssetHost

variable (sha256 : List UInt8 → String) (host : AssetHost)

/-- Every read stays in the assets directory, and the bytes it gives have the stored digest, also
those a visitor gets. -/
structure ReadsStayInside : Prop where
  inside : ∀ assetId asset, host.porch.getAsset assetId = some asset →
    host.assetsRoot <+: host.opened asset.filePath
  bytes : ∀ assetId asset bytes, host.readAssetBytes assetId = .ok (asset, bytes) →
    sha256 bytes = asset.sha256
  visitors : ∀ visitor assetId id mimeType bytes,
    host.porch.visitAsset host.hostFiles visitor assetId = .ok (.inline id mimeType bytes) →
      ∃ asset, host.porch.getAsset assetId = some asset ∧ sha256 bytes = asset.sha256

/-- The row names a file inside, and the file, where there is one, has the digest of the row. -/
def Sound (cols : PorchAssetCols) : Prop :=
  host.assetsRoot <+: host.opened cols.filePath ∧
    ∀ bytes, host.files (host.opened cols.filePath) = some bytes → sha256 bytes = cols.sha256

/-- No row of another digest names the file an upload leaves, and the asset rows a batch stores are
sound. -/
def Harmless : AssetEvent → Prop
  | .upload channelId mimeType bytes files id _ =>
    ∀ name, host.uploadName channelId mimeType bytes id = some name →
      ∀ path content, files.leaves host.assetsRoot name bytes = some (path, content) →
        ∀ row ∈ (host.porch.tables .porchAssets).rows,
          host.opened row.cols.filePath = path → sha256 content = row.cols.sha256
  | .batch delta => (host.porch.applySyncBatch delta).isOk = true →
    ∀ row : PorchAssetRow, Database.Stores delta host.porch.tables ⟨.porchAssets, row⟩ →
      host.Sound sha256 row.cols

variable {sha256 host}

/-! ## One upload -/

section

variable {channelId mimeType name : String} {bytes : List UInt8} {files : UploadFiles} {id : Ulid}
  {now : Int64} {path : List String} {content : List UInt8}

theorem uploadedFiles_of_leaves
    (h : files.leaves host.assetsRoot name bytes = some (path, content)) :
    host.uploadedFiles name bytes files path = some content := by
  rw [uploadedFiles, h]
  exact Function.update_self _ _ _

theorem leaves_or_old (h : host.uploadedFiles name bytes files path = some content) :
    files.leaves host.assetsRoot name bytes = some (path, content) ∨
      host.files path = some content := by
  unfold uploadedFiles at h
  cases hleaves : files.leaves host.assetsRoot name bytes with
  | none =>
    rw [hleaves] at h
    exact .inr h
  | some file =>
    rw [hleaves] at h
    obtain ⟨path', content'⟩ := file
    by_cases same : path = path'
    · subst same
      dsimp only at h
      rw [Function.update_self] at h
      cases h
      exact .inl rfl
    · dsimp only at h
      rw [Function.update_of_ne same] at h
      by_cases temporary : path = host.assetsRoot ++ [name ++ ".tmp"]
      · rw [temporary, Function.update_self] at h
        cases h
      · rw [Function.update_of_ne temporary] at h
        exact .inr h

theorem ext_mem {ext : String} (h : extForMime mimeType = some ext) :
    ext ∈ ["png", "jpg", "webp", "gif"] := by
  unfold extForMime at h
  split at h
  all_goals
    cases h
  all_goals decide

/-- A path of one name. -/
theorem ofString_of_name (slash : '/' ∉ name.toList) (long : 2 < name.toList.length) :
    VaultPath.ofString name = ⟨false, [name]⟩ := by
  have one : splitSlashes name = [name] := by
    rw [splitSlashes, List.splitOn, List.splitOnP_eq_singleton, List.map_singleton,
      String.ofList_toList]
    intro c hc
    exact beq_false_of_ne fun same => slash (same ▸ hc)
  have other (s : String) (short : s.toList.length ≤ 2) : name ≠ s := by
    rintro rfl
    omega
  have relative : name.toList.head? ≠ some '/' := fun first =>
    slash (List.mem_of_mem_head? first)
  unfold VaultPath.ofString
  rw [one]
  split
  · rename_i rest same
    exact absurd (List.cons_eq_cons.mp same).1 (other "." (by decide))
  · rw [decide_eq_false relative, List.filter_cons_of_pos, List.filter_nil]
    exact decide_eq_true ⟨other "" (by decide), other "." (by decide)⟩

/-- The name of an upload opens the file of that name in the directory. -/
theorem opened_uploadName (h : host.uploadName channelId mimeType bytes id = some name) :
    host.opened name = host.assetsRoot ++ [name] := by
  obtain ⟨ext, hext, rfl⟩ :
      ∃ ext, extForMime mimeType = some ext ∧ id.text ++ "." ++ ext = name := by
    unfold uploadName at h
    split at h
    · cases h
    split at h
    · cases h
    rename_i ext hext
    split at h
    · cases h
    exact ⟨ext, hext, Option.some.inj h⟩
  have plain : '/' ∉ ext.toList ∧ 2 < ext.toList.length := by
    have all : ∀ ext ∈ ["png", "jpg", "webp", "gif"], '/' ∉ ext.toList ∧ 2 < ext.toList.length := by
      decide
    exact all ext (ext_mem hext)
  have chars : (id.text ++ "." ++ ext).toList = id.text.toList ++ ['.'] ++ ext.toList := by
    rw [String.toList_append, String.toList_append]
    rfl
  have slash : '/' ∉ (id.text ++ "." ++ ext).toList := by
    rw [chars, List.mem_append, List.mem_append]
    rintro ((inId | inDot) | inExt)
    · exact id.plain inId
    · exact absurd inDot (by decide)
    · exact plain.1 inExt
  have long : 2 < (id.text ++ "." ++ ext).toList.length := by
    rw [chars, List.length_append]
    omega
  have up : id.text ++ "." ++ ext ≠ ".." := by
    intro same
    rw [same] at long
    exact absurd long (by decide)
  rw [opened, ofString_of_name slash long]
  refine LexicalPath.follow_of_names fun hmem => ?_
  rcases List.mem_append.mp hmem with inRoot | inName
  · exact host.names inRoot
  · exact up (List.mem_singleton.mp inName).symm

/-- An upload that succeeds wrote its file and appended its row. -/
theorem uploadAsset_eq_ok {out : Outcome PorchAsset}
    (h : host.porch.uploadAsset channelId mimeType bytes files.outcome sha256 id.text now =
      .ok out) :
    ∃ name row, host.uploadName channelId mimeType bytes id = some name ∧ files = .written ∧
      row.cols.filePath = name ∧ row.cols.sha256 = sha256 bytes ∧
      (out.porch.tables .porchAssets).rows = (host.porch.tables .porchAssets).rows ++ [row] ∧
      out.porch.fileBacked = host.porch.fileBacked := by
  unfold Porch.uploadAsset at h
  split at h
  · cases h
  rename_i nonempty
  split at h
  · cases h
  rename_i small
  split at h
  · cases h
  rename_i ext hext
  split at h
  · cases h
  rename_i there
  split at h
  · cases h
  rename_i backed
  split at h
  · cases h
  rename_i hfiles
  obtain ⟨db, hdb, rfl⟩ := Porch.finish_eq_ok h
  refine ⟨id.text ++ "." ++ ext, _, ?_, ?_, rfl, rfl, (Database.rows_of_insert hdb).1, rfl⟩
  · rw [uploadName, if_neg (not_or.mpr ⟨nonempty, small⟩), hext]
    exact if_neg (not_or.mpr ⟨there, backed⟩)
  · cases files with
    | written => rfl
    | failed e left => cases hfiles

end

/-- Every asset row is sound. -/
def AllSound (sha256 : List UInt8 → String) (host : AssetHost) : Prop :=
  ∀ row ∈ (host.porch.tables .porchAssets).rows, host.Sound sha256 row.cols

/-- Reads stay inside exactly when every asset row is sound, where there is a directory at all. -/
theorem readsStayInside_iff (backed : host.porch.fileBacked = true) :
    host.ReadsStayInside sha256 ↔ AllSound sha256 host := by
  constructor
  · intro h row hrow
    have found : host.porch.getAsset row.cols.id = some row.cols.toAsset := by
      have hfind : host.porch.db.find? .porchAssets row.cols.id = some row :=
        KeyedTable.find?_eq_some_iff.mpr ⟨hrow, rfl⟩
      rw [Porch.getAsset, hfind]
      rfl
    have path : row.cols.toAsset.filePath = row.cols.filePath := rfl
    have digest : row.cols.toAsset.sha256 = row.cols.sha256 := rfl
    have inside := h.inside row.cols.id row.cols.toAsset found
    rw [path] at inside
    refine ⟨inside, fun bytes hbytes => ?_⟩
    have read : host.readAsset row.cols.toAsset.filePath = .ok bytes := by
      rw [path, readAsset, hbytes]
    have answered : host.readAssetBytes row.cols.id = .ok (row.cols.toAsset, bytes) := by
      rw [readAssetBytes, Porch.readAssetBytes, found]
      simp only [backed, Bool.true_eq_false, if_false, read]
    exact (h.bytes row.cols.id row.cols.toAsset bytes answered).trans digest
  · intro sound
    have stored {assetId : String} {asset : PorchAsset}
        (h : host.porch.getAsset assetId = some asset) :
        ∃ row ∈ (host.porch.tables .porchAssets).rows, row.cols.toAsset = asset := by
      obtain ⟨row, hrow, rfl⟩ := Option.map_eq_some_iff.mp h
      exact ⟨row, (KeyedTable.find?_eq_some_iff.mp hrow).1, rfl⟩
    have digest {assetId : String} {asset : PorchAsset} {bytes : List UInt8}
        (h : host.readAssetBytes assetId = .ok (asset, bytes)) :
        host.porch.getAsset assetId = some asset ∧ sha256 bytes = asset.sha256 := by
      unfold readAssetBytes Porch.readAssetBytes at h
      split at h
      · cases h
      rename_i asset' found
      split at h
      · cases h
      split at h
      · cases h
      rename_i bytes' hread
      cases h
      obtain ⟨row, hrow, rfl⟩ := stored found
      refine ⟨found, (sound row hrow).2 bytes ?_⟩
      unfold readAsset at hread
      split at hread
      · rename_i bytes' hbytes
        cases hread
        exact hbytes
      · cases hread
    refine ⟨fun assetId asset found => ?_, fun assetId asset bytes h => (digest h).2, ?_⟩
    · obtain ⟨row, hrow, rfl⟩ := stored found
      exact (sound row hrow).1
    · intro visitor assetId id mimeType bytes h
      unfold Porch.visitAsset at h
      split at h
      · cases h
      obtain ⟨_, _, h⟩ := except_bind_eq_ok.mp h
      split at h
      · cases h
      obtain ⟨⟨asset, bytes'⟩, hread, h⟩ := except_bind_eq_ok.mp h
      cases h
      exact ⟨asset, digest hread⟩

theorem backed_step {e : AssetEvent} (backed : host.porch.fileBacked = true) :
    (host.step sha256 e).porch.fileBacked = true := by
  cases e with
  | upload channelId mimeType bytes files id now =>
    unfold step
    dsimp only
    split
    · rename_i out hout
      obtain ⟨_, _, _, _, _, _, _, same⟩ := uploadAsset_eq_ok hout
      rw [same, backed]
    · exact backed
  | batch delta =>
    unfold step
    dsimp only
    split
    · rename_i p' counts hbatch
      rw [(Porch.applySyncBatch_eq_ok_iff.mp hbatch).2]
      exact backed
    · exact backed

/-- After a batch every asset row is sound exactly when those it stored are. -/
theorem allSound_batch_iff {delta : SyncDelta} (sound : AllSound sha256 host) :
    AllSound sha256 (host.step sha256 (.batch delta)) ↔ host.Harmless sha256 (.batch delta) := by
  unfold step Harmless
  dsimp only
  cases hbatch : host.porch.applySyncBatch delta with
  | error e => exact iff_of_true sound nofun
  | ok out =>
    obtain ⟨p', counts⟩ := out
    have applied := (Porch.applySyncBatch_eq_ok_iff.mp hbatch).1
    have stores := Database.forall_rows_of_batch (t := .porchAssets)
      (P := fun row => host.Sound sha256 row.cols) applied sound
    constructor
    · intro after _
      exact stores.mp after
    · intro harmless
      exact stores.mpr (harmless rfl)

/-- The asset rows after an upload. -/
theorem rows_upload (sha256 : List UInt8 → String) (host : AssetHost) (channelId mimeType : String)
    (bytes : List UInt8) (files : UploadFiles) (id : Ulid) (now : Int64) :
    let after := host.step sha256 (.upload channelId mimeType bytes files id now)
    (after.porch.tables .porchAssets).rows = (host.porch.tables .porchAssets).rows ∨
      ∃ name row, host.uploadName channelId mimeType bytes id = some name ∧ files = .written ∧
        row.cols.filePath = name ∧ row.cols.sha256 = sha256 bytes ∧
        (after.porch.tables .porchAssets).rows =
          (host.porch.tables .porchAssets).rows ++ [row] := by
  intro after
  cases hupload : host.porch.uploadAsset channelId mimeType bytes files.outcome sha256 id.text
      now with
  | error e =>
    left
    simp only [after, step, hupload]
  | ok out =>
    right
    obtain ⟨name, row, hname, hfiles, hpath, hsha, hrows, _⟩ := uploadAsset_eq_ok hupload
    refine ⟨name, row, hname, hfiles, hpath, hsha, ?_⟩
    simp only [after, step, hupload]
    exact hrows

/-- After an upload every asset row is sound exactly when none of another digest names the file the
upload left. -/
theorem allSound_upload_iff {channelId mimeType : String} {bytes : List UInt8} {files : UploadFiles}
    {id : Ulid} {now : Int64} (sound : AllSound sha256 host) :
    AllSound sha256 (host.step sha256 (.upload channelId mimeType bytes files id now)) ↔
      host.Harmless sha256 (.upload channelId mimeType bytes files id now) := by
  have rows := rows_upload sha256 host channelId mimeType bytes files id now
  have disk (name : String) (hname : host.uploadName channelId mimeType bytes id = some name) :
      (host.step sha256 (.upload channelId mimeType bytes files id now)).files =
        host.uploadedFiles name bytes files := by
    simp only [step, hname]
  constructor
  · intro after name hname path content hleaves row hrow hpath
    have kept : row ∈ ((host.step sha256
        (.upload channelId mimeType bytes files id now)).porch.tables .porchAssets).rows := by
      rcases rows with same | ⟨_, _, _, _, _, _, appended⟩
      · rwa [same]
      · rw [appended]
        exact List.mem_append_left _ hrow
    refine (after row kept).2 content ?_
    rw [disk name hname]
    show host.uploadedFiles name bytes files (host.opened row.cols.filePath) = _
    rw [hpath]
    exact uploadedFiles_of_leaves hleaves
  · intro harmless row hrow
    -- a row that was there keeps its file, or the upload left a file of its digest
    have old (hold : row ∈ (host.porch.tables .porchAssets).rows) : (host.step sha256
        (.upload channelId mimeType bytes files id now)).Sound sha256 row.cols := by
      refine ⟨(sound row hold).1, fun content hcontent => ?_⟩
      cases hname : host.uploadName channelId mimeType bytes id with
      | none =>
        have unchanged : (host.step sha256
            (.upload channelId mimeType bytes files id now)).files = host.files := by
          simp only [step, hname]
        rw [unchanged] at hcontent
        exact (sound row hold).2 content hcontent
      | some name =>
        rw [disk name hname] at hcontent
        rcases leaves_or_old hcontent with hleaves | holder
        · exact harmless name hname _ content hleaves row hold rfl
        · exact (sound row hold).2 content holder
    rcases rows with same | ⟨name, new, hname, hfiles, hpath, hsha, appended⟩
    · rw [same] at hrow
      exact old hrow
    · rw [appended, List.mem_append, List.mem_singleton] at hrow
      rcases hrow with hold | rfl
      · exact old hold
      · have opens : host.opened row.cols.filePath = host.assetsRoot ++ [name] := by
          rw [hpath, opened_uploadName hname]
        refine ⟨?_, fun content hcontent => ?_⟩
        · show host.assetsRoot <+: host.opened row.cols.filePath
          rw [opens]
          exact List.prefix_append _ _
        · rw [disk name hname] at hcontent
          change host.uploadedFiles name bytes files (host.opened row.cols.filePath) = _ at hcontent
          rw [opens, hfiles, uploadedFiles_of_leaves rfl] at hcontent
          rw [hsha, Option.some.inj hcontent]

/-- An install with an assets directory and no asset yet. -/
structure Fresh (host : AssetHost) : Prop where
  backed : host.porch.fileBacked = true
  empty : (host.porch.tables .porchAssets).rows = []

/-- **Asset reads.** In every run of an install that starts without assets, every state reads inside
the assets directory and gives bytes of the stored digest exactly when every step is harmless. -/
theorem readsStayInside_along_iff (sha256 : List UInt8 → String) (host : AssetHost)
    (fresh : host.Fresh) (events : List AssetEvent) :
    Machine.Along (step sha256) (fun host e => (host.step sha256 e).ReadsStayInside sha256) host
      events ↔ Machine.Along (step sha256) (Harmless sha256) host events := by
  have sound : AllSound sha256 host := by
    intro row hrow
    rw [fresh.empty] at hrow
    cases hrow
  have rows : Machine.Along (step sha256)
      (fun host e => (host.step sha256 e).ReadsStayInside sha256) host events ↔
        Machine.Along (step sha256) (fun host e => AllSound sha256 (host.step sha256 e)) host
          events :=
    Machine.along_congr (fun host => host.porch.fileBacked = true)
      (fun _ _ backed => backed_step backed)
      (fun _ _ backed => readsStayInside_iff (backed_step backed)) fresh.backed
  rw [rows]
  refine Machine.along_step_iff (fun host e sound => ?_) sound
  cases e with
  | upload => exact allSound_upload_iff sound
  | batch => exact allSound_batch_iff sound

end AssetHost

/-! ## A hostile row -/

/-- A fresh install with a key file on its disk. -/
def freshAssetHost : AssetHost where
  porch := plainPorch
  assetsRoot := ["data", "porch_assets"]
  files path := if path = ["data", "porch.key"] then some [115, 51, 99] else none
  names := by decide

/-- A digest that knows one text. -/
def digestOf (bytes : List UInt8) : String := if bytes = [115, 51, 99] then "5e" else "00"

/-- An asset row that names the key file. -/
def hostileAsset : SyncDelta where
  channels := []
  messages := []
  acl := []
  knocks := []
  themes := []
  assets := [{
    cols := ⟨"01HOSTILE", "porch-default", "image/png", "../porch.key", 3, "00", 7⟩
    syncDeviceId := "device-b"
    syncLamport := 9
    syncTombstone := 0 }]
  obsidian := []

theorem readsStayInside_along_iff_fresh : freshAssetHost.Fresh ∧
    (Machine.Along (AssetHost.step digestOf)
        (fun host e => (host.step digestOf e).ReadsStayInside digestOf) freshAssetHost
          [.batch hostileAsset] ↔
      Machine.Along (AssetHost.step digestOf) (AssetHost.Harmless digestOf) freshAssetHost
        [.batch hostileAsset]) :=
  ⟨⟨rfl, rfl⟩, AssetHost.readsStayInside_along_iff digestOf freshAssetHost ⟨rfl, rfl⟩ _⟩

/-- A batch of a linked device makes a visitor's read of an asset give the key file. -/
theorem key_file_read :
    let after := freshAssetHost.step digestOf (.batch hostileAsset)
    after.porch.visitAsset after.hostFiles "visitor" "01HOSTILE" =
        .ok (.inline "01HOSTILE" "image/png" [115, 51, 99]) ∧
      ¬ Machine.Along (AssetHost.step digestOf)
        (fun host e => (host.step digestOf e).ReadsStayInside digestOf) freshAssetHost
          [.batch hostileAsset] := by
  intro after
  have read : after.porch.visitAsset after.hostFiles "visitor" "01HOSTILE" =
      .ok (.inline "01HOSTILE" "image/png" [115, 51, 99]) := by decide
  refine ⟨read, fun ⟨stays, _⟩ => ?_⟩
  have stored : after.porch.getAsset "01HOSTILE" = some
      ⟨"01HOSTILE", "porch-default", "image/png", "../porch.key", 3, "00", 7⟩ := by decide
  have outside : ¬ after.assetsRoot <+: after.opened "../porch.key" := by decide
  exact outside (stays.inside _ _ stored)

end Concorrd
