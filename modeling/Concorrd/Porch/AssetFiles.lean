import Concorrd.Lib.LexicalPath
import Concorrd.Porch.Handler
import Concorrd.Sync.Batch

/-!
# The assets directory

An install with its disk. An upload writes the bytes under a fresh name in the assets directory and
inserts the row of the asset; a batch of another device inserts rows alone, with the file path they
came with. `opened` is the file that reading an asset opens. Files are known by the names that lead
to them from the top of the disk, and no link is on the way.
-/

namespace Concorrd

/-- A drawn id. It has no slash. -/
structure Ulid where
  text : String
  plain : '/' ∉ text.toList

/-- What writing an upload to the disk came to. A failure may leave a temporary file. -/
inductive UploadFiles where
  | written
  | failed (e : PorchError) (left : Option (List UInt8))

/-- What the upload is told. -/
def UploadFiles.outcome : UploadFiles → Except PorchError Unit
  | .written => .ok ()
  | .failed e _ => .error e

/-- The file an upload leaves on the disk, and its bytes. -/
def UploadFiles.leaves (root : List String) (name : String) (bytes : List UInt8) :
    UploadFiles → Option (List String × List UInt8)
  | .written => some (root ++ [name], bytes)
  | .failed _ left => left.map fun left => (root ++ [name ++ ".tmp"], left)

/-- An install, its assets directory and the files of its disk. -/
structure AssetHost where
  porch : Porch
  assetsRoot : List String
  files : List String → Option (List UInt8)
  /-- The directory is known by names. -/
  names : ".." ∉ assetsRoot

namespace AssetHost

variable (host : AssetHost)

/-- The path `read_asset_bytes` opens for a stored file path. -/
def opened (filePath : String) : List String :=
  LexicalPath.follow [] ((⟨true, host.assetsRoot⟩ : VaultPath).join (.ofString filePath)).segments

/-- Read the file of an asset. -/
def readAsset (filePath : String) : Except String (List UInt8) :=
  match host.files (host.opened filePath) with
  | some bytes => .ok bytes
  | none => .error "No such file or directory (os error 2)"

/-- The files of the install as the handler asks for them. -/
def hostFiles : HostFiles := { noHostFiles with readAsset := host.readAsset }

/-- The asset and its bytes. -/
def readAssetBytes (assetId : String) : Except PorchError (PorchAsset × List UInt8) :=
  host.porch.readAssetBytes host.readAsset assetId

/-- The file name of an upload that passes the checks before the disk is written. -/
def uploadName (channelId mimeType : String) (bytes : List UInt8) (id : Ulid) : Option String :=
  if bytes.isEmpty ∨ bytes.length > maxAssetUploadBytes then none
  else
    match extForMime mimeType with
    | none => none
    | some ext =>
      if (host.porch.getChannel channelId).isNone ∨ host.porch.fileBacked = false then none
      else some (id.text ++ "." ++ ext)

/-- The files after an upload under a name. The temporary file is moved, or is what is left. -/
def uploadedFiles (name : String) (bytes : List UInt8) (files : UploadFiles) :
    List String → Option (List UInt8) :=
  match files.leaves host.assetsRoot name bytes with
  | none => host.files
  | some (path, content) =>
    Function.update (Function.update host.files (host.assetsRoot ++ [name ++ ".tmp"]) none)
      path (some content)

end AssetHost

/-- An upload of the owner, or a batch of another device. -/
inductive AssetEvent where
  | upload (channelId mimeType : String) (bytes : List UInt8) (files : UploadFiles) (id : Ulid)
      (now : Int64)
  | batch (delta : SyncDelta)

namespace AssetHost

variable (sha256 : List UInt8 → String)

/-- One event. The row of an upload may still be refused when its file is written. -/
def step (host : AssetHost) : AssetEvent → AssetHost
  | .upload channelId mimeType bytes files id now =>
    { host with
      porch :=
        match host.porch.uploadAsset channelId mimeType bytes files.outcome sha256 id.text now with
        | .ok out => out.porch
        | .error _ => host.porch
      files := match host.uploadName channelId mimeType bytes id with
        | some name => host.uploadedFiles name bytes files
        | none => host.files }
  | .batch delta =>
    { host with
      porch := match host.porch.applySyncBatch delta with
        | .ok (p, _) => p
        | .error _ => host.porch }

end AssetHost

end Concorrd
