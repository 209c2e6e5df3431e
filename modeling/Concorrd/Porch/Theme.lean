import Concorrd.Porch.Channels

/-!
# Themes and assets

Setting the theme of a channel and uploading an image for it. What the file system answers
to the upload is an argument, as is the digest of the bytes.
-/

namespace Concorrd

/-- Upload cap of an asset. -/
def maxAssetUploadBytes : Nat := 5 * 1024 * 1024

/-- Theme of a channel. -/
structure ChannelTheme where
  channelId : String
  primaryColor : String
  surfaceColor : String
  onSurfaceColor : String
  accentColor : String
  fontFamily : FontFamily
  background : Background
  updatedAt : Int64
  deriving DecidableEq, Repr

/-- The columns a theme is stored as, stamped with the time of the write. -/
def ChannelTheme.toCols (theme : ChannelTheme) (now : Int64) : ChannelThemeCols where
  channelId := theme.channelId
  primaryColor := theme.primaryColor
  surfaceColor := theme.surfaceColor
  onSurfaceColor := theme.onSurfaceColor
  accentColor := theme.accentColor
  fontFamily := theme.fontFamily.asStr
  backgroundKind := theme.background.kindStr
  backgroundValue := theme.background.valueStr
  updatedAt := now

/-- Public record of an asset. -/
structure PorchAsset where
  id : String
  channelId : String
  mimeType : String
  filePath : String
  bytes : UInt64
  sha256 : String
  createdAt : Int64
  deriving DecidableEq, Repr

/-- File extension of an allowed image type. -/
def extForMime : String → Option String
  | "image/png" => some "png"
  | "image/jpeg" => some "jpg"
  | "image/webp" => some "webp"
  | "image/gif" => some "gif"
  | _ => none

/-- `#RRGGBB` -/
def validateHex (value field : String) : Except PorchError Unit :=
  if value.utf8ByteSize ≠ 7 ∨ value.toList.head? ≠ some '#' then
    .error (.invalidInput (field ++ " must be #RRGGBB (got " ++ value.quote ++ ")"))
  else if ¬ (value.toList.drop 1).all
      (fun c => c.isDigit || ('a' ≤ c && c ≤ 'f') || ('A' ≤ c && c ≤ 'F')) then
    .error (.invalidInput (field ++ " must be hex (got " ++ value.quote ++ ")"))
  else .ok ()

/-- Shape of a background before it is stored. -/
def validateBackground (theme : ChannelTheme) : Except PorchError Unit :=
  match theme.background with
  | .none => .ok ()
  | .solid hex => validateHex hex "background.solid"
  | .gradient css =>
    if css.isEmpty then .error (.invalidInput "background.gradient must not be empty")
    else if css.utf8ByteSize > 2048 then
      .error (.invalidInput ("background.gradient too long: " ++ toString css.utf8ByteSize ++
        " > 2048"))
    else .ok ()
  | .image assetId =>
    if assetId.isEmpty then
      .error (.invalidInput "background.image.asset_id must not be empty")
    else .ok ()

namespace Porch

/-- An image background names an asset of the theme's own channel. -/
def validateImage (p : Porch) (theme : ChannelTheme) : Except PorchError Unit :=
  match theme.background with
  | .image assetId =>
    match p.db.find? .porchAssets assetId with
    | some asset =>
      if asset.cols.channelId = theme.channelId then .ok ()
      else .error (.invalidInput ("asset " ++ assetId ++ " belongs to a different channel"))
    | none => .error (.invalidInput ("asset " ++ assetId ++ " does not exist"))
  | _ => .ok ()

/-- Every check a theme passes before it is stored. -/
def validateTheme (p : Porch) (theme : ChannelTheme) : Except PorchError Unit := do
  validateHex theme.primaryColor "primary_color"
  validateHex theme.surfaceColor "surface_color"
  validateHex theme.onSurfaceColor "on_surface_color"
  validateHex theme.accentColor "accent_color"
  validateBackground theme
  p.validateImage theme

/-- `ON CONFLICT(channel_id) DO UPDATE SET …` of a theme. -/
def themeConflict (new old : ChannelThemeRow) : ChannelThemeRow :=
  { old with
    cols := { old.cols with
      primaryColor := new.cols.primaryColor
      surfaceColor := new.cols.surfaceColor
      onSurfaceColor := new.cols.onSurfaceColor
      accentColor := new.cols.accentColor
      fontFamily := new.cols.fontFamily
      backgroundKind := new.cols.backgroundKind
      backgroundValue := new.cols.backgroundValue
      updatedAt := new.cols.updatedAt }
    syncDeviceId := new.syncDeviceId
    syncLamport := new.syncLamport
    syncTombstone := 0 }

/-- Insert or replace the theme of a channel. -/
def setTheme (p : Porch) (theme : ChannelTheme) (now : Int64) :
    Except PorchError (Outcome ChannelTheme) :=
  if (p.getChannel theme.channelId).isNone then
    .error (.channelNotFound theme.channelId)
  else
    match p.validateTheme theme with
    | .error e => .error e
    | .ok () =>
      let row := p.stampRow .channelThemes p.nextLamport (theme.toCols now)
      p.finish [⟨.channelThemes, row⟩] { theme with updatedAt := now }
        (p.db.upsert .channelThemes row (themeConflict row) fun _ => rfl)

/-- Upload an image. `files` is what creating the directory, writing the temporary file,
syncing it and renaming it answered; `sha256` digests the bytes. -/
def uploadAsset (p : Porch) (channelId mimeType : String) (bytes : List UInt8)
    (files : Except PorchError Unit) (sha256 : List UInt8 → String) (id : String) (now : Int64) :
    Except PorchError (Outcome PorchAsset) :=
  if bytes.isEmpty then
    .error (.invalidInput "asset upload: bytes must not be empty")
  else if bytes.length > maxAssetUploadBytes then
    .error (.invalidInput ("asset upload: " ++ toString bytes.length ++ " > " ++
      toString maxAssetUploadBytes))
  else
    match extForMime mimeType with
    | none =>
      .error (.invalidInput ("asset upload: mime " ++ mimeType ++
        " not allowed (png, jpeg, webp, gif only)"))
    | some ext =>
      if (p.getChannel channelId).isNone then
        .error (.channelNotFound channelId)
      else if p.fileBacked = false then
        .error (.invalidInput "asset upload: in-memory porch has no filesystem asset root")
      else
        match files with
        | .error e => .error e
        | .ok () =>
          let fileName := id ++ "." ++ ext
          let sha := sha256 bytes
          let row := p.stampRow .porchAssets p.nextLamport
            ⟨id, channelId, mimeType, fileName, Int64.ofNat bytes.length, sha, now⟩
          let answer : PorchAsset :=
            ⟨id, channelId, mimeType, fileName, UInt64.ofNat bytes.length, sha, now⟩
          p.finish [⟨.porchAssets, row⟩] answer (p.db.insert .porchAssets row)

variable {p : Porch} {now : Int64}

/-- On a conflict the theme leaves the row it would have inserted. -/
theorem themeConflict_eq {new old : ChannelThemeRow} (hk : old.key = new.key)
    (alive : new.syncTombstone = 0) : themeConflict new old = new := by
  obtain ⟨cols, device, lamport, tombstone⟩ := new
  obtain ⟨cols', device', lamport', tombstone'⟩ := old
  cases cols
  cases cols'
  cases hk
  cases alive
  rfl

theorem localWrite_setTheme {theme : ChannelTheme} {out : Outcome ChannelTheme}
    (h : p.setTheme theme now = .ok out) :
    LocalWrite p out [⟨.channelThemes, theme.channelId⟩] [p.nextLamport] := by
  unfold setTheme at h
  split at h
  · cases h
  split at h
  · cases h
  obtain ⟨db, hdb, rfl⟩ := finish_eq_ok h
  exact .of_one (Database.puts_of_upsert (fun _ hk => themeConflict_eq hk rfl) hdb) rfl rfl rfl

theorem localWrite_uploadAsset {channelId mimeType id : String} {bytes : List UInt8}
    {files : Except PorchError Unit} {sha256 : List UInt8 → String} {out : Outcome PorchAsset}
    (h : p.uploadAsset channelId mimeType bytes files sha256 id now = .ok out) :
    LocalWrite p out [⟨.porchAssets, id⟩] [p.nextLamport] := by
  unfold uploadAsset at h
  split at h
  · cases h
  split at h
  · cases h
  split at h
  · cases h
  split at h
  · cases h
  split at h
  · cases h
  split at h
  · cases h
  obtain ⟨db, hdb, rfl⟩ := finish_eq_ok h
  exact .of_one (Database.puts_of_insert hdb).2 rfl rfl rfl

end Porch

end Concorrd
