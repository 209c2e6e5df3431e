import Concorrd.Porch.Wire

/-!
# Reading answers and requests

What serde reads of a JSON value for the types that go over the wire: a missing or unreadable member
fails, a missing or null member of an optional field is none, and members that no field names are passed
over. Every type reads back what it prints.
-/

namespace Concorrd

/-! ## Fields -/

namespace Serde

variable {α : Type}

def field (read : Json → Option α) (json : Json) (key : String) : Option α := (json.get key).bind read

/-- A field of an optional type. -/
def optional (read : Json → Option α) (json : Json) (key : String) : Option (Option α) :=
  match json.get key with
  | none => some none
  | some .null => some none
  | some value => (read value).map some

def u32 : Json → Option UInt32
  | .num n => if 0 ≤ n ∧ n < 2 ^ 32 then some (UInt32.ofNat n.toNat) else none
  | _ => none

def u64 : Json → Option UInt64
  | .num n => if 0 ≤ n ∧ n < 2 ^ 64 then some (UInt64.ofNat n.toNat) else none
  | _ => none

def i32 : Json → Option Int
  | .num n => if -2 ^ 31 ≤ n ∧ n < 2 ^ 31 then some n else none
  | _ => none

def items (read : Json → Option α) : Json → Option (List α)
  | .arr items => items.mapM read
  | _ => none

theorem i64_toJson (n : Int64) : Json.asI64 (i64Json n) = some n := by
  have low := n.le_toInt
  have high := n.toInt_lt
  rw [i64Json, Json.asI64, if_pos ⟨low, high⟩, Int64.ofInt_toInt]

theorem u32_toJson (n : UInt32) : u32 (.num n.toNat) = some n := by
  have := n.toNat_lt
  rw [u32, if_pos (by omega), Int.toNat_natCast, UInt32.ofNat_toNat]

theorem u64_num {n : Nat} (fits : n < 2 ^ 64) : u64 (.num n) = some (.ofNat n) := by
  rw [u64, if_pos (by omega), Int.toNat_natCast]

theorem u64_toJson (n : UInt64) : u64 (.num n.toNat) = some n := by
  rw [u64_num n.toNat_lt, UInt64.ofNat_toNat]

theorem field_eq {json value : Json} {key : String} {read : Json → Option α} {a : α}
    (member : json.get key = some value) (back : read value = some a) : field read json key = some a := by
  rw [field, member]
  exact back

theorem items_map {f : α → Json} {read : Json → Option α} (back : ∀ a, read (f a) = some a)
    (l : List α) : items read (.arr (l.map f)) = some l := by
  rw [items]
  induction l with
  | nil => rfl
  | cons a l ih =>
    rw [List.map_cons, List.mapM_cons, back, ih]
    rfl

/-- A value that is optional and not null is read when it is there. -/
theorem optional_optionJson {json : Json} {key : String} {f : α → Json} {read : Json → Option α}
    {value : Option α} (member : json.get key = some (optionJson f value))
    (back : ∀ a, read (f a) = some a) (full : ∀ a, f a ≠ .null) :
    optional read json key = some value := by
  rw [optional, member]
  cases value with
  | none => rfl
  | some a =>
    rw [optionJson]
    split
    · rename_i h
      cases h
    · rename_i h
      exact absurd (Option.some.inj h) (full a)
    · rename_i v _ h
      rw [← Option.some.inj h, back]
      rfl

end Serde

open Serde (field optional)

/-! ## Answers -/

def ChannelMessageCols.ofJson (json : Json) : Option ChannelMessage := do
  let id ← field Json.asStr json "id"
  let channelId ← field Json.asStr json "channel_id"
  let authorPeerId ← field Json.asStr json "author_peer_id"
  let body ← field Json.asStr json "body"
  let createdAt ← field Json.asI64 json "created_at"
  some { id, channelId, authorPeerId, body, createdAt }

def ThemeSummary.ofJson (json : Json) : Option ThemeSummary := do
  let primaryColor ← field Json.asStr json "primary_color"
  let accentColor ← field Json.asStr json "accent_color"
  some { primaryColor, accentColor }

def KnockStatus.ofJson (json : Json) : Option KnockStatus := json.asStr.bind KnockStatus.fromStr

def ChannelVisibility.ofJson (json : Json) : Option ChannelVisibility :=
  (field Json.asStr json "kind").bind fun kind =>
    if kind = "visible" then some .visible
    else if kind = "needs_knock" then
      (optional KnockStatus.ofJson json "existing_knock").map .needsKnock
    else none

def PorchChannel.ofJson (json : Json) : Option PorchChannel := do
  let id ← field Json.asStr json "id"
  let name ← field Json.asStr json "name"
  let kind ← (field Json.asStr json "kind").bind ChannelKind.fromStr
  let aclMode ← (field Json.asStr json "acl_mode").bind AclMode.fromStr
  let createdAt ← field Json.asI64 json "created_at"
  some { id, name, kind, aclMode, createdAt }

def PorchListChannelRow.ofJson (json : Json) : Option PorchListChannelRow := do
  let channel ← PorchChannel.ofJson json
  let visibility ← field ChannelVisibility.ofJson json "visibility"
  let themeSummary ← optional ThemeSummary.ofJson json "theme_summary"
  some { channel, visibility, themeSummary }

def Knock.ofJson (json : Json) : Option Knock := do
  let id ← field Json.asStr json "id"
  let channelId ← field Json.asStr json "channel_id"
  let knockerPeerId ← field Json.asStr json "knocker_peer_id"
  let message ← optional Json.asStr json "message"
  let status ← field KnockStatus.ofJson json "status"
  let createdAt ← field Json.asI64 json "created_at"
  let resolvedAt ← optional Json.asI64 json "resolved_at"
  some { id, channelId, knockerPeerId, message, status, createdAt, resolvedAt }

def Background.ofJson (json : Json) : Option Background :=
  (field Json.asStr json "kind").bind fun kind =>
    if kind = "none" then some .none
    else if kind = "solid" then (field Json.asStr json "value").map .solid
    else if kind = "gradient" then (field Json.asStr json "value").map .gradient
    else if kind = "image" then
      (json.get "value").bind fun value => (field Json.asStr value "asset_id").map .image
    else none

def ChannelTheme.ofJson (json : Json) : Option ChannelTheme := do
  let channelId ← field Json.asStr json "channel_id"
  let primaryColor ← field Json.asStr json "primary_color"
  let surfaceColor ← field Json.asStr json "surface_color"
  let onSurfaceColor ← field Json.asStr json "on_surface_color"
  let accentColor ← field Json.asStr json "accent_color"
  let fontFamily ← (field Json.asStr json "font_family").bind FontFamily.fromStr
  let background ← field Background.ofJson json "background"
  let updatedAt ← field Json.asI64 json "updated_at"
  some { channelId, primaryColor, surfaceColor, onSurfaceColor, accentColor, fontFamily, background,
         updatedAt }

def EntryKind.fromStr (text : String) : Option EntryKind :=
  if text = "file" then some .file else if text = "directory" then some .directory else none

def VaultEntry.ofJson (json : Json) : Option VaultEntry := do
  let path ← field Json.asStr json "path"
  let kind ← (field Json.asStr json "kind").bind EntryKind.fromStr
  let size ← optional Serde.u64 json "size"
  let modifiedAt ← optional Json.asI64 json "modified_at"
  some { path, kind, size, modifiedAt }

/-- An asset as it is read: the bytes are still text. -/
inductive AssetBytesRead where
  | inline (assetId mimeType bytesB64 : String)
  | tooLarge (assetId mimeType : String) (bytes : UInt64)

def AssetBytesRead.ofJson (json : Json) : Option AssetBytesRead := do
  let kind ← field Json.asStr json "kind"
  let assetId ← field Json.asStr json "asset_id"
  let mimeType ← field Json.asStr json "mime_type"
  if kind = "inline" then (field Json.asStr json "bytes_b64").map (.inline assetId mimeType)
  else if kind = "too_large" then (field Serde.u64 json "bytes").map (.tooLarge assetId mimeType)
  else none

/-- A file as it is read. -/
inductive VaultFileRead where
  | inline (path mimeType bytesB64 : String) (size : UInt64)
  | tooLarge (path mimeType : String) (size : UInt64)

def VaultFileRead.ofJson (json : Json) : Option VaultFileRead := do
  let kind ← field Json.asStr json "kind"
  let path ← field Json.asStr json "path"
  let mimeType ← field Json.asStr json "mime_type"
  let size ← field Serde.u64 json "size"
  if kind = "inline" then (field Json.asStr json "bytes_b64").map fun text => .inline path mimeType text size
  else if kind = "too_large" then some (.tooLarge path mimeType size)
  else none

/-! ## What is printed is read back -/

theorem str_ne_null (text : String) : Json.str text ≠ .null := by
  intro h
  cases h

theorem i64Json_ne_null (n : Int64) : i64Json n ≠ .null := by
  intro h
  cases h

theorem ChannelMessageCols.ofJson_toJson (message : ChannelMessage) :
    ChannelMessageCols.ofJson message.toJson = some message := by
  have createdAt : field Json.asI64 message.toJson "created_at" = some message.createdAt :=
    Serde.i64_toJson _
  rw [ChannelMessageCols.ofJson, createdAt]
  rfl

theorem KnockStatus.ofJson_str (status : KnockStatus) :
    KnockStatus.ofJson (.str status.asStr) = some status := KnockStatus.fromStr_asStr status

theorem ChannelVisibility.ofJson_toJson (visibility : ChannelVisibility) :
    ChannelVisibility.ofJson visibility.toJson = some visibility := by
  cases visibility with
  | visible => rfl
  | needsKnock existing =>
    have status : optional KnockStatus.ofJson (ChannelVisibility.needsKnock existing).toJson
        "existing_knock" = some existing :=
      Serde.optional_optionJson rfl KnockStatus.ofJson_str fun _ => str_ne_null _
    show (optional KnockStatus.ofJson (ChannelVisibility.needsKnock existing).toJson
      "existing_knock").map ChannelVisibility.needsKnock = _
    rw [status]
    rfl

theorem PorchListChannelRow.ofJson_toJson (row : PorchListChannelRow) :
    PorchListChannelRow.ofJson row.toJson = some row := by
  have channel : PorchChannel.ofJson row.toJson = some row.channel := by
    have kind : (field Json.asStr row.toJson "kind").bind ChannelKind.fromStr = some row.channel.kind :=
      ChannelKind.fromStr_asStr _
    have aclMode : (field Json.asStr row.toJson "acl_mode").bind AclMode.fromStr =
        some row.channel.aclMode := AclMode.fromStr_asStr _
    have createdAt : field Json.asI64 row.toJson "created_at" = some row.channel.createdAt :=
      Serde.i64_toJson _
    rw [PorchChannel.ofJson, kind, aclMode, createdAt]
    rfl
  have visibility : field ChannelVisibility.ofJson row.toJson "visibility" = some row.visibility := by
    have member : row.toJson.get "visibility" = some row.visibility.toJson := by
      rw [PorchListChannelRow.toJson]
      cases row.themeSummary <;> rfl
    rw [field, member]
    exact ChannelVisibility.ofJson_toJson _
  have summary : optional ThemeSummary.ofJson row.toJson "theme_summary" = some row.themeSummary := by
    rw [Serde.optional, PorchListChannelRow.toJson]
    cases row.themeSummary with
    | none => rfl
    | some summary => rfl
  rw [PorchListChannelRow.ofJson, channel, visibility, summary]
  rfl

theorem Knock.ofJson_toJson (knock : Knock) : Knock.ofJson knock.toJson = some knock := by
  have message : optional Json.asStr knock.toJson "message" = some knock.message :=
    Serde.optional_optionJson rfl (fun _ => rfl) str_ne_null
  have status : field KnockStatus.ofJson knock.toJson "status" = some knock.status :=
    KnockStatus.ofJson_str _
  have createdAt : field Json.asI64 knock.toJson "created_at" = some knock.createdAt :=
    Serde.i64_toJson _
  have resolvedAt : optional Json.asI64 knock.toJson "resolved_at" = some knock.resolvedAt :=
    Serde.optional_optionJson rfl Serde.i64_toJson i64Json_ne_null
  rw [Knock.ofJson, message, status, createdAt, resolvedAt]
  rfl

theorem Background.ofJson_toJson (background : Background) :
    Background.ofJson background.toJson = some background := by
  cases background <;> rfl

theorem ChannelTheme.ofJson_toJson (theme : ChannelTheme) :
    ChannelTheme.ofJson theme.toJson = some theme := by
  have font : (field Json.asStr theme.toJson "font_family").bind FontFamily.fromStr =
      some theme.fontFamily := FontFamily.fromStr_asStr _
  have background : field Background.ofJson theme.toJson "background" = some theme.background :=
    Background.ofJson_toJson _
  have updatedAt : field Json.asI64 theme.toJson "updated_at" = some theme.updatedAt :=
    Serde.i64_toJson _
  rw [ChannelTheme.ofJson, font, background, updatedAt]
  rfl

theorem VaultEntry.ofJson_toJson (entry : VaultEntry) : VaultEntry.ofJson entry.toJson = some entry := by
  have kind : (field Json.asStr entry.toJson "kind").bind EntryKind.fromStr = some entry.kind := by
    show EntryKind.fromStr entry.kind.asStr = _
    cases entry.kind <;> rfl
  have size : optional Serde.u64 entry.toJson "size" = some entry.size :=
    Serde.optional_optionJson rfl Serde.u64_toJson fun _ h => by cases h
  have modifiedAt : optional Json.asI64 entry.toJson "modified_at" = some entry.modifiedAt :=
    Serde.optional_optionJson rfl Serde.i64_toJson i64Json_ne_null
  rw [VaultEntry.ofJson, kind, size, modifiedAt]
  rfl

/-- An asset is read with its bytes as text. -/
def AssetBytesResponse.read : AssetBytesResponse → AssetBytesRead
  | .inline assetId mimeType bytes => .inline assetId mimeType (Base64.encode bytes)
  | .tooLarge assetId mimeType bytes => .tooLarge assetId mimeType bytes

theorem AssetBytesRead.ofJson_toJson (response : AssetBytesResponse) :
    AssetBytesRead.ofJson response.toJson = some response.read := by
  cases response with
  | inline assetId mimeType bytes => rfl
  | tooLarge assetId mimeType bytes =>
    have length : field Serde.u64 (AssetBytesResponse.tooLarge assetId mimeType bytes).toJson "bytes" =
        some bytes := Serde.field_eq rfl (Serde.u64_toJson bytes)
    rw [AssetBytesRead.ofJson, length]
    rfl

def VaultFileResponse.size : VaultFileResponse → Nat
  | .inline _ _ _ size | .tooLarge _ _ size => size

/-- A file is read with its bytes as text. -/
def VaultFileResponse.read : VaultFileResponse → VaultFileRead
  | .inline path mimeType bytes size => .inline path mimeType (Base64.encode bytes) (.ofNat size)
  | .tooLarge path mimeType size => .tooLarge path mimeType (.ofNat size)

/-- A size that fits the word is read back. -/
theorem VaultFileRead.ofJson_toJson (response : VaultFileResponse) (fits : response.size < 2 ^ 64) :
    VaultFileRead.ofJson response.toJson = some response.read := by
  cases response with
  | inline path mimeType bytes size' =>
    have member : field Serde.u64 (VaultFileResponse.inline path mimeType bytes size').toJson "size" =
        some (.ofNat size') := Serde.field_eq rfl (Serde.u64_num fits)
    rw [VaultFileRead.ofJson, member]
    rfl
  | tooLarge path mimeType size' =>
    have member : field Serde.u64 (VaultFileResponse.tooLarge path mimeType size').toJson "size" =
        some (.ofNat size') := Serde.field_eq rfl (Serde.u64_num fits)
    rw [VaultFileRead.ofJson, member]
    rfl

/-! ## Requests -/

/-- A request as serde prints it. -/
def PorchRequest.toJson (request : PorchRequest) : Json :=
  let call (method : String) (params : List (String × Json)) : Json :=
    .obj [("method", .str method), ("params", .obj params)]
  match request with
  | .listChannels => .obj [("method", .str "ListChannels")]
  | .getMessages channelId since limit =>
    call "GetMessages"
      [("channel_id", .str channelId), ("since", optionJson i64Json since), ("limit", .num limit.toNat)]
  | .postMessage channelId body => call "PostMessage" [("channel_id", .str channelId), ("body", .str body)]
  | .knock channelId message =>
    call "Knock" [("channel_id", .str channelId), ("message", optionJson .str message)]
  | .knockStatus channelId => call "KnockStatus" [("channel_id", .str channelId)]
  | .withdrawKnock knockId => call "WithdrawKnock" [("knock_id", .str knockId)]
  | .getTheme channelId => call "GetTheme" [("channel_id", .str channelId)]
  | .getAssetBytes assetId => call "GetAssetBytes" [("asset_id", .str assetId)]
  | .listVault channelId path => call "ListVault" [("channel_id", .str channelId), ("path", .str path)]
  | .getVaultFile channelId path =>
    call "GetVaultFile" [("channel_id", .str channelId), ("path", .str path)]

/-- A request as a browser has it: the list of channels has null parameters. -/
def PorchRequest.toScript (request : PorchRequest) : Json :=
  match request with
  | .listChannels => .obj [("method", .str "ListChannels"), ("params", .null)]
  | request => request.toJson

def PorchRequest.ofParams (method : String) (params : Json) : Option PorchRequest := do
  if method = "GetMessages" then
    let channelId ← field Json.asStr params "channel_id"
    let since ← optional Json.asI64 params "since"
    let limit ← field Serde.u32 params "limit"
    some (.getMessages channelId since limit)
  else if method = "PostMessage" then
    let channelId ← field Json.asStr params "channel_id"
    (field Json.asStr params "body").map (.postMessage channelId)
  else if method = "Knock" then
    let channelId ← field Json.asStr params "channel_id"
    (optional Json.asStr params "message").map (.knock channelId)
  else if method = "KnockStatus" then (field Json.asStr params "channel_id").map .knockStatus
  else if method = "WithdrawKnock" then (field Json.asStr params "knock_id").map .withdrawKnock
  else if method = "GetTheme" then (field Json.asStr params "channel_id").map .getTheme
  else if method = "GetAssetBytes" then (field Json.asStr params "asset_id").map .getAssetBytes
  else if method = "ListVault" then
    let channelId ← field Json.asStr params "channel_id"
    (field Json.asStr params "path").map (.listVault channelId)
  else if method = "GetVaultFile" then
    let channelId ← field Json.asStr params "channel_id"
    (field Json.asStr params "path").map (.getVaultFile channelId)
  else none

/-- A request as the host reads it. -/
def PorchRequest.ofJson (json : Json) : Option PorchRequest :=
  (field Json.asStr json "method").bind fun method =>
    if method = "ListChannels" then
      if json.get "params" = none ∨ json.get "params" = some .null then some .listChannels else none
    else (json.get "params").bind (PorchRequest.ofParams method)

theorem PorchRequest.ofJson_toJson (request : PorchRequest) :
    PorchRequest.ofJson request.toJson = some request := by
  cases request with
  | getMessages channelId since limit =>
    have earlier : optional Json.asI64 (.obj [("channel_id", .str channelId),
        ("since", optionJson i64Json since), ("limit", .num limit.toNat)]) "since" = some since :=
      Serde.optional_optionJson rfl Serde.i64_toJson i64Json_ne_null
    have most : field Serde.u32 (.obj [("channel_id", .str channelId),
        ("since", optionJson i64Json since), ("limit", .num limit.toNat)]) "limit" = some limit :=
      Serde.field_eq rfl (Serde.u32_toJson limit)
    show PorchRequest.ofParams "GetMessages" (.obj [("channel_id", .str channelId),
      ("since", optionJson i64Json since), ("limit", .num limit.toNat)]) = _
    rw [PorchRequest.ofParams, earlier, most]
    rfl
  | knock channelId message =>
    have text : optional Json.asStr (.obj [("channel_id", .str channelId),
        ("message", optionJson .str message)]) "message" = some message :=
      Serde.optional_optionJson rfl (fun _ => rfl) str_ne_null
    show PorchRequest.ofParams "Knock" (.obj [("channel_id", .str channelId),
      ("message", optionJson .str message)]) = _
    rw [PorchRequest.ofParams, text]
    rfl
  | listChannels | postMessage channelId body | knockStatus channelId | withdrawKnock knockId
  | getTheme channelId | getAssetBytes assetId | listVault channelId path
  | getVaultFile channelId path => rfl

theorem PorchRequest.ofJson_toScript (request : PorchRequest) :
    PorchRequest.ofJson request.toScript = some request := by
  by_cases listing : request = .listChannels
  · rw [listing]
    rfl
  · have same : request.toScript = request.toJson := by
      cases request with
      | listChannels => exact absurd rfl listing
      | _ => rfl
    rw [same, PorchRequest.ofJson_toJson]

end Concorrd
