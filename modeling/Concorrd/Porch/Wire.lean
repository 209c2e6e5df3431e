import Concorrd.Lib.Base64
import Concorrd.Porch.Handler

/-!
# Answers on the wire

The frame of an answer: its JSON text under a length. A value is first turned into a JSON value,
whose members stand in the order of their keys, and the envelope around it is printed as it is
declared. The reader refuses a frame whose length is over `maxEnvelopeBytes`, and so does the host
for a request; the host does not look at the length of what it writes.
-/

namespace Concorrd

/-- Largest frame a reader takes. -/
def maxEnvelopeBytes : Nat := 1024 * 1024

/-- A value or null. -/
def optionJson {α : Type} (f : α → Json) : Option α → Json
  | none => .null
  | some a => f a

def i64Json (n : Int64) : Json := .num n.toInt

def ChannelMessageCols.toJson (message : ChannelMessage) : Json :=
  .obj [("author_peer_id", .str message.authorPeerId), ("body", .str message.body),
    ("channel_id", .str message.channelId), ("created_at", i64Json message.createdAt),
    ("id", .str message.id)]

def ThemeSummary.toJson (summary : ThemeSummary) : Json :=
  .obj [("accent_color", .str summary.accentColor), ("primary_color", .str summary.primaryColor)]

def ChannelVisibility.toJson : ChannelVisibility → Json
  | .visible => .obj [("kind", .str "visible")]
  | .needsKnock existing =>
    .obj [("existing_knock", optionJson (fun status => .str status.asStr) existing),
      ("kind", .str "needs_knock")]

/-- The channel is flattened into its row, and a missing summary is left out. -/
def PorchListChannelRow.toJson (row : PorchListChannelRow) : Json :=
  .obj <|
    [("acl_mode", .str row.channel.aclMode.asStr), ("created_at", i64Json row.channel.createdAt),
      ("id", .str row.channel.id), ("kind", .str row.channel.kind.asStr),
      ("name", .str row.channel.name)] ++
    (row.themeSummary.toList.map fun summary => ("theme_summary", summary.toJson)) ++
    [("visibility", row.visibility.toJson)]

def Knock.toJson (knock : Knock) : Json :=
  .obj [("channel_id", .str knock.channelId), ("created_at", i64Json knock.createdAt),
    ("id", .str knock.id), ("knocker_peer_id", .str knock.knockerPeerId),
    ("message", optionJson .str knock.message),
    ("resolved_at", optionJson i64Json knock.resolvedAt),
    ("status", .str knock.status.asStr)]

def Background.toJson : Background → Json
  | .none => .obj [("kind", .str "none")]
  | .solid color => .obj [("kind", .str "solid"), ("value", .str color)]
  | .gradient css => .obj [("kind", .str "gradient"), ("value", .str css)]
  | .image assetId => .obj [("kind", .str "image"), ("value", .obj [("asset_id", .str assetId)])]

def ChannelTheme.toJson (theme : ChannelTheme) : Json :=
  .obj [("accent_color", .str theme.accentColor), ("background", theme.background.toJson),
    ("channel_id", .str theme.channelId), ("font_family", .str theme.fontFamily.asStr),
    ("on_surface_color", .str theme.onSurfaceColor), ("primary_color", .str theme.primaryColor),
    ("surface_color", .str theme.surfaceColor), ("updated_at", i64Json theme.updatedAt)]

def AssetBytesResponse.toJson : AssetBytesResponse → Json
  | .inline assetId mimeType bytes =>
    .obj [("asset_id", .str assetId), ("bytes_b64", .str (Base64.encode bytes)),
      ("kind", .str "inline"), ("mime_type", .str mimeType)]
  | .tooLarge assetId mimeType bytes =>
    .obj [("asset_id", .str assetId), ("bytes", .num bytes.toNat), ("kind", .str "too_large"),
      ("mime_type", .str mimeType)]

def EntryKind.asStr : EntryKind → String
  | .file => "file"
  | .directory => "directory"

def VaultEntry.toJson (entry : VaultEntry) : Json :=
  .obj [("kind", .str entry.kind.asStr), ("modified_at", optionJson i64Json entry.modifiedAt),
    ("path", .str entry.path),
    ("size", optionJson (fun size : UInt64 => .num size.toNat) entry.size)]

def VaultFileResponse.toJson : VaultFileResponse → Json
  | .inline path mimeType bytes size =>
    .obj [("bytes_b64", .str (Base64.encode bytes)), ("kind", .str "inline"),
      ("mime_type", .str mimeType), ("path", .str path), ("size", .num size)]
  | .tooLarge path mimeType size =>
    .obj [("kind", .str "too_large"), ("mime_type", .str mimeType), ("path", .str path),
      ("size", .num size)]

def PorchResult.toJson : PorchResult → Json
  | .channels rows => .arr (rows.map PorchListChannelRow.toJson)
  | .messages page => .arr (page.map ChannelMessageCols.toJson)
  | .message posted => posted.toJson
  | .knock filed => filed.toJson
  | .knockStatus latest => optionJson Knock.toJson latest
  | .theme stored => stored.toJson
  | .asset response => response.toJson
  | .entries listing => .arr (listing.map VaultEntry.toJson)
  | .file response => response.toJson

/-- The JSON text of an answer. -/
def responseText : PorchResponse → String
  | .ok result => Json.write (.obj [("ok", .bool true), ("result", result.toJson)])
  | .error body =>
    Json.write (.obj [("ok", .bool false),
      ("error", .obj [("code", .num body.code), ("message", .str body.message)])])

namespace Porch

/-- Take one frame of a visitor: its length and the request in it. A frame that is too large ends
the stream without an answer. -/
def handleFrame (files : HostFiles) (p : Porch) (visitor : String) (len : UInt32)
    (call : PorchCall) : Porch × Option String :=
  if len.toNat > maxEnvelopeBytes then (p, none)
  else
    let (p', response) := dispatchPorch files p visitor call
    (p', some (responseText response))

end Porch

end Concorrd
