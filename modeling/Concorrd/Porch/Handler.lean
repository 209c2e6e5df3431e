import Concorrd.Lib.Unwinding
import Concorrd.Porch.Readers
import Concorrd.Porch.Vault

/-!
# The visitor protocol

`dispatch` answers one request of a visitor. Requests and answers are values here: framing, JSON
and base64 are not part of the model. The ids a request draws and the clock are arguments, and so is
what the file system answers.
-/

namespace Concorrd

/-- Largest asset or file that is answered inline. -/
def maxInlineAssetBytes : Nat := 256 * 1024

/-- A request of a visitor. -/
inductive PorchRequest where
  | listChannels
  | getMessages (channelId : String) (since : Option Int64) (limit : UInt32)
  | postMessage (channelId body : String)
  | knock (channelId : String) (message : Option String)
  | knockStatus (channelId : String)
  | withdrawKnock (knockId : String)
  | getTheme (channelId : String)
  | getAssetBytes (assetId : String)
  | listVault (channelId path : String)
  | getVaultFile (channelId path : String)
  deriving DecidableEq, Repr

/-- What a visitor can do with a channel. -/
inductive ChannelVisibility where
  | visible
  | needsKnock (existingKnock : Option KnockStatus)
  deriving DecidableEq, Repr

/-- A row of the channel list. -/
structure PorchListChannelRow where
  channel : PorchChannel
  visibility : ChannelVisibility
  themeSummary : Option ThemeSummary
  deriving DecidableEq, Repr

/-- An asset, or a mark that it is too large. -/
inductive AssetBytesResponse where
  | inline (assetId mimeType : String) (bytes : List UInt8)
  | tooLarge (assetId mimeType : String) (bytes : UInt64)
  deriving DecidableEq, Repr

/-- A file of a vault, or a mark that it is too large. -/
inductive VaultFileResponse where
  | inline (path mimeType : String) (bytes : List UInt8) (size : Nat)
  | tooLarge (path mimeType : String) (size : Nat)
  deriving DecidableEq, Repr

/-- The value of an answer that is not an error. -/
inductive PorchResult where
  | channels (rows : List PorchListChannelRow)
  | messages (messages : List ChannelMessage)
  | message (message : ChannelMessage)
  | knock (knock : Knock)
  | knockStatus (status : Option Knock)
  | theme (theme : ChannelTheme)
  | asset (response : AssetBytesResponse)
  | entries (entries : List VaultEntry)
  | file (response : VaultFileResponse)
  deriving DecidableEq, Repr

/-- The body of an error answer. -/
structure PorchErrorBody where
  code : Int
  message : String
  deriving DecidableEq, Repr

/-- An answer. -/
abbrev PorchResponse := Except PorchErrorBody PorchResult

/-- The error body of a porch error. -/
def PorchErrorBody.ofError (e : PorchError) : PorchErrorBody := ⟨e.statusCode, e.toString⟩

/-- The files of an install: its assets by name, and its disk. -/
structure HostFiles where
  readAsset : String → Except String (List UInt8)
  disk : VaultDisk

/-- An install that has no file. -/
def noHostFiles : HostFiles where
  readAsset _ := .error "no such file"
  disk :=
    { canonicalize := fun _ => .error "no such file"
      isDir := fun _ => false
      readDir := fun _ => .error "no such file"
      isSymlink := fun _ => none
      metadata := fun _ => .error "no such file"
      read := fun _ => .error "no such file"
      toLowercase := fun s => s }

/-- A request with what it draws: an id and the clock. -/
structure PorchCall where
  request : PorchRequest
  id : String
  now : Int64

namespace Porch

variable (files : HostFiles) (p : Porch) (visitor : String)

/-- The channel a request names, if the visitor may visit it. -/
def visitChannel (channelId : String) : Except PorchError PorchChannel :=
  match p.getChannel channelId with
  | none => .error (.channelNotFound channelId)
  | some ch => if p.canVisit visitor ch then .ok ch else .error (.accessDenied channelId)

/-- The row of the channel list for a channel that is not owner-only. -/
def listChannelRow (ch : PorchChannel) : PorchListChannelRow where
  channel := ch
  visibility :=
    if p.canVisit visitor ch then .visible
    else .needsKnock ((p.knockStatusFor ch.id visitor).map Knock.status)
  themeSummary := p.getThemeSummary ch.id

/-- Shared gate of the vault requests. -/
def gateObsidian (channelId : String) : Except PorchError PorchChannel :=
  match p.getChannel channelId with
  | none => .error (.channelNotFound channelId)
  | some ch =>
    if ch.kind ≠ .obsidian then
      .error (.invalidInput ("channel " ++ channelId ++ " is not an obsidian channel"))
    else if p.canVisit visitor ch then .ok ch
    else .error (.accessDenied channelId)

/-- The bytes of an asset, if the visitor may visit its channel. -/
def visitAsset (assetId : String) : Except PorchError AssetBytesResponse :=
  match p.getAsset assetId with
  | none => .error (.channelNotFound assetId)
  | some asset => do
    let _ ← p.visitChannel visitor asset.channelId
    if asset.bytes.toNat > maxInlineAssetBytes then
      return .tooLarge asset.id asset.mimeType asset.bytes
    else do
      let (asset, bytes) ← p.readAssetBytes files.readAsset assetId
      return .inline asset.id asset.mimeType bytes

/-- Answer one request of a visitor, and the porch it leaves. -/
def dispatchRequest (call : PorchCall) : Except PorchError (Porch × PorchResult) :=
  match call.request with
  | .listChannels =>
    .ok (p, .channels ((p.listChannels.filter fun ch => ch.aclMode ≠ .ownerOnly).map
      (p.listChannelRow visitor)))
  | .getMessages channelId since limit => do
    let _ ← p.visitChannel visitor channelId
    let messages ← p.getMessages channelId since limit
    return (p, .messages messages)
  | .postMessage channelId body => do
    let _ ← p.visitChannel visitor channelId
    let out ← p.postMessage channelId visitor body call.id call.now
    return (out.porch, .message out.answer)
  | .knock channelId message =>
    match p.getChannel channelId with
    | none => .error (.channelNotFound channelId)
    | some ch =>
      match ch.aclMode with
      | .open => .error (.invalidInput "channel is already open — no knock required")
      | .ownerOnly => .error (.channelNotFound channelId)
      | .allowlist => do
        let out ← p.knock channelId visitor message call.id call.now
        return (out.porch, .knock out.answer)
  | .knockStatus channelId => .ok (p, .knockStatus (p.knockStatusFor channelId visitor))
  | .withdrawKnock knockId => do
    let out ← p.withdrawKnock knockId visitor call.now
    return (out.porch, .knock out.answer)
  | .getTheme channelId => do
    let _ ← p.visitChannel visitor channelId
    return (p, .theme ((p.getTheme channelId).getD (.defaultFor channelId)))
  | .getAssetBytes assetId => do
    let response ← p.visitAsset files visitor assetId
    return (p, .asset response)
  | .listVault channelId path => do
    let _ ← p.gateObsidian visitor channelId
    let entries ← p.listVault files.disk channelId path
    return (p, .entries entries)
  | .getVaultFile channelId path => do
    let _ ← p.gateObsidian visitor channelId
    let (bytes, mime) ← p.readVaultFile files.disk channelId path
    if bytes.length > maxInlineAssetBytes then
      return (p, .file (.tooLarge path mime bytes.length))
    else return (p, .file (.inline path mime bytes bytes.length))

/-- Answer one request. An error leaves the porch as it was. -/
def dispatchPorch (call : PorchCall) : Porch × PorchResponse :=
  match dispatchRequest files p visitor call with
  | .ok (p, result) => (p, .ok result)
  | .error e => (p, .error (.ofError e))

/-- The answers to requests one after another. -/
def responses (calls : List PorchCall) : List PorchResponse :=
  Unwinding.outputs (fun p call => dispatchPorch files p visitor call) p calls

end Porch

end Concorrd
