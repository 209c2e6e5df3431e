import Concorrd.Porch.Knock
import Concorrd.Porch.Obsidian
import Concorrd.Porch.Theme

/-!
# The local writes

`LocalOp` names the eleven writes of the synced tables with their arguments, and `perform`
runs one. `localWrite_perform` is the contract of all of them, so a later proof about a run
has one case for a write.
-/

namespace Concorrd

/-- A write of the synced tables. -/
inductive LocalOp where
  | postMessage (channelId authorPeerId body id : String) (now : Int64)
  | insertChannel (id name : String) (kind : ChannelKind) (aclMode : AclMode) (now : Int64)
  | grantAcl (channelId peerId : String) (role : AclRole) (now : Int64)
  | revokeAcl (channelId peerId : String)
  | knock (channelId knockerPeerId : String) (message : Option String) (id : String) (now : Int64)
  | acceptKnock (knockId : String) (now : Int64)
  | rejectKnock (knockId : String) (now : Int64)
  | withdrawKnock (knockId knockerPeerId : String) (now : Int64)
  | setTheme (theme : ChannelTheme) (now : Int64)
  | uploadAsset (channelId mimeType : String) (bytes : List UInt8) (files : Except PorchError Unit)
      (sha256 : List UInt8 → String) (id : String) (now : Int64)
  | setObsidianConfig (files : VaultFiles) (channelId : String) (vaultRoot : VaultPath)
      (subfolder : Option VaultPath) (followSymlinks : Bool) (now : Int64)

/-- The lamports a write stamps its rows with: an accepted knock writes two rows and gives
the second one more, by an addition that wraps. -/
def LocalOp.stamps (p : Porch) : LocalOp → List Int64
  | .acceptKnock _ _ => [p.nextLamport, p.nextLamport + 1]
  | _ => [p.nextLamport]

/-- The keys a write writes rows under, should it write any. -/
def LocalOp.keys (p : Porch) : LocalOp → List RowKey
  | .postMessage _ _ _ id _ => [⟨.channelMessages, id⟩]
  | .insertChannel id _ _ _ _ => [⟨.porchChannels, id⟩]
  | .grantAcl channelId peerId _ _ => [⟨.channelAcl, (channelId, peerId)⟩]
  | .revokeAcl channelId peerId => [⟨.channelAcl, (channelId, peerId)⟩]
  | .knock _ _ _ id _ => [⟨.channelKnocks, id⟩]
  | .acceptKnock knockId _ => p.acceptKeys knockId
  | .rejectKnock knockId _ => [⟨.channelKnocks, knockId⟩]
  | .withdrawKnock knockId _ _ => [⟨.channelKnocks, knockId⟩]
  | .setTheme theme _ => [⟨.channelThemes, theme.channelId⟩]
  | .uploadAsset _ _ _ _ _ id _ => [⟨.porchAssets, id⟩]
  | .setObsidianConfig _ channelId _ _ _ _ => [⟨.obsidianChannels, channelId⟩]

/-- The outcome without its answer. -/
def Outcome.forget {α : Type} (out : Outcome α) : Outcome Unit := ⟨out.porch, out.written, ()⟩

theorem LocalWrite.forget {α : Type} {p : Porch} {out : Outcome α} {keys : List RowKey}
    {stamps : List Int64} (h : LocalWrite p out keys stamps) :
    LocalWrite p out.forget keys stamps :=
  ⟨h.rest, h.puts, h.nodup, h.device, h.keys, h.lamports⟩

namespace Porch

/-- Run a write and keep what it did. -/
def perform (p : Porch) : LocalOp → Except PorchError (Outcome Unit)
  | .postMessage channelId authorPeerId body id now =>
    (p.postMessage channelId authorPeerId body id now).map Outcome.forget
  | .insertChannel id name kind aclMode now =>
    (p.insertChannel id name kind aclMode now).map Outcome.forget
  | .grantAcl channelId peerId role now => (p.grantAcl channelId peerId role now).map Outcome.forget
  | .revokeAcl channelId peerId => (p.revokeAcl channelId peerId).map Outcome.forget
  | .knock channelId knockerPeerId message id now =>
    (p.knock channelId knockerPeerId message id now).map Outcome.forget
  | .acceptKnock knockId now => (p.acceptKnock knockId now).map Outcome.forget
  | .rejectKnock knockId now => (p.rejectKnock knockId now).map Outcome.forget
  | .withdrawKnock knockId knockerPeerId now =>
    (p.withdrawKnock knockId knockerPeerId now).map Outcome.forget
  | .setTheme theme now => (p.setTheme theme now).map Outcome.forget
  | .uploadAsset channelId mimeType bytes files sha256 id now =>
    (p.uploadAsset channelId mimeType bytes files sha256 id now).map Outcome.forget
  | .setObsidianConfig files channelId vaultRoot subfolder followSymlinks now =>
    (p.setObsidianConfig files channelId vaultRoot subfolder followSymlinks now).map
      Outcome.forget

/-- The porch after a write. A write that fails leaves it as it was. -/
def afterWrite (p : Porch) (op : LocalOp) : Porch :=
  match p.perform op with
  | .ok out => out.porch
  | .error _ => p

/-- The rows a write writes. -/
def written (p : Porch) (op : LocalOp) : List SyncedRow :=
  match p.perform op with
  | .ok out => out.written
  | .error _ => []

variable {p : Porch} {op : LocalOp} {out : Outcome Unit}

private theorem forget_of_map {α : Type} {e : Except PorchError (Outcome α)}
    {keys : List RowKey} {stamps : List Int64}
    (contract : ∀ o, e = .ok o → LocalWrite p o keys stamps)
    (h : e.map Outcome.forget = .ok out) : LocalWrite p out keys stamps := by
  cases e with
  | error e => cases h
  | ok o =>
    cases h
    exact (contract o rfl).forget

/-- Every write meets the contract. -/
theorem localWrite_perform (h : p.perform op = .ok out) :
    LocalWrite p out (op.keys p) (op.stamps p) := by
  cases op with
  | postMessage => exact forget_of_map (fun _ => localWrite_postMessage) h
  | insertChannel => exact forget_of_map (fun _ => localWrite_insertChannel) h
  | grantAcl => exact forget_of_map (fun _ => localWrite_grantAcl) h
  | revokeAcl => exact forget_of_map (fun _ => localWrite_revokeAcl) h
  | knock => exact forget_of_map (fun _ => localWrite_knock) h
  | acceptKnock => exact forget_of_map (fun _ => localWrite_acceptKnock) h
  | rejectKnock => exact forget_of_map (fun _ => localWrite_rejectKnock) h
  | withdrawKnock => exact forget_of_map (fun _ => localWrite_withdrawKnock) h
  | setTheme => exact forget_of_map (fun _ => localWrite_setTheme) h
  | uploadAsset => exact forget_of_map (fun _ => localWrite_uploadAsset) h
  | setObsidianConfig => exact forget_of_map (fun _ => localWrite_setObsidianConfig) h

end Porch

end Concorrd
