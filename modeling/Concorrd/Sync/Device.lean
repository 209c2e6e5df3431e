import Concorrd.Porch.State
import Concorrd.Porch.Text

/-!
# Device links

A link marks a peer as a personal device of the same user. It is recorded on each side
independently, and the sync handler answers linked peers only. Linking again keeps the time
of the first link and the watermark.
-/

namespace Concorrd

/-- The only role a link has. -/
def rolePersonalDevice : String := "personal_device"

namespace Porch

/-- `ON CONFLICT(peer_id) DO UPDATE SET device_id, label` -/
def relink (new old : DeviceLink) : DeviceLink :=
  { old with deviceId := new.deviceId, label := new.label }

/-- Record a peer as a personal device. -/
def linkPersonalDevice (p : Porch) (peerId remoteDeviceId : String) (label : Option String)
    (now : Int64) : Except PorchError Porch :=
  if (trim peerId).isEmpty then
    .error (.invalidInput "peer_id must not be empty")
  else if (trim remoteDeviceId).isEmpty then
    .error (.invalidInput "device_id must not be empty")
  else
    let link : DeviceLink := ⟨peerId, remoteDeviceId, rolePersonalDevice, now, none, 0, label⟩
    .ok { p with deviceLinks := p.deviceLinks.upsert link (relink link) fun _ => rfl }

/-- Forget a link. -/
def unlinkDevice (p : Porch) (peerId : String) : Porch :=
  { p with deviceLinks := p.deviceLinks.deleteWhere fun link => link.peerId = peerId }

/-- The links in the order they were made. -/
def listDeviceLinks (p : Porch) : List DeviceLink :=
  p.deviceLinks.rows.mergeSort fun a b =>
    a.linkedAt < b.linkedAt || a.linkedAt = b.linkedAt && a.peerId ≤ b.peerId

/-- The peer is an authorised personal device. -/
def isPersonalDevice (p : Porch) (peerId : String) : Bool := p.deviceLinks.HasKey peerId

/-- Note a successful round on the link. The watermark never moves backwards. -/
def recordSyncSuccess (p : Porch) (peerId : String) (atMs observedLamport : Int64) : Porch :=
  { p with
    deviceLinks := p.deviceLinks.updateWhere (fun link => link.peerId = peerId)
      (fun link => { link with
        lastSyncAt := some atMs
        lastSyncLamport := max link.lastSyncLamport observedLamport })
      fun _ => rfl }

variable {p : Porch} {peerId : String}

/-- Noting a round links nobody and unlinks nobody. -/
@[simp] theorem isPersonalDevice_recordSyncSuccess {atMs observedLamport : Int64} {peer : String} :
    (p.recordSyncSuccess peer atMs observedLamport).isPersonalDevice peerId =
      p.isPersonalDevice peerId := by
  have same : (p.recordSyncSuccess peer atMs observedLamport).deviceLinks.HasKey peerId ↔
      p.deviceLinks.HasKey peerId := by
    rw [recordSyncSuccess, KeyedTable.hasKey_iff_isSome, KeyedTable.find?_updateWhere,
      Option.isSome_map, KeyedTable.hasKey_iff_isSome]
  simp only [isPersonalDevice, same]

end Porch

end Concorrd
