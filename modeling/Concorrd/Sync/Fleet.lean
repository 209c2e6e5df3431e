import Concorrd.Porch.Backup
import Concorrd.Sync.Dominance
import Concorrd.Sync.Evolution

/-!
# Devices that restore backups

A fleet is a network whose devices build encrypted backups and restore them. Each restores
blobs of its own, at any later moment. `issued` records the rows each device ever wrote: no
code reads it, it is what stamp uniqueness over a whole run is about.

A restore brings back the tables and with them the clock, but the rows that were written
since are still held by other devices. The next write then takes a stamp that is taken.
`uniqueStamps_along` proves uniqueness of every run in which no write reaches a key whose
rows lie above the clock, and `restore_reuses_stamp` is a run that does.
-/

namespace Concorrd

/-- A network, the blobs its devices built, and the rows each device wrote. -/
structure Fleet (ι Bytes : Type) where
  net : Network ι
  blobs : List (ι × EncryptedBackup Bytes)
  issued : ι → List SyncedRow

/-- What can happen to a fleet. -/
inductive FleetEvent (ι : Type) where
  | net (e : NetEvent ι)
  | backup (i : ι) (nonce : Nonce) (takenAt : Int64)
  | restore (i : ι) (n : Nat) (files : Except PorchError Unit) (now : Int64)

/-- The rows an event of the network makes a device write. -/
def Network.written {ι : Type} [DecidableEq ι] (net : Network ι) : NetEvent ι → ι → List SyncedRow
  | .write i op, k => if k = i then (net.porch i).written op else []
  | _, _ => []

/-- The rows under the keys of the write that the device issued lie at or below the clock,
and at neither end of its range. -/
def Porch.CaughtUp (p : Porch) (issued : List SyncedRow) (op : LocalOp) : Prop :=
  ∀ x ∈ issued, x.key ∈ op.keys p →
    x.lamport ≤ p.tables.observedMax ∧ Int64.minValue < x.lamport ∧ x.lamport < Int64.maxValue

instance {p : Porch} {issued : List SyncedRow} {op : LocalOp} :
    Decidable (p.CaughtUp issued op) :=
  inferInstanceAs (Decidable (∀ x ∈ issued, x.key ∈ op.keys p →
    x.lamport ≤ p.tables.observedMax ∧ Int64.minValue < x.lamport ∧ x.lamport < Int64.maxValue))

namespace Fleet

variable {ι Bytes : Type} [DecidableEq ι] (codec : JsonCodec) (backups : BackupCodec Bytes)
  (peerId : ι → String) (seed : ι → Except PorchError Seed)

/-- One event. -/
def step (fleet : Fleet ι Bytes) : FleetEvent ι → Fleet ι Bytes
  | .net e =>
    { fleet with
      net := Network.step codec peerId fleet.net e
      issued := fun k => fleet.issued k ++ fleet.net.written e k }
  | .backup i nonce takenAt =>
    match (fleet.net.porch i).buildEncryptedBackup backups (peerId i) (seed i) nonce takenAt with
    | .ok blob => { fleet with blobs := fleet.blobs ++ [(i, blob)] }
    | .error _ => fleet
  | .restore i n files now =>
    match fleet.blobs[n]? with
    | none => fleet
    | some (k, blob) =>
      -- a backup peer hands a blob to its uploader only
      if k ≠ i then fleet
      else
        match (fleet.net.porch i).backupRestoreFrom backups true (some blob) (seed i) files now with
        | .ok (p, _) => { fleet with net := fleet.net.set i p }
        | .error _ => fleet

/-- The fleet after the events. -/
abbrev run (fleet : Fleet ι Bytes) (events : List (FleetEvent ι)) : Fleet ι Bytes :=
  Machine.run (step codec backups peerId seed) fleet events

/-- Devices that have just opened their porches. -/
def start (Bytes : Type) (old : ι → OldDatabase) (args : ι → Porch.OpenArgs) :
    Fleet ι Bytes where
  net := Network.start old args
  blobs := []
  issued i := (Porch.opened (old i) (args i)).tables.allRows

/-- The rows that some device issued. -/
def Issued (fleet : Fleet ι Bytes) : Set SyncedRow := {x | ∃ i, x ∈ fleet.issued i}

/-- A key and a stamp determine a row among all that were ever issued, so rows that the
comparator takes for identical are, wherever they are held. -/
structure UniqueStamps (fleet : Fleet ι Bytes) : Prop where
  issued : Lww.OneRowPerStamp SyncedRow.key SyncedRow.stamp fleet.Issued
  held : ∀ i x, (fleet.net.porch i).tables.Holds x → x ∈ fleet.Issued
  identical : ∀ i j x y, (fleet.net.porch i).tables.Holds x → (fleet.net.porch j).tables.Holds y →
    x.key = y.key → remoteWins x.lamport x.device y.lamport y.device = false →
    remoteWins y.lamport y.device x.lamport x.device = false → x = y

/-- The writes of an event that take effect find the clock caught up with the rows that
their device issued. -/
def WritesCaughtUp (fleet : Fleet ι Bytes) (e : FleetEvent ι) : Prop :=
  ∀ i op, e = .net (.write i op) → (fleet.net.porch i).TakesEffect op →
    (fleet.net.porch i).CaughtUp (fleet.issued i) op

end Fleet

/-! ## What the run keeps -/

namespace Porch

/-- A porch of a device that has a channel and holds rows of a set only. -/
structure HoldsOnly (deviceId : String) (R : Set SyncedRow) (p : Porch) : Prop where
  device : p.deviceId = deviceId
  channels : (p.tables .porchChannels).rows ≠ []
  rows : ∀ x, p.tables.Holds x → x ∈ R

variable {deviceId : String} {R R' : Set SyncedRow} {p p' : Porch} {op : LocalOp}
  {out : Outcome Unit} {issued : List SyncedRow} {x : SyncedRow}

theorem HoldsOnly.mono (h : HoldsOnly deviceId R p) (sub : R ⊆ R') : HoldsOnly deviceId R' p :=
  ⟨h.device, h.channels, fun x hx => sub (h.rows x hx)⟩

theorem HoldsOnly.merges (h : HoldsOnly deviceId R p) (hmerges : Merges R p p') :
    HoldsOnly deviceId R p' where
  device := hmerges.device.trans h.device
  channels := hmerges.channels_ne_nil h.channels
  rows x hx := (hmerges.source x hx).elim (h.rows x) id

theorem HoldsOnly.afterWrite (h : HoldsOnly deviceId R p) (sub : ∀ x ∈ p.written op, x ∈ R) :
    HoldsOnly deviceId R (p.afterWrite op) := by
  unfold Porch.afterWrite
  unfold Porch.written at sub
  cases hop : p.perform op with
  | error e => exact h
  | ok out =>
    rw [hop] at sub
    have contract := localWrite_perform hop
    refine ⟨?_, contract.puts.rows_ne_nil h.channels, fun x hx => ?_⟩
    · show out.porch.deviceId = deviceId
      rw [contract.rest]
      exact h.device
    · exact (contract.puts.source hx).elim (h.rows x) (sub x)

/-- A written row carries the device id, a key of the write and a lamport of it, and its
write took effect. -/
theorem of_mem_written (hx : x ∈ p.written op) : p.TakesEffect op ∧ x.device = p.deviceId ∧
    x.key ∈ op.keys p ∧ x.lamport ∈ op.stamps p := by
  unfold Porch.written at hx
  cases hop : p.perform op with
  | error e =>
    rw [hop] at hx
    cases hx
  | ok out =>
    rw [hop] at hx
    have hne : out.written ≠ [] := List.ne_nil_of_mem hx
    have contract := localWrite_perform hop
    refine ⟨⟨out, hop, hne⟩, contract.device x hx, ?_, ?_⟩
    · rw [← contract.keys.resolve_left hne]
      exact List.mem_map_of_mem hx
    · rw [← contract.lamports.resolve_left hne]
      exact List.mem_map_of_mem hx

/-- Rows that one write writes under one key are one row. -/
theorem written_inj {y : SyncedRow} (hx : x ∈ p.written op) (hy : y ∈ p.written op)
    (hkey : x.key = y.key) : x = y := by
  unfold Porch.written at hx hy
  cases hop : p.perform op with
  | error e =>
    rw [hop] at hx
    cases hx
  | ok out =>
    rw [hop] at hx hy
    exact List.inj_on_of_nodup_map (localWrite_perform hop).nodup hx hy hkey

/-- Where the clock is caught up, the write takes no lamport that a row under its keys has. -/
theorem CaughtUp.not_mem_stamps (h : p.CaughtUp issued op) (hx : x ∈ issued)
    (hkey : x.key ∈ op.keys p) : x.lamport ∉ op.stamps p := by
  obtain ⟨hle, hmin, hmax⟩ := h x hx hkey
  have below : x.lamport < p.nextLamport := Int64.lt_saturatingAdd_one_iff_le.mpr ⟨hle, hmax⟩
  cases op with
  | acceptKnock knockId now =>
    show x.lamport ∉ [p.nextLamport, p.nextLamport + 1]
    intro hmem
    rcases List.mem_cons.mp hmem with hfirst | hsecond
    · exact absurd hfirst below.ne
    · -- the second lamport is larger still, or wraps to the bottom, where no row lies
      have hsecond := List.mem_singleton.mp hsecond
      by_cases htop : p.nextLamport < Int64.maxValue
      · have hlt := below.trans (Int64.saturatingAdd_one_lt_add_one htop)
        exact absurd hsecond hlt.ne
      · rw [Int64.lt_maxValue_iff, not_not] at htop
        rw [htop, Int64.maxValue_add_one] at hsecond
        exact absurd hsecond hmin.ne'
  | _ => exact fun hmem => absurd (List.mem_singleton.mp hmem) below.ne

end Porch

namespace Fleet

variable {ι Bytes : Type} {codec : JsonCodec} {backups : BackupCodec Bytes}
  {peerId : ι → String} {seed : ι → Except PorchError Seed} {args : ι → Porch.OpenArgs}
  {old : ι → OldDatabase} {fleet : Fleet ι Bytes}

/-- Every row a porch, a delta in flight or a blob holds was issued, each device's own rows
carry its id, and its stamps determine them. -/
structure Sound (backups : BackupCodec Bytes) (seed : ι → Except PorchError Seed)
    (args : ι → Porch.OpenArgs) (fleet : Fleet ι Bytes) : Prop where
  porches : ∀ i, Porch.HoldsOnly (args i).deviceId fleet.Issued (fleet.net.porch i)
  wire : ∀ delta ∈ fleet.net.wire, ∀ x ∈ delta.all, x ∈ fleet.Issued
  blobs : ∀ i blob, (i, blob) ∈ fleet.blobs → ∃ p uploader nonce takenAt,
    Porch.HoldsOnly (args i).deviceId fleet.Issued p ∧
      p.buildEncryptedBackup backups uploader (seed i) nonce takenAt = .ok blob
  owned : ∀ i, ∀ x ∈ fleet.issued i, x.device = (args i).deviceId
  one : ∀ i, Lww.OneRowPerStamp SyncedRow.key SyncedRow.stamp {x | x ∈ fleet.issued i}

theorem Sound.known (h : Sound backups seed args fleet) : fleet.net.Known ⊆ fleet.Issued := by
  intro x hx
  rcases hx with ⟨i, hx⟩ | ⟨delta, hdelta, hx⟩
  · exact (h.porches i).rows x hx
  · exact h.wire delta hdelta x hx

theorem sound_start : Sound backups seed args (start Bytes old args) where
  porches i := by
    refine ⟨?_, Porch.channels_opened (old i) (args i), fun x hx => ?_⟩
    · show (Porch.opened (old i) (args i)).deviceId = _
      rw [Porch.rest_opened]
      rfl
    · exact ⟨i, SyncedTables.mem_allRows.mpr hx⟩
  wire delta h := by cases h
  blobs i blob h := by cases h
  owned i x hx := Porch.device_opened (SyncedTables.mem_allRows.mp hx)
  one i x hx y hy hkey _ := by
    have hx' := SyncedTables.view_key_eq_some_iff.mpr (SyncedTables.mem_allRows.mp hx)
    have hy' := SyncedTables.view_key_eq_some_iff.mpr (SyncedTables.mem_allRows.mp hy)
    rw [hkey, hy'] at hx'
    exact (Option.some.inj hx').symm

/-- A restore brings back a porch whose backup was built before. -/
theorem Sound.restored (h : Sound backups seed args fleet) (faithful : backups.Faithful) {i : ι}
    {blob : EncryptedBackup Bytes} {p q : Porch} {files : Except PorchError Unit}
    {now version : Int64} (hblob : (i, blob) ∈ fleet.blobs)
    (hrestore : q.backupRestoreFrom backups true (some blob) (seed i) files now =
      .ok (p, version)) : Porch.HoldsOnly (args i).deviceId fleet.Issued p := by
  obtain ⟨source, _, _, _, hsource, hbuild⟩ := h.blobs i blob hblob
  rw [(Porch.restore_of_build faithful hbuild hsource.channels hrestore).1]
  exact hsource

/-- Devices with distinct ids share no stamp. -/
theorem Sound.uniqueStamps (h : Sound backups seed args fleet)
    (distinct : Function.Injective fun i => (args i).deviceId) : fleet.UniqueStamps := by
  have issued : Lww.OneRowPerStamp SyncedRow.key SyncedRow.stamp fleet.Issued := by
    intro x ⟨i, hx⟩ y ⟨j, hy⟩ hkey hstamp
    have hij : i = j := by
      apply distinct
      show (args i).deviceId = (args j).deviceId
      rw [← h.owned i x hx, ← h.owned j y hy]
      exact (SyncedRow.stamp_eq_iff.mp hstamp).2
    subst hij
    exact h.one i x hx y hy hkey hstamp
  refine ⟨issued, fun i => (h.porches i).rows, fun i j x y hx hy hkey hxy hyx => ?_⟩
  exact issued x ((h.porches i).rows x hx) y ((h.porches j).rows y hy) hkey
    (stamp_eq_of_not_remoteWins hxy hyx)

variable [DecidableEq ι]

/-- The rows an event writes are written by the device of the event. -/
theorem mem_written {e : NetEvent ι} {k : ι} {x : SyncedRow} (hx : x ∈ fleet.net.written e k) :
    ∃ op, e = .write k op ∧ x ∈ (fleet.net.porch k).written op := by
  unfold Network.written at hx
  split at hx
  · rename_i i op
    split at hx
    · rename_i hk
      subst hk
      exact ⟨op, rfl, hx⟩
    · cases hx
  · cases hx

/-- An event of the network keeps the invariant when its write finds the clock caught up. -/
theorem Sound.step_net (h : Sound backups seed args fleet) {e : NetEvent ι}
    (caught : fleet.WritesCaughtUp (.net e)) :
    Sound backups seed args (step codec backups peerId seed fleet (.net e)) := by
  have grows : fleet.Issued ⊆ (step codec backups peerId seed fleet (.net e)).Issued :=
    fun x ⟨i, hx⟩ => ⟨i, List.mem_append_left _ hx⟩
  refine ⟨fun k => ?_, fun delta hdelta x hx => ?_, fun i blob hblob => ?_, fun i x hx => ?_,
    fun i x hx y hy hkey hstamp => ?_⟩
  · show Porch.HoldsOnly _ _ ((Network.step codec peerId fleet.net e).porch k)
    by_cases hwrite : ∃ i op, e = .write i op
    · obtain ⟨i, op, rfl⟩ := hwrite
      show Porch.HoldsOnly _ _ ((fleet.net.set i ((fleet.net.porch i).afterWrite op)).porch k)
      by_cases hk : k = i
      · subst hk
        rw [Network.porch_set_self]
        refine ((h.porches k).mono grows).afterWrite fun x hx => ⟨k, List.mem_append_right _ ?_⟩
        show x ∈ if k = k then (fleet.net.porch k).written op else []
        rwa [if_pos rfl]
      · rw [Network.porch_set_other hk]
        exact (h.porches k).mono grows
    · have hmerges : Porch.Merges fleet.net.Known (fleet.net.porch k)
          ((Network.step codec peerId fleet.net e).porch k) :=
        Network.merges_step (fun i op heq => hwrite ⟨i, op, heq⟩) k
      exact ((h.porches k).merges (hmerges.mono fun x hx => .inr (h.known hx))).mono grows
  · rcases Network.wire_step hdelta with hold | ⟨i, hi⟩
    · exact grows (h.wire delta hold x hx)
    · exact grows ((h.porches i).rows x (hi x hx))
  · obtain ⟨p, uploader, nonce, takenAt, hp, hbuild⟩ := h.blobs i blob hblob
    exact ⟨p, uploader, nonce, takenAt, hp.mono grows, hbuild⟩
  · rcases List.mem_append.mp hx with hx | hx
    · exact h.owned i x hx
    · obtain ⟨op, _, hx⟩ := mem_written hx
      exact (Porch.of_mem_written hx).2.1.trans (h.porches i).device
  · -- a row issued before and a row written now differ in their lamports
    have apart : ∀ z w, z ∈ fleet.issued i → w ∈ fleet.net.written e i → z.key = w.key →
        z.lamport ≠ w.lamport := by
      intro z w hz hw hkey heq
      obtain ⟨op, rfl, hwritten⟩ := mem_written hw
      obtain ⟨effect, _, hkeys, hlamport⟩ := Porch.of_mem_written hwritten
      exact (caught i op rfl effect).not_mem_stamps hz (hkey ▸ hkeys) (heq ▸ hlamport)
    have hlamport : x.lamport = y.lamport := (SyncedRow.stamp_eq_iff.mp hstamp).1
    rcases List.mem_append.mp hx with hx | hx
    · rcases List.mem_append.mp hy with hy | hy
      · exact h.one i x hx y hy hkey hstamp
      · exact absurd hlamport (apart x y hx hy hkey)
    · rcases List.mem_append.mp hy with hy | hy
      · exact absurd hlamport.symm (apart y x hy hx hkey.symm)
      · obtain ⟨op, rfl, hwritten⟩ := mem_written hx
        obtain ⟨op', heq, hwritten'⟩ := mem_written hy
        cases heq
        exact Porch.written_inj hwritten hwritten' hkey

/-- Every event keeps the invariant under the condition. -/
theorem Sound.step (h : Sound backups seed args fleet) (faithful : backups.Faithful)
    {e : FleetEvent ι} (caught : fleet.WritesCaughtUp e) :
    Sound backups seed args (Fleet.step codec backups peerId seed fleet e) := by
  cases e with
  | net e => exact h.step_net caught
  | backup i nonce takenAt =>
    simp only [Fleet.step]
    split
    · rename_i blob hbuild
      refine ⟨h.porches, h.wire, fun k blob' hblob => ?_, h.owned, h.one⟩
      rcases List.mem_append.mp hblob with hold | hnew
      · exact h.blobs k blob' hold
      · cases List.mem_singleton.mp hnew
        exact ⟨_, _, _, _, h.porches i, hbuild⟩
    · exact h
  | restore i n files now =>
    simp only [Fleet.step]
    split
    · exact h
    rename_i k blob hblob
    split
    · exact h
    rename_i hk
    rw [not_not] at hk
    subst hk
    split
    · rename_i p version hrestore
      refine ⟨fun j => ?_, h.wire, h.blobs, h.owned, h.one⟩
      show Porch.HoldsOnly _ _ ((fleet.net.set k p).porch j)
      by_cases hj : j = k
      · subst hj
        rw [Network.porch_set_self]
        exact h.restored faithful (List.mem_of_getElem? hblob) hrestore
      · rw [Network.porch_set_other hj]
        exact h.porches j
    · exact h

/-- **Stamp uniqueness over runs with restores.** In every run of devices with distinct ids
that interleaves writes, rounds, deltas in flight, backups and restores, and in which every
write that takes effect finds the clock caught up with the rows issued under its keys, a key
and a stamp determine a row. -/
theorem uniqueStamps_along (old : ι → OldDatabase) (args : ι → Porch.OpenArgs)
    (events : List (FleetEvent ι)) (faithful : backups.Faithful)
    (distinct : Function.Injective fun i => (args i).deviceId)
    (caught : Machine.Along (step codec backups peerId seed) WritesCaughtUp
      (start Bytes old args) events) :
    (run codec backups peerId seed (start Bytes old args) events).UniqueStamps := by
  have sound := Machine.invariant (Sound backups seed args)
    (fun _ _ caught h => h.step faithful caught) caught sound_start
  exact sound.uniqueStamps distinct

end Fleet

/-! ## A restore that rewinds the clock -/

/-- Byte strings of a pipeline that hides nothing. -/
inductive ClearBytes where
  | dump (p : Porch)
  | compressed (bytes : ClearBytes)
  | sealed (key : Vector UInt8 32) (nonce : Nonce) (bytes : ClearBytes)

/-- A pipeline whose cipher records the key and the nonce and checks them. -/
def clearCodec : BackupCodec ClearBytes where
  vacuumInto p := .ok (.dump p)
  openFile
    | .dump p => .ok p
    | _ => .error (.io "file is not a database")
  encodeAll bytes := .ok (.compressed bytes)
  decodeAll
    | .compressed bytes => .ok bytes
    | _ => .error (.io "Unknown frame descriptor")
  hkdf seed _ := seed
  encrypt key nonce bytes := .ok (.sealed key nonce bytes)
  decrypt key nonce
    | .sealed key' nonce' bytes =>
      if key' = key ∧ nonce' = nonce then .ok bytes else .error "aead::Error"
    | _ => .error "aead::Error"

theorem faithful_clearCodec : clearCodec.Faithful where
  openFile p file _ h := by
    cases h
    rfl
  decodeAll bytes compressed h := by
    cases h
    rfl
  decrypt key nonce bytes ciphertext h := by
    cases h
    exact if_pos ⟨rfl, rfl⟩

/-- The two linked devices after events of the fleet. -/
def pairFleet (events : List (FleetEvent Bool)) : Fleet Bool ClearBytes :=
  Fleet.run default clearCodec pairPeer (fun _ => .ok (Vector.replicate 32 7))
    (Fleet.start ClearBytes (fun _ => .none) pairArgs) (pairLinks.map .net ++ events)

/-- The first device backs up, grants access and syncs. Then it restores the backup. -/
def grantedThenRestored : List (FleetEvent Bool) :=
  [.backup false (Vector.replicate 12 1) 2,
    .net (.write false (.grantAcl "porch-default" "visitor" .member 3)),
    .net (.sync false true 4), .restore false 0 (.ok ()) 5]

set_option maxRecDepth 1000 in
/-- A round after the restore lifts the clock above the rows that were issued before it. -/
theorem uniqueStamps_along_caughtUp :
    (pairFleet (grantedThenRestored ++ [.net (.sync false true 6),
      .net (.write false (.grantAcl "porch-default" "visitor" .owner 7))])).UniqueStamps := by
  refine Fleet.uniqueStamps_along _ pairArgs _ faithful_clearCodec pairArgs_injective
    ⟨?_, ?_, ?_, ?_, ?_, ?_, ?_, ?_, trivial⟩
  · intro i op h
    cases h
  · intro i op h
    cases h
  · intro i op h
    cases h
  · intro i op h _
    cases h
    decide
  · intro i op h
    cases h
  · intro i op h
    cases h
  · intro i op h
    cases h
  · intro i op h _
    cases h
    decide

set_option maxRecDepth 1000 in
/-- A second grant after the restore takes the stamp of the first. The other device keeps the
first row, and no later round changes either side. -/
theorem restore_reuses_stamp :
    let fleet := pairFleet (grantedThenRestored ++
      [.net (.write false (.grantAcl "porch-default" "visitor" .owner 6)),
        .net (.sync false true 7), .net (.sync true false 8)])
    (∃ x y, (fleet.net.porch false).tables.Holds x ∧ (fleet.net.porch true).tables.Holds y ∧
      x.key = y.key ∧ x.stamp = y.stamp ∧ x ≠ y) ∧ ¬ fleet.UniqueStamps := by
  intro fleet
  let owner : SyncedRow :=
    ⟨.channelAcl, ⟨⟨"porch-default", "visitor", "owner", 6⟩, "device-a", 2, 0⟩⟩
  let member : SyncedRow :=
    ⟨.channelAcl, ⟨⟨"porch-default", "visitor", "member", 3⟩, "device-a", 2, 0⟩⟩
  have holdsOwner : (fleet.net.porch false).tables.Holds owner := by decide
  have holdsMember : (fleet.net.porch true).tables.Holds member := by decide
  have differ : owner ≠ member := by decide
  refine ⟨⟨owner, member, holdsOwner, holdsMember, rfl, rfl, differ⟩, fun unique => ?_⟩
  exact differ (unique.issued owner (unique.held false owner holdsOwner) member
    (unique.held true member holdsMember) rfl rfl)

end Concorrd
