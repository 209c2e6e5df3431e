import Concorrd.Lib.Run
import Concorrd.Porch.LocalOp
import Concorrd.Porch.Migrate
import Concorrd.Porch.Vault
import Concorrd.Sync.Evolution

/-!
# Vault bindings under sync

Which directory a channel serves is the owner's choice on this device, yet the rows that say so are
merged like any other. A `BoundDevice` is a porch beside what its owner chose, and `ServesChosen`
says that it serves exactly that. Local writes keep it; a merge keeps it exactly when every binding
it stores names the directory chosen here.
-/

namespace Concorrd

/-- The directory of a binding as it is stored: the root, and the folder below it. -/
structure VaultBinding where
  vaultRoot : String
  subfolder : Option String
  deriving DecidableEq, Repr

/-- The directory a row names. -/
def ObsidianChannelCols.binding (cols : ObsidianChannelCols) : VaultBinding :=
  ⟨cols.vaultRoot, cols.subfolder⟩

/-- The directory of an accepted configuration, as text. -/
def ObsidianChannelConfig.binding (cfg : ObsidianChannelConfig) : VaultBinding :=
  ⟨cfg.vaultRoot.display, cfg.subfolder.map VaultPath.display⟩

/-- A porch, and the directory its owner chose last for every channel. -/
structure BoundDevice where
  porch : Porch
  chosen : String → Option VaultBinding

/-- What happens to a device: a write of its user, rows to merge, a request it answers, and the
answer to a hero-sync round it opened. -/
inductive SyncEvent where
  | write (op : LocalOp)
  | batch (delta : SyncDelta)
  | request (peer : String) (request : SyncRequest)
  | heroRequest (request : HeroSyncRequest) (fresh : Nat → String × Int64)
  | heroAnswer (answer : HeroSyncResponse)

namespace Porch

/-- The directory a channel serves. -/
def servedBinding (p : Porch) (channelId : String) : Option VaultBinding :=
  (p.db.find? .obsidianChannels channelId).map fun row => row.cols.binding

/-- The path that listing a directory and reading a file open. -/
def vaultTarget (p : Porch) (disk : VaultDisk) (channelId relPath : String) :
    Except PorchError VaultPath := do
  let cfg ← p.obsidianBinding channelId
  resolveVaultPath disk cfg relPath

variable (codec : JsonCodec)

/-- Merge rows. A batch that is refused leaves the porch as it was. -/
def mergeBatch (p : Porch) (delta : SyncDelta) : Porch :=
  match p.applySyncBatch delta with
  | .ok (p, _) => p
  | .error _ => p

/-- The porch after an event. -/
def afterSync (p : Porch) : SyncEvent → Porch
  | .write op => p.afterWrite op
  | .batch delta => p.mergeBatch delta
  | .request peer request => (p.dispatch peer request).1
  | .heroRequest request fresh => (p.heroDispatch codec fresh request).1
  | .heroAnswer (.round push _) => p.mergeBatch push
  | .heroAnswer _ => p

/-- The rows an event brings to the merge, unless it is refused before. -/
def offered (p : Porch) : SyncEvent → Option SyncDelta
  | .write _ => none
  | .batch delta => some delta
  | .request peer (.pushDelta delta) => if p.isPersonalDevice peer then some delta else none
  | .request _ _ => none
  | .heroRequest (.round env) fresh =>
    if anchorRefusal env p.heroGetAnchorInstance = none ∧
        (enqueueAll codec fresh p (p.db.detectConflicts env.push)).2.isOk = true then
      some env.push
    else none
  | .heroRequest .ping _ => none
  | .heroAnswer (.round push _) => some push
  | .heroAnswer _ => none

end Porch

namespace BoundDevice

variable (codec : JsonCodec) (d : BoundDevice)

/-- What the owner has chosen after a write. -/
def choose : LocalOp → String → Option VaultBinding
  | .setObsidianConfig files channelId vaultRoot subfolder followSymlinks now =>
    match d.porch.setObsidianConfig files channelId vaultRoot subfolder followSymlinks now with
    | .ok out => Function.update d.chosen channelId (some out.answer.binding)
    | .error _ => d.chosen
  | _ => d.chosen

/-- One event. Only a write of the user is a choice. -/
def step (e : SyncEvent) : BoundDevice where
  porch := d.porch.afterSync codec e
  chosen := match e with
    | .write op => d.choose op
    | _ => d.chosen

/-- Every channel serves the directory its owner chose for it here, and nothing else is read. -/
structure ServesChosen : Prop where
  bindings : ∀ channelId, d.porch.servedBinding channelId = d.chosen channelId
  reads : ∀ disk channelId relPath target,
    d.porch.vaultTarget disk channelId relPath = .ok target →
      ∃ binding, d.chosen channelId = some binding ∧
        target.startsWith (.ofString binding.vaultRoot) = true

/-- Every binding that an accepted merge stores names the directory chosen here. -/
def KeepsBindings (e : SyncEvent) : Prop :=
  ∀ delta, d.porch.offered codec e = some delta →
    (d.porch.db.applySyncBatch delta).isOk = true →
      ∀ row : ObsidianChannelRow,
        Database.Stores delta d.porch.tables ⟨.obsidianChannels, row⟩ →
          d.chosen row.cols.channelId = some row.cols.binding

end BoundDevice

/-! ## What is read -/

/-- A path that is opened lies below the root of the binding. -/
theorem startsWith_of_resolveVaultPath {disk : VaultDisk} {cfg : ObsidianChannelConfig}
    {relPath : String} {target : VaultPath} (h : resolveVaultPath disk cfg relPath = .ok target) :
    target.startsWith cfg.vaultRoot = true := by
  obtain ⟨accum, _, h⟩ := except_bind_eq_ok.mp h
  dsimp only at h
  split at h
  · split at h
    · cases h
    · cases h
  · rename_i resolved _
    split at h
    · cases h
    · rename_i inside
      rw [Bool.not_eq_false] at inside
      split at h
      · obtain ⟨_, _, h⟩ := except_bind_eq_ok.mp h
        cases h
        exact inside
      · cases h
        exact inside

namespace Porch

variable {codec : JsonCodec} {p : Porch} {disk : VaultDisk} {channelId relPath : String}
  {e : SyncEvent} {delta : SyncDelta}

theorem vaultTarget_eq_ok_iff {target : VaultPath} :
    p.vaultTarget disk channelId relPath = .ok target ↔
      ∃ cfg, p.getObsidianConfig channelId = some cfg ∧
        resolveVaultPath disk cfg relPath = .ok target := by
  have bound (cfg : ObsidianChannelConfig) :
      p.obsidianBinding channelId = .ok cfg ↔ p.getObsidianConfig channelId = some cfg := by
    unfold obsidianBinding
    cases p.getObsidianConfig channelId with
    | none => exact ⟨nofun, nofun⟩
    | some cfg' => rw [Except.ok.injEq, Option.some.injEq]
  simp only [vaultTarget, except_bind_eq_ok, bound]

/-- A listing lists the directory that the request leads to. -/
theorem target_of_listVault {entries : List VaultEntry}
    (h : p.listVault disk channelId relPath = .ok entries) :
    ∃ target found, p.vaultTarget disk channelId relPath = .ok target ∧
      disk.readDir target = .ok found := by
  obtain ⟨cfg, hcfg, h⟩ := except_bind_eq_ok.mp h
  obtain ⟨target, htarget, h⟩ := except_bind_eq_ok.mp h
  obtain ⟨found, hfound, _⟩ := except_bind_eq_ok.mp h
  refine ⟨target, found, except_bind_eq_ok.mpr ⟨cfg, hcfg, htarget⟩, ?_⟩
  cases hread : disk.readDir target with
  | error e => rw [hread] at hfound; cases hfound
  | ok names => rw [hread] at hfound; cases hfound; rfl

/-- A read reads the file that the request leads to. -/
theorem target_of_readVaultFile {bytes : List UInt8} {mime : String}
    (h : p.readVaultFile disk channelId relPath = .ok (bytes, mime)) :
    ∃ target, p.vaultTarget disk channelId relPath = .ok target ∧
      disk.read target = .ok bytes := by
  obtain ⟨cfg, hcfg, h⟩ := except_bind_eq_ok.mp h
  obtain ⟨target, htarget, h⟩ := except_bind_eq_ok.mp h
  obtain ⟨fileMeta, _, h⟩ := except_bind_eq_ok.mp h
  refine ⟨target, except_bind_eq_ok.mpr ⟨cfg, hcfg, htarget⟩, ?_⟩
  split at h
  · cases h
  split at h
  · cases h
  split at h
  · cases h
  obtain ⟨found, hfound, h⟩ := except_bind_eq_ok.mp h
  cases h
  cases hread : disk.read target with
  | error e => rw [hread] at hfound; cases hfound
  | ok content => rw [hread] at hfound; cases hfound; rfl

/-! ## What an event merges -/

theorem db_mergeBatch : (p.mergeBatch delta).db =
    match p.db.applySyncBatch delta with
    | .ok (db, _) => db
    | .error _ => p.db := by
  unfold mergeBatch applySyncBatch
  cases p.db.applySyncBatch delta <;> rfl

/-- A request of a peer merges the rows of a push, when the peer is linked. -/
theorem db_afterRequest (codec : JsonCodec) (p : Porch) (peer : String) (request : SyncRequest) :
    (p.dispatch peer request).1.db =
      (p.offered codec (.request peer request)).elim p.db fun delta => (p.mergeBatch delta).db := by
  cases request with
  | linkRequest myDeviceId label =>
    show (p.dispatch peer (.linkRequest myDeviceId label)).1.db = p.db
    simp only [dispatch, dispatchInner]
    split
    · rename_i h
      split at h
      · cases h
      · cases h
        rfl
    · rfl
  | pullDelta since =>
    show (p.dispatch peer (.pullDelta since)).1.db = p.db
    rcases dispatch_pullDelta_cases p peer since with answered | ⟨body, refused⟩
    · rw [answered]
    · rw [refused]
  | pushDelta delta =>
    cases linked : p.isPersonalDevice peer with
    | false =>
      simp only [dispatch, dispatchInner, assertLinked, offered, linked, Bool.false_eq_true,
        if_false]
      rfl
    | true =>
      rw [dispatch_pushDelta linked]
      simp only [offered, linked, if_true, Option.elim_some, mergeBatch]
      cases p.applySyncBatch delta <;> rfl

/-- A hero round merges its push, unless it is refused or a conflict of it is not queued. -/
theorem db_afterHeroRequest (codec : JsonCodec) (p : Porch) (request : HeroSyncRequest)
    (fresh : Nat → String × Int64) : (p.heroDispatch codec fresh request).1.db =
      (p.offered codec (.heroRequest request fresh)).elim p.db
        fun delta => (p.mergeBatch delta).db := by
  cases request with
  | ping => rfl
  | round env =>
    show (p.dispatchRound codec fresh env).1.db = _
    cases hrefusal : anchorRefusal env p.heroGetAnchorInstance with
    | some refusal =>
      rw [dispatchRound_of_refusal codec fresh hrefusal]
      simp only [offered, hrefusal, reduceCtorEq, false_and, if_false]
      rfl
    | none =>
      rcases dispatchRound_cases codec fresh hrefusal with
        ⟨queue, e, hqueue, run⟩ | ⟨queue, hqueue, ⟨e, hbatch, run⟩ | ⟨db, counts, hbatch, run⟩⟩
      · simp only [run, offered, hrefusal, hqueue]
        rfl
      · simp only [run, offered, hrefusal, hqueue]
        show p.db = (p.mergeBatch env.push).db
        rw [db_mergeBatch, hbatch]
      · simp only [run, offered, hrefusal, hqueue]
        show db = (p.mergeBatch env.push).db
        rw [db_mergeBatch, hbatch]

/-- An event that is no write merges the rows it brings, or leaves the database alone. -/
theorem db_afterSync (other : ∀ op, e ≠ .write op) : (p.afterSync codec e).db =
    (p.offered codec e).elim p.db fun delta => (p.mergeBatch delta).db := by
  cases e with
  | write op => exact absurd rfl (other op)
  | batch delta => rfl
  | request peer request => exact db_afterRequest codec p peer request
  | heroRequest request fresh => exact db_afterHeroRequest codec p request fresh
  | heroAnswer answer =>
    cases answer with
    | round push conflicts => rfl
    | pong mode => rfl
    | anchorMismatch anchor message => rfl
    | error code message => rfl

/-! ## What a write chooses -/

/-- An accepted configuration stores the directory it answers with. -/
theorem setObsidianConfig_eq_ok {files : VaultFiles} {vaultRoot : VaultPath}
    {subfolder : Option VaultPath} {followSymlinks : Bool} {now : Int64}
    {out : Outcome ObsidianChannelConfig}
    (h : p.setObsidianConfig files channelId vaultRoot subfolder followSymlinks now = .ok out) :
    ∃ row : ObsidianChannelRow, row.cols.channelId = channelId ∧
      row.cols.binding = out.answer.binding ∧
      p.tables.Puts ⟨.obsidianChannels, row⟩ out.porch.tables := by
  unfold setObsidianConfig at h
  split at h
  · cases h
  split at h
  · cases h
  split at h
  · cases h
  obtain ⟨db, hdb, rfl⟩ := finish_eq_ok h
  exact ⟨_, rfl, rfl, Database.puts_of_upsert (fun _ hk => obsidianConflict_eq hk rfl) hdb⟩

/-- No other write names a row of the vault bindings. -/
theorem table_ne_of_mem_keys {op : LocalOp} {k : RowKey}
    (other : ∀ files channelId vaultRoot subfolder followSymlinks now,
      op ≠ .setObsidianConfig files channelId vaultRoot subfolder followSymlinks now)
    (h : k ∈ op.keys p) : k.table ≠ .obsidianChannels := by
  cases op with
  | setObsidianConfig => exact absurd rfl (other _ _ _ _ _ _)
  | acceptKnock knockId now =>
    change k ∈ p.acceptKeys knockId at h
    unfold acceptKeys at h
    cases hf : p.lookupKnockById knockId with
    | none =>
      rw [hf] at h
      cases h
    | some knock =>
      rw [hf] at h
      rcases List.mem_pair.mp h with rfl | rfl
      · exact nofun
      · exact nofun
  | _ =>
    rw [List.mem_singleton.mp h]
    exact nofun

/-- What no write of a binding does to the bindings: nothing. -/
theorem holds_afterWrite_iff {op : LocalOp}
    (other : ∀ files channelId vaultRoot subfolder followSymlinks now,
      op ≠ .setObsidianConfig files channelId vaultRoot subfolder followSymlinks now)
    (row : ObsidianChannelRow) : (p.afterWrite op).tables.Holds ⟨.obsidianChannels, row⟩ ↔
      p.tables.Holds ⟨.obsidianChannels, row⟩ := by
  unfold afterWrite
  cases hperform : p.perform op with
  | error e => exact Iff.rfl
  | ok out =>
    have contract := localWrite_perform hperform
    have elsewhere (x : SyncedRow) (hx : x ∈ out.written) : x.table ≠ .obsidianChannels := by
      have keys := contract.keys.resolve_left (List.ne_nil_of_mem hx)
      exact table_ne_of_mem_keys other (keys ▸ List.mem_map_of_mem hx)
    constructor
    · intro h
      exact (contract.puts.source h).resolve_right fun hx => elsewhere _ hx rfl
    · intro h
      refine contract.puts.holds_of_holds h fun x hx same => elsewhere x hx ?_
      exact (congrArg RowKey.table same).symm

end Porch

namespace BoundDevice

variable {codec : JsonCodec} {d : BoundDevice} {e : SyncEvent}

/-- Every binding that is stored was chosen, and every channel with a choice has one. -/
structure AllChosen (chosen : String → Option VaultBinding) (T : SyncedTables) : Prop where
  rows : ∀ row : ObsidianChannelRow, T.Holds ⟨.obsidianChannels, row⟩ →
    chosen row.cols.channelId = some row.cols.binding
  kept : ∀ channelId, (chosen channelId).isSome = true →
    ∃ row : ObsidianChannelRow, T.Holds ⟨.obsidianChannels, row⟩ ∧ row.cols.channelId = channelId

/-- A device serves what was chosen exactly when it stores what was chosen. -/
theorem servesChosen_iff : d.ServesChosen ↔ AllChosen d.chosen d.porch.tables := by
  have stored (channelId : String) (binding : VaultBinding) :
      d.porch.servedBinding channelId = some binding ↔ ∃ row : ObsidianChannelRow,
        d.porch.tables.Holds ⟨.obsidianChannels, row⟩ ∧ row.cols.channelId = channelId ∧
          row.cols.binding = binding := by
    rw [Porch.servedBinding, Option.map_eq_some_iff]
    refine exists_congr fun row => ?_
    rw [Database.find?, KeyedTable.find?_eq_some_iff, and_assoc]
    rfl
  constructor
  · intro ⟨bindings, _⟩
    constructor
    · intro row hrow
      rw [← bindings]
      exact (stored _ _).mpr ⟨row, hrow, rfl, rfl⟩
    · intro channelId some
      obtain ⟨binding, hbinding⟩ := Option.isSome_iff_exists.mp some
      rw [← bindings] at hbinding
      obtain ⟨row, hrow, hchannel, _⟩ := (stored _ _).mp hbinding
      exact ⟨row, hrow, hchannel⟩
  · intro ⟨rows, kept⟩
    have bindings (channelId : String) : d.porch.servedBinding channelId = d.chosen channelId := by
      cases hserved : d.porch.servedBinding channelId with
      | some binding =>
        obtain ⟨row, hrow, rfl, rfl⟩ := (stored _ _).mp hserved
        exact (rows row hrow).symm
      | none =>
        cases hchosen : d.chosen channelId with
        | none => rfl
        | some binding =>
          obtain ⟨row, hrow, hchannel⟩ := kept channelId (by rw [hchosen]; rfl)
          have present := (stored channelId row.cols.binding).mpr ⟨row, hrow, hchannel, rfl⟩
          rw [hserved] at present
          cases present
    refine ⟨bindings, fun disk channelId relPath target h => ?_⟩
    obtain ⟨cfg, hcfg, hresolved⟩ := Porch.vaultTarget_eq_ok_iff.mp h
    obtain ⟨row, hrow, rfl⟩ := Option.map_eq_some_iff.mp hcfg
    refine ⟨row.cols.binding, ?_, startsWith_of_resolveVaultPath hresolved⟩
    rw [← bindings, Porch.servedBinding, hrow]
    rfl

theorem AllChosen.congr {chosen : String → Option VaultBinding} {T T' : SyncedTables}
    (h : AllChosen chosen T) (same : ∀ row : ObsidianChannelRow,
      T'.Holds ⟨.obsidianChannels, row⟩ ↔ T.Holds ⟨.obsidianChannels, row⟩) :
    AllChosen chosen T' where
  rows row hrow := h.rows row ((same row).mp hrow)
  kept channelId some := by
    obtain ⟨row, hrow, hchannel⟩ := h.kept channelId some
    exact ⟨row, (same row).mpr hrow, hchannel⟩

/-- A choice and the row that stores it go together. -/
theorem AllChosen.puts {chosen : String → Option VaultBinding} {T T' : SyncedTables}
    {row : ObsidianChannelRow} (h : AllChosen chosen T)
    (written : T.Puts ⟨.obsidianChannels, row⟩ T') :
    AllChosen (Function.update chosen row.cols.channelId (some row.cols.binding)) T' where
  rows row' hrow' := by
    rcases written.holds_iff.mp hrow' with same | ⟨old, hkey⟩
    · cases same
      exact Function.update_self _ _ _
    · have other : row'.cols.channelId ≠ row.cols.channelId := fun same =>
        hkey (congrArg (fun k : String => RowKey.mk .obsidianChannels k) same)
      rw [Function.update_of_ne other]
      exact h.rows row' old
  kept channelId some := by
    by_cases here : channelId = row.cols.channelId
    · exact ⟨row, written.holds_iff.mpr (.inl rfl), here.symm⟩
    · rw [Function.update_of_ne here] at some
      obtain ⟨row', hrow', rfl⟩ := h.kept channelId some
      refine ⟨row', written.holds_iff.mpr (.inr ⟨hrow', fun hkey => here ?_⟩), rfl⟩
      exact eq_of_heq (RowKey.mk.inj hkey).2

/-- A write of the user leaves what is chosen and what is stored the same. -/
theorem allChosen_write {op : LocalOp} (start : AllChosen d.chosen d.porch.tables) :
    AllChosen (d.choose op) (d.porch.afterWrite op).tables := by
  cases op with
  | setObsidianConfig files channelId vaultRoot subfolder followSymlinks now =>
    simp only [choose, Porch.afterWrite, Porch.perform]
    cases hset : d.porch.setObsidianConfig files channelId vaultRoot subfolder followSymlinks
        now with
    | error e => exact start
    | ok out =>
      obtain ⟨row, rfl, hbinding, written⟩ := Porch.setObsidianConfig_eq_ok hset
      have puts := start.puts written
      rw [hbinding] at puts
      exact puts
  | _ => exact start.congr (Porch.holds_afterWrite_iff nofun)

/-- After a merge everything stored was chosen exactly when what the merge stored was. -/
theorem allChosen_mergeBatch_iff {chosen : String → Option VaultBinding} {p : Porch}
    {delta : SyncDelta} (start : AllChosen chosen p.tables) :
    AllChosen chosen (p.mergeBatch delta).tables ↔
      ((p.db.applySyncBatch delta).isOk = true → ∀ row : ObsidianChannelRow,
        Database.Stores delta p.tables ⟨.obsidianChannels, row⟩ →
          chosen row.cols.channelId = some row.cols.binding) := by
  show AllChosen chosen (p.mergeBatch delta).db.tables ↔ _
  rw [Porch.db_mergeBatch]
  cases hbatch : p.db.applySyncBatch delta with
  | error e => exact iff_of_true start nofun
  | ok out =>
    obtain ⟨db, counts⟩ := out
    have stores := Database.forall_rows_of_batch hbatch start.rows
    constructor
    · intro after _
      exact stores.mp after.rows
    · intro keeps
      refine ⟨stores.mpr (keeps rfl), fun channelId some => ?_⟩
      -- a merge takes no row away
      obtain ⟨row, hrow, rfl⟩ := start.kept channelId some
      obtain ⟨⟨t, r⟩, hy, _⟩ := Database.catchesUp_of_batch hbatch ⟨.obsidianChannels, row⟩ hrow
      obtain ⟨hholds, hkey⟩ := SyncedTables.view_eq_some_iff.mp hy
      cases congrArg RowKey.table hkey
      exact ⟨r, hholds, eq_of_heq (RowKey.mk.inj hkey).2⟩

/-- After an event the device serves what was chosen exactly when the event keeps the bindings. -/
theorem servesChosen_step_iff (start : d.ServesChosen) :
    (d.step codec e).ServesChosen ↔ d.KeepsBindings codec e := by
  rw [servesChosen_iff] at start ⊢
  unfold KeepsBindings
  by_cases write : ∃ op, e = .write op
  · obtain ⟨op, rfl⟩ := write
    exact iff_of_true (allChosen_write start) nofun
  · have other (op : LocalOp) : e ≠ .write op := fun same => write ⟨op, same⟩
    have chosen : (d.step codec e).chosen = d.chosen := by
      cases e with
      | write op => exact absurd rfl (other op)
      | _ => rfl
    have tables : (d.step codec e).porch.tables = ((d.porch.offered codec e).elim d.porch.db
        fun delta => (d.porch.mergeBatch delta).db).tables :=
      congrArg Database.tables (Porch.db_afterSync other)
    rw [chosen, tables]
    cases d.porch.offered codec e with
    | none => exact iff_of_true start nofun
    | some delta =>
      rw [Option.elim_some]
      refine (allChosen_mergeBatch_iff start).trans ?_
      constructor
      · rintro keeps _ ⟨⟩
        exact keeps
      · exact fun keeps => keeps delta rfl

/-- **Vault bindings under sync.** In every run of writes, merges and answered requests, from any
device that serves what its owner chose, every state does so exactly when every step keeps the
bindings. -/
theorem servesChosen_along_iff (codec : JsonCodec) (d : BoundDevice) (start : d.ServesChosen)
    (events : List SyncEvent) :
    Machine.Along (step codec) (fun d e => (d.step codec e).ServesChosen) d events ↔
      Machine.Along (step codec) (KeepsBindings codec) d events :=
  Machine.along_step_iff (fun _ _ => servesChosen_step_iff) start

end BoundDevice

/-! ## A path from another machine -/

/-- A fresh install whose owner has chosen nothing. -/
def freshDevice : BoundDevice := ⟨plainPorch, fun _ => none⟩

/-- A disk with a folder of notes and a folder of keys. -/
def notesAndKeys : VaultDisk where
  canonicalize path := .ok path
  isDir path := path.segments.length = 3
  readDir _ := .ok []
  isSymlink _ := some false
  metadata _ := .ok ⟨false, true, 3, none⟩
  read path := if path = ⟨true, ["home", "ann", "keys", "id.txt"]⟩ then .ok [115, 51, 99]
    else .error "No such file or directory (os error 2)"
  toLowercase s := s

/-- The owner binds a channel to the notes. -/
def bindNotes : LocalOp :=
  .setObsidianConfig notesAndKeys.toVaultFiles "porch-default" ⟨true, ["home", "ann", "notes"]⟩ none
    false 2

/-- A binding of the same channel on another machine. -/
def foreignBinding : SyncDelta where
  channels := []
  messages := []
  acl := []
  knocks := []
  themes := []
  assets := []
  obsidian := [{
    cols := ⟨"porch-default", "/home/ann/keys", none, 0, 3⟩
    syncDeviceId := "device-b"
    syncLamport := 9
    syncTombstone := 0 }]

theorem freshDevice_servesChosen : freshDevice.ServesChosen := by
  refine BoundDevice.servesChosen_iff.mpr ⟨fun row hrow => ?_, nofun⟩
  have empty : (plainPorch.tables .obsidianChannels).rows = [] := by decide
  change row ∈ (plainPorch.tables .obsidianChannels).rows at hrow
  rw [empty] at hrow
  cases hrow

theorem BoundDevice.servesChosen_along_iff_fresh : freshDevice.ServesChosen ∧
    (Machine.Along (BoundDevice.step default) (fun d e => (d.step default e).ServesChosen)
        freshDevice [.write bindNotes, .batch foreignBinding] ↔
      Machine.Along (BoundDevice.step default) (BoundDevice.KeepsBindings default) freshDevice
        [.write bindNotes, .batch foreignBinding]) :=
  ⟨freshDevice_servesChosen,
    BoundDevice.servesChosen_along_iff default freshDevice freshDevice_servesChosen _⟩

set_option maxRecDepth 1000 in
/-- A batch of a linked device moves the channel to a folder its owner never chose, and a read gives
a file of that folder. -/
theorem BoundDevice.foreign_folder_served :
    let after := Machine.run (BoundDevice.step default) freshDevice
      [.write bindNotes, .batch foreignBinding]
    after.chosen "porch-default" = some ⟨"/home/ann/notes", none⟩ ∧
      after.porch.servedBinding "porch-default" = some ⟨"/home/ann/keys", none⟩ ∧
      after.porch.readVaultFile notesAndKeys "porch-default" "id.txt" =
        .ok ([115, 51, 99], "text/plain") ∧
      ¬ Machine.Along (BoundDevice.step default) (fun d e => (d.step default e).ServesChosen)
        freshDevice [.write bindNotes, .batch foreignBinding] := by
  intro after
  have chosen : after.chosen "porch-default" = some ⟨"/home/ann/notes", none⟩ := by decide
  have served : after.porch.servedBinding "porch-default" = some ⟨"/home/ann/keys", none⟩ := by
    decide +kernel
  refine ⟨chosen, served, by decide +kernel, fun ⟨_, serves, _⟩ => ?_⟩
  have same := serves.bindings "porch-default"
  change after.porch.servedBinding "porch-default" = after.chosen "porch-default" at same
  rw [chosen, served] at same
  exact absurd same (by decide)

end Concorrd
