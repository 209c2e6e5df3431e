import Concorrd.Lib.Run
import Concorrd.Porch.ReceivedBackups

/-!
# Backups handed back

Peers upload backups and ask for them in any order. A `BackupLedger` is a host beside the latest
accepted upload of every peer, and `HandsBack` says that the host answers each peer with exactly
that, and that it opens. What other peers upload never matters. The time of a backup is read from
the row of its receipt, and the file is replaced before the row, so a run hands back exactly when
every stored upload was taken at the time it was received and no upload that fails after its file
is in place changes the bytes of an earlier one.
-/

namespace Concorrd

/-- A host, and the latest accepted upload of every peer. -/
structure BackupLedger where
  host : BackupHost
  accepted : Base58PeerId → Option (EncryptedBackup (List UInt8))

/-- A request of a peer, what storing it would come to, and the time it arrives. -/
structure BackupEvent where
  requester : Base58PeerId
  request : BackupRequest
  outcome : StoreOutcome
  now : Int64

/-- What the compression and the cipher promise: decompression and decryption undo them. -/
structure BackupCodec.Undone {Bytes : Type} (codec : BackupCodec Bytes) : Prop where
  decodeAll : ∀ bytes compressed, codec.encodeAll bytes = .ok compressed →
    codec.decodeAll compressed = .ok bytes
  decrypt : ∀ key nonce bytes ciphertext, codec.encrypt key nonce bytes = .ok ciphertext →
    codec.decrypt key nonce ciphertext = .ok bytes

namespace BackupLedger

variable (sha256 : List UInt8 → String) (codec : BackupCodec (List UInt8)) (ledger : BackupLedger)

/-- One request. An upload that is answered without an error is accepted. -/
def step (e : BackupEvent) : BackupLedger where
  host := (ledger.host.dispatch sha256 e.requester e.outcome e.now e.request).1
  accepted :=
    match e.request, (ledger.host.dispatch sha256 e.requester e.outcome e.now e.request).2 with
    | .uploadBackup blob, .ok _ => Function.update ledger.accepted e.requester (some blob)
    | _, _ => ledger.accepted

/-- Every peer is answered with its latest accepted upload, and the seed it was built with opens
what is answered as the database that was uploaded. -/
structure HandsBack : Prop where
  memory : ledger.host.fileBacked = false → ∀ p, ledger.accepted p = none
  fetched : ledger.host.fileBacked = true →
    ∀ p, ledger.host.readReceivedBackup p.text = .ok (ledger.accepted p)
  opens : ∀ p blob, ledger.accepted p = some blob → ∀ (q : Porch) seed nonce takenAt,
    q.buildEncryptedBackup codec p.text (.ok seed) nonce takenAt = .ok blob →
      ∃ fetched file, ledger.host.readReceivedBackup p.text = .ok (some fetched) ∧
        codec.vacuumInto q = .ok file ∧
        Porch.restoreFromBlob codec fetched (.ok seed) (.ok ()) = .ok (file, schemaVersion)

/-- A request leaves alone what every other peer is answered with. -/
def Isolated (e : BackupEvent) : Prop :=
  ∀ p, p ≠ e.requester → (ledger.step sha256 e).host.readReceivedBackup p.text =
    ledger.host.readReceivedBackup p.text

/-- An upload that is stored was taken at the time it arrives, and one that fails with its file in
place has the bytes of the latest accepted one. -/
def Faithful (e : BackupEvent) : Prop :=
  ∀ blob, e.request = .uploadBackup blob → blob.uploaderPeerId = e.requester.text →
    ledger.host.fileBacked = true →
      match e.outcome with
      | .stored => blob.takenAt = e.now
      | .insertFailed _ => ∀ last, ledger.accepted e.requester = some last →
        last.nonce = blob.nonce ∧ last.ciphertext = blob.ciphertext
      | _ => True

variable {sha256 codec ledger} {e : BackupEvent} {p : Base58PeerId}

/-! ## What is handed back opens -/

/-- Every peer is answered with its latest accepted upload. -/
structure Returns (ledger : BackupLedger) : Prop where
  memory : ledger.host.fileBacked = false → ∀ p, ledger.accepted p = none
  fetched : ledger.host.fileBacked = true →
    ∀ p, ledger.host.readReceivedBackup p.text = .ok (ledger.accepted p)

/-- What a build encrypted opens with the seed of the build. -/
theorem restoreFromBlob_build (undone : codec.Undone) {q : Porch} {uploader : String} {seed : Seed}
    {nonce : Nonce} {takenAt : Int64} {blob : EncryptedBackup (List UInt8)}
    (h : q.buildEncryptedBackup codec uploader (.ok seed) nonce takenAt = .ok blob) :
    ∃ file, codec.vacuumInto q = .ok file ∧
      Porch.restoreFromBlob codec blob (.ok seed) (.ok ()) = .ok (file, schemaVersion) := by
  obtain ⟨_, file, compressed, key, hvacuum, hencode, hseed, hencrypt, rfl, hversion⟩ :=
    Porch.buildEncryptedBackup_eq_ok h
  cases hseed
  refine ⟨file, hvacuum, ?_⟩
  have hdecrypt := undone.decrypt _ _ _ _ hencrypt
  have hdecode := undone.decodeAll _ _ hencode
  unfold Porch.restoreFromBlob
  simp only [bind, Except.bind, hdecrypt, hdecode, hversion]
  rfl

/-- Where the right blob is handed back, it opens. -/
theorem handsBack_iff (undone : codec.Undone) : ledger.HandsBack codec ↔ ledger.Returns := by
  refine ⟨fun h => ⟨h.memory, h.fetched⟩, fun h => ⟨h.memory, h.fetched, ?_⟩⟩
  intro p blob accepted q seed nonce takenAt built
  obtain ⟨file, hvacuum, hrestore⟩ := restoreFromBlob_build undone built
  refine ⟨blob, file, ?_, hvacuum, hrestore⟩
  cases backed : ledger.host.fileBacked with
  | false =>
    rw [h.memory backed p] at accepted
    cases accepted
  | true => rw [h.fetched backed p, accepted]

/-! ## One request -/

/-- A request leaves the host as it was, or stores a blob of its requester. -/
theorem step_host_cases (sha256 : List UInt8 → String) (ledger : BackupLedger) (e : BackupEvent) :
    (ledger.step sha256 e).host = ledger.host ∧ (ledger.step sha256 e).accepted = ledger.accepted ∧
        (∀ blob, e.request = .uploadBackup blob → blob.uploaderPeerId ≠ e.requester.text) ∨
      ∃ blob, e.request = .uploadBackup blob ∧ blob.uploaderPeerId = e.requester.text ∧
        (ledger.step sha256 e).host =
          (ledger.host.storeReceivedBackup sha256 blob e.outcome e.now).1 ∧
        (ledger.step sha256 e).accepted =
          if (ledger.host.storeReceivedBackup sha256 blob e.outcome e.now).2.isOk then
            Function.update ledger.accepted e.requester (some blob)
          else ledger.accepted := by
  obtain ⟨requester, request, outcome, now⟩ := e
  cases request with
  | getMyBackup => exact .inl ⟨rfl, rfl, nofun⟩
  | getMyBackupInfo => exact .inl ⟨rfl, rfl, nofun⟩
  | uploadBackup blob =>
    by_cases own : blob.uploaderPeerId = requester.text
    · refine .inr ⟨blob, rfl, own, ?_, ?_⟩
      · simp only [step, BackupHost.dispatch, own, ne_eq, not_true_eq_false, if_false]
        split <;> rename_i hstore <;> rw [hstore]
      · simp only [step, BackupHost.dispatch, own, ne_eq, not_true_eq_false, if_false]
        cases hstore : ledger.host.storeReceivedBackup sha256 blob outcome now with
        | mk host answer => cases answer <;> rfl
    · refine .inl ⟨?_, ?_, ?_⟩
      · simp only [step, BackupHost.dispatch, ne_eq, own, not_false_eq_true, if_true]
      · simp only [step, BackupHost.dispatch, ne_eq, own, not_false_eq_true, if_true]
      · rintro _ ⟨⟩
        exact own

theorem named_step (named : ledger.host.Named) : (ledger.step sha256 e).host.Named := by
  rcases step_host_cases sha256 ledger e with ⟨same, _⟩ | ⟨blob, _, _, stored, _⟩
  · rwa [same]
  · rw [stored]
    exact named.store

/-- **No request touches another peer's backup.** -/
theorem isolated (named : ledger.host.Named) : ledger.Isolated sha256 e := by
  intro p other
  rcases step_host_cases sha256 ledger e with ⟨same, _⟩ | ⟨blob, _, own, stored, _⟩
  · rw [same]
  · rw [stored]
    exact BackupHost.readReceivedBackup_store_other named (Ne.symm other) own

/-- A blob is read back under the times of a row exactly when its bytes and times are those. -/
theorem ok_some_eq_iff {last : EncryptedBackup (List UInt8)} {text : String}
    {ciphertext : List UInt8} {nonce : Nonce} {version at' : Int64} :
    (Except.ok (some ⟨text, ciphertext, nonce, version, at'⟩) :
      Except PorchError (Option (EncryptedBackup (List UInt8)))) = .ok (some last) ↔
      text = last.uploaderPeerId ∧ ciphertext = last.ciphertext ∧ nonce = last.nonce ∧
        version = last.schemaVersion ∧ at' = last.takenAt := by
  obtain ⟨_, _, _, _, _⟩ := last
  rw [Except.ok.injEq, Option.some.injEq, EncryptedBackup.mk.injEq]

section

variable {blob : EncryptedBackup (List UInt8)} {host : BackupHost} {q : Base58PeerId}
  {accepted : Option (EncryptedBackup (List UInt8))} {now : Int64}
  (backed : host.fileBacked = true) (named : host.Named)
include backed named

/-- An upload that failed before its file was in place changes nothing. -/
theorem read_failed {outcome : StoreOutcome}
    (early : (∃ error left, outcome = .writeFailed error left) ∨
      ∃ error, outcome = .renameFailed error) :
    (host.storeReceivedBackup sha256 blob outcome now).1.readReceivedBackup q.text =
      host.readReceivedBackup q.text := by
  have temporary (content : Option (List UInt8)) :
      Function.update host.files (temporaryFilename blob.uploaderPeerId) content
        (sanitizeUploaderFilename q.text) = host.files (sanitizeUploaderFilename q.text) :=
    Function.update_of_ne (temporaryFilename_ne _ _).symm _ _
  apply BackupHost.readReceivedBackup_congr named BackupHost.fileBacked_store
  · rcases early with ⟨error, left, rfl⟩ | ⟨error, rfl⟩
    · simp only [BackupHost.storeReceivedBackup, backed, Bool.true_eq_false, if_false]
    · simp only [BackupHost.storeReceivedBackup, backed, Bool.true_eq_false, if_false]
  · rcases early with ⟨error, left, rfl⟩ | ⟨error, rfl⟩
    · simp only [BackupHost.storeReceivedBackup, backed, Bool.true_eq_false, if_false, temporary]
    · simp only [BackupHost.storeReceivedBackup, backed, Bool.true_eq_false, if_false, temporary]

variable (own : blob.uploaderPeerId = q.text)
include own

/-- A stored blob is read back exactly when it was taken at the time it arrived. -/
theorem read_stored_iff :
    (host.storeReceivedBackup sha256 blob .stored now).1.readReceivedBackup q.text =
      .ok (some blob) ↔ blob.takenAt = now := by
  have row : (host.storeReceivedBackup sha256 blob .stored now).1.rows.find? q.text =
      some (BackupHost.receivedRow sha256 blob now) := by
    have puts := BackupHost.puts_stored sha256 host blob now
    have self := puts.find?_self
    simp only [BackupHost.storeReceivedBackup, backed, Bool.true_eq_false, if_false]
    rw [← own]
    exact self
  have file : (host.storeReceivedBackup sha256 blob .stored now).1.files
      (sanitizeUploaderFilename q.text) = some blob.onDisk := by
    simp only [BackupHost.storeReceivedBackup, backed, Bool.true_eq_false, if_false]
    exact BackupHost.replaced_self own
  rw [BackupHost.readReceivedBackup_of_file (BackupHost.fileBacked_store.trans backed) named.store
    row file, ok_some_eq_iff]
  simp only [own, BackupHost.receivedRow, true_and]
  exact eq_comm

/-- An upload that failed with its file in place changes nothing exactly when the file has the bytes
of the one before. -/
theorem read_insertFailed_iff {error : PorchError}
    (before : host.readReceivedBackup q.text = .ok accepted) :
    (host.storeReceivedBackup sha256 blob (.insertFailed error) now).1.readReceivedBackup q.text =
      .ok accepted ↔ ∀ last, accepted = some last →
        last.nonce = blob.nonce ∧ last.ciphertext = blob.ciphertext := by
  have rows : (host.storeReceivedBackup sha256 blob (.insertFailed error) now).1.rows =
      host.rows := by
    simp only [BackupHost.storeReceivedBackup, backed, Bool.true_eq_false, if_false]
  have file : (host.storeReceivedBackup sha256 blob (.insertFailed error) now).1.files
      (sanitizeUploaderFilename q.text) = some blob.onDisk := by
    simp only [BackupHost.storeReceivedBackup, backed, Bool.true_eq_false, if_false]
    exact BackupHost.replaced_self own
  have backed' : (host.storeReceivedBackup sha256 blob (.insertFailed error) now).1.fileBacked =
      true := BackupHost.fileBacked_store.trans backed
  cases hrow : host.rows.find? q.text with
  | none =>
    simp only [BackupHost.readReceivedBackup, backed, Bool.true_eq_false, if_false, hrow] at before
    cases before
    simp only [BackupHost.readReceivedBackup, backed', Bool.true_eq_false, if_false, rows, hrow,
      reduceCtorEq, false_imp_iff, implies_true]
  | some row =>
    rw [BackupHost.readReceivedBackup_of_file backed' named.store (rows ▸ hrow) file]
    obtain ⟨last, rfl, text, version, received⟩ :=
      BackupHost.exists_of_readReceivedBackup hrow before
    rw [ok_some_eq_iff]
    constructor
    · rintro ⟨_, ciphertext, nonce, _, _⟩ _ ⟨⟩
      exact ⟨nonce.symm, ciphertext.symm⟩
    · intro same
      obtain ⟨nonce, ciphertext⟩ := same last rfl
      exact ⟨text.symm, ciphertext.symm, nonce.symm, version.symm, received.symm⟩

end

/-- After a request every peer is answered with its latest accepted upload exactly when the
requester is. -/
theorem returns_step_iff (named : ledger.host.Named) (start : ledger.Returns) :
    (ledger.step sha256 e).Returns ↔ ledger.Faithful e := by
  rcases step_host_cases sha256 ledger e with
    ⟨same, accepted, notOwn⟩ | ⟨blob, request, own, stored, accepted⟩
  · refine iff_of_true ⟨?_, ?_⟩ fun blob request own => absurd own (notOwn blob request)
    · rw [same, accepted]
      exact start.memory
    · rw [same, accepted]
      exact start.fetched
  cases backed : ledger.host.fileBacked with
  | false =>
    -- an install without a directory refuses
    have refused : ledger.host.storeReceivedBackup sha256 blob e.outcome e.now =
        (ledger.host, .error (.invalidInput
          "in-memory porch cannot store received backups — open a file-backed porch")) := by
      simp only [BackupHost.storeReceivedBackup, backed, if_true]
    rw [refused] at stored accepted
    refine iff_of_true ⟨?_, ?_⟩ fun blob' request' own' backed' => ?_
    · rw [stored, accepted]
      exact start.memory
    · rw [stored, accepted]
      exact start.fetched
    · rw [backed] at backed'
      cases backed'
  | true =>
    have before := start.fetched backed
    have backed' : (ledger.step sha256 e).host.fileBacked = true := by
      rw [stored, BackupHost.fileBacked_store, backed]
    have others (p : Base58PeerId) (other : p ≠ e.requester) :
        (ledger.step sha256 e).host.readReceivedBackup p.text =
          .ok ((ledger.step sha256 e).accepted p) := by
      rw [isolated named p other, before p, accepted]
      split
      · rw [Function.update_of_ne other]
      · rfl
    have requester : (ledger.step sha256 e).Returns ↔
        (ledger.step sha256 e).host.readReceivedBackup e.requester.text =
          .ok ((ledger.step sha256 e).accepted e.requester) := by
      refine ⟨fun h => h.fetched backed' _, fun h => ⟨fun no => ?_, fun _ p => ?_⟩⟩
      · rw [backed'] at no
        cases no
      · by_cases same : p = e.requester
        · rw [same, h]
        · exact others p same
    have faithful : ledger.Faithful e ↔ match e.outcome with
        | .stored => blob.takenAt = e.now
        | .insertFailed _ => ∀ last, ledger.accepted e.requester = some last →
          last.nonce = blob.nonce ∧ last.ciphertext = blob.ciphertext
        | _ => True := by
      constructor
      · exact fun h => h blob request own backed
      · intro h blob' request' _ _
        cases request.symm.trans request'
        exact h
    rw [requester, faithful, stored, accepted]
    cases outcome : e.outcome with
    | stored =>
      rw [BackupHost.isOk_store backed, if_pos rfl, Function.update_self]
      exact read_stored_iff backed named own
    | insertFailed error =>
      rw [BackupHost.isOk_store backed]
      exact read_insertFailed_iff backed named own (before e.requester)
    | writeFailed error left =>
      rw [BackupHost.isOk_store backed, read_failed backed named (.inl ⟨error, left, rfl⟩), before]
      exact iff_of_true rfl trivial
    | renameFailed error =>
      rw [BackupHost.isOk_store backed, read_failed backed named (.inr ⟨error, rfl⟩), before]
      exact iff_of_true rfl trivial

/-- Every peer is answered with its latest accepted upload, from the file of its own. -/
def Keeps (ledger : BackupLedger) : Prop := ledger.Returns ∧ ledger.host.Named

theorem keeps_step_iff (keeps : ledger.Keeps) :
    (ledger.step sha256 e).Keeps ↔ ledger.Faithful e := by
  obtain ⟨returns, named⟩ := keeps
  rw [Keeps, and_iff_left (named_step named)]
  exact returns_step_iff named returns

/-- **Backups come back as they were.** In every run of requests of any peers, from any host that
hands back what it accepted, every state does so and no request touches another peer's backup
exactly when every upload is faithful. -/
theorem handsBack_along_iff (sha256 : List UInt8 → String) (codec : BackupCodec (List UInt8))
    (undone : codec.Undone) (ledger : BackupLedger) (named : ledger.host.Named)
    (start : ledger.HandsBack codec) (events : List BackupEvent) :
    Machine.Along (step sha256) (fun ledger e => (ledger.step sha256 e).HandsBack codec ∧
        ledger.Isolated sha256 e) ledger events ↔
      Machine.Along (step sha256) Faithful ledger events := by
  have good : Machine.Along (step sha256) (fun ledger e => (ledger.step sha256 e).HandsBack codec ∧
      ledger.Isolated sha256 e) ledger events ↔
      Machine.Along (step sha256) (fun ledger e => (ledger.step sha256 e).Keeps) ledger events := by
    refine Machine.along_congr (fun ledger => ledger.host.Named) (fun _ _ => named_step)
      (fun ledger e named => ?_) named
    rw [handsBack_iff undone, and_iff_left (isolated named), Keeps,
      and_iff_left (named_step named)]
  rw [good]
  exact Machine.along_step_iff (fun _ _ => keeps_step_iff) ⟨(handsBack_iff undone).mp start, named⟩

end BackupLedger

/-! ## The time of a backup -/

deriving instance DecidableEq for EncryptedBackup

/-- A host that keeps nothing yet. -/
def freshLedger : BackupLedger where
  host := ⟨true, KeyedTable.empty, fun _ => none⟩
  accepted _ := none

/-- A pipeline that keeps its input, under a cipher that puts the key in front. -/
def plainCodec : BackupCodec (List UInt8) where
  vacuumInto _ := .ok [83, 81, 76]
  openFile _ := .ok plainPorch
  encodeAll bytes := .ok bytes
  decodeAll bytes := .ok bytes
  hkdf seed _ := seed
  encrypt key _ bytes := .ok (key.toList ++ bytes)
  decrypt key _ bytes :=
    if key.toList.isPrefixOf bytes then .ok (bytes.drop key.toList.length) else .error "aead::Error"

theorem plainCodec_undone : plainCodec.Undone where
  decodeAll bytes compressed h := by
    cases h
    rfl
  decrypt key nonce bytes ciphertext h := by
    cases h
    simp only [plainCodec, List.isPrefixOf_iff_prefix, List.prefix_append, if_true, List.drop_left]

/-- A digest that tells lengths apart. -/
def lengthDigest (bytes : List UInt8) : String := toString bytes.length

/-- A peer. -/
def uploader : Base58PeerId :=
  ⟨"12D3KooWA", show "12D3KooWA".toList ⊆ base58Alphabet by decide⟩

/-- A backup that was taken at time 5. -/
def takenAtFive : EncryptedBackup (List UInt8) :=
  ⟨uploader.text, [9, 9, 9], ⟨#[1, 2, 3, 4, 5, 6, 7, 8, 9, 10, 11, 12], rfl⟩, 10, 5⟩

/-- It reaches the host at time 7. -/
def uploadAtSeven : BackupEvent := ⟨uploader, .uploadBackup takenAtFive, .stored, 7⟩

theorem freshLedger_named : freshLedger.host.Named := fun _ _ h => by cases h

theorem freshLedger_handsBack : freshLedger.HandsBack plainCodec :=
  (BackupLedger.handsBack_iff plainCodec_undone).mpr ⟨nofun, fun _ _ => rfl⟩

theorem BackupLedger.handsBack_along_iff_fresh : plainCodec.Undone ∧ freshLedger.host.Named ∧
    freshLedger.HandsBack plainCodec ∧
    (Machine.Along (BackupLedger.step lengthDigest) (fun ledger e =>
        (ledger.step lengthDigest e).HandsBack plainCodec ∧ ledger.Isolated lengthDigest e)
        freshLedger [uploadAtSeven] ↔
      Machine.Along (BackupLedger.step lengthDigest) BackupLedger.Faithful freshLedger
        [uploadAtSeven]) :=
  ⟨plainCodec_undone, freshLedger_named, freshLedger_handsBack,
    BackupLedger.handsBack_along_iff lengthDigest plainCodec plainCodec_undone freshLedger
      freshLedger_named freshLedger_handsBack _⟩

/-- A backup of time 5 that is received at time 7 comes back as one of time 7. -/
theorem BackupLedger.taken_when_received :
    let after := freshLedger.step lengthDigest uploadAtSeven
    after.accepted uploader = some takenAtFive ∧
      after.host.readReceivedBackup uploader.text = .ok (some { takenAtFive with takenAt := 7 }) ∧
      ¬ Machine.Along (BackupLedger.step lengthDigest) (fun ledger e =>
        (ledger.step lengthDigest e).HandsBack plainCodec ∧ ledger.Isolated lengthDigest e)
        freshLedger [uploadAtSeven] := by
  intro after
  have accepted : after.accepted uploader = some takenAtFive := by decide
  have read : after.host.readReceivedBackup uploader.text =
      .ok (some { takenAtFive with takenAt := 7 }) := by decide
  refine ⟨accepted, read, fun ⟨⟨handsBack, _⟩, _⟩ => ?_⟩
  have same := handsBack.fetched rfl uploader
  change after.host.readReceivedBackup uploader.text = .ok (after.accepted uploader) at same
  rw [accepted, read] at same
  exact absurd (congrArg EncryptedBackup.takenAt (Option.some.inj (Except.ok.inj same))) (by decide)

end Concorrd
