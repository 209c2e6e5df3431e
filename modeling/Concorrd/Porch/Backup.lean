import Concorrd.Porch.Migrate

/-!
# Encrypted backups

`buildEncryptedBackup` dumps the database, compresses the dump and encrypts it under a key
derived from the install's seed. `restoreFromBlob` runs the pipeline backwards and writes the
dump over the database file. The dump, the compression and the cipher are libraries, here a
`BackupCodec` over a type of byte strings; `BackupCodec.Faithful` is what they promise.

`restore_of_build` is the round trip: a restored backup brings back the porch it was built
from, whatever happened to the porch in between.
-/

namespace Concorrd

/-- The current schema version. -/
def schemaVersion : Int64 := 10

/-- Marker of the format of a blob, the info string of the key derivation. -/
def hkdfInfoV1 : String := "concord/porch-backup/v1"

abbrev Seed := Vector UInt8 32

abbrev Nonce := Vector UInt8 12

/-- The libraries of the pipeline: SQLite's dump to a file and its opening of one, the
compression, the key derivation and the authenticated cipher. -/
structure BackupCodec (Bytes : Type) where
  vacuumInto : Porch → Except PorchError Bytes
  openFile : Bytes → Except PorchError Porch
  encodeAll : Bytes → Except PorchError Bytes
  decodeAll : Bytes → Except PorchError Bytes
  hkdf : Seed → String → Vector UInt8 32
  encrypt : Vector UInt8 32 → Nonce → Bytes → Except String Bytes
  decrypt : Vector UInt8 32 → Nonce → Bytes → Except String Bytes

/-- A dumped file opens as the database it was dumped from, decompression undoes compression,
and decryption undoes encryption under the same key and nonce. -/
structure BackupCodec.Faithful {Bytes : Type} (codec : BackupCodec Bytes) : Prop where
  openFile : ∀ p file, p.fileBacked = true → codec.vacuumInto p = .ok file →
    codec.openFile file = .ok p
  decodeAll : ∀ bytes compressed, codec.encodeAll bytes = .ok compressed →
    codec.decodeAll compressed = .ok bytes
  decrypt : ∀ key nonce bytes ciphertext, codec.encrypt key nonce bytes = .ok ciphertext →
    codec.decrypt key nonce ciphertext = .ok bytes

/-- One encrypted backup. -/
structure EncryptedBackup (Bytes : Type) where
  uploaderPeerId : String
  ciphertext : Bytes
  nonce : Nonce
  schemaVersion : Int64
  takenAt : Int64

/-- The symmetric key of a seed. -/
def deriveBackupKey {Bytes : Type} (codec : BackupCodec Bytes) (seed : Seed) : Vector UInt8 32 :=
  codec.hkdf seed hkdfInfoV1

namespace Porch

variable {Bytes : Type} (codec : BackupCodec Bytes)

/-- Build an encrypted backup of the porch as it stands. The seed provider's answer, the
random nonce and the time are arguments. -/
def buildEncryptedBackup (p : Porch) (uploaderPeerId : String) (seed : Except PorchError Seed)
    (nonce : Nonce) (takenAt : Int64) : Except PorchError (EncryptedBackup Bytes) := do
  if p.fileBacked = false then
    throw (.invalidInput "in-memory porch cannot be backed up — open a file-backed porch first")
  let plaintext ← codec.vacuumInto p
  let compressed ← codec.encodeAll plaintext
  let seed ← seed
  match codec.encrypt (deriveBackupKey codec seed) nonce compressed with
  | .error e => throw (.invalidInput ("AEAD encrypt failed: " ++ e))
  | .ok ciphertext => return ⟨uploaderPeerId, ciphertext, nonce, schemaVersion, takenAt⟩

/-- Decrypt and decompress a blob and write it over the database file. The answer is what the
file then holds and the blob's schema version; `files` is what writing the temporary file and
renaming it answered. -/
def restoreFromBlob (blob : EncryptedBackup Bytes) (seed : Except PorchError Seed)
    (files : Except PorchError Unit) : Except PorchError (Bytes × Int64) := do
  let seed ← seed
  match codec.decrypt (deriveBackupKey codec seed) blob.nonce blob.ciphertext with
  | .error e =>
    throw (.invalidInput
      ("AEAD decrypt failed (wrong seed, corrupted blob, or format mismatch): " ++ e))
  | .ok compressed =>
    let plaintext ← codec.decodeAll compressed
    files
    return (plaintext, blob.schemaVersion)

/-- Open the file again. At the current schema version there is nothing to migrate. -/
def reopen (file : Bytes) (now : Int64) : Except PorchError Porch := do
  let p ← codec.openFile file
  (p.ensureDefaultChannel now).map Outcome.porch

/-- What the restore command answers once it has asked the backup peer: the porch it leaves
open and the blob's schema version. -/
def backupRestoreFrom (p : Porch) (confirm : Bool) (fetched : Option (EncryptedBackup Bytes))
    (seed : Except PorchError Seed) (files : Except PorchError Unit) (now : Int64) :
    Except String (Porch × Int64) :=
  if confirm = false then
    .error "porch_backup_restore_from requires confirm=true — this overwrites the local porch DB"
  else if p.fileBacked = false then
    .error "porch is in-memory; nothing to restore over"
  else
    match fetched with
    | none => .error "backup peer is not storing a backup for this install"
    | some blob =>
      match restoreFromBlob codec blob seed files with
      | .error e => .error ("restore: " ++ e.toString)
      | .ok (file, version) =>
        match reopen codec file now with
        | .error e => .error e.toString
        | .ok restored => .ok (restored, version)

variable {codec} {p q restored : Porch} {uploaderPeerId : String} {seed : Except PorchError Seed}
  {nonce : Nonce} {takenAt now version : Int64} {blob : EncryptedBackup Bytes}
  {files : Except PorchError Unit} {confirm : Bool}

/-- A backup was built from a file-backed porch by every step of the pipeline. -/
theorem buildEncryptedBackup_eq_ok
    (h : p.buildEncryptedBackup codec uploaderPeerId seed nonce takenAt = .ok blob) :
    p.fileBacked = true ∧ ∃ plaintext compressed key,
      codec.vacuumInto p = .ok plaintext ∧ codec.encodeAll plaintext = .ok compressed ∧
      seed = .ok key ∧
      codec.encrypt (deriveBackupKey codec key) nonce compressed = .ok blob.ciphertext ∧
      blob.nonce = nonce ∧ blob.schemaVersion = schemaVersion := by
  unfold buildEncryptedBackup at h
  cases hfile : p.fileBacked with
  | false =>
    rw [hfile] at h
    cases h
  | true =>
    rw [hfile] at h
    cases hvacuum : codec.vacuumInto p with
    | error e =>
      rw [hvacuum] at h
      cases h
    | ok plaintext =>
      rw [hvacuum] at h
      cases hencode : codec.encodeAll plaintext with
      | error e =>
        simp only [hencode, bind, Except.bind] at h
        cases h
      | ok compressed =>
        cases seed with
        | error e =>
          simp only [hencode, bind, Except.bind] at h
          cases h
        | ok key =>
          simp only [hencode, bind, Except.bind] at h
          cases hencrypt : codec.encrypt (deriveBackupKey codec key) nonce compressed with
          | error e =>
            rw [hencrypt] at h
            cases h
          | ok ciphertext =>
            rw [hencrypt] at h
            cases h
            exact ⟨rfl, plaintext, compressed, key, rfl, hencode, rfl, hencrypt, rfl, rfl⟩

/-- A blob decrypts, with the seed it was built with, to a file that opens as the porch it
was built from. -/
theorem restoreFromBlob_of_build (faithful : codec.Faithful)
    (h : p.buildEncryptedBackup codec uploaderPeerId seed nonce takenAt = .ok blob) :
    ∃ file, codec.openFile file = .ok p ∧ ∀ files, restoreFromBlob codec blob seed files =
      files.map fun _ => (file, schemaVersion) := by
  obtain ⟨hfile, plaintext, compressed, key, hvacuum, hencode, rfl, hencrypt, rfl, hversion⟩ :=
    buildEncryptedBackup_eq_ok h
  refine ⟨plaintext, faithful.openFile p plaintext hfile hvacuum, fun files => ?_⟩
  have hdecrypt := faithful.decrypt _ _ _ _ hencrypt
  have hdecode := faithful.decodeAll _ _ hencode
  unfold restoreFromBlob
  simp only [bind, Except.bind, hdecrypt, hdecode, hversion]
  cases files <;> rfl

/-- A porch with a channel gets no default channel. -/
theorem ensureDefaultChannel_of_channels (h : (p.tables .porchChannels).rows ≠ []) :
    p.ensureDefaultChannel now = .ok ⟨p, [], ()⟩ := by
  unfold ensureDefaultChannel
  rw [if_neg]
  rwa [List.isEmpty_iff]

/-- **Round trip of a backup.** A restore from a backup the install built, when it goes
through, leaves the porch the backup was built from. -/
theorem restore_of_build (faithful : codec.Faithful)
    (h : p.buildEncryptedBackup codec uploaderPeerId seed nonce takenAt = .ok blob)
    (channels : (p.tables .porchChannels).rows ≠ [])
    (hrestore : q.backupRestoreFrom codec confirm (some blob) seed files now =
      .ok (restored, version)) : restored = p ∧ version = schemaVersion := by
  obtain ⟨file, hopen, hblob⟩ := restoreFromBlob_of_build faithful h
  have hreopen : reopen codec file now = .ok p := by
    simp only [reopen, hopen, bind, Except.bind, ensureDefaultChannel_of_channels channels]
    rfl
  unfold backupRestoreFrom at hrestore
  split at hrestore
  · cases hrestore
  split at hrestore
  · cases hrestore
  simp only [hblob] at hrestore
  cases files with
  | error e => cases hrestore
  | ok =>
    simp only [Except.map, hreopen] at hrestore
    cases hrestore
    exact ⟨rfl, rfl⟩

end Porch

end Concorrd
