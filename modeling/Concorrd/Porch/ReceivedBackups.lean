import Concorrd.Porch.Backup

/-!
# Backups kept for other installs

A backup peer keeps the latest blob of every uploader: the nonce and the ciphertext in a file named
after the uploader, the rest in a row. An upload replaces the file first and writes the row after
it. The directory is a map from file names, and what each step on the disk came to is an argument.

`fileName_injective` says that peer ids never share a file, and `readReceivedBackup_store_other`
that an upload leaves alone what every other uploader reads.
-/

namespace Concorrd

/-- The letters of a peer id. -/
def base58Alphabet : List Char :=
  "123456789ABCDEFGHJKLMNPQRSTUVWXYZabcdefghijkmnopqrstuvwxyz".toList

/-- A peer id in base58. -/
structure Base58PeerId where
  text : String
  base58 : ∀ c ∈ text.toList, c ∈ base58Alphabet
  deriving DecidableEq

@[ext]
theorem Base58PeerId.ext {p q : Base58PeerId} (h : p.text = q.text) : p = q := by
  cases p
  cases q
  cases h
  rfl

/-- A row of `received_backups`. -/
structure ReceivedBackupRow where
  uploaderPeerId : String
  blobPath : String
  blobSize : Int64
  blobSha256 : String
  schemaVersion : Int64
  receivedAt : Int64
  deriving DecidableEq, Repr

/-- What an uploader is told of its backup without the blob. -/
structure ReceivedBackupSummary where
  uploaderPeerId : String
  schemaVersion : Int64
  blobSize : Int64
  blobSha256 : String
  receivedAt : Int64
  deriving DecidableEq, Repr

/-- The side of an install that keeps backups: whether it has a directory, the rows, and the files
of the directory. -/
structure BackupHost where
  fileBacked : Bool
  rows : KeyedTable ReceivedBackupRow.uploaderPeerId
  files : String → Option (List UInt8)

/-- What storing a blob came to: all done, or the step that failed. A failed write may leave a
temporary file. -/
inductive StoreOutcome where
  | stored
  | writeFailed (e : String) (left : Option (List UInt8))
  | renameFailed (e : String)
  | insertFailed (e : PorchError)

/-- The letters and digits of a peer id. -/
def cleanPeerId (peerId : String) : String :=
  String.ofList (peerId.toList.filter Char.isAlphanum)

/-- The name of the file of an uploader. -/
def sanitizeUploaderFilename (peerId : String) : String := cleanPeerId peerId ++ ".bin"

/-- The name it is written under first. A name that is all extension keeps it. -/
def temporaryFilename (peerId : String) : String :=
  (if cleanPeerId peerId = "" then ".bin" else cleanPeerId peerId) ++ ".bin.tmp"

/-- The nonce, then the ciphertext. -/
def EncryptedBackup.onDisk (blob : EncryptedBackup (List UInt8)) : List UInt8 :=
  blob.nonce.toList ++ blob.ciphertext

/-- The nonce at the head of a file. -/
def nonceOf (bytes : List UInt8) (long : ¬ bytes.length < 12) : Nonce :=
  ⟨(bytes.take 12).toArray, by rw [List.size_toArray, List.length_take]; omega⟩

/-- `ON CONFLICT(uploader_peer_id) DO UPDATE SET …` -/
def receivedConflict (new old : ReceivedBackupRow) : ReceivedBackupRow :=
  { old with
    blobPath := new.blobPath
    blobSize := new.blobSize
    blobSha256 := new.blobSha256
    schemaVersion := new.schemaVersion
    receivedAt := new.receivedAt }

/-- A request of the backup protocol. -/
inductive BackupRequest where
  | uploadBackup (backup : EncryptedBackup (List UInt8))
  | getMyBackup
  | getMyBackupInfo

/-- What a request is answered with when it is not refused. -/
inductive BackupResult where
  | stored
  | backup (blob : Option (EncryptedBackup (List UInt8)))
  | info (summary : Option ReceivedBackupSummary)

namespace BackupHost

variable (sha256 : List UInt8 → String) (host : BackupHost)

/-- The files once a blob is in place. -/
def replaced (blob : EncryptedBackup (List UInt8)) : String → Option (List UInt8) :=
  Function.update (Function.update host.files (temporaryFilename blob.uploaderPeerId) none)
    (sanitizeUploaderFilename blob.uploaderPeerId) (some blob.onDisk)

/-- The row of a blob. -/
def receivedRow (blob : EncryptedBackup (List UInt8)) (now : Int64) : ReceivedBackupRow where
  uploaderPeerId := blob.uploaderPeerId
  blobPath := sanitizeUploaderFilename blob.uploaderPeerId
  blobSize := Int64.ofNat blob.ciphertext.length
  blobSha256 := sha256 blob.ciphertext
  schemaVersion := blob.schemaVersion
  receivedAt := now

/-- Store a blob: write a temporary file, move it in place, write the row. -/
def storeReceivedBackup (blob : EncryptedBackup (List UInt8)) (outcome : StoreOutcome)
    (now : Int64) : BackupHost × Except PorchError Unit :=
  if host.fileBacked = false then
    (host, .error (.invalidInput
      "in-memory porch cannot store received backups — open a file-backed porch"))
  else
    match outcome with
    | .writeFailed e left =>
      ({ host with
        files := Function.update host.files (temporaryFilename blob.uploaderPeerId) left },
        .error (.io e))
    | .renameFailed e =>
      ({ host with
        files := Function.update host.files (temporaryFilename blob.uploaderPeerId)
          (some blob.onDisk) }, .error (.io e))
    | .insertFailed e => ({ host with files := host.replaced blob }, .error e)
    | .stored =>
      let row := receivedRow sha256 blob now
      ({ host with
        files := host.replaced blob
        rows := host.rows.upsert row (receivedConflict row) fun _ => rfl }, .ok ())

/-- The blob that is kept for an uploader. -/
def readReceivedBackup (uploaderPeerId : String) :
    Except PorchError (Option (EncryptedBackup (List UInt8))) :=
  if host.fileBacked = false then
    .error (.invalidInput "in-memory porch cannot serve received backups")
  else
    match host.rows.find? uploaderPeerId with
    | none => .ok none
    | some row =>
      match host.files row.blobPath with
      | none => .error (.io "No such file or directory (os error 2)")
      | some bytes =>
        if short : bytes.length < 12 then
          .error (.invalidInput ("stored backup blob truncated: " ++ toString bytes.length ++
            " < 12"))
        else
          .ok (some ⟨uploaderPeerId, bytes.drop 12, nonceOf bytes short, row.schemaVersion,
            row.receivedAt⟩)

/-- What is kept for an uploader, without the blob. -/
def readReceivedBackupInfo (uploaderPeerId : String) : Option ReceivedBackupSummary :=
  (host.rows.find? uploaderPeerId).map fun row =>
    ⟨row.uploaderPeerId, row.schemaVersion, row.blobSize, row.blobSha256, row.receivedAt⟩

/-- Answer a request of a peer, and the host it leaves. -/
def dispatch (requester : Base58PeerId) (outcome : StoreOutcome) (now : Int64) :
    BackupRequest → BackupHost × Except PorchError BackupResult
  | .uploadBackup backup =>
    if backup.uploaderPeerId ≠ requester.text then
      (host, .error (.accessDenied ("uploader peer-id mismatch: envelope claims " ++
        backup.uploaderPeerId ++ ", connection is " ++ requester.text)))
    else
      match host.storeReceivedBackup sha256 backup outcome now with
      | (host, .ok ()) => (host, .ok .stored)
      | (host, .error e) => (host, .error e)
  | .getMyBackup => (host, (host.readReceivedBackup requester.text).map .backup)
  | .getMyBackupInfo => (host, .ok (.info (host.readReceivedBackupInfo requester.text)))

end BackupHost

/-! ## File names -/

theorem isAlphanum_of_base58 {c : Char} (h : c ∈ base58Alphabet) : c.isAlphanum = true := by
  have all : base58Alphabet.all Char.isAlphanum = true := by decide
  exact List.all_eq_true.mp all c h

/-- A peer id is its own letters and digits. -/
theorem cleanPeerId_text (p : Base58PeerId) : cleanPeerId p.text = p.text := by
  rw [cleanPeerId, List.filter_eq_self.mpr fun c hc => isAlphanum_of_base58 (p.base58 c hc),
    String.ofList_toList]

/-- **Distinct peers have distinct files.** -/
theorem fileName_injective {p q : Base58PeerId}
    (h : sanitizeUploaderFilename p.text = sanitizeUploaderFilename q.text) : p = q := by
  rw [sanitizeUploaderFilename, sanitizeUploaderFilename, cleanPeerId_text, cleanPeerId_text] at h
  have chars := congrArg String.toList h
  rw [String.toList_append, String.toList_append] at chars
  exact Base58PeerId.ext (String.toList_injective (List.append_cancel_right chars))

/-- A temporary file is never the file of an uploader. -/
theorem temporaryFilename_ne (p q : String) :
    temporaryFilename p ≠ sanitizeUploaderFilename q := by
  intro h
  have last := congrArg (fun s : String => s.toList.getLast?) h
  simp only [temporaryFilename, sanitizeUploaderFilename, String.toList_append] at last
  rw [List.getLast?_append_of_ne_nil _ (by decide), List.getLast?_append_of_ne_nil _ (by decide)]
    at last
  exact absurd last (by decide)

/-! ## What is read -/

/-- A stored file gives its nonce back. -/
theorem nonceOf_onDisk {blob : EncryptedBackup (List UInt8)}
    (long : ¬ blob.onDisk.length < 12) : nonceOf blob.onDisk long = blob.nonce := by
  apply Vector.toList_inj.mp
  show (blob.onDisk.take 12).toArray.toList = blob.nonce.toList
  rw [EncryptedBackup.onDisk, List.take_left' blob.nonce.length_toList]

theorem drop_onDisk (blob : EncryptedBackup (List UInt8)) : blob.onDisk.drop 12 = blob.ciphertext :=
  List.drop_left' blob.nonce.length_toList

theorem not_short_onDisk (blob : EncryptedBackup (List UInt8)) : ¬ blob.onDisk.length < 12 := by
  rw [EncryptedBackup.onDisk, List.length_append, blob.nonce.length_toList]
  omega

namespace BackupHost

variable {sha256 : List UInt8 → String} {host : BackupHost} {p q : Base58PeerId}
  {blob : EncryptedBackup (List UInt8)} {outcome : StoreOutcome} {now : Int64}

/-- Every row names the file of its uploader. -/
def Named (host : BackupHost) : Prop :=
  ∀ uploader row, host.rows.find? uploader = some row →
    row.blobPath = sanitizeUploaderFilename uploader

/-- What is read depends on the row of the uploader and on its file. -/
theorem readReceivedBackup_congr {host' : BackupHost} {uploader : String} (named : host.Named)
    (backed : host'.fileBacked = host.fileBacked)
    (row : host'.rows.find? uploader = host.rows.find? uploader)
    (file : host'.files (sanitizeUploaderFilename uploader) =
      host.files (sanitizeUploaderFilename uploader)) :
    host'.readReceivedBackup uploader = host.readReceivedBackup uploader := by
  unfold readReceivedBackup
  rw [backed, row]
  cases hrow : host.rows.find? uploader with
  | none => rfl
  | some row =>
    have same : host'.files row.blobPath = host.files row.blobPath := by
      rw [named uploader row hrow, file]
    simp only [same]

/-- A row beside the file of a blob is read as that blob, with the times of the row. -/
theorem readReceivedBackup_of_file {row : ReceivedBackupRow} (backed : host.fileBacked = true)
    (named : host.Named) (hrow : host.rows.find? p.text = some row)
    (file : host.files (sanitizeUploaderFilename p.text) = some blob.onDisk) :
    host.readReceivedBackup p.text =
      .ok (some ⟨p.text, blob.ciphertext, blob.nonce, row.schemaVersion, row.receivedAt⟩) := by
  unfold readReceivedBackup
  simp only [backed, Bool.true_eq_false, if_false, hrow, named p.text row hrow, file,
    not_short_onDisk, dite_false, nonceOf_onDisk, drop_onDisk]

/-- Where there is a row, an answer is a blob under its times. -/
theorem exists_of_readReceivedBackup {row : ReceivedBackupRow} {uploader : String}
    {answer : Option (EncryptedBackup (List UInt8))}
    (hrow : host.rows.find? uploader = some row)
    (h : host.readReceivedBackup uploader = .ok answer) :
    ∃ last, answer = some last ∧ last.uploaderPeerId = uploader ∧
      last.schemaVersion = row.schemaVersion ∧ last.takenAt = row.receivedAt := by
  unfold readReceivedBackup at h
  split at h
  · cases h
  simp only [hrow] at h
  split at h
  · cases h
  split at h
  · cases h
  cases h
  exact ⟨_, rfl, rfl, rfl, rfl⟩

/-- A blob in place changes the file of its uploader only. -/
theorem replaced_other (h : q ≠ p) (hblob : blob.uploaderPeerId = q.text) :
    host.replaced blob (sanitizeUploaderFilename p.text) =
      host.files (sanitizeUploaderFilename p.text) := by
  rw [replaced, hblob, Function.update_of_ne, Function.update_of_ne]
  · exact (temporaryFilename_ne _ _).symm
  · exact fun same => h (fileName_injective same).symm

theorem replaced_self (hblob : blob.uploaderPeerId = q.text) :
    host.replaced blob (sanitizeUploaderFilename q.text) = some blob.onDisk := by
  rw [replaced, hblob, Function.update_self]

/-- What storing a blob writes among the rows. -/
theorem puts_stored (sha256 : List UInt8 → String) (host : BackupHost)
    (blob : EncryptedBackup (List UInt8)) (now : Int64) :
    host.rows.Puts (receivedRow sha256 blob now)
      (host.rows.upsert (receivedRow sha256 blob now)
        (receivedConflict (receivedRow sha256 blob now)) fun _ => rfl) := by
  apply KeyedTable.puts_upsert_of
  intro old key
  rw [receivedConflict, key]

/-- Storing keeps every row with the file of its uploader. -/
theorem Named.store (named : host.Named) :
    (host.storeReceivedBackup sha256 blob outcome now).1.Named := by
  unfold storeReceivedBackup
  split
  · exact named
  split
  · exact fun uploader row hrow => named uploader row hrow
  · exact fun uploader row hrow => named uploader row hrow
  · exact fun uploader row hrow => named uploader row hrow
  · intro uploader row hrow
    have puts := puts_stored sha256 host blob now
    by_cases same : uploader = blob.uploaderPeerId
    · subst same
      cases hrow.symm.trans puts.find?_self
      rfl
    · exact named uploader row ((puts.find?_other same).symm.trans hrow)

theorem fileBacked_store :
    (host.storeReceivedBackup sha256 blob outcome now).1.fileBacked = host.fileBacked := by
  unfold storeReceivedBackup
  split
  · rfl
  · split <;> rfl

/-- A host with a directory answers an upload without an error exactly when all of it was stored. -/
theorem isOk_store (backed : host.fileBacked = true) :
    (host.storeReceivedBackup sha256 blob outcome now).2.isOk =
      match outcome with
      | .stored => true
      | _ => false := by
  unfold storeReceivedBackup
  rw [if_neg (Bool.not_eq_false _ ▸ backed)]
  cases outcome <;> rfl

/-- **Uploads of others change nothing.** Storing a blob of one peer leaves what every other peer
reads. -/
theorem readReceivedBackup_store_other (named : host.Named) (h : q ≠ p)
    (hblob : blob.uploaderPeerId = q.text) :
    (host.storeReceivedBackup sha256 blob outcome now).1.readReceivedBackup p.text =
      host.readReceivedBackup p.text := by
  have temporary (content : Option (List UInt8)) :
      Function.update host.files (temporaryFilename blob.uploaderPeerId) content
        (sanitizeUploaderFilename p.text) = host.files (sanitizeUploaderFilename p.text) :=
    Function.update_of_ne (temporaryFilename_ne _ _).symm _ _
  apply readReceivedBackup_congr named fileBacked_store
  · unfold storeReceivedBackup
    split
    · rfl
    split
    · rfl
    · rfl
    · rfl
    · refine (puts_stored sha256 host blob now).find?_other fun same => h ?_
      exact Base58PeerId.ext (hblob.symm.trans same.symm)
  · unfold storeReceivedBackup
    split
    · rfl
    split
    · dsimp only
      rw [temporary]
    · dsimp only
      rw [temporary]
    · dsimp only
      rw [replaced_other h hblob]
    · dsimp only
      rw [replaced_other h hblob]

end BackupHost

end Concorrd
