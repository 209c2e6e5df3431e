import Concorrd.Lib.Run
import Concorrd.Porch.Text
import Concorrd.User.Authority
import Mathlib.Tactic.IntervalCases

/-!
# The identity of an install

An install has one Ed25519 seed. It lies in a record of the Stronghold vault, encrypted in a file
next to the snapshot, and in a cache of the process. The vault reaches the disk only when the
snapshot is saved, which `openPeerIdentityStronghold` does and `loadOrCreate` does not: a record
made in one process is gone in the next. `loadOrCreate` looks at the record before it looks at the
file, so the next process makes a new seed and writes it over the old one.

`Settled` is what holds in between: what is cached is what the file gives, and so is the key handed
out first. `identity_kept` carries it along the runs in which nothing replaces the file.
-/

namespace Concorrd.Identity

open Machine

abbrev Seed := Vector UInt8 32

abbrev PublicKey := Vector UInt8 32

/-! ## Calls to the outside -/

/-- How a call ends. A crash takes the process with it. -/
inductive Ending (ε α : Type) where
  | returns (a : α)
  | fails (e : ε)
  | crashes

namespace Ending

variable {ε ε' α β : Type}

def bind (x : Ending ε α) (f : α → Ending ε β) : Ending ε β :=
  match x with
  | .returns a => f a
  | .fails e => .fails e
  | .crashes => .crashes

def mapError (f : ε → ε') : Ending ε α → Ending ε' α
  | .returns a => .returns a
  | .fails e => .fails (f e)
  | .crashes => .crashes

def map (f : α → β) : Ending ε α → Ending ε β
  | .returns a => .returns (f a)
  | .fails e => .fails e
  | .crashes => .crashes

end Ending

/-- How a step goes that only changes the outside. -/
abbrev Fate := Ending String Unit

/-- How the writing of a file goes: to its end, not at all, or up to some character, with an error
or with a crash. -/
inductive FileWrite where
  | done
  | refused (error : String)
  | torn (written : Nat) (error : Option String)

inductive IoError where
  | notFound
  | other (detail : String)
  deriving DecidableEq, Repr

inductive IdentityError where
  | client (detail : String)
  | procedure (detail : String)
  | seedUnavailable
  | seedFileIo (path : String) (error : IoError)
  | seedFileLength (path : String) (got expected : Nat)
  | seedFileCrypto (detail : String)
  | passwordLength (expected got : Nat)
  deriving DecidableEq, Repr

/-! ## Hex -/

inductive FromHexError where
  | oddLength
  | invalidHexCharacter (c : Char) (index : Nat)
  deriving DecidableEq, Repr

/-- The value of a hex digit. -/
def hexVal (c : Char) (index : Nat) : Except FromHexError Nat :=
  if 'A' ≤ c ∧ c ≤ 'F' then .ok (c.toNat - 'A'.toNat + 10)
  else if 'a' ≤ c ∧ c ≤ 'f' then .ok (c.toNat - 'a'.toNat + 10)
  else if '0' ≤ c ∧ c ≤ '9' then .ok (c.toNat - '0'.toNat)
  else .error (.invalidHexCharacter c index)

/-- Two digits a byte. -/
def hexPairs (index : Nat) : List Char → Except FromHexError (List UInt8)
  | [] => .ok []
  | [_] => .error .oddLength
  | high :: low :: rest => do
    let h ← hexVal high index
    let l ← hexVal low (index + 1)
    let bytes ← hexPairs (index + 2) rest
    return UInt8.ofNat (16 * h + l) :: bytes

def hexDecode (text : String) : Except FromHexError (List UInt8) :=
  if text.toList.length % 2 ≠ 0 then .error .oddLength else hexPairs 0 text.toList

/-! ## The fingerprint -/

def fingerprintLen : Nat := 16

def alphabet : List Char := "ABCDEFGHIJKLMNOPQRSTUVWXYZ234567".toList

/-- The character of the five lowest bits. -/
def base32Char (bits : Nat) : Char := alphabet.getD (bits % 32) 'A'

/-- The characters that the buffer is good for, and how many of its bits remain. -/
def drain (buffer : Nat) : Nat → List Char × Nat
  | bits + 5 => (base32Char (buffer / 2 ^ bits) :: (drain buffer bits).1, (drain buffer bits).2)
  | bits => ([], bits)

def base32From (buffer bits : Nat) : List UInt8 → List Char
  | [] => if 0 < bits then [base32Char (buffer * 2 ^ (5 - bits))] else []
  | byte :: input =>
    let buffer := (buffer * 256 + byte.toNat) % 2 ^ 32
    (drain buffer (bits + 8)).1 ++ base32From buffer (drain buffer (bits + 8)).2 input

def base32NopadUpper (input : List UInt8) : String := String.ofList (base32From 0 0 input)

/-! ## The handle -/

structure PeerIdentity where
  publicKey : PublicKey
  fingerprint : String
  deriving DecidableEq, Repr

def seedFileNonceLen : Nat := 12

def secretSeedLen : Nat := 32

def seedFileTagLen : Nat := 16

def seedFileKeyLen : Nat := 32

structure SiblingFilePersistence where
  siblingPath : String
  password : Vector UInt8 32

/-- The vault of the client, which has one record, the cache, and the seed file. -/
structure StrongholdHandle where
  record : Option Seed
  seedCache : Option Seed
  persistence : Option SiblingFilePersistence

/-- A snapshot on the disk: the password it was saved under, and the vault of its client. -/
structure Snapshot where
  password : List UInt8
  client : Option (Option Seed)

/-- What an install keeps: the password, the snapshot, and the seed file. -/
structure Disk where
  password : Option String
  snapshot : Option Snapshot
  sibling : Option (List UInt8)

def StrongholdHandle.new (record : Option Seed) : StrongholdHandle := ⟨record, none, none⟩

/-- Thirty-two bytes. -/
def bytes32 (bytes : List UInt8) : Option (Vector UInt8 32) :=
  if h : bytes.length = 32 then some ⟨bytes.toArray, by simpa using h⟩ else none

def StrongholdHandle.newPersistent (record : Option Seed) (snapshotPath : String)
    (snapshotPassword : List UInt8) : Except IdentityError StrongholdHandle :=
  match bytes32 snapshotPassword with
  | none => .error (.passwordLength seedFileKeyLen snapshotPassword.length)
  | some password => .ok ⟨record, none, some ⟨snapshotPath ++ ".seed.enc", password⟩⟩

variable (ed : Ed25519) (aead : Aead) (sha256 : List UInt8 → List UInt8)

def fingerprintFor (publicKey : PublicKey) : String :=
  String.ofList ((base32NopadUpper (sha256 publicKey.toList)).toList.take fingerprintLen)

def identityOf (publicKey : PublicKey) : PeerIdentity := ⟨publicKey, fingerprintFor sha256 publicKey⟩

/-! ## The seed file -/

/-- Decrypt the seed file. `read` is how the reading goes. -/
def readSiblingSeed (persistence : SiblingFilePersistence) (read : Except String Unit)
    (sibling : Option (List UInt8)) : Except IdentityError Seed :=
  match read, sibling with
  | .error e, _ => .error (.seedFileIo persistence.siblingPath (.other e))
  | .ok _, none => .error (.seedFileIo persistence.siblingPath .notFound)
  | .ok _, some bytes =>
    if bytes.length ≠ seedFileNonceLen + secretSeedLen + seedFileTagLen then
      .error (.seedFileLength persistence.siblingPath bytes.length
        (seedFileNonceLen + secretSeedLen + seedFileTagLen))
    else
      match aead.decrypt persistence.password.toList (bytes.take seedFileNonceLen)
        (bytes.drop seedFileNonceLen) with
      | .error e => .error (.seedFileCrypto ("decrypt: " ++ e))
      | .ok plaintext =>
        match bytes32 plaintext with
        | some seed => .ok seed
        | none => .error (.seedFileLength persistence.siblingPath plaintext.length secretSeedLen)

/-- How the steps of a write of the seed file go. After the rename the process may still crash. -/
structure SeedWriteIo where
  nonce : Vector UInt8 12
  createDir : Fate
  write : Fate
  setPermissions : Fate
  rename : Fate
  crashesAfter : Bool

/-- The steps up to the rename and with it. What comes before it writes a temporary file only. -/
def SeedWriteIo.steps (io : SeedWriteIo) (path : String) : Ending IdentityError Unit :=
  (io.createDir.mapError fun e => .seedFileIo path (.other e)).bind fun _ =>
  (io.write.mapError fun e => .seedFileIo (path ++ ".tmp") (.other e)).bind fun _ =>
  (io.setPermissions.mapError fun e => .seedFileIo (path ++ ".tmp") (.other e)).bind fun _ =>
  io.rename.mapError fun e => .seedFileIo path (.other e)

/-- Encrypt the seed and put it in the place of the file. -/
def writeSiblingSeed (persistence : SiblingFilePersistence) (io : SeedWriteIo) (seed : Seed)
    (sibling : Option (List UInt8)) : Ending IdentityError Unit × Option (List UInt8) :=
  match aead.encrypt persistence.password.toList io.nonce.toList seed.toList with
  | .error e => (.fails (.seedFileCrypto ("encrypt: " ++ e)), sibling)
  | .ok ciphertext =>
    match io.steps persistence.siblingPath with
    | .fails e => (.fails e, sibling)
    | .crashes => (.crashes, sibling)
    | .returns _ => (if io.crashesAfter then .crashes else .returns (),
        some (io.nonce.toList ++ ciphertext))

/-! ## Loading and creating -/

/-- What a call of `loadOrCreate` meets, and the seed it draws when it makes one. -/
structure LoadIo where
  recordExists : Except String Unit
  read : Except String Unit
  publicKey : Except String Unit
  seed : Seed
  writeVault : Fate
  sibling : SeedWriteIo

/-- The end of a call, the handle, and the seed file. -/
structure Loaded where
  ending : Ending IdentityError PeerIdentity
  handle : StrongholdHandle
  sibling : Option (List UInt8)

/-- The key of the record, by the vault's own procedure. -/
def strongholdPublicKey (publicKey : Except String Unit) (record : Seed) :
    Except IdentityError PublicKey :=
  match publicKey with
  | .error e => .error (.procedure e)
  | .ok _ => .ok (ed.verifyingKey record)

/-- A record without a seed file gives its public key, and nothing to sign with. -/
def loadRecordOnly (io : LoadIo) (handle : StrongholdHandle) (record : Seed)
    (sibling : Option (List UInt8)) : Loaded :=
  match strongholdPublicKey ed io.publicKey record with
  | .error e => ⟨.fails e, handle, sibling⟩
  | .ok publicKey => ⟨.returns (identityOf sha256 publicKey), handle, sibling⟩

/-- Take the seed of the file, if the record has the same key. -/
def takeSeed (io : LoadIo) (handle : StrongholdHandle) (record seed : Seed)
    (sibling : Option (List UInt8)) : Loaded :=
  match strongholdPublicKey ed io.publicKey record with
  | .error e => ⟨.fails e, handle, sibling⟩
  | .ok shPublicKey =>
    if shPublicKey ≠ ed.verifyingKey seed then ⟨.fails .seedUnavailable, handle, sibling⟩
    else ⟨.returns (identityOf sha256 (ed.verifyingKey seed)),
      { handle with seedCache := some seed }, sibling⟩

/-- Load an identity whose record is there. -/
def loadRecord (io : LoadIo) (handle : StrongholdHandle) (record : Seed)
    (sibling : Option (List UInt8)) : Loaded :=
  match handle.persistence with
  | none => loadRecordOnly ed sha256 io handle record sibling
  | some persistence =>
    match readSiblingSeed aead persistence io.read sibling with
    | .ok seed => takeSeed ed sha256 io handle record seed sibling
    | .error (.seedFileIo _ .notFound) => loadRecordOnly ed sha256 io handle record sibling
    | .error e => ⟨.fails e, handle, sibling⟩

/-- Make a seed: in the vault, then in the file, then in the cache. -/
def createSeed (io : LoadIo) (handle : StrongholdHandle) (sibling : Option (List UInt8)) : Loaded :=
  match io.writeVault with
  | .fails e => ⟨.fails (.procedure e), handle, sibling⟩
  | .crashes => ⟨.crashes, handle, sibling⟩
  | .returns _ =>
    let stored := { handle with record := some io.seed }
    let made : StrongholdHandle := { stored with seedCache := some io.seed }
    let identity := identityOf sha256 (ed.verifyingKey io.seed)
    match handle.persistence with
    | none => ⟨.returns identity, made, sibling⟩
    | some persistence =>
      match writeSiblingSeed aead persistence io.sibling io.seed sibling with
      | (.fails e, sibling) => ⟨.fails e, stored, sibling⟩
      | (.crashes, sibling) => ⟨.crashes, stored, sibling⟩
      | (.returns _, sibling) => ⟨.returns identity, made, sibling⟩

def loadOrCreate (io : LoadIo) (handle : StrongholdHandle) (sibling : Option (List UInt8)) : Loaded :=
  match handle.seedCache with
  | some seed => ⟨.returns (identityOf sha256 (ed.verifyingKey seed)), handle, sibling⟩
  | none =>
    match io.recordExists with
    | .error e => ⟨.fails (.client e), handle, sibling⟩
    | .ok _ =>
      match handle.record with
      | some record => loadRecord ed aead sha256 io handle record sibling
      | none => createSeed ed aead sha256 io handle sibling

/-- The seed, from the cache or else from the file. -/
def peerSeed (read : Except String Unit) (handle : StrongholdHandle)
    (sibling : Option (List UInt8)) : Except IdentityError Seed × StrongholdHandle :=
  match handle.seedCache with
  | some seed => (.ok seed, handle)
  | none =>
    match handle.persistence with
    | none => (.error .seedUnavailable, handle)
    | some persistence =>
      match readSiblingSeed aead persistence read sibling with
      | .ok seed => (.ok seed, { handle with seedCache := some seed })
      | .error (.seedFileIo _ .notFound) => (.error .seedUnavailable, handle)
      | .error e => (.error e, handle)

def sign (payload : List UInt8) (read : Except String Unit) (handle : StrongholdHandle)
    (sibling : Option (List UInt8)) :
    Except IdentityError (Vector UInt8 64) × StrongholdHandle :=
  ((peerSeed aead read handle sibling).1.map fun seed => ed.sign seed payload,
    (peerSeed aead read handle sibling).2)

/-! ## Opening -/

inductive OpenError where
  | createDirAll (detail : String)
  | readPassword (detail : String)
  | decodePassword (error : FromHexError)
  | writePassword (detail : String)
  | openStronghold (detail : String)
  | createClient (detail : String)
  | buildHandle (error : IdentityError)
  deriving DecidableEq, Repr

/-- What an opening meets, and the password it draws when it makes one. A file that cannot be looked
at counts as absent. -/
structure OpenIo where
  createDir : Except String Unit
  passwordSeen : Bool
  readPassword : Except String Unit
  password : Vector UInt8 32
  writePassword : FileWrite
  openStronghold : Except String Unit
  createClient : Except String Unit
  save : Fate

/-- Read the password from its file. -/
def readPassword (io : OpenIo) (text : String) : Ending OpenError (List UInt8) :=
  match io.readPassword with
  | .error e => .fails (.readPassword e)
  | .ok _ =>
    match hexDecode (trim text) with
    | .error e => .fails (.decodePassword e)
    | .ok bytes => .returns bytes

/-- Draw a password and write its file. -/
def drawPassword (io : OpenIo) (file : Option String) :
    Ending OpenError (List UInt8) × Option String :=
  match io.writePassword with
  | .done => (.returns io.password.toList, some (Bytes.hex io.password.toList))
  | .refused e => (.fails (.writePassword e), file)
  | .torn written (some e) => (.fails (.writePassword e),
      some (String.ofList ((Bytes.hexChars io.password.toList).take written)))
  | .torn written none => (.crashes,
      some (String.ofList ((Bytes.hexChars io.password.toList).take written)))

/-- The password and the file that holds it. -/
def loadPassword (io : OpenIo) (file : Option String) :
    Ending OpenError (List UInt8) × Option String :=
  match file with
  | none => drawPassword io none
  | some text =>
    if io.passwordSeen then (readPassword io text, some text) else drawPassword io (some text)

/-- Open the vault of a snapshot, if there is one. It has to have been saved under the password. -/
def openVault (io : OpenIo) (password : List UInt8) (snapshot : Option Snapshot) :
    Except OpenError (Option (Option Seed)) :=
  match io.openStronghold with
  | .error e => .error (.openStronghold e)
  | .ok _ =>
    if password.length ≠ seedFileKeyLen then .error (.openStronghold "key of wrong length")
    else
      match snapshot with
      | none => .ok none
      | some snapshot =>
        if snapshot.password = password then .ok snapshot.client
        else .error (.openStronghold "wrong key")

/-- The client of the vault, or a new one. -/
def resolveClient (io : OpenIo) : Option (Option Seed) → Except OpenError (Option Seed)
  | some record => .ok record
  | none =>
    match io.createClient with
    | .error e => .error (.createClient e)
    | .ok _ => .ok none

def snapshotPath (dataDir : String) : String := dataDir ++ "/peer-identity.stronghold"

def buildHandle (dataDir : String) (record : Option Seed) (password : List UInt8) :
    Ending OpenError StrongholdHandle :=
  match StrongholdHandle.newPersistent record (snapshotPath dataDir) password with
  | .error e => .fails (.buildHandle e)
  | .ok handle => .returns handle

/-- Open the vault, save it at once, and build the handle. A failed save is only logged. -/
def openVaultHandle (dataDir : String) (io : OpenIo) (password : List UInt8) (disk : Disk) :
    Ending OpenError StrongholdHandle × Disk :=
  match openVault io password disk.snapshot with
  | .error e => (.fails e, disk)
  | .ok client =>
    match resolveClient io client with
    | .error e => (.fails e, disk)
    | .ok record =>
      match io.save with
      | .returns _ =>
        (buildHandle dataDir record password, { disk with snapshot := some ⟨password, some record⟩ })
      | .fails _ => (buildHandle dataDir record password, disk)
      | .crashes => (.crashes, disk)

def openPeerIdentityStronghold (dataDir : String) (io : OpenIo) (disk : Disk) :
    Ending OpenError StrongholdHandle × Disk :=
  match io.createDir with
  | .error e => (.fails (.createDirAll e), disk)
  | .ok _ =>
    match loadPassword io disk.password with
    | (.fails e, file) => (.fails e, { disk with password := file })
    | (.crashes, file) => (.crashes, { disk with password := file })
    | (.returns password, file) => openVaultHandle dataDir io password { disk with password := file }

/-! ## Runs -/

/-- An install: its disk, the handle of the process that runs, if one has opened it, and the public
key that the first successful `loadOrCreate` gave. -/
structure Install where
  disk : Disk
  handle : Option StrongholdHandle
  first : Option PublicKey

def Install.fresh : Install := ⟨⟨none, none, none⟩, none, none⟩

/-- What happens to an install. A process exits when it is closed, or crashes between two calls. -/
inductive Event where
  | getOrOpen (io : OpenIo)
  | exit
  | loadOrCreate (io : LoadIo)
  | peerSeed (read : Except String Unit)
  | sign (payload : List UInt8) (read : Except String Unit)

def Ending.toOption {ε α : Type} : Ending ε α → Option α
  | .returns a => some a
  | .fails _ => none
  | .crashes => none

/-- The handle after a call: a crash takes it. -/
def Loaded.left (out : Loaded) : Option StrongholdHandle :=
  match out.ending with
  | .crashes => none
  | _ => some out.handle

/-- What `loadOrCreate` does to an install that has been opened. -/
def Install.load (s : Install) (out : Loaded) : Install where
  disk := { s.disk with sibling := out.sibling }
  handle := out.left
  first := s.first <|> out.ending.toOption.map PeerIdentity.publicKey

def Install.step (dataDir : String) (s : Install) : Event → Install
  | .getOrOpen io =>
    match s.handle with
    | some _ => s
    | none =>
      { s with
        disk := (openPeerIdentityStronghold dataDir io s.disk).2
        handle := (openPeerIdentityStronghold dataDir io s.disk).1.toOption }
  | .exit => { s with handle := none }
  | .loadOrCreate io =>
    match s.handle with
    | none => s
    | some handle => s.load (loadOrCreate ed aead sha256 io handle s.disk.sibling)
  | .peerSeed read =>
    { s with handle := s.handle.map fun handle => (peerSeed aead read handle s.disk.sibling).2 }
  | .sign payload read =>
    { s with handle := s.handle.map fun handle => (sign ed aead payload read handle s.disk.sibling).2 }

/-- A call that uses the seed of the key, or fails because the file cannot be read. -/
def UsesSeedOf (p : PublicKey) {α : Type} (use : Seed → α) (read : Except String Unit)
    (answer : Except IdentityError α) : Prop :=
  (∃ seed, ed.verifyingKey seed = p ∧ answer = .ok (use seed)) ∨
    ∃ path e, read = .error e ∧ answer = .error (.seedFileIo path (.other e))

/-- Once a call of `loadOrCreate` has given a key, those that succeed give the same, and the seed
that is handed out or signed with is that of the key. -/
def Keeps (s : Install) (e : Event) : Prop :=
  ∀ p handle, s.first = some p → s.handle = some handle →
    match e with
    | .loadOrCreate io => ∀ identity,
        (loadOrCreate ed aead sha256 io handle s.disk.sibling).ending = .returns identity →
          identity.publicKey = p
    | .peerSeed read => UsesSeedOf ed p id read (peerSeed aead read handle s.disk.sibling).1
    | .sign payload read => UsesSeedOf ed p (fun seed => ed.sign seed payload) read
        (sign ed aead payload read handle s.disk.sibling).1
    | _ => True

/-- The call, should it make a seed, gets as far as to put it in the place of the seed file. -/
def LoadIo.Replaces (io : LoadIo) (handle : StrongholdHandle) : Prop :=
  io.recordExists = .ok () ∧ io.writeVault = .returns () ∧
    ∃ persistence, handle.persistence = some persistence ∧
      (aead.encrypt persistence.password.toList io.sibling.nonce.toList io.seed.toList).isOk ∧
      io.sibling.steps persistence.siblingPath = .returns ()

/-- The call, should it find a record, meets no error. -/
def LoadIo.Reads (io : LoadIo) : Prop :=
  io.recordExists = .ok () ∧ io.read = .ok () ∧ io.publicKey = .ok ()

/-- A step that leaves the seed file to the first key. Once there is one, no call that finds neither
a cached seed nor a record replaces the file, and no opening takes the password for absent and
writes another. No call ever succeeds on a record without a seed file. -/
def Orderly (s : Install) : Event → Prop
  | .getOrOpen io => s.first ≠ none → s.handle = none →
      io.passwordSeen = true ∨ ∃ e, io.writePassword = .refused e
  | .loadOrCreate io => ∀ handle, s.handle = some handle → handle.seedCache = none →
      (s.first ≠ none → handle.record = none → ¬io.Replaces aead handle) ∧
        (handle.record ≠ none → s.disk.sibling = none → ¬io.Reads)
  | _ => True

/-! ## What is written is read -/

theorem bytes32_eq_some {bytes : List UInt8} {v : Vector UInt8 32} :
    bytes32 bytes = some v ↔ bytes = v.toList := by
  unfold bytes32
  constructor
  · intro h
    split at h
    · cases h
      rfl
    · cases h
  · rintro rfl
    rw [dif_pos v.length_toList]
    rfl

theorem hexVal_digitChar {n : Nat} (small : n < 16) (index : Nat) :
    hexVal (Nat.digitChar n) index = .ok n := by
  interval_cases n <;> rfl

theorem hexPairs_hexChars (bytes : List UInt8) (index : Nat) :
    hexPairs index (Bytes.hexChars bytes) = .ok bytes := by
  induction bytes generalizing index with
  | nil => rfl
  | cons b bytes ih =>
    have high : b.toNat / 16 < 16 := by
      have := b.toNat_lt
      omega
    have whole : UInt8.ofNat (16 * (b.toNat / 16) + b.toNat % 16) = b := by
      rw [Nat.div_add_mod]
      exact UInt8.ofNat_toNat
    simp only [Bytes.hexChars, hexPairs, hexVal_digitChar high, ih,
      hexVal_digitChar (Nat.mod_lt b.toNat (by decide : 0 < 16)), bind, Except.bind, whole]
    rfl

theorem length_hexChars (bytes : List UInt8) :
    (Bytes.hexChars bytes).length = 2 * bytes.length := by
  induction bytes with
  | nil => rfl
  | cons b bytes ih =>
    simp only [Bytes.hexChars, List.length_cons, ih]
    omega

theorem not_isWhitespace_of_mem_hexChars {c : Char} {bytes : List UInt8}
    (mem : c ∈ Bytes.hexChars bytes) : isWhitespace c = false := by
  have digit (n : Nat) (small : n < 16) : isWhitespace (Nat.digitChar n) = false := by
    interval_cases n <;> rfl
  induction bytes with
  | nil => cases mem
  | cons b bytes ih =>
    rcases List.mem_cons.mp mem with rfl | mem
    · have := b.toNat_lt
      exact digit _ (by omega)
    · rcases List.mem_cons.mp mem with rfl | mem
      · exact digit _ (Nat.mod_lt _ (by decide))
      · exact ih mem

theorem trim_of_none {cs : List Char} (none : ∀ c ∈ cs, isWhitespace c = false) :
    trim (String.ofList cs) = String.ofList cs := by
  have kept {cs : List Char} (none : ∀ c ∈ cs, isWhitespace c = false) :
      cs.dropWhile isWhitespace = cs := by
    cases cs with
    | nil => rfl
    | cons c cs => exact List.dropWhile_cons_of_neg (by rw [none c List.mem_cons_self]; decide)
  have reversed : ∀ c ∈ cs.reverse, isWhitespace c = false :=
    fun c mem => none c (List.mem_reverse.mp mem)
  rw [trim, String.toList_ofList, kept none, kept reversed, List.reverse_reverse]

/-- The password that is drawn is the one that the file gives. -/
theorem hexDecode_hex (bytes : List UInt8) : hexDecode (trim (Bytes.hex bytes)) = .ok bytes := by
  rw [Bytes.hex, trim_of_none fun c mem => not_isWhitespace_of_mem_hexChars mem, hexDecode,
    String.toList_ofList, length_hexChars, if_neg (by omega)]
  exact hexPairs_hexChars bytes 0

variable {ed aead sha256} {dataDir : String}

/-- The file decrypts to the seed. -/
def Opens (aead : Aead) (password : Vector UInt8 32) (bytes : List UInt8) (seed : Seed) : Prop :=
  bytes.length = seedFileNonceLen + secretSeedLen + seedFileTagLen ∧
    aead.decrypt password.toList (bytes.take seedFileNonceLen) (bytes.drop seedFileNonceLen) =
      .ok seed.toList

theorem Opens.unique {password : Vector UInt8 32} {bytes : List UInt8} {seed seed' : Seed}
    (opens : Opens aead password bytes seed) (opens' : Opens aead password bytes seed') :
    seed = seed' := by
  have same := Except.ok.inj (opens.2.symm.trans opens'.2)
  exact Vector.toList_inj.mp same

variable {persistence : SiblingFilePersistence} {read : Except String Unit}
  {sibling : Option (List UInt8)} {seed : Seed}

theorem readSiblingSeed_eq_ok : readSiblingSeed aead persistence read sibling = .ok seed ↔
    read = .ok () ∧ ∃ bytes, sibling = some bytes ∧ Opens aead persistence.password bytes seed := by
  cases read with
  | error e => exact iff_of_false (fun h => by cases h) fun h => by cases h.1
  | ok u =>
    cases sibling with
    | none => exact iff_of_false (fun h => by cases h) fun ⟨_, _, h, _⟩ => by cases h
    | some bytes =>
      constructor
      · intro h
        rw [readSiblingSeed] at h
        split at h
        · cases h
        · rename_i long
          split at h
          · cases h
          · rename_i plaintext opened
            split at h
            · rename_i found
              cases h
              rw [bytes32_eq_some.mp found] at opened
              exact ⟨rfl, bytes, rfl, not_not.mp long, opened⟩
            · cases h
      · rintro ⟨-, _, ⟨⟩, long, opened⟩
        rw [readSiblingSeed, if_neg (not_not.mpr long), opened]
        dsimp only
        rw [bytes32_eq_some.mpr rfl]

/-- Only a file that is not there is reported missing. -/
theorem readSiblingSeed_eq_notFound {path : String}
    (h : readSiblingSeed aead persistence read sibling = .error (.seedFileIo path .notFound)) :
    read = .ok () ∧ sibling = none := by
  unfold readSiblingSeed at h
  split at h
  · cases h
  · exact ⟨rfl, rfl⟩
  · split at h
    · cases h
    · split at h
      · cases h
      · split at h <;> cases h

/-- The ways a write of the seed file goes. -/
inductive WriteCase (aead : Aead) (persistence : SiblingFilePersistence) (io : SeedWriteIo)
    (seed : Seed) (sibling : Option (List UInt8)) :
    Ending IdentityError Unit × Option (List UInt8) → Prop
  | failed (e : IdentityError) : WriteCase aead persistence io seed sibling (.fails e, sibling)
  | crashed : WriteCase aead persistence io seed sibling (.crashes, sibling)
  | replaced (ending : Ending IdentityError Unit) (bytes : List UInt8)
      (opens : Opens aead persistence.password bytes seed)
      (sealed : (aead.encrypt persistence.password.toList io.nonce.toList seed.toList).isOk)
      (steps : io.steps persistence.siblingPath = .returns ())
      (ends : ending = .crashes ∨ ending = .returns ()) :
      WriteCase aead persistence io seed sibling (ending, some bytes)

theorem writeSiblingSeed_case (correct : aead.Correct) (persistence : SiblingFilePersistence)
    (io : SeedWriteIo) (seed : Seed) (sibling : Option (List UInt8)) :
    WriteCase aead persistence io seed sibling
      (writeSiblingSeed aead persistence io seed sibling) := by
  unfold writeSiblingSeed
  cases sealed : aead.encrypt persistence.password.toList io.nonce.toList seed.toList with
  | error e => exact .failed _
  | ok ciphertext =>
    dsimp only
    split
    · exact .failed _
    · exact .crashed
    · rename_i steps
      refine .replaced _ _ ⟨?_, ?_⟩ (by rw [sealed]; rfl) steps ?_
      · have long := correct.length _ _ _ _ sealed
        rw [List.length_append, Vector.length_toList, long, Vector.length_toList]
        rfl
      · have nonce : io.nonce.toList.length = seedFileNonceLen := Vector.length_toList
        rw [List.take_left' nonce, List.drop_left' nonce]
        exact correct.opens _ _ _ _ sealed
      · cases io.crashesAfter with
        | true => exact .inl rfl
        | false => exact .inr rfl

/-! ## What a call can do -/

/-- The ways a call of `loadOrCreate` goes on a handle with a seed file. -/
inductive LoadCase (ed : Ed25519) (aead : Aead) (sha256 : List UInt8 → List UInt8) (io : LoadIo)
    (handle : StrongholdHandle) (sibling : Option (List UInt8))
    (persistence : SiblingFilePersistence) : Loaded → Prop
  | cached (seed : Seed) (held : handle.seedCache = some seed) :
      LoadCase ed aead sha256 io handle sibling persistence
        ⟨.returns (identityOf sha256 (ed.verifyingKey seed)), handle, sibling⟩
  | fromFile (bytes : List UInt8) (seed : Seed) (there : sibling = some bytes)
      (opens : Opens aead persistence.password bytes seed) :
      LoadCase ed aead sha256 io handle sibling persistence
        ⟨.returns (identityOf sha256 (ed.verifyingKey seed)),
          { handle with seedCache := some seed }, sibling⟩
  | recordOnly (publicKey : PublicKey) (empty : handle.seedCache = none)
      (stored : handle.record ≠ none) (missing : sibling = none) (reads : io.Reads) :
      LoadCase ed aead sha256 io handle sibling persistence
        ⟨.returns (identityOf sha256 publicKey), handle, sibling⟩
  | failed (e : IdentityError) (record : Option Seed) (empty : handle.seedCache = none) :
      LoadCase ed aead sha256 io handle sibling persistence
        ⟨.fails e, { handle with record := record }, sibling⟩
  | crashed (handle' : StrongholdHandle) :
      LoadCase ed aead sha256 io handle sibling persistence ⟨.crashes, handle', sibling⟩
  | replaced (ending : Ending IdentityError PeerIdentity) (handle' : StrongholdHandle)
      (bytes : List UInt8) (empty : handle.seedCache = none) (absent : handle.record = none)
      (replaces : io.Replaces aead handle) (opens : Opens aead persistence.password bytes io.seed)
      (ends : ending = .crashes ∨
        ending = .returns (identityOf sha256 (ed.verifyingKey io.seed)) ∧
          handle' = ⟨some io.seed, some io.seed, handle.persistence⟩) :
      LoadCase ed aead sha256 io handle sibling persistence ⟨ending, handle', some bytes⟩

variable {io : LoadIo} {handle : StrongholdHandle}

theorem loadRecordOnly_case {record : Seed} (empty : handle.seedCache = none)
    (stored : handle.record = some record) (missing : sibling = none)
    (there : io.recordExists = .ok ()) (reads : io.read = .ok ()) :
    LoadCase ed aead sha256 io handle sibling persistence
      (loadRecordOnly ed sha256 io handle record sibling) := by
  unfold loadRecordOnly
  cases key : io.publicKey with
  | error e => exact .failed _ handle.record empty
  | ok u =>
    have stored : handle.record ≠ none := by
      rw [stored]
      exact Option.some_ne_none record
    exact .recordOnly _ empty stored missing ⟨there, reads, key⟩

theorem takeSeed_case {record : Seed} {bytes : List UInt8} (empty : handle.seedCache = none)
    (there : sibling = some bytes) (opens : Opens aead persistence.password bytes seed) :
    LoadCase ed aead sha256 io handle sibling persistence
      (takeSeed ed sha256 io handle record seed sibling) := by
  unfold takeSeed
  split
  · exact .failed _ handle.record empty
  · split
    · exact .failed _ handle.record empty
    · exact .fromFile bytes seed there opens

theorem loadRecord_case {record : Seed} (persistent : handle.persistence = some persistence)
    (empty : handle.seedCache = none) (stored : handle.record = some record)
    (there : io.recordExists = .ok ()) :
    LoadCase ed aead sha256 io handle sibling persistence
      (loadRecord ed aead sha256 io handle record sibling) := by
  unfold loadRecord
  split
  · rename_i memory
    cases memory.symm.trans persistent
  · rename_i found
    cases found.symm.trans persistent
    split
    · rename_i seed found
      obtain ⟨-, bytes, there, opens⟩ := readSiblingSeed_eq_ok.mp found
      exact takeSeed_case empty there opens
    · rename_i path missing
      obtain ⟨reads, missing⟩ := readSiblingSeed_eq_notFound missing
      exact loadRecordOnly_case empty stored missing there reads
    · exact .failed _ handle.record empty

theorem createSeed_case (correct : aead.Correct) (persistent : handle.persistence = some persistence)
    (empty : handle.seedCache = none) (absent : handle.record = none)
    (there : io.recordExists = .ok ()) :
    LoadCase ed aead sha256 io handle sibling persistence
      (createSeed ed aead sha256 io handle sibling) := by
  unfold createSeed
  split
  · exact .failed _ handle.record empty
  · exact .crashed _
  · rename_i vault
    dsimp only
    split
    · rename_i memory
      cases memory.symm.trans persistent
    · rename_i found
      cases found.symm.trans persistent
      have written := writeSiblingSeed_case correct persistence io.sibling io.seed sibling
      split
      · rename_i left
        rw [left] at written
        cases written with
        | failed => exact .failed _ (some io.seed) empty
        | replaced _ bytes opens sealed steps ends => rcases ends with h | h <;> cases h
      · rename_i left
        rw [left] at written
        cases written with
        | crashed => exact .crashed _
        | replaced _ bytes opens sealed steps ends =>
          exact .replaced _ _ bytes empty absent ⟨there, vault, persistence, persistent, sealed, steps⟩
            opens (.inl rfl)
      · rename_i left
        rw [left] at written
        cases written with
        | replaced _ bytes opens sealed steps ends =>
          exact .replaced _ _ bytes empty absent ⟨there, vault, persistence, persistent, sealed, steps⟩
            opens (.inr ⟨rfl, rfl⟩)

theorem loadOrCreate_case (correct : aead.Correct)
    (persistent : handle.persistence = some persistence) :
    LoadCase ed aead sha256 io handle sibling persistence
      (loadOrCreate ed aead sha256 io handle sibling) := by
  unfold loadOrCreate
  cases held : handle.seedCache with
  | some seed => exact .cached seed held
  | none =>
    dsimp only
    split
    · exact .failed _ handle.record held
    · rename_i there
      cases stored : handle.record with
      | some record => exact loadRecord_case persistent held stored there
      | none => exact createSeed_case correct persistent held stored there

/-- A call of `peerSeed` gives the cached seed, or that of the file and caches it. What it gives
nothing for is a file that is missing, cannot be read, or does not open. -/
inductive SeedCase (aead : Aead) (read : Except String Unit) (handle : StrongholdHandle)
    (sibling : Option (List UInt8)) (persistence : SiblingFilePersistence) :
    Except IdentityError Seed × StrongholdHandle → Prop
  | cached (seed : Seed) (held : handle.seedCache = some seed) :
      SeedCase aead read handle sibling persistence (.ok seed, handle)
  | fromFile (bytes : List UInt8) (seed : Seed) (there : sibling = some bytes)
      (opens : Opens aead persistence.password bytes seed) :
      SeedCase aead read handle sibling persistence
        (.ok seed, { handle with seedCache := some seed })
  | unread (e : String) (failed : read = .error e) :
      SeedCase aead read handle sibling persistence
        (.error (.seedFileIo persistence.siblingPath (.other e)), handle)
  | closed (e : IdentityError) (closed : ∀ bytes seed, sibling = some bytes →
      ¬Opens aead persistence.password bytes seed) :
      SeedCase aead read handle sibling persistence (.error e, handle)

theorem peerSeed_case (persistent : handle.persistence = some persistence) :
    SeedCase aead read handle sibling persistence (peerSeed aead read handle sibling) := by
  unfold peerSeed
  cases held : handle.seedCache with
  | some seed => exact .cached seed held
  | none =>
    dsimp only
    split
    · rename_i memory
      cases memory.symm.trans persistent
    · rename_i found
      cases found.symm.trans persistent
      cases read with
      | error e => exact .unread e rfl
      | ok u =>
        have closed (h : ∀ seed, readSiblingSeed aead persistence (.ok u) sibling ≠ .ok seed) :
            ∀ bytes seed, sibling = some bytes → ¬Opens aead persistence.password bytes seed :=
          fun bytes seed there opens =>
            h seed (readSiblingSeed_eq_ok.mpr ⟨rfl, bytes, there, opens⟩)
        split
        · rename_i seed found
          obtain ⟨-, bytes, there, opens⟩ := readSiblingSeed_eq_ok.mp found
          exact .fromFile bytes seed there opens
        · rename_i path missing
          exact .closed _ (closed fun seed h => by rw [missing] at h; cases h)
        · rename_i e _ failed
          exact .closed _ (closed fun seed h => by rw [failed] at h; cases h)

/-! ## The invariant -/

/-- The password that the disk has. -/
def Disk.HasKey (disk : Disk) (password : Vector UInt8 32) : Prop :=
  ∃ text, disk.password = some text ∧ hexDecode (trim text) = .ok password.toList

/-- The seed that the file opens to. -/
def Disk.Gives (aead : Aead) (disk : Disk) (password : Vector UInt8 32) (seed : Seed) : Prop :=
  ∃ bytes, disk.sibling = some bytes ∧ Opens aead password bytes seed

theorem Disk.HasKey.unique {disk : Disk} {password password' : Vector UInt8 32}
    (key : disk.HasKey password) (key' : disk.HasKey password') : password = password' := by
  obtain ⟨text, there, decodes⟩ := key
  obtain ⟨text', there', decodes'⟩ := key'
  cases there.symm.trans there'
  exact Vector.toList_inj.mp (Except.ok.inj (decodes.symm.trans decodes'))

theorem Disk.Gives.unique {disk : Disk} {password : Vector UInt8 32} {seed seed' : Seed}
    (gives : disk.Gives aead password seed) (gives' : disk.Gives aead password seed') :
    seed = seed' := by
  obtain ⟨bytes, there, opens⟩ := gives
  obtain ⟨bytes', there', opens'⟩ := gives'
  cases there.symm.trans there'
  exact opens.unique opens'

/-- A handle of the install: it has the password of the disk, and caches what the file gives. -/
def Disk.Serves (aead : Aead) (disk : Disk) (handle : StrongholdHandle) : Prop :=
  ∃ persistence, handle.persistence = some persistence ∧ disk.HasKey persistence.password ∧
    ∀ seed, handle.seedCache = some seed → disk.Gives aead persistence.password seed

/-- What is cached is what the file gives, and so is the first key. -/
structure Settled (ed : Ed25519) (aead : Aead) (s : Install) : Prop where
  opened : ∀ handle, s.handle = some handle → s.disk.Serves aead handle
  kept : ∀ p, s.first = some p → ∃ password seed, s.disk.HasKey password ∧
    s.disk.Gives aead password seed ∧ ed.verifyingKey seed = p

variable {s : Install}

/-- The file gives the seed of the first key. -/
theorem Settled.key_eq (settled : Settled ed aead s) {p : PublicKey} {password : Vector UInt8 32}
    (first : s.first = some p) (key : s.disk.HasKey password)
    (gives : s.disk.Gives aead password seed) : ed.verifyingKey seed = p := by
  obtain ⟨password', seed', key', gives', rfl⟩ := settled.kept p first
  cases key.unique key'
  rw [gives.unique gives']

theorem settled_fresh : Settled ed aead Install.fresh :=
  ⟨fun _ h => (by cases h), fun _ h => (by cases h)⟩

/-! ## Opening -/

/-- The password that is used is that of the file, and a file that is seen, or whose replacement is
refused, stays. -/
theorem loadPassword_spec (io : OpenIo) (file : Option String) :
    (∀ password, (loadPassword io file).1 = .returns password →
      ∃ text, (loadPassword io file).2 = some text ∧ hexDecode (trim text) = .ok password) ∧
    ∀ text, file = some text → (io.passwordSeen = true ∨ ∃ e, io.writePassword = .refused e) →
      (loadPassword io file).2 = some text := by
  have drawn (file : Option String) : ∀ password, (drawPassword io file).1 = .returns password →
      ∃ text, (drawPassword io file).2 = some text ∧ hexDecode (trim text) = .ok password := by
    intro password h
    unfold drawPassword at h ⊢
    split at h
    · cases h
      exact ⟨_, rfl, hexDecode_hex _⟩
    · cases h
    · cases h
    · cases h
  cases file with
  | none => exact ⟨drawn none, fun _ h => by cases h⟩
  | some text =>
    unfold loadPassword
    cases seen : io.passwordSeen with
    | true =>
      refine ⟨fun password h => ⟨text, rfl, ?_⟩, fun _ h _ => h⟩
      simp only [if_true, readPassword] at h
      split at h
      · cases h
      · split at h
        · cases h
        · rename_i decoded
          cases h
          exact decoded
    | false =>
      refine ⟨drawn (some text), ?_⟩
      rintro _ ⟨⟩ (h | ⟨e, refused⟩)
      · cases h
      · simp only [Bool.false_eq_true, if_false, drawPassword, refused]

theorem buildHandle_returns {record : Option Seed} {password : List UInt8}
    {handle : StrongholdHandle} (h : buildHandle dataDir record password = .returns handle) :
    handle.seedCache = none ∧ ∃ persistence, handle.persistence = some persistence ∧
      password = persistence.password.toList := by
  unfold buildHandle StrongholdHandle.newPersistent at h
  cases long : bytes32 password with
  | none =>
    rw [long] at h
    cases h
  | some v =>
    rw [long] at h
    cases h
    exact ⟨rfl, _, rfl, bytes32_eq_some.mp long⟩

theorem openVaultHandle_spec (dataDir : String) (io : OpenIo) (password : List UInt8) (disk : Disk) :
    (openVaultHandle dataDir io password disk).2.password = disk.password ∧
    (openVaultHandle dataDir io password disk).2.sibling = disk.sibling ∧
    ∀ handle, (openVaultHandle dataDir io password disk).1 = .returns handle →
      handle.seedCache = none ∧ ∃ persistence, handle.persistence = some persistence ∧
        password = persistence.password.toList := by
  unfold openVaultHandle
  split
  · exact ⟨rfl, rfl, fun _ h => by cases h⟩
  · split
    · exact ⟨rfl, rfl, fun _ h => by cases h⟩
    · split
      · exact ⟨rfl, rfl, fun _ h => buildHandle_returns h⟩
      · exact ⟨rfl, rfl, fun _ h => buildHandle_returns h⟩
      · exact ⟨rfl, rfl, fun _ h => by cases h⟩

/-- An opening leaves the seed file. It gives a handle with nothing cached. -/
theorem openPeerIdentityStronghold_spec (aead : Aead) (dataDir : String) (io : OpenIo) (disk : Disk) :
    (openPeerIdentityStronghold dataDir io disk).2.sibling = disk.sibling ∧
    (∀ handle, (openPeerIdentityStronghold dataDir io disk).1 = .returns handle →
      (openPeerIdentityStronghold dataDir io disk).2.Serves aead handle) ∧
    ((io.passwordSeen = true ∨ ∃ e, io.writePassword = .refused e) → ∀ password,
      disk.HasKey password → (openPeerIdentityStronghold dataDir io disk).2.HasKey password) := by
  unfold openPeerIdentityStronghold
  split
  · exact ⟨rfl, fun _ h => (by cases h), fun _ _ key => key⟩
  · obtain ⟨fits, stays⟩ := loadPassword_spec io disk.password
    have key : (io.passwordSeen = true ∨ ∃ e, io.writePassword = .refused e) → ∀ password,
        disk.HasKey password → ∃ text, (loadPassword io disk.password).2 = some text ∧
          hexDecode (trim text) = .ok password.toList := by
      rintro safe password ⟨text, there, decodes⟩
      exact ⟨text, stays text there safe, decodes⟩
    split
    · rename_i left
      rw [left] at key
      exact ⟨rfl, fun _ h => (by cases h), key⟩
    · rename_i left
      rw [left] at key
      exact ⟨rfl, fun _ h => (by cases h), key⟩
    · rename_i password file left
      rw [left] at key fits
      obtain ⟨samePassword, sameSibling, built⟩ := openVaultHandle_spec dataDir io password
        { disk with password := file }
      refine ⟨sameSibling, fun handle h => ?_, fun safe password' old => ?_⟩
      · obtain ⟨empty, persistence, persistent, rfl⟩ := built handle h
        obtain ⟨text, there, decodes⟩ := fits _ rfl
        refine ⟨persistence, persistent, ⟨text, samePassword.trans there, decodes⟩, fun seed held => ?_⟩
        cases empty.symm.trans held
      · obtain ⟨text, there, decodes⟩ := key safe password' old
        exact ⟨text, samePassword.trans there, decodes⟩

/-! ## Steps -/

theorem Settled.getOrOpen (settled : Settled ed aead s) (io : OpenIo)
    (orderly : Orderly aead s (.getOrOpen io)) :
    Settled ed aead (s.step ed aead sha256 dataDir (.getOrOpen io)) := by
  unfold Install.step
  dsimp only
  split
  · exact settled
  · rename_i closed
    obtain ⟨same, serves, keeps⟩ := openPeerIdentityStronghold_spec aead dataDir io s.disk
    constructor
    · intro handle opened
      refine serves handle ?_
      dsimp only at opened
      cases ends : (openPeerIdentityStronghold dataDir io s.disk).1 with
      | returns out =>
        rw [ends] at opened
        cases opened
        rfl
      | fails e =>
        rw [ends] at opened
        cases opened
      | crashes =>
        rw [ends] at opened
        cases opened
    · intro p given
      obtain ⟨password, seed, key, ⟨bytes, there, opens⟩, rfl⟩ := settled.kept p given
      have started : s.first ≠ none := by
        rw [given]
        exact Option.some_ne_none _
      exact ⟨password, seed, keeps (orderly started closed) password key,
        ⟨bytes, same.trans there, opens⟩, rfl⟩

/-- A handle that gave or was given the seed of the file leaves the install settled. -/
theorem Settled.gave (settled : Settled ed aead s) {h : StrongholdHandle} {sibling : Option (List UInt8)}
    (same : s.first = none ∨ sibling = s.disk.sibling) (persistent : h.persistence = some persistence)
    (held : h.seedCache = some seed) (key : s.disk.HasKey persistence.password)
    (gives : Disk.Gives aead { s.disk with sibling } persistence.password seed) :
    Settled ed aead ⟨{ s.disk with sibling }, some h, s.first <|> some (ed.verifyingKey seed)⟩ := by
  constructor
  · rintro _ ⟨⟩
    refine ⟨persistence, persistent, key, fun seed' held' => ?_⟩
    cases held.symm.trans held'
    exact gives
  · intro p given
    cases before : s.first with
    | none =>
      rw [before] at given
      cases given
      exact ⟨persistence.password, seed, key, gives, rfl⟩
    | some p' =>
      rw [before] at given
      cases given
      rcases same with none | rfl
      · cases none.symm.trans before
      · exact settled.kept p before

/-- Where the handle goes and the file stays, the install stays settled. -/
theorem Settled.lose (settled : Settled ed aead s) : Settled ed aead { s with handle := none } :=
  ⟨fun _ h => (by cases h), settled.kept⟩

theorem Settled.load (settled : Settled ed aead s) (correct : aead.Correct)
    (opened : s.handle = some handle) (orderly : Orderly aead s (.loadOrCreate io)) :
    Settled ed aead (s.load (loadOrCreate ed aead sha256 io handle s.disk.sibling)) := by
  obtain ⟨persistence, persistent, key, caches⟩ := settled.opened handle opened
  have goes : LoadCase ed aead sha256 io handle s.disk.sibling persistence _ :=
    loadOrCreate_case correct persistent
  generalize loadOrCreate ed aead sha256 io handle s.disk.sibling = out at goes
  cases goes with
  | cached seed held => exact settled.gave (.inr rfl) persistent held key (caches seed held)
  | fromFile bytes seed there opens =>
    exact settled.gave (.inr rfl) persistent rfl key ⟨bytes, there, opens⟩
  | recordOnly publicKey empty stored missing reads =>
    exact absurd reads ((orderly handle opened empty).2 stored missing)
  | failed e record empty =>
    constructor
    · rintro _ ⟨⟩
      refine ⟨persistence, persistent, key, fun seed held => ?_⟩
      cases empty.symm.trans held
    · intro p given
      have given : s.first = some p := by
        simpa [Install.load, Ending.toOption] using given
      exact settled.kept p given
  | crashed handle' =>
    have same : s.load ⟨.crashes, handle', s.disk.sibling⟩ = { s with handle := none } := by
      simp [Install.load, Loaded.left, Ending.toOption]
    rw [same]
    exact settled.lose
  | replaced ending handle' bytes empty absent replaces opens ends =>
    have started : s.first = none := by
      by_contra started
      exact (orderly handle opened empty).1 started absent replaces
    rcases ends with rfl | ⟨rfl, rfl⟩
    · constructor
      · intro _ h
        cases h
      · intro p given
        simp [Install.load, Ending.toOption, started] at given
    · exact settled.gave (.inl started) persistent rfl key ⟨bytes, rfl, opens⟩

theorem Settled.keeps_load (settled : Settled ed aead s) (correct : aead.Correct)
    (orderly : Orderly aead s (.loadOrCreate io)) : Keeps ed aead sha256 s (.loadOrCreate io) := by
  intro p handle given opened identity ends
  obtain ⟨persistence, persistent, key, caches⟩ := settled.opened handle opened
  have goes : LoadCase ed aead sha256 io handle s.disk.sibling persistence _ :=
    loadOrCreate_case correct persistent
  generalize loadOrCreate ed aead sha256 io handle s.disk.sibling = out at goes ends
  cases goes with
  | cached seed held =>
    cases ends
    exact settled.key_eq given key (caches seed held)
  | fromFile bytes seed there opens =>
    cases ends
    exact settled.key_eq given key ⟨bytes, there, opens⟩
  | recordOnly publicKey empty stored missing reads =>
    exact absurd reads ((orderly handle opened empty).2 stored missing)
  | failed e record empty => cases ends
  | crashed handle' => cases ends
  | replaced ending handle' bytes empty absent replaces opens goes =>
    refine absurd replaces ((orderly handle opened empty).1 ?_ absent)
    rw [given]
    exact Option.some_ne_none p

theorem Settled.peerSeed (settled : Settled ed aead s) (read : Except String Unit) :
    Settled ed aead
      { s with handle := s.handle.map fun h => (Identity.peerSeed aead read h s.disk.sibling).2 } := by
  refine ⟨fun h left => ?_, settled.kept⟩
  obtain ⟨handle, opened, rfl⟩ := Option.map_eq_some_iff.mp left
  obtain ⟨persistence, persistent, key, caches⟩ := settled.opened handle opened
  have goes : SeedCase aead read handle s.disk.sibling persistence _ := peerSeed_case persistent
  generalize Identity.peerSeed aead read handle s.disk.sibling = out at goes
  cases goes with
  | cached => exact ⟨persistence, persistent, key, caches⟩
  | fromFile bytes seed there opens =>
    refine ⟨persistence, persistent, key, ?_⟩
    rintro _ ⟨⟩
    exact ⟨bytes, there, opens⟩
  | unread => exact ⟨persistence, persistent, key, caches⟩
  | closed => exact ⟨persistence, persistent, key, caches⟩

/-- Once there is a key, its seed is handed out, unless the file cannot be read. -/
theorem Settled.usesSeed (settled : Settled ed aead s) {p : PublicKey} (given : s.first = some p)
    (opened : s.handle = some handle) (read : Except String Unit) :
    UsesSeedOf ed p id read (Identity.peerSeed aead read handle s.disk.sibling).1 := by
  obtain ⟨persistence, persistent, key, caches⟩ := settled.opened handle opened
  have goes : SeedCase aead read handle s.disk.sibling persistence _ := peerSeed_case persistent
  generalize Identity.peerSeed aead read handle s.disk.sibling = out at goes
  cases goes with
  | cached seed held => exact .inl ⟨seed, settled.key_eq given key (caches seed held), rfl⟩
  | fromFile bytes seed there opens =>
    exact .inl ⟨seed, settled.key_eq given key ⟨bytes, there, opens⟩, rfl⟩
  | unread e failed => exact .inr ⟨_, e, failed, rfl⟩
  | closed e closed =>
    obtain ⟨password, seed, key', ⟨bytes, there, opens⟩, -⟩ := settled.kept p given
    cases key.unique key'
    exact absurd opens (closed bytes seed there)

theorem UsesSeedOf.map {p : PublicKey} {α : Type} {answer : Except IdentityError Seed}
    (uses : UsesSeedOf ed p id read answer) (f : Seed → α) :
    UsesSeedOf ed p f read (answer.map f) := by
  rcases uses with ⟨seed, same, rfl⟩ | ⟨path, e, failed, rfl⟩
  · exact .inl ⟨seed, same, rfl⟩
  · exact .inr ⟨path, e, failed, rfl⟩

theorem Settled.step (settled : Settled ed aead s) (correct : aead.Correct) (e : Event)
    (orderly : Orderly aead s e) : Settled ed aead (s.step ed aead sha256 dataDir e) := by
  cases e with
  | getOrOpen io => exact settled.getOrOpen io orderly
  | exit => exact settled.lose
  | loadOrCreate io =>
    unfold Install.step
    cases opened : s.handle with
    | none => exact settled
    | some handle => exact settled.load correct opened orderly
  | peerSeed read => exact settled.peerSeed read
  | sign payload read => exact settled.peerSeed read

theorem Settled.keeps (settled : Settled ed aead s) (correct : aead.Correct) (e : Event)
    (orderly : Orderly aead s e) : Keeps ed aead sha256 s e := by
  cases e with
  | getOrOpen io => exact fun _ _ _ _ => trivial
  | exit => exact fun _ _ _ _ => trivial
  | loadOrCreate io => exact settled.keeps_load correct orderly
  | peerSeed read => exact fun p handle given opened => settled.usesSeed given opened read
  | sign payload read => exact fun p handle given opened => (settled.usesSeed given opened read).map _

/-- In a run that leaves the seed file to the first key, every key and every seed is of it. -/
theorem identity_kept (correct : aead.Correct) {es : List Event}
    (orderly : Along (Install.step ed aead sha256 dataDir) (Orderly aead) Install.fresh es) :
    Along (Install.step ed aead sha256 dataDir) (Keeps ed aead sha256) Install.fresh es :=
  orderly.of_invariant (Settled ed aead) (fun _ e orderly settled => settled.step correct e orderly)
    (fun _ e orderly settled => settled.keeps correct e orderly) settled_fresh

/-! ## Two processes -/

/-- An opening that meets no error. -/
def calmOpen : OpenIo where
  createDir := .ok ()
  passwordSeen := true
  readPassword := .ok ()
  password := Vector.replicate 32 0
  writePassword := .done
  openStronghold := .ok ()
  createClient := .ok ()
  save := .returns ()

/-- A call that meets no error and draws the seed. -/
def calmLoad (seed : Seed) : LoadIo where
  recordExists := .ok ()
  read := .ok ()
  publicKey := .ok ()
  seed := seed
  writeVault := .returns ()
  sibling :=
    { nonce := Vector.replicate 12 0
      createDir := .returns ()
      write := .returns ()
      setPermissions := .returns ()
      rename := .returns ()
      crashesAfter := false }

def zeros (_ : List UInt8) : List UInt8 := List.replicate 32 0

def firstSeed : Seed := Vector.replicate 32 0

def secondSeed : Seed := Vector.replicate 32 1

/-- A call on an install that has cached a seed is orderly, and so is the first one, if there is no
record. -/
theorem orderly_loadOrCreate {io : LoadIo}
    (h : (s.handle.bind StrongholdHandle.seedCache).isSome ∨
      s.first = none ∧ s.handle.bind StrongholdHandle.record = none) :
    Orderly aead s (.loadOrCreate io) := by
  intro handle opened empty
  rw [opened] at h
  rcases h with held | ⟨fresh, absent⟩
  · rw [Option.bind_some, empty] at held
    cases held
  · exact ⟨fun started => absurd fresh started, fun stored => absurd absent stored⟩

/-- The second process reads the seed before it loads the identity. -/
def seedFirst : List Event :=
  [.getOrOpen calmOpen, .loadOrCreate (calmLoad firstSeed), .exit, .getOrOpen calmOpen,
    .peerSeed (.ok ()), .loadOrCreate (calmLoad secondSeed), .sign [0] (.ok ())]

theorem identity_kept_seedFirst :
    Along (Install.step signedAll plainAead zeros "data") (Keeps signedAll plainAead zeros)
      Install.fresh seedFirst := by
  refine identity_kept plainAead_correct ⟨?_, ?_, trivial, ?_, trivial, ?_, trivial, trivial⟩
  · exact fun started => absurd rfl started
  · exact orderly_loadOrCreate (.inr (by decide))
  · exact fun _ _ => .inl rfl
  · exact orderly_loadOrCreate (.inl (by decide))

/-- A process makes an identity, and the next one loads it. -/
def restarted : List Event :=
  [.getOrOpen calmOpen, .loadOrCreate (calmLoad firstSeed), .exit, .getOrOpen calmOpen,
    .loadOrCreate (calmLoad secondSeed)]

/-- The key that a call would give. -/
def Install.keyOf (s : Install) (io : LoadIo) : Option PublicKey :=
  s.handle.bind fun handle =>
    (loadOrCreate signedAll plainAead zeros io handle s.disk.sibling).ending.toOption.map
      PeerIdentity.publicKey

/-- The record of the first process is not in the snapshot, and the second makes another seed. -/
theorem identity_replaced :
    ¬Along (Install.step signedAll plainAead zeros "data") (Keeps signedAll plainAead zeros)
      Install.fresh restarted := by
  intro kept
  have again := along_iff.mp kept (restarted.take 4) (.loadOrCreate (calmLoad secondSeed)) [] rfl
  have given : (run (Install.step signedAll plainAead zeros "data") Install.fresh
      (restarted.take 4)).first = some firstSeed := by decide
  have other : (run (Install.step signedAll plainAead zeros "data") Install.fresh
      (restarted.take 4)).keyOf (calmLoad secondSeed) = some secondSeed := by decide
  obtain ⟨handle, opened, key⟩ := Option.bind_eq_some_iff.mp other
  obtain ⟨identity, ends, key⟩ := Option.map_eq_some_iff.mp key
  have returned : (loadOrCreate signedAll plainAead zeros (calmLoad secondSeed) handle
      (run (Install.step signedAll plainAead zeros "data") Install.fresh
        (restarted.take 4)).disk.sibling).ending = .returns identity := by
    generalize Loaded.ending _ = ending at ends ⊢
    cases ending with
    | returns a => rw [Option.some.inj ends]
    | fails e => cases ends
    | crashes => cases ends
  have same := again firstSeed handle given opened identity returned
  rw [key] at same
  exact absurd same (by decide)

end Concorrd.Identity
