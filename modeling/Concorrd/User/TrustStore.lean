import Concorrd.User.MergeView

/-!
# The trust store

An install keeps its trust log in a file that is only appended to: for each entry the length of what
follows in four bytes, a nonce, and the entry encrypted. `readLog` goes through the file by these
lengths, `listEdges` replays what it reads. The cipher is that of the chacha20poly1305 crate, here
`Aead`, the text of an entry that of serde_json, here `EntryCodec`. In `scan` a slice out of bounds
and a loop that has not ended are `none`.
-/

namespace Concorrd

open Std (HashMap)

/-! ## Active edges -/

/-- Whether an entry takes the place of one that was appended before it. -/
def entryStrictlyNewer (candidate current : TrustLogEntry) : Bool :=
  candidate.timestamp > current.timestamp || candidate.timestamp = current.timestamp

/-- The entries that `listEdges` holds once it has gone through the log. -/
def replayEdges (entries : List TrustLogEntry) : HashMap String TrustLogEntry :=
  entries.foldl (fun latest entry =>
    match latest[entry.edgeId]? with
    | none => latest.insert entry.edgeId entry
    | some prev =>
      if entryStrictlyNewer entry prev then latest.insert entry.edgeId entry else latest) ∅

/-- The declarations among the entries held, by edge. -/
def activeEdges (entries : List TrustLogEntry) : List TrustEdge :=
  ((replayEdges entries).toList.filterMap fun (_, entry) =>
    match entry with
    | .edge edge => some edge
    | .revocation _ => none).mergeSort fun a b => a.edgeId ≤ b.edgeId

/-! ## Records -/

/-- An authenticated cipher. -/
structure Aead where
  encrypt : (key : List UInt8) → (nonce : List UInt8) → List UInt8 → Except String (List UInt8)
  decrypt : (key : List UInt8) → (nonce : List UInt8) → List UInt8 → Except String (List UInt8)

/-- Entries as JSON text. -/
structure EntryCodec where
  toVec : TrustLogEntry → List UInt8
  fromSlice : List UInt8 → Except String TrustLogEntry

inductive TrustStoreError where
  | storage (path error : String)
  | crypto (detail : String)
  | serde (detail : String)
  | handleNotPersistent
  | invalidSignature
  | unknownEdgeId (edgeId : String)
  deriving DecidableEq, Repr

/-- What the store asks of the handle of a vault. -/
structure TrustStoreHandle where
  snapshotPath : Option String
  snapshotPassword : Option (List UInt8)

def trustNonceLen : Nat := 12

def trustKeyLen : Nat := 32

def recordLengthPrefixBytes : Nat := 4

/-- The path of the log. -/
def resolvePaths (handle : TrustStoreHandle) : Except TrustStoreError String :=
  match handle.snapshotPath with
  | none => .error .handleNotPersistent
  | some path => .ok (path ++ ".concord_user_trust.log.enc")

/-- The key of the log. -/
def logKey (handle : TrustStoreHandle) : Except TrustStoreError (List UInt8) :=
  match handle.snapshotPassword with
  | none => .error .handleNotPersistent
  | some password =>
    if password.length ≠ trustKeyLen then
      .error (.crypto ("snapshot password length " ++ toString password.length ++
        " != expected " ++ toString trustKeyLen))
    else .ok password

section

variable (ed : Ed25519) (aead : Aead) (codec : EntryCodec) (handle : TrustStoreHandle)

/-- The bytes of an entry. A length of four gigabytes and more loses its upper half. -/
def record (key : List UInt8) (nonce : Vector UInt8 12) (entry : TrustLogEntry) :
    Except TrustStoreError (List UInt8) :=
  match aead.encrypt key nonce.toList (codec.toVec entry) with
  | .error e => .error (.crypto ("encrypt: " ++ e))
  | .ok ciphertext => .ok (Bytes.be recordLengthPrefixBytes (trustNonceLen + ciphertext.length) ++
      nonce.toList ++ ciphertext)

/-- Append an entry to the file: what is written behind what lies there. -/
def appendEntry (nonce : Vector UInt8 12) (entry : TrustLogEntry) :
    Except TrustStoreError (List UInt8) :=
  match resolvePaths handle with
  | .error e => .error e
  | .ok _ =>
    match logKey handle with
    | .error e => .error e
    | .ok key => record aead codec key nonce entry

/-! ## Reading -/

/-- The entry of a payload, unless it is too short, does not decrypt, is no entry, or is not
signed. -/
def readPayload (key payload : List UInt8) : Option TrustLogEntry :=
  if payload.length < trustNonceLen + 16 then none
  else
    match aead.decrypt key (payload.take trustNonceLen) (payload.drop trustNonceLen) with
    | .error _ => none
    | .ok plaintext =>
      match codec.fromSlice plaintext with
      | .ok entry => if entry.verify ed then some entry else none
      | .error _ => none

/-- The bytes between two offsets; a panic when they are not there. -/
def slice (bytes : List UInt8) (start stop : Nat) : Option (List UInt8) :=
  if start ≤ stop ∧ stop ≤ bytes.length then some ((bytes.drop start).take (stop - start))
  else none

/-- Go through the file from an offset. -/
def scan (key bytes : List UInt8) : Nat → Nat → List TrustLogEntry → Option (List TrustLogEntry)
  | 0, _, _ => none
  | fuel + 1, cursor, out =>
    if cursor + recordLengthPrefixBytes ≤ bytes.length then do
      let lenBytes ← slice bytes cursor (cursor + 4)
      let payloadLen := Bytes.ofBe lenBytes
      let cursor := cursor + recordLengthPrefixBytes
      -- A truncated tail.
      if cursor + payloadLen > bytes.length then some out
      else
        let payload ← slice bytes cursor (cursor + payloadLen)
        scan key bytes fuel (cursor + payloadLen)
          (out ++ (readPayload ed aead codec key payload).toList)
    else some out

/-- The entries of the file, in order; a file that is not there has none. -/
def readLog (file : Option (List UInt8)) :
    Option (Except TrustStoreError (List TrustLogEntry)) :=
  match file with
  | none => some (.ok [])
  | some bytes =>
    match logKey handle with
    | .error e => some (.error e)
    | .ok key => (scan ed aead codec key bytes (bytes.length + 1) 0 []).map .ok

def listLog (file : Option (List UInt8)) :
    Option (Except TrustStoreError (List TrustLogEntry)) :=
  match resolvePaths handle with
  | .error e => some (.error e)
  | .ok _ => readLog ed aead codec handle file

def listEdges (file : Option (List UInt8)) : Option (Except TrustStoreError (List TrustEdge)) :=
  (listLog ed aead codec handle file).map (·.map activeEdges)

/-! ## Declaring and revoking -/

/-- What declaring an edge appends to the file. -/
def addEdge (nonce : Vector UInt8 12) (edge : TrustEdge) : Except TrustStoreError (List UInt8) :=
  if !edge.verify ed then .error .invalidSignature
  else appendEntry aead codec handle nonce (.edge edge)

/-- What revoking an edge appends to the file: the log must name the edge. -/
def revokeEdge (nonce : Vector UInt8 12) (revocation : TrustEdgeRevocation)
    (file : Option (List UInt8)) : Option (Except TrustStoreError (List UInt8)) :=
  if !revocation.verify ed then some (.error .invalidSignature)
  else
    (listLog ed aead codec handle file).map fun log =>
      match log with
      | .error e => .error e
      | .ok log =>
        if !log.any (fun e => e.edgeId = revocation.edgeId) then
          .error (.unknownEdgeId revocation.edgeId)
        else appendEntry aead codec handle nonce (.revocation revocation)

end

theorem listEdges_of_readLog {ed : Ed25519} {aead : Aead} {codec : EntryCodec}
    {handle : TrustStoreHandle} {file : Option (List UInt8)} {path : String}
    {log : List TrustLogEntry} (hpath : resolvePaths handle = .ok path)
    (read : readLog ed aead codec handle file = some (.ok log)) :
    listEdges ed aead codec handle file = some (.ok (activeEdges log)) := by
  simp only [listEdges, listLog, hpath, read]
  rfl

/-! ## What the replay leaves -/

theorem replayEdges_eq_some_iff {entries : List TrustLogEntry} {id : String}
    {entry : TrustLogEntry} :
    (replayEdges entries)[id]? = some entry ↔ entry.edgeId = id ∧ Latest entries entry := by
  let view (latest : HashMap String TrustLogEntry) (id : String) : Option TrustLogEntry :=
    latest[id]?
  refine Replay.view_foldl_insert_eq_some_iff view (fun latest entry =>
    latest.insert entry.edgeId entry) (fun latest entry id => ?_) _ (fun latest entry => ?_) ?_
  · unfold view
    rw [Std.HashMap.getElem?_insert]
    by_cases hid : id = entry.edgeId
    · rw [if_pos (beq_iff_eq.mpr hid.symm), if_pos hid]
    · rw [if_neg fun h => hid (beq_iff_eq.mp h).symm, if_neg hid]
  · unfold view
    cases latest[entry.edgeId]? with
    | none => exact (if_pos fun b hb => by cases hb).symm
    | some prev =>
      have least : (∀ b ∈ some prev, b.seconds ≤ entry.seconds) ↔
          entryStrictlyNewer entry prev = true := by
        simp only [Option.mem_some_iff, forall_eq', entryStrictlyNewer, Bool.or_eq_true,
          decide_eq_true_eq]
        rw [Nat.le_iff_lt_or_eq]
        exact or_congr_right (eq_comm.trans UInt64.toNat_inj)
      exact if_congr least.symm rfl rfl
  · funext id
    exact Std.HashMap.getElem?_empty

/-- The active edges are the declarations that the log leaves. -/
theorem mem_activeEdges_iff {entries : List TrustLogEntry} {edge : TrustEdge} :
    edge ∈ activeEdges entries ↔ Latest entries (.edge edge) := by
  unfold activeEdges
  rw [List.mem_mergeSort, List.mem_filterMap]
  constructor
  · rintro ⟨⟨id, entry⟩, mem, declared⟩
    have held := replayEdges_eq_some_iff.mp (Std.HashMap.mem_toList_iff_getElem?_eq_some.mp mem)
    cases entry with
    | edge e =>
      cases declared
      exact held.2
    | revocation r => cases declared
  · intro latest
    have held := replayEdges_eq_some_iff.mpr ⟨rfl, latest⟩
    exact ⟨(edge.edgeId, .edge edge), Std.HashMap.mem_toList_iff_getElem?_eq_some.mpr held, rfl⟩

/-- The view of a descriptor is the partition of its servers by the edges that its log leaves
active. The search for a root ends on every map of parents that unions lead to, and the store finds
the same declarations active as the view. -/
theorem mergeView_partitions (d : ConcordUserDescriptor) :
    (∃ view, mergeView d = some view ∧ view.Partitions d) ∧
    (∀ uf : UnionFind, uf.Reachable → ∀ id, ∃ fuel root, uf.find fuel id = some root) ∧
    ∀ edge : TrustEdge, edge ∈ activeEdges d.trustLog ↔
      ∃ id, (id, .edge edge) ∈ (latestEntries d.trustLog).toList := by
  refine ⟨exists_partitions d, fun uf h => h.exists_find, fun edge => ?_⟩
  rw [mem_activeEdges_iff]
  simp only [mem_latestEntries_iff, exists_eq_left']

end Concorrd
