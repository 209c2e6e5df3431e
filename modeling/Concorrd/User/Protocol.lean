import Concorrd.Porch.Text
import Concorrd.User.Descriptor

/-!
# Asking a peer for its hero

`buildLocalDescriptor` is what an install says of itself, `getSelf` how it answers a peer, and
`openDescriptorStream` how it asks one. What comes back is whatever the peer sends: a `PeerStream`
is a stream as the caller sees it. JSON is read by serde_json, here `fromSlice`.
-/

namespace Concorrd

/-- Errors of the federation layer. -/
inductive FederationError where
  | io (detail : String)
  | serde (detail : String)
  | malformedEnvelope (detail : String)
  | upstream (detail : String)
  deriving DecidableEq, Repr

def FederationError.toString : FederationError → String
  | .io detail => "IO: " ++ detail
  | .serde detail => "Serde: " ++ detail
  | .malformedEnvelope detail => "Malformed envelope: " ++ detail
  | .upstream detail => "Upstream API error: " ++ detail

/-- Largest frame of the protocol in either direction. -/
def maxUserEnvelopeBytes : Nat := 1 * 1024 * 1024

structure ConcordUserErrorBody where
  code : Int32
  message : String
  deriving DecidableEq, Repr

/-- An answer: a descriptor or an error. -/
structure ConcordUserResponse where
  requestId : UInt64
  descriptor : Option ConcordUserDescriptor
  error : Option ConcordUserErrorBody
  deriving DecidableEq, Repr

/-! ## Answering -/

/-- What the vault of an install holds: its seed and its trust log. -/
structure StrongholdHandle where
  peerSeed : Except String (Vector UInt8 32)
  trustStoreListLog : Except String (List TrustLogEntry)

inductive LocalDescriptorError where
  | identity (detail : String)
  | trustStore (detail : String)
  deriving DecidableEq, Repr

def LocalDescriptorError.toString : LocalDescriptorError → String
  | .identity detail => "identity: " ++ detail
  | .trustStore detail => "trust store: " ++ detail

/-- The name of an install; a blank one and the placeholder of a fresh install count as none. -/
def resolveDisplayName (raw : Option String) (uidHex : String) : String :=
  match raw.map trim with
  | some name =>
    if name ≠ "" ∧ name ≠ "concord-node" then name
    else "hero-" ++ String.ofList (uidHex.toList.take 8)
  | none => "hero-" ++ String.ofList (uidHex.toList.take 8)

variable (ed : Ed25519) (peerIdOf : ConcordUid → String)

/-- The server id of a porch, by the id of its peer. -/
def porchServer (peerId : String) : String := "porch:" ++ peerId

/-- The descriptor of an install: the key of its seed, one row for its own porch, and its log. The
seed is that of its peer id. -/
def buildLocalDescriptor (stronghold : StrongholdHandle) (displayName : Option String) :
    Except LocalDescriptorError ConcordUserDescriptor :=
  match stronghold.peerSeed with
  | .error e => .error (.identity ("peer_seed: " ++ e))
  | .ok seed =>
    let uid : ConcordUid := ⟨ed.verifyingKey seed⟩
    let displayName := resolveDisplayName displayName uid.toHex
    let descriptor := ConcordUserDescriptor.empty uid displayName
    let porchRow := ServerProfile.signNew ed seed uid (porchServer (peerIdOf uid)) displayName none
      .none
    let descriptor := descriptor.upsertServerProfile porchRow
    match stronghold.trustStoreListLog with
    | .error e => .error (.trustStore ("trust_store_list_log: " ++ e))
    | .ok log => .ok (log.foldl ConcordUserDescriptor.appendTrust descriptor)

/-- The answer of an install to `GetSelf`. -/
def getSelf (stronghold : StrongholdHandle) (displayName : Option String) (requestId : UInt64) :
    ConcordUserResponse :=
  match buildLocalDescriptor ed peerIdOf stronghold displayName with
  | .ok descriptor => ⟨requestId, some descriptor, none⟩
  | .error e => ⟨requestId, none, some ⟨500, "local descriptor build failed: " ++ e.toString⟩⟩

/-! ## Asking -/

/-- A stream to a peer as the caller sees it: whether it opens and takes the request, the bytes
that come back, and the error of a read past their end. -/
structure PeerStream where
  opens : Except String Unit
  takes : Except String Unit
  sends : List UInt8
  ends : String

/-- The first bytes of what is left, and what is left after them. -/
def PeerStream.readExact (stream : PeerStream) (n : Nat) (bytes : List UInt8) :
    Except FederationError (List UInt8 × List UInt8) :=
  if n ≤ bytes.length then .ok (bytes.take n, bytes.drop n) else .error (.io stream.ends)

/-- Send one request and read one answer. -/
def openDescriptorStream (fromSlice : List UInt8 → Except String ConcordUserResponse)
    (stream : PeerStream) : Except FederationError ConcordUserResponse :=
  match stream.opens with
  | .error e => .error (.upstream ("open_stream: " ++ e))
  | .ok _ =>
    match stream.takes with
    | .error e => .error (.io e)
    | .ok _ =>
      match stream.readExact 4 stream.sends with
      | .error e => .error e
      | .ok (lenBuf, rest) =>
        let len := Bytes.ofBe lenBuf
        if len > maxUserEnvelopeBytes then
          .error (.malformedEnvelope ("response envelope too large: " ++ toString len ++ " > " ++
            toString maxUserEnvelopeBytes))
        else
          match stream.readExact len rest with
          | .error e => .error e
          | .ok (buf, _) =>
            match fromSlice buf with
            | .error e => .error (.serde e)
            | .ok response => .ok response

/-- A peer that opens the stream and sends one frame. -/
def PeerStream.framed (body : List UInt8) : PeerStream :=
  ⟨.ok (), .ok (), Bytes.be 4 body.length ++ body, "early eof"⟩

variable {fromSlice : List UInt8 → Except String ConcordUserResponse}

/-- A frame that is not too large is decoded. -/
theorem openDescriptorStream_framed {body : List UInt8} {response : ConcordUserResponse}
    (small : body.length ≤ maxUserEnvelopeBytes) (decodes : fromSlice body = .ok response) :
    openDescriptorStream fromSlice (.framed body) = .ok response := by
  have prefixed : (PeerStream.framed body).readExact 4 (PeerStream.framed body).sends =
      .ok (Bytes.be 4 body.length, body) := by
    have enough : 4 ≤ (Bytes.be 4 body.length ++ body).length := by
      rw [List.length_append, Bytes.length_be]
      omega
    show (if 4 ≤ (Bytes.be 4 body.length ++ body).length then
      Except.ok ((Bytes.be 4 body.length ++ body).take 4, (Bytes.be 4 body.length ++ body).drop 4)
      else _) = _
    rw [if_pos enough, List.take_left' (Bytes.length_be 4 _), List.drop_left' (Bytes.length_be 4 _)]
  have fits : body.length < 256 ^ 4 := Nat.lt_of_le_of_lt small (by decide)
  have whole : (PeerStream.framed body).readExact body.length body = .ok (body, []) := by
    rw [PeerStream.readExact, if_pos (Nat.le_refl _), List.take_length, List.drop_length]
  simp only [openDescriptorStream]
  rw [prefixed]
  dsimp only
  rw [Bytes.ofBe_be fits, if_neg (Nat.not_lt.mpr small), whole]
  dsimp only
  rw [decodes]
  rfl

variable {ed peerIdOf} {stronghold : StrongholdHandle} {displayName : Option String}
  {d : ConcordUserDescriptor}

/-- What a descriptor an install builds of itself holds. -/
structure LocalDescriptor (ed : Ed25519) (peerIdOf : ConcordUid → String) (seed : Vector UInt8 32)
    (log : List TrustLogEntry) (d : ConcordUserDescriptor) : Prop where
  uid : d.concordUid = ⟨ed.verifyingKey seed⟩
  rows : d.serverProfiles = [ServerProfile.signNew ed seed d.concordUid
    (porchServer (peerIdOf d.concordUid)) d.displayName none .none]
  log : d.trustLog = log

theorem foldl_appendTrust (log : List TrustLogEntry) (d : ConcordUserDescriptor) :
    log.foldl ConcordUserDescriptor.appendTrust d = { d with trustLog := d.trustLog ++ log } := by
  induction log generalizing d with
  | nil => rw [List.append_nil]; rfl
  | cons entry log ih =>
    rw [List.foldl_cons, ih]
    simp only [ConcordUserDescriptor.appendTrust, List.append_assoc, List.singleton_append]

/-- An install that answers says the key of its own seed. -/
theorem localDescriptor_of_build
    (h : buildLocalDescriptor ed peerIdOf stronghold displayName = .ok d) :
    ∃ seed log, stronghold.peerSeed = .ok seed ∧ stronghold.trustStoreListLog = .ok log ∧
      LocalDescriptor ed peerIdOf seed log d := by
  unfold buildLocalDescriptor at h
  split at h
  · cases h
  · rename_i seed hseed
    dsimp only at h
    split at h
    · cases h
    · rename_i log hlog
      rw [foldl_appendTrust] at h
      cases h
      exact ⟨seed, log, hseed, hlog, rfl, List.mergeSort_singleton _, List.nil_append _⟩

/-- A descriptor that an install built of itself passes the check, when its log is its own. -/
theorem LocalDescriptor.verifyAllSignatures {seed : Vector UInt8 32} {log : List TrustLogEntry}
    (correct : ed.Correct) (h : LocalDescriptor ed peerIdOf seed log d)
    (own : ∀ entry ∈ log, entry.concordUid = d.concordUid ∧ entry.verify ed = true) :
    d.verifyAllSignatures ed = .ok () := by
  refine ConcordUserDescriptor.verifyAllSignatures_eq_ok_iff.mpr ⟨fun row hrow => ?_, ?_⟩
  · rw [h.rows, List.mem_singleton] at hrow
    subst hrow
    rw [h.uid, ServerProfile.verify, ConcordUid.verifies, Bool.and_eq_true]
    exact ⟨correct.fromBytes seed, correct.verify seed _⟩
  · rwa [h.log]

end Concorrd
