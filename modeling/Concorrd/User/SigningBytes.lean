import Concorrd.Lib.JsonRead
import Concorrd.User.Descriptor

/-!
# What a signature covers

A hero signs three kinds of statement: the row of a server, a trust edge and the revocation of one. The
bytes of each begin with a tag of its kind and give every text its length, so that they are read back
field by field. `message_eq_iff` says that two statements have the same bytes only when they are one
statement, an edge being the same whichever way its servers are given.
-/

namespace Concorrd

/-! ## Reading the fields back -/

theorem lengthPrefixed_append_inj {s t : String} {rest rest' : List UInt8}
    (small : s.utf8ByteSize < 2 ^ 32) (small' : t.utf8ByteSize < 2 ^ 32) :
    lengthPrefixed s ++ rest = lengthPrefixed t ++ rest' ↔ s = t ∧ rest = rest' := by
  constructor
  · intro same
    simp only [lengthPrefixed, List.append_assoc] at same
    obtain ⟨length, same⟩ := List.append_inj same (by rw [Bytes.length_be, Bytes.length_be])
    have sizes : s.utf8ByteSize = t.utf8ByteSize := Bytes.be_inj small small' length
    obtain ⟨text, rest⟩ := List.append_inj same
      (by rw [Bytes.length_utf8, Bytes.length_utf8, sizes])
    exact ⟨Bytes.utf8_inj text, rest⟩
  · rintro ⟨rfl, rfl⟩
    rfl

/-- The last field of the bytes needs no length. -/
theorem lengthPrefixed_inj {s t : String} (same : lengthPrefixed s = lengthPrefixed t) : s = t := by
  obtain ⟨-, text⟩ := List.append_inj same (by rw [Bytes.length_be, Bytes.length_be])
  exact Bytes.utf8_inj text

theorem ConcordUid.append_inj {uid uid' : ConcordUid} {rest rest' : List UInt8} :
    uid.asBytes.toList ++ rest = uid'.asBytes.toList ++ rest' ↔ uid = uid' ∧ rest = rest' := by
  constructor
  · intro same
    obtain ⟨key, rest⟩ := List.append_inj same (by simp)
    exact ⟨congrArg ConcordUid.mk (Vector.toList_inj.mp key), rest⟩
  · rintro ⟨rfl, rfl⟩
    rfl

theorem be_timestamp_inj {t t' : UInt64} :
    Bytes.be 8 t.toNat = Bytes.be 8 t'.toNat ↔ t = t' := by
  constructor
  · intro same
    exact UInt64.toNat_inj.mp (Bytes.be_inj t.toNat_lt t'.toNat_lt same)
  · rintro rfl
    rfl

/-- The field of an optional text. -/
def optionField : Option String → List UInt8
  | some text => 1 :: lengthPrefixed text
  | none => [0]

theorem optionField_append_inj {bio bio' : Option String} {rest rest' : List UInt8}
    (small : ∀ text ∈ bio, text.utf8ByteSize < 2 ^ 32)
    (small' : ∀ text ∈ bio', text.utf8ByteSize < 2 ^ 32) :
    optionField bio ++ rest = optionField bio' ++ rest' ↔ bio = bio' ∧ rest = rest' := by
  cases bio with
  | none =>
    cases bio' with
    | none => simp [optionField]
    | some text => simp [optionField]
  | some text =>
    cases bio' with
    | none => simp [optionField]
    | some text' =>
      simp only [optionField, List.cons_append, List.cons.injEq, true_and, Option.some.injEq]
      exact lengthPrefixed_append_inj (small text rfl) (small' text' rfl)

/-! ## Avatars -/

/-- The text of an object that names its kind first. -/
theorem write_kind (kind : String) (members : List (String × Json)) :
    (Json.obj (("kind", .str kind) :: members)).write =
      "\x7b" ++ (Json.quoted "kind" ++ (":" ++ (Json.quoted kind ++ (Json.writeMembers members ++ "\x7d")))) := by
  simp only [Json.write, String.append_assoc]

theorem write_kind_inj {kind kind' : String} {members members' : List (String × Json)}
    (same : (Json.obj (("kind", .str kind) :: members)).write =
      (Json.obj (("kind", .str kind') :: members')).write) :
    kind = kind' ∧ Json.writeMembers members = Json.writeMembers members' := by
  simp only [write_kind, String.append_right_inj] at same
  obtain ⟨kinds, rest⟩ := JsonRead.quoted_append_inj same
  exact ⟨kinds, (String.append_left_inj _).mp rest⟩

theorem writeMembers_text_inj {key text text' : String}
    (same : Json.writeMembers [(key, .str text)] = Json.writeMembers [(key, .str text')]) :
    text = text' := by
  simp only [Json.writeMembers, Json.write, String.append_assoc, String.append_right_inj] at same
  exact (JsonRead.quoted_append_inj same).1

/-- The text of an avatar tells which it is. -/
theorem AvatarRef.eq_of_write {a b : AvatarRef} (same : a.toJson.write = b.toJson.write) : a = b := by
  cases a with
  | multiaddr address =>
    cases b with
    | multiaddr address' => exact congrArg _ (writeMembers_text_inj (write_kind_inj same).2)
    | matrixMxc mxc => exact absurd (write_kind_inj same).1 (by decide)
    | porchAsset assetId => exact absurd (write_kind_inj same).1 (by decide)
    | none => exact absurd (write_kind_inj same).1 (by decide)
  | matrixMxc mxc =>
    cases b with
    | multiaddr address => exact absurd (write_kind_inj same).1 (by decide)
    | matrixMxc mxc' => exact congrArg _ (writeMembers_text_inj (write_kind_inj same).2)
    | porchAsset assetId => exact absurd (write_kind_inj same).1 (by decide)
    | none => exact absurd (write_kind_inj same).1 (by decide)
  | porchAsset assetId =>
    cases b with
    | multiaddr address => exact absurd (write_kind_inj same).1 (by decide)
    | matrixMxc mxc => exact absurd (write_kind_inj same).1 (by decide)
    | porchAsset assetId' => exact congrArg _ (writeMembers_text_inj (write_kind_inj same).2)
    | none => exact absurd (write_kind_inj same).1 (by decide)
  | none =>
    cases b with
    | multiaddr address => exact absurd (write_kind_inj same).1 (by decide)
    | matrixMxc mxc => exact absurd (write_kind_inj same).1 (by decide)
    | porchAsset assetId => exact absurd (write_kind_inj same).1 (by decide)
    | none => rfl

/-! ## Statements -/

/-- A signature that verifies under a key is of one message. -/
def Ed25519.SignsOne (ed : Ed25519) : Prop :=
  ∀ (key : Vector UInt8 32) (signature : Vector UInt8 64) (message message' : List UInt8),
    ed.verify key message signature = true → ed.verify key message' signature = true →
      message = message'

/-- What a hero may sign. -/
inductive SignedStatement where
  | row (concordUid : ConcordUid) (serverId displayName : String) (bio : Option String)
      (avatar : AvatarRef)
  | edge (concordUid : ConcordUid) (serverA serverB : String) (issuedAt : UInt64)
  | revocation (concordUid : ConcordUid) (edgeId : String) (revokedAt : UInt64)

namespace SignedStatement

/-- The bytes the signature covers. -/
def message : SignedStatement → List UInt8
  | row uid serverId displayName bio avatar =>
    ServerProfile.signingBytes uid serverId displayName bio avatar
  | edge uid serverA serverB issuedAt => TrustEdge.signingBytes uid serverA serverB issuedAt
  | revocation uid edgeId revokedAt => TrustEdgeRevocation.signingBytes uid edgeId revokedAt

/-- The texts that get a length. -/
def texts : SignedStatement → List String
  | row _ serverId displayName bio _ => serverId :: displayName :: bio.toList
  | edge _ serverA serverB _ => [serverA, serverB]
  | revocation _ edgeId _ => [edgeId]

/-- Every text has a length that takes four bytes. -/
def Short (s : SignedStatement) : Prop := ∀ text ∈ s.texts, text.utf8ByteSize < 2 ^ 32

instance (s : SignedStatement) : Decidable s.Short :=
  inferInstanceAs (Decidable (∀ text ∈ s.texts, _))

/-- The statements are one, an edge being the same whichever way its servers are given. -/
inductive Same : SignedStatement → SignedStatement → Prop where
  | refl (s : SignedStatement) : Same s s
  | swap (uid : ConcordUid) (a b : String) (issuedAt : UInt64) :
    Same (edge uid a b issuedAt) (edge uid b a issuedAt)

/-- The tag of a kind of statement. -/
def tag : SignedStatement → String
  | row .. => domainTagDescriptorRow
  | edge .. => domainTagTrustEdge
  | revocation .. => domainTagTrustRevoke

/-- What follows the tag. -/
def body : SignedStatement → List UInt8
  | row uid serverId displayName bio avatar =>
    uid.asBytes.toList ++ (lengthPrefixed serverId ++ (lengthPrefixed displayName ++
      (optionField bio ++ lengthPrefixed avatar.toJson.write)))
  | edge uid serverA serverB issuedAt =>
    uid.asBytes.toList ++ (lengthPrefixed (if serverA ≤ serverB then serverA else serverB) ++
      (lengthPrefixed (if serverA ≤ serverB then serverB else serverA) ++ Bytes.be 8 issuedAt.toNat))
  | revocation uid edgeId revokedAt =>
    uid.asBytes.toList ++ (lengthPrefixed edgeId ++ Bytes.be 8 revokedAt.toNat)

variable {s s' : SignedStatement}

theorem message_eq (s : SignedStatement) : s.message = Bytes.utf8 s.tag ++ s.body := by
  cases s with
  | row uid serverId displayName bio avatar =>
    cases bio <;> simp only [message, ServerProfile.signingBytes, tag, body, optionField, List.append_assoc]
  | edge uid serverA serverB issuedAt =>
    simp only [message, TrustEdge.signingBytes, tag, body]
    split <;> simp only [List.append_assoc]
  | revocation uid edgeId revokedAt =>
    simp only [message, TrustEdgeRevocation.signingBytes, tag, body, List.append_assoc]

/-- The tags of all kinds. -/
def tags : List String := [domainTagDescriptorRow, domainTagTrustEdge, domainTagTrustRevoke]

theorem tag_mem (s : SignedStatement) : s.tag ∈ tags := by
  cases s <;> simp [tag, tags]

/-- No tag begins another: they differ before the shortest ends. -/
theorem tags_apart : ∀ t ∈ tags, 31 ≤ (Bytes.utf8 t).length ∧
    ∀ t' ∈ tags, (Bytes.utf8 t).take 31 = (Bytes.utf8 t').take 31 → t = t' := by
  decide

/-- The bytes tell the kind. -/
theorem tag_eq_of_message (same : s.message = s'.message) : s.tag = s'.tag := by
  obtain ⟨long, apart⟩ := tags_apart s.tag s.tag_mem
  obtain ⟨long', -⟩ := tags_apart s'.tag s'.tag_mem
  have starts := congrArg (List.take 31) same
  rw [message_eq, message_eq, List.take_append_of_le_length long,
    List.take_append_of_le_length long'] at starts
  exact apart s'.tag s'.tag_mem starts

theorem body_eq_of_message (same : s.message = s'.message) : s.body = s'.body := by
  have tags := tag_eq_of_message same
  rw [message_eq, message_eq, tags] at same
  exact List.append_cancel_left same

theorem sorted_texts {a b : String} {n : Nat} (small : ∀ text ∈ [a, b], text.utf8ByteSize < n) :
    (if a ≤ b then a else b).utf8ByteSize < n ∧ (if a ≤ b then b else a).utf8ByteSize < n := by
  have first := small a List.mem_cons_self
  have second := small b (List.mem_cons_of_mem _ List.mem_cons_self)
  split
  · exact ⟨first, second⟩
  · exact ⟨second, first⟩

/-- Two pairs that are equal in order are equal or swapped. -/
theorem eq_or_swapped {a b a' b' : String}
    (low : (if a ≤ b then a else b) = if a' ≤ b' then a' else b')
    (high : (if a ≤ b then b else a) = if a' ≤ b' then b' else a') :
    a = a' ∧ b = b' ∨ a = b' ∧ b = a' := by
  by_cases order : a ≤ b
  · rw [if_pos order] at low high
    by_cases order' : a' ≤ b'
    · rw [if_pos order'] at low high
      exact .inl ⟨low, high⟩
    · rw [if_neg order'] at low high
      exact .inr ⟨low, high⟩
  · rw [if_neg order] at low high
    by_cases order' : a' ≤ b'
    · rw [if_pos order'] at low high
      exact .inr ⟨high, low⟩
    · rw [if_neg order'] at low high
      exact .inl ⟨high, low⟩

theorem same_edge {uid : ConcordUid} {a b : String} {issuedAt : UInt64}
    (same : (edge uid a b issuedAt).Same s') :
    s' = edge uid a b issuedAt ∨ s' = edge uid b a issuedAt := by
  cases same with
  | refl => exact .inl rfl
  | swap => exact .inr rfl

theorem Same.message_eq (same : s.Same s') : s.message = s'.message := by
  cases same with
  | refl => rfl
  | swap uid a b issuedAt => exact TrustEdge.signingBytes_comm uid a b issuedAt

/-- The bytes are read back field by field. -/
theorem same_of_message (short : s.Short) (short' : s'.Short) (same : s.message = s'.message) :
    s.Same s' := by
  have tags := tag_eq_of_message same
  have bodies := body_eq_of_message same
  cases s with
  | row uid serverId displayName bio avatar =>
    cases s' with
    | row uid' serverId' displayName' bio' avatar' =>
      have bios (text : String) (h : text ∈ bio) : text.utf8ByteSize < 2 ^ 32 :=
        short text (by simp [texts, Option.mem_toList.mpr h])
      have bios' (text : String) (h : text ∈ bio') : text.utf8ByteSize < 2 ^ 32 :=
        short' text (by simp [texts, Option.mem_toList.mpr h])
      have servers := short serverId (by simp [texts])
      have servers' := short' serverId' (by simp [texts])
      have names := short displayName (by simp [texts])
      have names' := short' displayName' (by simp [texts])
      simp only [body, ConcordUid.append_inj, lengthPrefixed_append_inj servers servers',
        lengthPrefixed_append_inj names names', optionField_append_inj bios bios'] at bodies
      obtain ⟨rfl, rfl, rfl, rfl, avatars⟩ := bodies
      cases AvatarRef.eq_of_write (lengthPrefixed_inj avatars)
      exact .refl _
    | edge => exact absurd tags (show domainTagDescriptorRow ≠ domainTagTrustEdge by decide)
    | revocation => exact absurd tags (show domainTagDescriptorRow ≠ domainTagTrustRevoke by decide)
  | edge uid serverA serverB issuedAt =>
    cases s' with
    | row => exact absurd tags (show domainTagTrustEdge ≠ domainTagDescriptorRow by decide)
    | edge uid' serverA' serverB' issuedAt' =>
      obtain ⟨low, high⟩ := sorted_texts short
      obtain ⟨low', high'⟩ := sorted_texts short'
      simp only [body, ConcordUid.append_inj, lengthPrefixed_append_inj low low',
        lengthPrefixed_append_inj high high', be_timestamp_inj] at bodies
      obtain ⟨rfl, lows, highs, rfl⟩ := bodies
      rcases eq_or_swapped lows highs with ⟨rfl, rfl⟩ | ⟨rfl, rfl⟩
      · exact .refl _
      · exact .swap _ _ _ _
    | revocation => exact absurd tags (show domainTagTrustEdge ≠ domainTagTrustRevoke by decide)
  | revocation uid edgeId revokedAt =>
    cases s' with
    | row => exact absurd tags (show domainTagTrustRevoke ≠ domainTagDescriptorRow by decide)
    | edge => exact absurd tags (show domainTagTrustRevoke ≠ domainTagTrustEdge by decide)
    | revocation uid' edgeId' revokedAt' =>
      have ids := short edgeId (by simp [texts])
      have ids' := short' edgeId' (by simp [texts])
      simp only [body, ConcordUid.append_inj, lengthPrefixed_append_inj ids ids',
        be_timestamp_inj] at bodies
      obtain ⟨rfl, rfl, rfl⟩ := bodies
      exact .refl _

end SignedStatement

end Concorrd
