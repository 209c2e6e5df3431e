import Concorrd.User.MergeView

/-!
# Revoked pairs

A declaration is signed over the two servers, a revocation over an edge id, and the view ties the two
together by the id that an entry carries. The id of a declaration is not signed and nobody computes
it again, so a party that passes a descriptor on can put a declaration under another id, where no
revocation reaches it. `revoked_pair_apart_iff` says when a revoked pair stays apart.
-/

namespace Concorrd

/-- A declaration whose ends the view joins: the latest entry of its edge, with a row on both
sides. -/
def Unions (d : ConcordUserDescriptor) (edge : TrustEdge) : Prop :=
  (∃ id, (id, .edge edge) ∈ (latestEntries d.trustLog).toList) ∧
    edge.serverA ∈ d.serverIds ∧ edge.serverB ∈ d.serverIds

/-- Another entry of its edge takes the place of an entry: one that is later, or as late and
appended after it. -/
def Superseded (before : List TrustLogEntry) (entry : TrustLogEntry) (later : List TrustLogEntry) :
    Prop :=
  (∃ x ∈ before, x.edgeId = entry.edgeId ∧ entry.timestamp < x.timestamp) ∨
    ∃ x ∈ later, x.edgeId = entry.edgeId ∧ entry.timestamp ≤ x.timestamp

/-- Every declaration between the servers that does not carry the id is superseded. -/
def RelabelledSuperseded (log : List TrustLogEntry) (id a b : String) : Prop :=
  ∀ before edge later, log = before ++ .edge edge :: later → edge.Between a b →
    edge.edgeId ≠ id → Superseded before (.edge edge) later

theorem latest_iff {log : List TrustLogEntry} {entry : TrustLogEntry} : Latest log entry ↔
    ∃ before later, log = before ++ entry :: later ∧ ¬Superseded before entry later := by
  refine exists_congr fun before => exists_congr fun later => and_congr_right fun _ => ?_
  unfold Superseded
  push Not
  refine and_congr (forall₃_congr fun x _ _ => ?_) (forall₃_congr fun x _ _ => ?_)
  · exact UInt64.not_lt.symm
  · exact UInt64.not_le.symm

variable {ed : Ed25519} {signed : List UInt8 → Prop} {d : ConcordUserDescriptor} {a b : String}
  {r : TrustEdgeRevocation}

/-- In a descriptor that passes the check the hero signed what its declarations say. -/
theorem signed_of_edge (unforgeable : ∀ m sig, d.concordUid.verifies ed m sig = true → signed m)
    (verified : d.verifyAllSignatures ed = .ok ()) {edge : TrustEdge}
    (mem : .edge edge ∈ d.trustLog) (pair : edge.Between a b) :
    signed (TrustEdge.signingBytes d.concordUid a b edge.issuedAt) := by
  obtain ⟨own, verifies⟩ :=
    (ConcordUserDescriptor.verifyAllSignatures_eq_ok_iff.mp verified).2 _ mem
  have uid : edge.concordUid = d.concordUid := own
  have checked : edge.concordUid.verifies ed edge.message edge.signature = true := verifies
  rw [pair.message_eq, uid] at checked
  exact unforgeable _ _ checked

/-- Where signatures are not forged, the descriptor passes the check, and it has the hero's
revocation of a pair, dated after every declaration of the pair that the hero signed: the view joins
the two by no declaration of the pair exactly when one of them has no row, or every declaration of
the pair that carries another id is superseded under that id. -/
theorem revoked_pair_apart_iff (ed : Ed25519) (sha256 : List UInt8 → Vector UInt8 32)
    (signed : List UInt8 → Prop)
    (unforgeable : ∀ m sig, d.concordUid.verifies ed m sig = true → signed m)
    (verified : d.verifyAllSignatures ed = .ok ()) (revocation : .revocation r ∈ d.trustLog)
    (names : r.edgeId = computeTrustEdgeId sha256 d.concordUid a b)
    (dated : ∀ t, signed (TrustEdge.signingBytes d.concordUid a b t) → t < r.revokedAt) :
    (∀ edge, Unions d edge → ¬edge.Between a b) ↔
      (a ∉ d.serverIds ∨ b ∉ d.serverIds) ∨
        RelabelledSuperseded d.trustLog (computeTrustEdgeId sha256 d.concordUid a b) a b := by
  have unions (edge : TrustEdge) (pair : edge.Between a b) : Unions d edge ↔
      Latest d.trustLog (.edge edge) ∧ a ∈ d.serverIds ∧ b ∈ d.serverIds := by
    unfold Unions
    simp only [mem_latestEntries_iff, exists_eq_left']
    refine and_congr_right fun _ => ?_
    rcases pair with ⟨ha, hb⟩ | ⟨ha, hb⟩
    · rw [ha, hb]
    · rw [ha, hb, and_comm]
  constructor
  · intro apart
    by_cases rows : a ∈ d.serverIds ∧ b ∈ d.serverIds
    · right
      intro before edge later heq pair _
      by_contra held
      exact apart edge ((unions edge pair).mpr ⟨latest_iff.mpr ⟨before, later, heq, held⟩, rows⟩) pair
    · exact .inl (not_and_or.mp rows)
  · intro condition edge joined pair
    obtain ⟨latest, rows⟩ := (unions edge pair).mp joined
    rcases condition with missing | superseded
    · exact not_and_or.mpr missing rows
    · by_cases id : edge.edgeId = r.edgeId
      · have later := dated _ (signed_of_edge unforgeable verified latest.mem pair)
        have le : r.revokedAt.toNat ≤ edge.issuedAt.toNat := latest.time_le revocation id.symm
        exact absurd later (UInt64.not_lt.mpr le)
      · obtain ⟨before, later, heq, held⟩ := latest_iff.mp latest
        rw [← names] at superseded
        exact held (superseded before edge later heq pair id)

/-! ## A declaration under another id -/

/-- What a hero signs that declares two servers once, in the first second. -/
def signedOnce (m : List UInt8) : Bool := m.length ≠ 101 || Bytes.ofBe (m.drop 93) < 2

/-- Signatures of a hero that signs nothing else. -/
def onceSigner : Ed25519 where
  verifyingKey := id
  fromBytes _ := true
  sign _ _ := Vector.replicate 64 0
  verify _ m _ := signedOnce m

/-- A digest that maps everything to zeros. -/
def zeroDigest : List UInt8 → Vector UInt8 32 := fun _ => Vector.replicate 32 0

def onceHero : ConcordUid := ⟨Vector.replicate 32 0⟩

def onceDeclared (id : String) : TrustEdge :=
  ⟨id, onceHero, "a.example", "b.example", 1, Vector.replicate 64 0⟩

def onceRevoked : TrustEdgeRevocation :=
  ⟨"0000000000000000", onceHero, 2, Vector.replicate 64 0⟩

/-- A hero on two servers, with the edge between them declared, under some id, and then revoked. -/
def declaredAs (id : String) : ConcordUserDescriptor :=
  let row (server name : String) : ServerProfile :=
    ⟨server, name, .none, none, Vector.replicate 64 0⟩
  ⟨onceHero, "hero", [row "a.example" "a", row "b.example" "b"],
    [.edge (onceDeclared id), .revocation onceRevoked]⟩

/-- The signer declares the two servers in the first second only. -/
theorem signedOnce_iff (t : UInt64) :
    signedOnce (TrustEdge.signingBytes onceHero "a.example" "b.example" t) = true ↔ t < 2 := by
  have last : Bytes.ofBe ((TrustEdge.signingBytes onceHero "a.example" "b.example" t).drop 93) =
      t.toNat := Bytes.ofBe_be t.toNat_lt
  unfold signedOnce
  rw [last]
  exact decide_eq_true_iff

set_option maxRecDepth 4000 in
theorem verified_declaredAs (id : String) :
    (declaredAs id).verifyAllSignatures onceSigner = .ok () := by
  rw [ConcordUserDescriptor.verifyAllSignatures_eq_ok_iff]
  simp only [declaredAs, List.forall_mem_cons]
  refine ⟨⟨rfl, rfl, fun _ h => by cases h⟩, ⟨rfl, ?_⟩, ⟨rfl, rfl⟩, fun _ h => by cases h⟩
  exact (Bool.true_and (signedOnce _)).trans ((signedOnce_iff 1).mpr (by decide))

theorem eq_onceDeclared {id : String} {edge : TrustEdge}
    (mem : .edge edge ∈ (declaredAs id).trustLog) : edge = onceDeclared id := by
  rcases List.mem_cons.mp mem with same | mem
  · exact TrustLogEntry.edge.inj same
  · cases List.mem_singleton.mp mem

/-- Under the id of its servers the declaration is revoked. -/
theorem revoked_pair_apart_own_id :
    RelabelledSuperseded (declaredAs "0000000000000000").trustLog "0000000000000000" "a.example"
      "b.example" ∧
    ∀ edge, Unions (declaredAs "0000000000000000") edge →
      ¬edge.Between "a.example" "b.example" := by
  have superseded : RelabelledSuperseded (declaredAs "0000000000000000").trustLog
      "0000000000000000" "a.example" "b.example" := by
    intro before edge later heq _ other
    have mem : .edge edge ∈ (declaredAs "0000000000000000").trustLog :=
      heq ▸ List.mem_append_right before List.mem_cons_self
    rw [eq_onceDeclared mem] at other
    exact absurd rfl other
  refine ⟨superseded, (revoked_pair_apart_iff onceSigner zeroDigest
    (fun m => signedOnce m = true) (r := onceRevoked) (fun _ _ h => h)
    (verified_declaredAs _) (List.mem_cons_of_mem _ List.mem_cons_self) rfl
    fun t => (signedOnce_iff t).mp).mpr (.inr superseded)⟩

/-- Under another id the revocation does not reach the declaration. -/
theorem relabelled_pair_joined : ¬∀ (ed : Ed25519) (sha256 : List UInt8 → Vector UInt8 32)
    (signed : List UInt8 → Prop) (d : ConcordUserDescriptor) (a b : String)
    (r : TrustEdgeRevocation), (∀ m sig, d.concordUid.verifies ed m sig = true → signed m) →
    (∀ edge, .edge edge ∈ d.trustLog →
      computeTrustEdgeId sha256 d.concordUid edge.serverA edge.serverB =
        computeTrustEdgeId sha256 d.concordUid a b → edge.Between a b) →
    d.verifyAllSignatures ed = .ok () → .revocation r ∈ d.trustLog →
    r.edgeId = computeTrustEdgeId sha256 d.concordUid a b →
    (∀ t, signed (TrustEdge.signingBytes d.concordUid a b t) → t < r.revokedAt) →
    ∀ edge, Unions d edge → ¬edge.Between a b := by
  intro all
  refine all onceSigner zeroDigest (fun m => signedOnce m = true) (declaredAs "another")
    "a.example" "b.example" onceRevoked (fun _ _ h => h) (fun edge mem _ => ?_)
    (verified_declaredAs _) (List.mem_cons_of_mem _ List.mem_cons_self) rfl
    (fun t => (signedOnce_iff t).mp) (onceDeclared "another") ⟨⟨"another", ?_⟩, ?_⟩ (.inl ⟨rfl, rfl⟩)
  · rw [eq_onceDeclared mem]
    exact .inl ⟨rfl, rfl⟩
  · refine mem_latestEntries_iff.mpr ⟨rfl, [], _, rfl, fun x hx => (by cases hx), ?_⟩
    intro x hx id
    cases List.mem_singleton.mp hx
    exact absurd id (by decide)
  · exact ⟨by decide, by decide⟩

end Concorrd
