import Mathlib.Data.List.Nodup
import Concorrd.Peer.Store
import Concorrd.User.Protocol

/-!
# Gates that admit paired peers

A home package is taken from paired peers only, a history request is anchored in a paired peer, and
a list of the store holds the peers with access. All three read the same file, but the first two ask
for every known peer and never look at the flag that a revocation turns off. A revoked peer is hence
refused by all of them exactly when it was removed since and has not been added again
(`revoked_refused_iff`). The list alone keeps refusing it as long as nobody removes it or grants it
access (`revoked_not_listed`).
-/

namespace Concorrd

open Machine

def PeerStoreError.toString : PeerStoreError → String
  | .storage path error => "peer-store storage error at " ++ path ++ ": " ++ error
  | .crypto detail => "peer-store crypto failure: " ++ detail
  | .serde detail => "peer-store json error: " ++ detail
  | .invalidPeerId detail => "invalid peer payload: " ++ detail
  | .handleNotPersistent => "peer-store requires a persistent Stronghold handle — build the " ++
      "handle via StrongholdHandle::new_persistent so a snapshot path and password are available"
  | .unsupportedVersion version supported => "peer-store on-disk version " ++ ToString.toString version ++
      " is newer than this build supports (" ++ ToString.toString supported ++ ")"
  | .fileTruncated path length => "peer-store sibling file at " ++ path ++ " is too short (" ++
      ToString.toString length ++ " bytes)"

/-- Whether the handler of home packages takes the peer for paired. Outside a runtime it first builds
one of its own. -/
def StrongholdPeerStoreSnapshot.isPaired (runtime : Except String Unit) (io : PeerStoreIo)
    (peers : List KnownPeer) (peerId : String) : Bool :=
  match runtime with
  | .error _ => false
  | .ok _ =>
    match PeerStore.list io peers with
    | .ok list => list.any fun peer => peer.peerId = peerId
    | .error _ => false

/-- The peers that may anchor a history request. -/
def StrongholdPairedPeers.pairedPeerIds (io : PeerStoreIo) (peers : List KnownPeer) :
    Except FederationError (List String) :=
  match PeerStore.list io peers with
  | .error e => .error (.upstream ("peer_store::list failed: " ++ e.toString))
  | .ok peers => .ok (knownIds peers)

/-- Some gate lets the peer in. -/
def AdmittedSomewhere (peers : List KnownPeer) (p : String) : Prop :=
  (∃ runtime io, StrongholdPeerStoreSnapshot.isPaired runtime io peers p = true) ∨
    (∃ io ids, StrongholdPairedPeers.pairedPeerIds io peers = .ok ids ∧ p ∈ ids) ∨
    ∃ io rows, PeerStore.listAccessPeers io peers = .ok rows ∧ p ∈ knownIds rows

/-- The first two gates let in every known peer. -/
theorem admittedSomewhere_iff {peers : List KnownPeer} {p : String} :
    AdmittedSomewhere peers p ↔ p ∈ knownIds peers := by
  constructor
  · rintro (⟨runtime, io, paired⟩ | ⟨io, ids, result, mem⟩ | ⟨io, rows, result, mem⟩)
    · unfold StrongholdPeerStoreSnapshot.isPaired PeerStore.list readEnvelope at paired
      cases runtime with
      | error e => cases paired
      | ok u =>
        cases hread : io.read with
        | error e =>
          rw [hread] at paired
          cases paired
        | ok u =>
          rw [hread] at paired
          obtain ⟨peer, mem, same⟩ := List.any_eq_true.mp paired
          exact List.mem_map.mpr ⟨peer, mem, of_decide_eq_true same⟩
    · unfold StrongholdPairedPeers.pairedPeerIds PeerStore.list readEnvelope at result
      cases hread : io.read with
      | error e =>
        rw [hread] at result
        cases result
      | ok u =>
        rw [hread] at result
        cases result
        exact mem
    · unfold PeerStore.listAccessPeers readEnvelope at result
      cases hread : io.read with
      | error e =>
        rw [hread] at result
        cases result
      | ok u =>
        rw [hread] at result
        cases result
        exact (List.filter_sublist.map KnownPeer.peerId).subset mem
  · intro mem
    exact .inr (.inl ⟨⟨.ok (), .ok ()⟩, knownIds peers, rfl, mem⟩)

/-! ## Runs of the store -/

/-- A call that changes the store. -/
inductive PeerOp where
  | add (io : PeerStoreIo) (now : Int) (card : PeerCard) (source : PeerSource)
  | markSeen (io : PeerStoreIo) (now : Int) (peerId : String)
  | revokeAccess (io : PeerStoreIo) (peerId : String)
  | grantAccess (io : PeerStoreIo) (now : Int) (peerId : String)
  | remove (io : PeerStoreIo) (peerId : String)

def PeerOp.step (text : AddressText) (peers : List KnownPeer) : PeerOp → List KnownPeer
  | .add io now card source => (PeerStore.add text io now card source peers).2
  | .markSeen io now peerId => (PeerStore.markSeen io now peerId peers).2
  | .revokeAccess io peerId => (PeerStore.revokeAccess io peerId peers).2
  | .grantAccess io now peerId => (PeerStore.grantAccess io now peerId peers).2
  | .remove io peerId => (PeerStore.remove io peerId peers).2

/-- The call takes in a card of the peer. -/
def PeerOp.Adds (text : AddressText) (p : String) : PeerOp → Prop
  | .add io _ card _ => io.Works ∧ validateCard text card = .ok () ∧ card.peerId = p
  | _ => False

/-- The call drops the peer. -/
def PeerOp.Removes (p : String) : PeerOp → Prop
  | .remove io peerId => io.Works ∧ peerId = p
  | _ => False

section

variable {text : AddressText} {io : PeerStoreIo} {now : Int} {card : PeerCard}
  {source : PeerSource} {peers : List KnownPeer} {p peerId : String}

theorem knownIds_updatePeer (io : PeerStoreIo) (peerId : String) (change : KnownPeer → KnownPeer)
    (peers : List KnownPeer) (keeps : ∀ peer, (change peer).peerId = peer.peerId) :
    knownIds (updatePeer io peerId change peers).2 = knownIds peers := by
  rcases updatePeer_cases io peerId change peers with kept | changed
  · rw [kept]
  · rw [changed, knownIds_modifyPeer change keeps]

theorem mem_knownIds_add : p ∈ knownIds (PeerStore.add text io now card source peers).2 ↔
    p ∈ knownIds peers ∨ (PeerOp.add io now card source).Adds text p := by
  unfold PeerOp.Adds
  rcases PeerStore.add_cases text io now card source peers with ⟨kept, refused⟩ | ⟨known, changed⟩ |
    ⟨unknown, added, works, valid⟩
  · rw [kept]
    exact (or_iff_left fun h => refused ⟨h.1, h.2.1⟩).symm
  · rw [changed, knownIds_modifyPeer (card.refresh now) fun peer => rfl]
    exact (or_iff_left_of_imp fun h => h.2.2 ▸ known).symm
  · rw [added, knownIds, List.map_append, List.mem_append]
    refine or_congr_right (List.mem_singleton.trans ⟨fun h => ?_, fun h => h.2.2.symm⟩)
    exact ⟨works, valid, h.symm⟩

theorem mem_knownIds_remove : p ∈ knownIds (PeerStore.remove io peerId peers).2 ↔
    p ∈ knownIds peers ∧ ¬(PeerOp.remove io peerId).Removes p := by
  unfold PeerOp.Removes
  rcases PeerStore.remove_cases io peerId peers with ⟨kept, idle⟩ | ⟨dropped, works⟩
  · rw [kept]
    refine (and_iff_left_of_imp fun known removes => ?_).symm
    rcases idle with failed | absent
    · exact failed removes.1
    · exact absent (removes.2 ▸ known)
  · rw [dropped]
    simp only [knownIds, List.mem_map, List.mem_filter, decide_eq_true_eq]
    constructor
    · rintro ⟨peer, ⟨mem, other⟩, rfl⟩
      exact ⟨⟨peer, mem, rfl⟩, fun removes => other removes.2.symm⟩
    · rintro ⟨⟨peer, mem, rfl⟩, kept⟩
      exact ⟨peer, ⟨mem, fun same => kept ⟨works, same.symm⟩⟩, rfl⟩

/-- Only a card taken in and a removal change which peers are known. -/
theorem mem_knownIds_step (text : AddressText) (peers : List KnownPeer) (op : PeerOp) :
    p ∈ knownIds (op.step text peers) ↔ p ∈ knownIds peers ∧ ¬op.Removes p ∨ op.Adds text p := by
  cases op with
  | add io now card source => exact mem_knownIds_add.trans (or_congr_left (and_iff_left id).symm)
  | remove io peerId => exact mem_knownIds_remove.trans (or_iff_left id).symm
  | markSeen io now peerId =>
    have same := knownIds_updatePeer io peerId (fun peer => { peer with lastSeen := now }) peers
      fun peer => rfl
    exact (iff_of_eq (congrArg (p ∈ ·) same)).trans
      ((and_iff_left id).symm.trans (or_iff_left id).symm)
  | revokeAccess io peerId =>
    have same := knownIds_updatePeer io peerId (fun peer => { peer with accessGranted := false })
      peers fun peer => rfl
    exact (iff_of_eq (congrArg (p ∈ ·) same)).trans
      ((and_iff_left id).symm.trans (or_iff_left id).symm)
  | grantAccess io now peerId =>
    have same := knownIds_updatePeer io peerId (fun peer =>
      { peer with accessGranted := true, lastAccessGrantAt := some now }) peers fun peer => rfl
    exact (iff_of_eq (congrArg (p ∈ ·) same)).trans
      ((and_iff_left id).symm.trans (or_iff_left id).symm)

/-- After a revocation that found the peer, whatever calls followed, every gate refuses the peer
exactly when a removal dropped it since and no card brought it back. -/
theorem revoked_refused_iff (text : AddressText) (before later : List PeerOp) (io : PeerStoreIo)
    (p : String) (row : KnownPeer)
    (revoked : (PeerStore.revokeAccess io p (run (PeerOp.step text) [] before)).1 = .ok (some row)) :
    ¬AdmittedSomewhere (run (PeerOp.step text) [] (before ++ .revokeAccess io p :: later)) p ↔
      ClearedSince (PeerOp.Adds text p) (PeerOp.Removes p) later := by
  have apart (op : PeerOp) (removes : op.Removes p) : ¬op.Adds text p := by
    cases op with
    | remove io peerId => exact id
    | add io now card source => exact removes.elim
    | markSeen io now peerId => exact id
    | revokeAccess io peerId => exact id
    | grantAccess io now peerId => exact id
  have start := (mem_knownIds_step text (run (PeerOp.step text) [] before)
    (.revokeAccess io p)).mpr (.inl ⟨(updatePeer_of_found revoked).1, id⟩)
  rw [admittedSomewhere_iff, run_append]
  exact not_run_iff (p ∈ knownIds ·) (mem_knownIds_step text) apart start

def anyAddress : AddressText := ⟨fun _ => true, id⟩

def diskWorks : PeerStoreIo := ⟨.ok (), .ok ()⟩

def friendCard : PeerCard :=
  ⟨"friend", "aaaaaaaaaaaaaaaaaaaaaaaaaaaaaaaaaaaaaaaaaaaaaaaaaaaaaaaaaaaaaaaa", []⟩

/-- A revoked peer that was not removed is let in. -/
theorem revoked_peer_admitted :
    let before := [PeerOp.add diskWorks 0 friendCard .qr]
    (PeerStore.revokeAccess diskWorks "friend" (run (PeerOp.step anyAddress) [] before)).1 =
        .ok (some { friendCard.introduce .qr 0 with accessGranted := false }) ∧
      AdmittedSomewhere (run (PeerOp.step anyAddress) []
        (before ++ [.revokeAccess diskWorks "friend"])) "friend" := by
  refine ⟨by decide, admittedSomewhere_iff.mpr ?_⟩
  decide

theorem revoked_refused_iff_removed :
    ¬AdmittedSomewhere (run (PeerOp.step anyAddress) [] ([.add diskWorks 0 friendCard .qr] ++
      .revokeAccess diskWorks "friend" :: [.remove diskWorks "friend"])) "friend" ↔
        ClearedSince (PeerOp.Adds anyAddress "friend") (PeerOp.Removes "friend")
          [.remove diskWorks "friend"] :=
  revoked_refused_iff anyAddress [.add diskWorks 0 friendCard .qr] [.remove diskWorks "friend"]
    diskWorks "friend" { friendCard.introduce .qr 0 with accessGranted := false } (by decide)

/-! ## What the list of access keeps -/

/-- A call leaves the peers alone, changes the first one of an id, takes in an unknown one, or drops
an id. Only a grant turns a flag on. -/
theorem PeerOp.step_cases (text : AddressText) (peers : List KnownPeer) (op : PeerOp) :
    op.step text peers = peers ∨
      (∃ id change, op.step text peers = modifyPeer id change peers ∧
        (∀ peer, (change peer).peerId = peer.peerId) ∧
        ((∃ io now, op = .grantAccess io now id) ∨
          ∀ peer, peer.accessGranted = false → (change peer).accessGranted = false)) ∨
      (∃ peer, op.step text peers = peers ++ [peer] ∧ peer.peerId ∉ knownIds peers) ∨
      ∃ id, op.step text peers = peers.filter fun peer => peer.peerId ≠ id := by
  cases op with
  | add io now card source =>
    rcases PeerStore.add_cases text io now card source peers with ⟨kept, -⟩ | ⟨-, changed⟩ |
      ⟨unknown, added, -⟩
    · exact .inl kept
    · exact .inr (.inl ⟨_, _, changed, fun peer => rfl, .inr fun peer off => off⟩)
    · exact .inr (.inr (.inl ⟨_, added, unknown⟩))
  | markSeen io now peerId =>
    refine (updatePeer_cases io peerId _ peers).imp id fun changed => .inl ?_
    exact ⟨_, _, changed, fun peer => rfl, .inr fun peer off => off⟩
  | revokeAccess io peerId =>
    refine (updatePeer_cases io peerId _ peers).imp id fun changed => .inl ?_
    exact ⟨_, _, changed, fun peer => rfl, .inr fun peer _ => rfl⟩
  | grantAccess io now peerId =>
    refine (updatePeer_cases io peerId _ peers).imp id fun changed => .inl ?_
    exact ⟨_, _, changed, fun peer => rfl, .inl ⟨io, now, rfl⟩⟩
  | remove io peerId =>
    rcases PeerStore.remove_cases io peerId peers with ⟨kept, -⟩ | ⟨dropped, -⟩
    · exact .inl kept
    · exact .inr (.inr (.inr ⟨_, dropped⟩))

/-- No id is known twice. -/
theorem nodup_run (text : AddressText) (ops : List PeerOp) :
    (knownIds (run (PeerOp.step text) [] ops)).Nodup := by
  refine invariant (P := fun _ _ => True) (fun peers => (knownIds peers).Nodup) ?_
    (Along.of_forall fun _ _ => trivial) List.nodup_nil
  intro peers op _ nodup
  rcases op.step_cases text peers with same | ⟨id, change, same, keeps, -⟩ | ⟨peer, same, unknown⟩ |
    ⟨id, same⟩ <;> rw [same]
  · exact nodup
  · rwa [knownIds_modifyPeer change keeps]
  · rw [knownIds, List.map_append]
    exact List.nodup_append.mpr ⟨nodup, List.nodup_singleton _, fun id known id' mem =>
      List.mem_singleton.mp mem ▸ fun same => unknown (same ▸ known)⟩
  · exact nodup.sublist (List.filter_sublist.map _)

/-- Every row of the peer has its flag off. -/
def FlagOff (p : String) (peers : List KnownPeer) : Prop :=
  ∀ peer ∈ peers, peer.peerId = p → peer.accessGranted = false

theorem mem_modifyPeer {change : KnownPeer → KnownPeer} {peer : KnownPeer}
    (mem : peer ∈ modifyPeer peerId change peers) :
    peer ∈ peers ∨ ∃ old ∈ peers, old.peerId = peerId ∧ peer = change old := by
  induction peers with
  | nil => cases mem
  | cons head peers ih =>
    unfold modifyPeer at mem
    split at mem
    · rename_i same
      rcases List.mem_cons.mp mem with rfl | mem
      · exact .inr ⟨head, List.mem_cons_self, same, rfl⟩
      · exact .inl (List.mem_cons_of_mem _ mem)
    · rcases List.mem_cons.mp mem with rfl | mem
      · exact .inl List.mem_cons_self
      · refine (ih mem).imp (List.mem_cons_of_mem _) ?_
        rintro ⟨old, hold, found⟩
        exact ⟨old, List.mem_cons_of_mem _ hold, found⟩

/-- Where no id is known twice, a change reaches every row of its id. -/
theorem mem_modifyPeer_of_nodup {change : KnownPeer → KnownPeer} {peer : KnownPeer}
    (nodup : (knownIds peers).Nodup) (mem : peer ∈ modifyPeer peerId change peers)
    (about : peer.peerId = peerId) : ∃ old ∈ peers, peer = change old := by
  induction peers with
  | nil => cases mem
  | cons head peers ih =>
    obtain ⟨apart, nodup⟩ := List.nodup_cons.mp nodup
    unfold modifyPeer at mem
    split at mem
    · rename_i same
      rcases List.mem_cons.mp mem with rfl | mem
      · exact ⟨head, List.mem_cons_self, rfl⟩
      · exact absurd (List.mem_map.mpr ⟨peer, mem, about.trans same.symm⟩) apart
    · rename_i other
      rcases List.mem_cons.mp mem with rfl | mem
      · exact absurd about other
      · obtain ⟨old, held, found⟩ := ih nodup mem
        exact ⟨old, List.mem_cons_of_mem _ held, found⟩

/-- A revocation that finds the peer turns its only row off. -/
theorem flagOff_revokeAccess {row : KnownPeer} (nodup : (knownIds peers).Nodup)
    (revoked : (PeerStore.revokeAccess io p peers).1 = .ok (some row)) :
    FlagOff p (PeerStore.revokeAccess io p peers).2 := by
  intro peer mem about
  unfold PeerStore.revokeAccess at mem
  rw [(updatePeer_of_found revoked).2] at mem
  obtain ⟨old, -, rfl⟩ := mem_modifyPeer_of_nodup nodup mem about
  rfl

/-- While the peer is known, nothing but a grant turns its flag on. -/
theorem flagOff_step {op : PeerOp} (known : p ∈ knownIds peers) (off : FlagOff p peers)
    (kept : ∀ io now, op ≠ .grantAccess io now p) : FlagOff p (op.step text peers) := by
  rcases op.step_cases text peers with same | ⟨id, change, same, keeps, flag⟩ |
    ⟨peer, same, unknown⟩ | ⟨id, same⟩ <;> rw [same]
  · exact off
  · intro peer mem about
    rcases mem_modifyPeer mem with mem | ⟨old, held, rfl, rfl⟩
    · exact off peer mem about
    · rw [keeps] at about
      rcases flag with ⟨io, now, rfl⟩ | flag
      · exact absurd rfl (about ▸ kept io now)
      · exact flag old (off old held about)
  · intro other mem about
    rcases List.mem_append.mp mem with mem | mem
    · exact off other mem about
    · rw [List.mem_singleton.mp mem] at about
      exact absurd (about ▸ known) unknown
  · exact fun peer mem => off peer (List.mem_of_mem_filter mem)

/-- A peer whose last change of access is a revocation that found it, and that nobody removed since,
is not among the peers with access. -/
theorem revoked_not_listed (text : AddressText) (before later : List PeerOp) (io io' : PeerStoreIo)
    (p : String) (row : KnownPeer) (rows : List KnownPeer)
    (revoked : (PeerStore.revokeAccess io p (run (PeerOp.step text) [] before)).1 = .ok (some row))
    (kept : ∀ op ∈ later, ¬op.Removes p ∧ ∀ io now, op ≠ .grantAccess io now p)
    (result : PeerStore.listAccessPeers io'
      (run (PeerOp.step text) [] (before ++ .revokeAccess io p :: later)) = .ok rows) :
    p ∉ knownIds rows := by
  let s := run (PeerOp.step text) [] before
  have along : Along (PeerOp.step text) (fun _ op => ¬op.Removes p ∧
      ∀ io now, op ≠ .grantAccess io now p) (PeerStore.revokeAccess io p s).2 later :=
    along_iff.mpr fun pre op post heq => kept op (heq ▸ List.mem_append_cons_self)
  have start : p ∈ knownIds (PeerStore.revokeAccess io p s).2 ∧
      FlagOff p (PeerStore.revokeAccess io p s).2 :=
    ⟨(mem_knownIds_step text s (.revokeAccess io p)).mpr
      (.inl ⟨(updatePeer_of_found revoked).1, id⟩), flagOff_revokeAccess (nodup_run text before) revoked⟩
  have off : FlagOff p (run (PeerOp.step text) [] (before ++ .revokeAccess io p :: later)) := by
    rw [run_append]
    refine (invariant (fun peers => p ∈ knownIds peers ∧ FlagOff p peers) ?_ along start).2
    intro peers op cond inv
    exact ⟨(mem_knownIds_step text peers op).mpr (.inl ⟨inv.1, cond.1⟩),
      flagOff_step inv.1 inv.2 cond.2⟩
  intro listed
  obtain ⟨peer, mem, about⟩ := List.mem_map.mp listed
  unfold PeerStore.listAccessPeers readEnvelope at result
  cases hread : io'.read with
  | error e =>
    rw [hread] at result
    cases result
  | ok u =>
    rw [hread] at result
    cases result
    obtain ⟨mem, granted⟩ := List.mem_filter.mp mem
    rw [off peer mem about] at granted
    cases granted

end

/-- A revoked peer is met again, and another one has access. -/
theorem revoked_not_listed_seen :
    "friend" ∉ knownIds [{ friendCard with peerId := "other" }.introduce .qr 1] := by
  refine revoked_not_listed anyAddress
    [.add diskWorks 0 friendCard .qr, .add diskWorks 1 { friendCard with peerId := "other" } .qr]
    [.markSeen diskWorks 2 "friend"] diskWorks diskWorks "friend"
    { friendCard.introduce .qr 0 with accessGranted := false } _ (by decide) ?_ (by decide)
  intro op mem
  cases List.mem_singleton.mp mem
  exact ⟨id, fun io now same => by cases same⟩

end Concorrd
