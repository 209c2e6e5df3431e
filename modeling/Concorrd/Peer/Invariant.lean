import Concorrd.Peer.Gates

/-!
# What the list of peers keeps

`PeerBook` follows the list together with the addresses that cards brought for each peer since it was
last removed. A call changes one row at most and leaves the others in their order (`Framed`). The rows
themselves stay sound (`Sound`) and go forward in time exactly while the calls are careful
(`peers_kept_iff`): a card that meets its peer again must not repeat a new address, and the clock must
not be behind the time the peer was last seen.
-/

namespace Concorrd

open Machine

/-- The peers of the file, and the addresses that cards brought for a peer since it was removed. -/
structure PeerBook where
  peers : List KnownPeer
  added : String → List String

/-- The peer that a call is about. -/
def PeerOp.target : PeerOp → String
  | .add _ _ card _ => card.peerId
  | .markSeen _ _ peerId => peerId
  | .revokeAccess _ peerId => peerId
  | .grantAccess _ _ peerId => peerId
  | .remove _ peerId => peerId

/-- What a call that succeeds adds to the addresses of its peer, and what a removal takes away. -/
def PeerOp.ledger (text : AddressText) (peers : List KnownPeer) (added : String → List String) :
    PeerOp → String → List String
  | .add io now card source =>
    match (PeerStore.add text io now card source peers).1 with
    | .ok _ => Function.update added card.peerId (added card.peerId ++ card.multiaddrs)
    | .error _ => added
  | .remove io peerId =>
    match (PeerStore.remove io peerId peers).1 with
    | .ok _ => Function.update added peerId []
    | .error _ => added
  | _ => added

namespace PeerBook

def empty : PeerBook := ⟨[], fun _ => []⟩

def step (text : AddressText) (s : PeerBook) (op : PeerOp) : PeerBook :=
  ⟨op.step text s.peers, op.ledger text s.peers s.added⟩

/-- Every id is known once, no row repeats an address, and every row has the addresses that were added
for it. -/
structure Sound (s : PeerBook) : Prop where
  ids : (knownIds s.peers).Nodup
  addresses : ∀ peer ∈ s.peers, peer.multiaddrs.Nodup
  complete : ∀ peer ∈ s.peers, s.added peer.peerId ⊆ peer.multiaddrs

/-- A call about one id leaves every other row and the order of the list, and no row it keeps is seen
for the first time again. -/
structure Framed (peerId : String) (peers peers' : List KnownPeer) : Prop where
  others : (peers'.filter fun peer => peer.peerId ≠ peerId) =
    peers.filter fun peer => peer.peerId ≠ peerId
  order : ((knownIds peers').filter fun id => id ∈ knownIds peers) =
    (knownIds peers).filter fun id => id ∈ knownIds peers'
  firstSeen : ∀ peer ∈ peers, ∀ peer' ∈ peers', peer'.peerId = peer.peerId →
    peer'.firstSeen = peer.firstSeen

/-- No row goes back in time. -/
def Advances (peers peers' : List KnownPeer) : Prop :=
  ∀ peer ∈ peers, ∀ peer' ∈ peers', peer'.peerId = peer.peerId → peer.lastSeen ≤ peer'.lastSeen

/-- What a call keeps. -/
structure Keeps (text : AddressText) (s : PeerBook) (op : PeerOp) : Prop where
  sound : (s.step text op).Sound
  framed : Framed op.target s.peers (s.step text op).peers
  advances : Advances s.peers (s.step text op).peers

/-- A card that meets its peer again repeats no new address, and the clock is not behind the time the
peer was last seen. -/
def Careful (text : AddressText) (s : PeerBook) : PeerOp → Prop
  | .add io now card _ => io.Works → validateCard text card = .ok () →
    ∀ row ∈ s.peers, row.peerId = card.peerId →
      (card.multiaddrs.filter fun a => a ∉ row.multiaddrs).Nodup ∧ row.lastSeen ≤ now
  | .markSeen io now peerId => io.Works → ∀ row ∈ s.peers, row.peerId = peerId → row.lastSeen ≤ now
  | _ => True

/-- Nothing is held against a peer that is not known. -/
def Fresh (s : PeerBook) : Prop := ∀ id, id ∉ knownIds s.peers → s.added id = []

end PeerBook

/-! ## Calls that succeed and calls that fail -/

section

variable {text : AddressText} {io : PeerStoreIo} {now : Int} {card : PeerCard}
  {source : PeerSource} {peers : List KnownPeer} {peerId : String}
  {change : KnownPeer → KnownPeer}

theorem writeEnvelope_of_works {α : Type} (works : io.Works) (peers' : List KnownPeer) (answer : α) :
    writeEnvelope io peers peers' answer = (.ok answer, peers') := by
  unfold writeEnvelope
  rw [works.2]

/-- A file that cannot be read or written stays, and nothing is answered. -/
theorem writeEnvelope_of_not_works {α : Type} (fails : ¬io.Works) (hread : io.read = .ok ())
    (peers peers' : List KnownPeer) (answer : α) :
    ∃ e, writeEnvelope io peers peers' answer = (.error e, peers) := by
  unfold writeEnvelope
  cases hwrite : io.write with
  | error e => exact ⟨e, rfl⟩
  | ok u => exact absurd ⟨hread, hwrite⟩ fails

theorem modifyPeer_of_unknown (unknown : peerId ∉ knownIds peers) :
    modifyPeer peerId change peers = peers := by
  induction peers with
  | nil => rfl
  | cons head peers ih =>
    simp only [knownIds, List.map_cons, List.mem_cons, not_or] at unknown
    unfold modifyPeer
    rw [if_neg (Ne.symm unknown.1), ih unknown.2]

theorem updatePeer_of_works (works : io.Works) :
    (updatePeer io peerId change peers).2 = modifyPeer peerId change peers := by
  unfold updatePeer readEnvelope
  rw [works.1]
  simp only [Except.map]
  split
  · rename_i absent
    rw [modifyPeer_of_unknown (find?_peer_eq_none_iff.mp absent)]
  · rw [writeEnvelope_of_works works]

theorem updatePeer_of_not_works (fails : ¬io.Works) :
    (updatePeer io peerId change peers).2 = peers := by
  unfold updatePeer readEnvelope
  cases hread : io.read with
  | error e => rfl
  | ok u =>
    simp only [Except.map]
    split
    · rfl
    · obtain ⟨e, same⟩ := writeEnvelope_of_not_works fails hread peers
        (modifyPeer peerId change peers) (some (change _))
      rw [same]

theorem add_of_known (now : Int) (source : PeerSource) (works : io.Works) (valid : validateCard text card = .ok ())
    (known : card.peerId ∈ knownIds peers) : ∃ row,
      PeerStore.add text io now card source peers =
        (.ok row, modifyPeer card.peerId (card.refresh now) peers) := by
  unfold PeerStore.add readEnvelope
  rw [valid, works.1]
  simp only [Except.map]
  split
  · rename_i existing _
    exact ⟨card.refresh now existing, writeEnvelope_of_works works _ _⟩
  · rename_i absent
    exact absurd known (find?_peer_eq_none_iff.mp absent)

theorem add_of_unknown (now : Int) (source : PeerSource) (works : io.Works) (valid : validateCard text card = .ok ())
    (unknown : card.peerId ∉ knownIds peers) :
    PeerStore.add text io now card source peers =
      (.ok (card.introduce source now), peers ++ [card.introduce source now]) := by
  unfold PeerStore.add readEnvelope
  rw [valid, works.1]
  simp only [Except.map, find?_peer_eq_none_iff.mpr unknown]
  exact writeEnvelope_of_works works _ _

theorem add_of_taken (now : Int) (source : PeerSource) (peers : List KnownPeer)
    (taken : io.Works ∧ validateCard text card = .ok ()) :
    ∃ row, (PeerStore.add text io now card source peers).1 = .ok row := by
  by_cases known : card.peerId ∈ knownIds peers
  · obtain ⟨row, done⟩ := add_of_known now source taken.1 taken.2 known
    exact ⟨row, congrArg Prod.fst done⟩
  · exact ⟨_, congrArg Prod.fst (add_of_unknown now source taken.1 taken.2 known)⟩

theorem add_of_refused (now : Int) (source : PeerSource) (peers : List KnownPeer)
    (refused : ¬(io.Works ∧ validateCard text card = .ok ())) :
    ∃ e, PeerStore.add text io now card source peers = (.error e, peers) := by
  unfold PeerStore.add readEnvelope
  cases hvalid : validateCard text card with
  | error e => exact ⟨e, rfl⟩
  | ok u =>
    have fails : ¬io.Works := fun works => refused ⟨works, hvalid⟩
    cases hread : io.read with
    | error e => exact ⟨e, rfl⟩
    | ok u' =>
      simp only [Except.map]
      split
      · exact writeEnvelope_of_not_works fails hread _ _ _
      · exact writeEnvelope_of_not_works fails hread _ _ _

/-- A removal leaves no row of the peer, or it failed and changed nothing. -/
theorem remove_cases_answer (io : PeerStoreIo) (peerId : String) (peers : List KnownPeer) :
    (∃ removed, PeerStore.remove io peerId peers =
        (.ok removed, peers.filter fun peer => peer.peerId ≠ peerId)) ∨
      ∃ e, PeerStore.remove io peerId peers = (.error e, peers) := by
  unfold PeerStore.remove readEnvelope
  cases hread : io.read with
  | error e => exact .inr ⟨e, rfl⟩
  | ok u =>
    simp only [Except.map]
    split
    · by_cases works : io.Works
      · exact .inl ⟨true, writeEnvelope_of_works works _ _⟩
      · exact .inr (writeEnvelope_of_not_works works hread _ _ _)
    · rename_i same
      have all := List.filter_eq_self.mpr (List.length_filter_eq_length_iff.mp (not_not.mp same))
      exact .inl ⟨false, by rw [all]⟩

/-! ## One changed row -/

theorem modifyPeer_eq_map (nodup : (knownIds peers).Nodup) :
    modifyPeer peerId change peers =
      peers.map fun peer => if peer.peerId = peerId then change peer else peer := by
  induction peers with
  | nil => rfl
  | cons head peers ih =>
    obtain ⟨apart, nodup⟩ := List.nodup_cons.mp nodup
    unfold modifyPeer
    rw [List.map_cons]
    split
    · rename_i same
      have others : ∀ peer ∈ peers, (if peer.peerId = peerId then change peer else peer) = peer :=
        fun peer mem => if_neg fun about =>
          apart (List.mem_map.mpr ⟨peer, mem, about.trans same.symm⟩)
      rw [List.map_congr_left others, List.map_id']
    · rw [ih nodup]

/-- Two rows of one id are one row. -/
theorem eq_of_peerId_eq {peer peer' : KnownPeer} (nodup : (knownIds peers).Nodup) (mem : peer ∈ peers)
    (mem' : peer' ∈ peers) (same : peer.peerId = peer'.peerId) : peer = peer' :=
  List.inj_on_of_nodup_map nodup mem mem' same

/-! ## What is the same before and after -/

section

variable {R : KnownPeer → KnownPeer → Prop} {peers' : List KnownPeer}

/-- Rows of one id are related when no row is new. -/
theorem related_of_subset (refl : ∀ peer, R peer peer) (nodup : (knownIds peers).Nodup)
    (sub : peers' ⊆ peers) :
    ∀ peer ∈ peers, ∀ peer' ∈ peers', peer'.peerId = peer.peerId → R peer peer' := by
  intro peer mem peer' mem' same
  rw [eq_of_peerId_eq nodup (sub mem') mem same]
  exact refl peer

/-- Rows of one id are related when the change relates the rows it reaches. -/
theorem related_of_modifyPeer (refl : ∀ peer, R peer peer) (nodup : (knownIds peers).Nodup)
    (keeps : ∀ peer, (change peer).peerId = peer.peerId)
    (changed : ∀ row ∈ peers, row.peerId = peerId → R row (change row)) :
    ∀ peer ∈ peers, ∀ peer' ∈ modifyPeer peerId change peers,
      peer'.peerId = peer.peerId → R peer peer' := by
  intro peer mem peer' mem' same
  rcases mem_modifyPeer mem' with kept | ⟨old, held, about, rfl⟩
  · exact related_of_subset refl nodup (List.Subset.refl peers) peer mem peer' kept same
  · rw [keeps] at same
    rw [eq_of_peerId_eq nodup mem held same.symm]
    exact changed old held about

/-- Rows of one id are related when the new row has an id of its own. -/
theorem related_of_append {row : KnownPeer} (refl : ∀ peer, R peer peer)
    (nodup : (knownIds peers).Nodup) (unknown : row.peerId ∉ knownIds peers) :
    ∀ peer ∈ peers, ∀ peer' ∈ peers ++ [row], peer'.peerId = peer.peerId → R peer peer' := by
  intro peer mem peer' mem' same
  rcases List.mem_append.mp mem' with kept | new
  · exact related_of_subset refl nodup (List.Subset.refl peers) peer mem peer' kept same
  · rw [List.mem_singleton.mp new] at same
    exact absurd (List.mem_map.mpr ⟨peer, mem, same.symm⟩) unknown

end

namespace PeerBook

theorem framed_refl (nodup : (knownIds peers).Nodup) : Framed peerId peers peers :=
  ⟨rfl, rfl, related_of_subset (R := fun old new => new.firstSeen = old.firstSeen) (fun _ => rfl)
    nodup (List.Subset.refl peers)⟩

theorem others_modifyPeer (keeps : ∀ peer, (change peer).peerId = peer.peerId) :
    ((modifyPeer peerId change peers).filter fun peer => peer.peerId ≠ peerId) =
      peers.filter fun peer => peer.peerId ≠ peerId := by
  induction peers with
  | nil => rfl
  | cons head peers ih =>
    unfold modifyPeer
    split
    · rename_i same
      simp [keeps, same]
    · rw [List.filter_cons, List.filter_cons, ih]

theorem framed_modifyPeer (nodup : (knownIds peers).Nodup)
    (keeps : ∀ peer, (change peer).peerId = peer.peerId)
    (first : ∀ peer, (change peer).firstSeen = peer.firstSeen) :
    Framed peerId peers (modifyPeer peerId change peers) := by
  constructor
  · exact others_modifyPeer keeps
  · rw [knownIds_modifyPeer change keeps]
  · exact related_of_modifyPeer (R := fun old new => new.firstSeen = old.firstSeen) (fun _ => rfl)
      nodup keeps fun row _ _ => first row

theorem framed_append {row : KnownPeer} (nodup : (knownIds peers).Nodup)
    (unknown : row.peerId ∉ knownIds peers) : Framed row.peerId peers (peers ++ [row]) := by
  constructor
  · simp
  · have ids : knownIds (peers ++ [row]) = knownIds peers ++ [row.peerId] := by simp [knownIds]
    rw [ids, List.filter_append, List.filter_cons_of_neg (by simpa using unknown), List.filter_nil,
      List.append_nil]
    exact List.filter_congr fun id mem => by simp [mem]
  · exact related_of_append (R := fun old new => new.firstSeen = old.firstSeen) (fun _ => rfl)
      nodup unknown

theorem knownIds_filter (peerId : String) (peers : List KnownPeer) :
    knownIds (peers.filter fun peer => peer.peerId ≠ peerId) =
      (knownIds peers).filter fun id => id ≠ peerId := by
  rw [knownIds, knownIds, List.filter_map]
  rfl

theorem framed_filter (nodup : (knownIds peers).Nodup) :
    Framed peerId peers (peers.filter fun peer => peer.peerId ≠ peerId) := by
  constructor
  · simp [List.filter_filter]
  · rw [knownIds_filter, List.filter_filter]
    refine List.filter_congr fun id mem => ?_
    simp [mem]
  · exact related_of_subset (R := fun old new => new.firstSeen = old.firstSeen) (fun _ => rfl) nodup
      List.filter_sublist.subset

theorem dedup_spec (addresses deduped : List String) (nodup : deduped.Nodup) :
    let all := addresses.foldl (fun deduped a => if a ∈ deduped then deduped else deduped ++ [a]) deduped
    all.Nodup ∧ deduped ⊆ all ∧ addresses ⊆ all := by
  induction addresses generalizing deduped with
  | nil => exact ⟨nodup, List.Subset.refl _, List.nil_subset _⟩
  | cons a addresses ih =>
    simp only [List.foldl_cons]
    split
    · rename_i known
      obtain ⟨all, kept, rest⟩ := ih deduped nodup
      exact ⟨all, kept, List.cons_subset.mpr ⟨kept known, rest⟩⟩
    · rename_i unknown
      obtain ⟨all, kept, rest⟩ := ih (deduped ++ [a])
        (List.nodup_append.mpr ⟨nodup, List.nodup_singleton a, fun b mem c new =>
          List.mem_singleton.mp new ▸ fun same => unknown (same ▸ mem)⟩)
      exact ⟨all, List.Subset.trans (List.subset_append_left _ _) kept,
        List.cons_subset.mpr ⟨kept (List.mem_append_right _ List.mem_cons_self), rest⟩⟩

theorem nodup_dedupAddresses (addresses : List String) : (dedupAddresses addresses).Nodup :=
  (dedup_spec addresses [] List.nodup_nil).1

theorem subset_dedupAddresses (addresses : List String) : addresses ⊆ dedupAddresses addresses :=
  (dedup_spec addresses [] List.nodup_nil).2.2

/-! ## One call -/

variable {s : PeerBook} {op : PeerOp}

/-- A call that changes nothing keeps everything. -/
theorem keeps_of_same (sound : s.Sound) (same : s.step text op = s) : s.Keeps text op := by
  constructor
  · rwa [same]
  · rw [same]
    exact framed_refl sound.ids
  · rw [same]
    exact related_of_subset (R := fun old new => old.lastSeen ≤ new.lastSeen) (fun _ => le_rfl)
      sound.ids (List.Subset.refl s.peers)

/-- A change of the row of an id keeps everything when the row stays sound and does not go back. -/
theorem keeps_of_modifyPeer {added : String → List String} (sound : s.Sound)
    (same : s.step text op = ⟨modifyPeer op.target change s.peers, added⟩)
    (keeps : ∀ peer, (change peer).peerId = peer.peerId)
    (first : ∀ peer, (change peer).firstSeen = peer.firstSeen)
    (others : ∀ id, id ≠ op.target → added id = s.added id)
    (row : ∀ row ∈ s.peers, row.peerId = op.target → (change row).multiaddrs.Nodup ∧
      added op.target ⊆ (change row).multiaddrs ∧ row.lastSeen ≤ (change row).lastSeen) :
    s.Keeps text op := by
  constructor
  · rw [same]
    refine ⟨?_, fun peer mem => ?_, fun peer mem => ?_⟩
    · show (knownIds (modifyPeer _ _ _)).Nodup
      rw [knownIds_modifyPeer change keeps]
      exact sound.ids
    · rcases mem_modifyPeer mem with kept | ⟨old, held, about, rfl⟩
      · exact sound.addresses peer kept
      · exact (row old held about).1
    · by_cases about : peer.peerId = op.target
      · obtain ⟨old, held, rfl⟩ := mem_modifyPeer_of_nodup sound.ids mem about
        rw [about]
        exact (row old held ((keeps old).symm.trans about)).2.1
      · rcases mem_modifyPeer mem with kept | ⟨old, -, same, rfl⟩
        · show added peer.peerId ⊆ _
          rw [others _ about]
          exact sound.complete peer kept
        · exact absurd ((keeps old).trans same) about
  · rw [same]
    exact framed_modifyPeer sound.ids keeps first
  · rw [same]
    exact related_of_modifyPeer (R := fun old new => old.lastSeen ≤ new.lastSeen) (fun _ => le_rfl)
      sound.ids keeps fun old held about => (row old held about).2.2

/-- The row that a change leaves is in the list. -/
theorem mem_modifyPeer_self {row : KnownPeer} (change : KnownPeer → KnownPeer)
    (nodup : (knownIds peers).Nodup) (mem : row ∈ peers)
    (about : row.peerId = peerId) : change row ∈ modifyPeer peerId change peers := by
  rw [modifyPeer_eq_map nodup]
  exact List.mem_map.mpr ⟨row, mem, if_pos about⟩

/-- A card keeps everything exactly when it is careful with the row of its peer. -/
theorem keeps_add_iff (sound : s.Sound) (fresh : s.Fresh) :
    s.Keeps text (.add io now card source) ↔ s.Careful text (.add io now card source) := by
  by_cases taken : io.Works ∧ validateCard text card = .ok ()
  · obtain ⟨works, valid⟩ := taken
    by_cases known : card.peerId ∈ knownIds s.peers
    · obtain ⟨answer, done⟩ := add_of_known now source works valid known
      have same : s.step text (.add io now card source) =
          ⟨modifyPeer card.peerId (card.refresh now) s.peers, Function.update s.added card.peerId
            (s.added card.peerId ++ card.multiaddrs)⟩ := by
        simp only [step, PeerOp.step, PeerOp.ledger, done]
      constructor
      · intro keeps _ _ row mem about
        have held := mem_modifyPeer_self (card.refresh now) sound.ids mem about
        constructor
        · have nodup := keeps.sound.addresses (card.refresh now row) (by rw [same]; exact held)
          exact (List.nodup_append.mp nodup).2.1
        · exact keeps.advances row mem (card.refresh now row) (by rw [same]; exact held) rfl
      · intro careful
        refine keeps_of_modifyPeer sound same (fun peer => rfl) (fun peer => rfl)
          (fun id other => Function.update_of_ne other _ _) fun row mem about => ?_
        obtain ⟨nodup, later⟩ := careful works valid row mem about
        refine ⟨?_, ?_, later⟩
        · refine List.nodup_append.mpr ⟨sound.addresses row mem, nodup, fun a old b new => ?_⟩
          rintro rfl
          exact of_decide_eq_true (List.mem_filter.mp new).2 old
        · intro a mem'
          rw [show (PeerOp.add io now card source).target = card.peerId from rfl,
            Function.update_self] at mem'
          show a ∈ row.multiaddrs ++ card.multiaddrs.filter fun a => a ∉ row.multiaddrs
          rcases List.mem_append.mp mem' with old | new
          · exact List.mem_append_left _ (sound.complete row mem (about ▸ old))
          · by_cases had : a ∈ row.multiaddrs
            · exact List.mem_append_left _ had
            · exact List.mem_append_right _ (List.mem_filter.mpr ⟨new, decide_eq_true had⟩)
    · have same : s.step text (.add io now card source) =
          ⟨s.peers ++ [card.introduce source now], Function.update s.added card.peerId
            (s.added card.peerId ++ card.multiaddrs)⟩ := by
        simp only [step, PeerOp.step, PeerOp.ledger, add_of_unknown now source works valid known]
      have unknown : (card.introduce source now).peerId ∉ knownIds s.peers := known
      refine iff_of_true ?_ fun _ _ row mem about =>
        absurd (List.mem_map.mpr ⟨row, mem, about⟩) known
      constructor
      · rw [same]
        refine ⟨?_, fun peer mem => ?_, fun peer mem => ?_⟩
        · simp only [knownIds, List.map_append]
          refine List.nodup_append.mpr ⟨sound.ids, List.nodup_singleton _, fun id old id' new => ?_⟩
          rw [List.mem_singleton.mp new]
          rintro rfl
          exact unknown old
        · rcases List.mem_append.mp mem with old | new
          · exact sound.addresses peer old
          · rw [List.mem_singleton.mp new]
            exact nodup_dedupAddresses card.multiaddrs
        · rcases List.mem_append.mp mem with old | new
          · have other : peer.peerId ≠ card.peerId := fun about =>
              known (List.mem_map.mpr ⟨peer, old, about⟩)
            show Function.update s.added card.peerId _ peer.peerId ⊆ _
            rw [Function.update_of_ne other]
            exact sound.complete peer old
          · rw [List.mem_singleton.mp new]
            show Function.update s.added card.peerId _ card.peerId ⊆ _
            rw [Function.update_self, fresh card.peerId known]
            exact subset_dedupAddresses card.multiaddrs
      · rw [same]
        exact framed_append sound.ids unknown
      · rw [same]
        exact related_of_append (R := fun old new => old.lastSeen ≤ new.lastSeen) (fun _ => le_rfl)
          sound.ids unknown
  · obtain ⟨e, refused⟩ := add_of_refused now source s.peers taken
    refine iff_of_true (keeps_of_same sound ?_) fun works valid => absurd ⟨works, valid⟩ taken
    simp only [step, PeerOp.step, PeerOp.ledger, refused]

/-- A removal keeps everything. -/
theorem keeps_remove (sound : s.Sound) : s.Keeps text (.remove io peerId) := by
  rcases remove_cases_answer io peerId s.peers with ⟨removed, done⟩ | ⟨e, failed⟩
  · have same : s.step text (.remove io peerId) =
        ⟨s.peers.filter fun peer => peer.peerId ≠ peerId, Function.update s.added peerId []⟩ := by
      simp only [step, PeerOp.step, PeerOp.ledger, done]
    constructor
    · rw [same]
      refine ⟨?_, fun peer mem => ?_, fun peer mem => ?_⟩
      · exact sound.ids.sublist (List.filter_sublist.map _)
      · exact sound.addresses peer (List.mem_of_mem_filter mem)
      · obtain ⟨held, other⟩ := List.mem_filter.mp mem
        show Function.update s.added peerId [] peer.peerId ⊆ _
        rw [Function.update_of_ne (of_decide_eq_true other)]
        exact sound.complete peer held
    · rw [same]
      exact framed_filter sound.ids
    · rw [same]
      exact related_of_subset (R := fun old new => old.lastSeen ≤ new.lastSeen) (fun _ => le_rfl)
        sound.ids List.filter_sublist.subset
  · refine keeps_of_same sound ?_
    simp only [step, PeerOp.step, PeerOp.ledger, failed]

/-- A change of the access of a peer keeps everything. -/
theorem keeps_of_updatePeer (change : KnownPeer → KnownPeer) (sound : s.Sound) (about : op.target = peerId)
    (same : s.step text op = ⟨(updatePeer io peerId change s.peers).2, s.added⟩)
    (keeps : ∀ peer, (change peer).peerId = peer.peerId)
    (first : ∀ peer, (change peer).firstSeen = peer.firstSeen)
    (addresses : ∀ peer, (change peer).multiaddrs = peer.multiaddrs)
    (later : io.Works → ∀ row ∈ s.peers, row.peerId = peerId → row.lastSeen ≤ (change row).lastSeen) :
    s.Keeps text op := by
  subst about
  by_cases works : io.Works
  · rw [updatePeer_of_works works] at same
    refine keeps_of_modifyPeer sound same keeps first (fun _ _ => rfl) fun row mem about => ?_
    rw [addresses row, ← about]
    exact ⟨sound.addresses row mem, sound.complete row mem, later works row mem about⟩
  · rw [updatePeer_of_not_works works] at same
    exact keeps_of_same sound same

/-- What one call keeps: everything, if it is careful. -/
theorem keeps_iff (op : PeerOp) (sound : s.Sound) (fresh : s.Fresh) :
    s.Keeps text op ↔ s.Careful text op := by
  cases op with
  | add io now card source => exact keeps_add_iff sound fresh
  | markSeen io now peerId =>
    constructor
    · intro keeps works row mem about
      refine keeps.advances row mem { row with lastSeen := now } ?_ rfl
      show _ ∈ (updatePeer io peerId (fun peer => { peer with lastSeen := now }) s.peers).2
      rw [updatePeer_of_works works]
      exact mem_modifyPeer_self (fun peer => { peer with lastSeen := now }) sound.ids mem about
    · intro careful
      exact keeps_of_updatePeer (fun peer => { peer with lastSeen := now }) sound rfl rfl
        (fun _ => rfl) (fun _ => rfl) (fun _ => rfl) careful
  | revokeAccess io peerId =>
    exact iff_of_true (keeps_of_updatePeer (fun peer => { peer with accessGranted := false })
      sound rfl rfl (fun _ => rfl) (fun _ => rfl) (fun _ => rfl) fun _ _ _ _ => le_rfl) trivial
  | grantAccess io now peerId =>
    exact iff_of_true (keeps_of_updatePeer
      (fun peer => { peer with accessGranted := true, lastAccessGrantAt := some now })
      sound rfl rfl (fun _ => rfl) (fun _ => rfl) (fun _ => rfl) fun _ _ _ _ => le_rfl) trivial
  | remove io peerId => exact iff_of_true (keeps_remove sound) trivial

/-- No call makes an unknown peer owed anything. -/
theorem fresh_step (fresh : s.Fresh) (op : PeerOp) : (s.step text op).Fresh := by
  intro id unknown
  obtain ⟨lost, notAdded⟩ := not_or.mp (mt (mem_knownIds_step text s.peers op).mpr unknown)
  have before (kept : ¬op.Removes id) : s.added id = [] := fresh id fun mem => lost ⟨mem, kept⟩
  show op.ledger text s.peers s.added id = []
  cases op with
  | add io now card source =>
    by_cases taken : io.Works ∧ validateCard text card = .ok ()
    · have other : id ≠ card.peerId := fun same => notAdded ⟨taken.1, taken.2, same.symm⟩
      obtain ⟨row, answered⟩ := add_of_taken now source s.peers taken
      simp only [PeerOp.ledger, answered]
      rw [Function.update_of_ne other]
      exact before not_false
    · obtain ⟨e, refused⟩ := add_of_refused now source s.peers taken
      simp only [PeerOp.ledger, refused]
      exact before not_false
  | remove io peerId =>
    rcases remove_cases_answer io peerId s.peers with ⟨removed, done⟩ | ⟨e, failed⟩
    · simp only [PeerOp.ledger, done]
      by_cases same : id = peerId
      · rw [same, Function.update_self]
      · rw [Function.update_of_ne same]
        exact before fun removes => same removes.2.symm
    · simp only [PeerOp.ledger, failed]
      refine fresh id ?_
      simpa only [step, PeerOp.step, failed] using unknown
  | markSeen io now peerId => exact before not_false
  | revokeAccess io peerId => exact before not_false
  | grantAccess io now peerId => exact before not_false

/-- Whatever calls follow on an empty file, each keeps the rows sound, every other row and the order of
the list, the times of the first encounters, and the last ones from going back, exactly when each is
careful. -/
theorem peers_kept_iff (text : AddressText) (ops : List PeerOp) :
    Along (step text) (Keeps text) empty ops ↔ Along (step text) (Careful text) empty ops := by
  refine along_congr_under (fun s => s.Sound ∧ s.Fresh) (fun s op inv keeps =>
    ⟨keeps.sound, fresh_step inv.2 op⟩) (fun s op inv => keeps_iff op inv.1 inv.2) ⟨?_, fun _ _ => rfl⟩
  exact ⟨List.nodup_nil, fun _ mem => absurd mem List.not_mem_nil,
    fun _ mem => absurd mem List.not_mem_nil⟩

/-- The friend's card, met again with an address twice. -/
def repeatedCard : PeerCard := { friendCard with multiaddrs := ["/ip4/10.0.0.2", "/ip4/10.0.0.2"] }

theorem peers_not_kept_of_repeated_address :
    ¬Along (step anyAddress) (Keeps anyAddress) empty
      [.add diskWorks 0 friendCard .qr, .add diskWorks 1 repeatedCard .qr] := by
  rintro ⟨-, again, -⟩
  have nodup := again.sound.addresses
    ⟨"friend", friendCard.publicKeyHex, ["/ip4/10.0.0.2", "/ip4/10.0.0.2"], .qr, 0, 1, true, some 0⟩
    (by decide)
  exact absurd nodup (by decide)

end PeerBook

end

end Concorrd
