import Concorrd.User.MergeView

/-!
# The order of a trust log

Two installs may hold the same entries in different orders. Of the entries of one edge the latest
counts, and of those that are equally late the one appended last, so the order shows where an edge
has several of these. `mergeView_perm_iff` says when no order shows: whichever of them is picked for
each edge, the same servers are joined.
-/

namespace Concorrd

/-- One entry for each edge of the log, none of them older than another of its edge. -/
abbrev PicksLatest (log picked : List TrustLogEntry) : Prop :=
  Replay.Picks TrustLogEntry.edgeId TrustLogEntry.seconds log picked

/-- Two servers with a row, joined by a declaration that is picked. -/
def PickedEdge (d : ConcordUserDescriptor) (picked : List TrustLogEntry) (a b : String) : Prop :=
  ∃ entry ∈ picked, entry.Joins d.serverIds a b

/-- The descriptor with its log in another order. -/
def ConcordUserDescriptor.withLog (d : ConcordUserDescriptor) (log : List TrustLogEntry) :
    ConcordUserDescriptor :=
  { d with trustLog := log }

variable {d : ConcordUserDescriptor} {log picked : List TrustLogEntry}

theorem activeEdge_withLog (latest : ∀ entry, Latest log entry ↔ entry ∈ picked) :
    ActiveEdge (d.withLog log) = PickedEdge d picked := by
  funext a b
  unfold ActiveEdge PickedEdge
  simp only [ConcordUserDescriptor.withLog, latest]
  rfl

/-- Two orders give one view exactly when they join the same servers. -/
theorem mergeView_withLog_iff : mergeView (d.withLog log) = mergeView d ↔
    ∀ a ∈ d.serverIds, ∀ b ∈ d.serverIds,
      Forest.Joined (ActiveEdge (d.withLog log)) a b ↔ Forest.Joined (ActiveEdge d) a b := by
  obtain ⟨view, hview, parts⟩ := exists_partitions d
  obtain ⟨view', hview', parts'⟩ := exists_partitions (d.withLog log)
  rw [hview, hview']
  constructor
  · intro same a ha b hb
    cases same
    exact (parts'.joined a ha b hb).symm.trans (parts.joined a ha b hb)
  · intro same
    exact congrArg some (parts.unique parts' rfl same).symm

/-- Every order of the log gives the same view exactly when the servers joined are the same
whichever of the latest entries is picked for each edge. Where no two different entries of an edge
have one timestamp, every order gives the same view. -/
theorem mergeView_perm_iff (d : ConcordUserDescriptor) :
    ((∀ log, log.Perm d.trustLog → mergeView (d.withLog log) = mergeView d) ↔
      ∀ picked, PicksLatest d.trustLog picked → ∀ a ∈ d.serverIds, ∀ b ∈ d.serverIds,
        Forest.Joined (PickedEdge d picked) a b ↔ Forest.Joined (ActiveEdge d) a b) ∧
    ((∀ x ∈ d.trustLog, ∀ y ∈ d.trustLog, x.edgeId = y.edgeId → x.timestamp = y.timestamp →
        x = y) →
      ∀ log, log.Perm d.trustLog → mergeView (d.withLog log) = mergeView d) := by
  have iff : (∀ log, log.Perm d.trustLog → mergeView (d.withLog log) = mergeView d) ↔
      ∀ picked, PicksLatest d.trustLog picked → ∀ a ∈ d.serverIds, ∀ b ∈ d.serverIds,
        Forest.Joined (PickedEdge d picked) a b ↔ Forest.Joined (ActiveEdge d) a b := by
    constructor
    · intro all picked picks
      obtain ⟨log, perm, latest⟩ := picks.exists_perm
      have same := mergeView_withLog_iff.mp (all log perm)
      rwa [activeEdge_withLog latest] at same
    · intro all log perm
      obtain ⟨picked, picks, latest⟩ := Replay.exists_picks TrustLogEntry.edgeId
        TrustLogEntry.seconds log
      have same := all picked (picks.perm perm.symm)
      rw [mergeView_withLog_iff, activeEdge_withLog latest]
      exact same
  refine ⟨iff, fun distinct => iff.mpr fun picked picks a _ b _ => ?_⟩
  have latest (entry : TrustLogEntry) : Latest d.trustLog entry ↔ entry ∈ picked := by
    constructor
    · intro h
      obtain ⟨other, hpicked, same⟩ := picks.every entry h.mem
      obtain ⟨mem, top⟩ := picks.top other hpicked
      have time : other.seconds = entry.seconds :=
        Nat.le_antisymm (h.time_le mem same) (top entry h.mem same.symm)
      rwa [← distinct other mem entry h.mem same (UInt64.toNat.inj time)]
    · intro h
      obtain ⟨mem, top⟩ := picks.top entry h
      obtain ⟨other, same, latest⟩ := Replay.exists_isLatest TrustLogEntry.edgeId
        TrustLogEntry.seconds mem
      have time : other.seconds = entry.seconds :=
        Nat.le_antisymm (top other latest.mem same) (latest.time_le mem same.symm)
      rwa [← distinct other latest.mem entry mem same (UInt64.toNat.inj time)]
  rw [← activeEdge_withLog latest]
  rfl

/-! ## One second -/

/-- Two servers, and the hero's words about them. -/
def twoServers (log : List TrustLogEntry) : ConcordUserDescriptor :=
  let uid : ConcordUid := ⟨Vector.replicate 32 0⟩
  let row (server : String) : ServerProfile := ⟨server, server, .none, none, Vector.replicate 64 0⟩
  ⟨uid, "hero", [row "a.example", row "b.example"], log⟩

def declared (at_ : UInt64) : TrustLogEntry :=
  .edge ⟨"edge", ⟨Vector.replicate 32 0⟩, "a.example", "b.example", at_, Vector.replicate 64 0⟩

def revoked (at_ : UInt64) : TrustLogEntry :=
  .revocation ⟨"edge", ⟨Vector.replicate 32 0⟩, at_, Vector.replicate 64 0⟩

/-- Of two entries as late as each other the last counts. -/
theorem latest_last (entry entry' : TrustLogEntry) (le : entry.seconds ≤ entry'.seconds) :
    Latest [entry, entry'] entry' := by
  refine ⟨[entry], [], rfl, fun x hx _ => ?_, fun x hx => by cases hx⟩
  cases List.mem_singleton.mp hx
  exact le

/-- An edge declared and revoked in one second is joined or not, as the one or the other comes
last. -/
theorem mergeView_order_shows : ¬∀ (d : ConcordUserDescriptor) (log : List TrustLogEntry),
    log.Perm d.trustLog → mergeView (d.withLog log) = mergeView d := by
  intro all
  have same := all (twoServers [declared 5, revoked 5]) [revoked 5, declared 5]
    (List.Perm.swap ..)
  have joins : ActiveEdge ((twoServers [declared 5, revoked 5]).withLog [revoked 5, declared 5])
      "a.example" "b.example" :=
    ⟨declared 5, latest_last (revoked 5) (declared 5) (Nat.le_refl 5), _, rfl, rfl, rfl,
      by decide, by decide⟩
  have apart (x y : String) : ¬ActiveEdge (twoServers [declared 5, revoked 5]) x y := by
    rintro ⟨entry, latest, e, rfl, -⟩
    have mem : TrustLogEntry.edge e ∈ [declared 5, revoked 5] := latest.mem
    have final : Latest [declared 5, revoked 5] (revoked 5) :=
      latest_last (declared 5) (revoked 5) (Nat.le_refl 5)
    rcases List.mem_cons.mp mem with same | absent
    · cases same
      have both : declared 5 = revoked 5 := latest.unique final rfl
      exact absurd both (by decide)
    · cases List.mem_singleton.mp absent
  have path := (mergeView_withLog_iff.mp same "a.example" (by decide) "b.example" (by decide)).mp
    (.of_edge joins)
  have ends : "b.example" = "a.example" := path.mem (· = "a.example")
    (fun x y h => absurd h (apart x y)) rfl
  exact absurd ends (by decide)

end Concorrd
