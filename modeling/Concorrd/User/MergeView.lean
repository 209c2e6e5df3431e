import Concorrd.Lib.Forest
import Concorrd.Lib.Replay
import Concorrd.User.Descriptor
import Mathlib.Data.List.Pairwise
import Mathlib.Data.List.Sort
import Mathlib.Data.String.Basic

/-!
# Merged profiles

A hero appears on each server under a row of its own. The log says which servers may merge these:
`latestEntries` keeps the latest entry of each edge, and `mergeView` puts the servers that its
declarations join into one profile, by union-find. The loop of `find` runs on fuel here, and
`none` stands for a loop that has not ended or a panic: neither happens (`mergeView_spec`).

`ActiveEdge` says which servers an edge joins, `Forest.Joined` what a path of such edges is.
-/

namespace Concorrd

open Std (TreeMap TreeSet)

/-! ## Union-find over servers -/

/-- The parents written so far. -/
structure UnionFind where
  parent : TreeMap String String

namespace UnionFind

/-- Each server its own parent. -/
def new (ids : List String) : UnionFind :=
  ⟨ids.foldl (fun parent id => parent.insert id id) ∅⟩

/-- The root of a server; one that has no parent is its own. -/
def find (uf : UnionFind) : Nat → String → Option String
  | 0, _ => none
  | fuel + 1, cur =>
    let p := uf.parent[cur]?.getD cur
    if p = cur then some cur else uf.find fuel p

/-- Point the larger of two roots at the smaller. -/
def union (uf : UnionFind) (fuel : Nat) (a b : String) : Option UnionFind := do
  let ra ← uf.find fuel a
  let rb ← uf.find fuel b
  if ra = rb then some uf
  else
    let (smaller, larger) := if ra ≤ rb then (ra, rb) else (rb, ra)
    some ⟨uf.parent.insert larger smaller⟩

end UnionFind

/-! ## The view -/

/-- One identity towards a group of servers. -/
structure EffectiveProfile where
  servers : List String
  displayName : String
  avatar : AvatarRef
  bio : Option String
  deriving DecidableEq, Repr

structure MergeView where
  profiles : List EffectiveProfile
  deriving DecidableEq, Repr

/-- The profile that covers a server. -/
def MergeView.forServer (view : MergeView) (serverId : String) : Option EffectiveProfile :=
  view.profiles.find? fun p => p.servers.any (· = serverId)

/-- The entry held for each edge once the log is read. -/
def latestEntries (log : List TrustLogEntry) : TreeMap String TrustLogEntry :=
  log.foldl (fun latest entry =>
    match latest[entry.edgeId]? with
    | none => latest.insert entry.edgeId entry
    | some existing =>
      if entry.timestamp > existing.timestamp then latest.insert entry.edgeId entry
      -- The one held was appended first.
      else if entry.timestamp = existing.timestamp then latest.insert entry.edgeId entry
      else latest) ∅

/-- Join the ends of a declaration, where both have a row. -/
def unionEntry (ids : List String) (fuel : Nat) (uf : UnionFind) (entry : TrustLogEntry) :
    Option UnionFind :=
  match entry with
  | .edge edge =>
    if ids.any (· = edge.serverA) && ids.any (· = edge.serverB) then
      uf.union fuel edge.serverA edge.serverB
    else some uf
  | .revocation _ => some uf

/-- A group of servers, in order. -/
abbrev ServerSet : Type := TreeSet String

/-- Put a server under its root. -/
def groupServer (uf : UnionFind) (fuel : Nat) (components : TreeMap String ServerSet)
    (s : String) : Option (TreeMap String ServerSet) := do
  let root ← uf.find fuel s
  some (components.insert root ((components[root]?.getD ∅).insert s))

/-- The profile of a group: the row of its first server. -/
def effectiveProfile (rows : List ServerProfile) (servers : ServerSet) :
    Option EffectiveProfile := do
  let canonicalServer ← servers.toList.head?
  let row ← rows.find? fun row => row.serverId = canonicalServer
  some ⟨servers.toList, row.displayName, row.avatar, row.bio⟩

/-- The servers of the rows. -/
def ConcordUserDescriptor.serverIds (d : ConcordUserDescriptor) : List String :=
  d.serverProfiles.map ServerProfile.serverId

/-- The profiles of a descriptor. Every group has a first server once its profile is made, so the
order of two profiles never lacks one. -/
def mergeView (d : ConcordUserDescriptor) : Option MergeView := do
  let latest := latestEntries d.trustLog
  let fuel := d.serverIds.length + 1
  let uf ← latest.toList.foldlM (fun uf entry => unionEntry d.serverIds fuel uf entry.2)
    (UnionFind.new d.serverIds)
  let components ← d.serverIds.foldlM (groupServer uf fuel) ∅
  let profiles ← components.toList.mapM fun component =>
    effectiveProfile d.serverProfiles component.2
  some ⟨profiles.mergeSort fun a b => a.servers.headD "" ≤ b.servers.headD ""⟩

/-! ## What the log leaves -/

/-- The time of an entry as a number. -/
def TrustLogEntry.seconds (entry : TrustLogEntry) : Nat := entry.timestamp.toNat

/-- The entry of the log that is held for its edge in the end. -/
abbrev Latest (log : List TrustLogEntry) (entry : TrustLogEntry) : Prop :=
  Replay.IsLatest TrustLogEntry.edgeId TrustLogEntry.seconds log entry

theorem latestEntries_eq_some_iff {log : List TrustLogEntry} {id : String}
    {entry : TrustLogEntry} :
    (latestEntries log)[id]? = some entry ↔ entry.edgeId = id ∧ Latest log entry := by
  let view (latest : TreeMap String TrustLogEntry) (id : String) : Option TrustLogEntry :=
    latest[id]?
  refine Replay.view_foldl_insert_eq_some_iff view (fun latest entry =>
    latest.insert entry.edgeId entry) (fun latest entry id => ?_) _ (fun latest entry => ?_) ?_
  · unfold view
    rw [TreeMap.getElem?_insert]
    by_cases hid : id = entry.edgeId
    · rw [if_pos (compare_eq_iff_eq.mpr hid.symm), if_pos hid]
    · rw [if_neg fun h => hid (compare_eq_iff_eq.mp h).symm, if_neg hid]
  · unfold view
    cases latest[entry.edgeId]? with
    | none => exact (if_pos fun b hb => by cases hb).symm
    | some existing =>
      have least : (∀ b ∈ some existing, b.seconds ≤ entry.seconds) ↔
          entry.timestamp > existing.timestamp ∨ entry.timestamp = existing.timestamp := by
        simp only [Option.mem_some_iff, forall_eq']
        rw [Nat.le_iff_lt_or_eq]
        exact or_congr_right (eq_comm.trans UInt64.toNat_inj)
      dsimp only
      rw [← ite_or]
      exact if_congr least.symm rfl rfl
  · funext id
    exact TreeMap.getElem?_emptyc

theorem mem_latestEntries_iff {log : List TrustLogEntry} {id : String} {entry : TrustLogEntry} :
    (id, entry) ∈ (latestEntries log).toList ↔ entry.edgeId = id ∧ Latest log entry :=
  TreeMap.mem_toList_iff_getElem?_eq_some.trans latestEntries_eq_some_iff

/-! ## Roots -/

namespace UnionFind

variable {uf uf' : UnionFind} {fuel : Nat} {a b x r : String} {keys : Finset String}
  {edge : String → String → Prop}

def parentOf (uf : UnionFind) (id : String) : String := uf.parent[id]?.getD id

theorem find_eq_chase (uf : UnionFind) (fuel : Nat) (id : String) :
    uf.find fuel id = Forest.chase uf.parentOf fuel id := by
  induction fuel generalizing id with
  | zero => rfl
  | succ fuel ih =>
    unfold find Forest.chase
    rw [← ih]
    rfl

theorem parentOf_new (ids : List String) : (new ids).parentOf = id := by
  have own (parent : TreeMap String String)
      (start : ∀ x y : String, parent[x]? = some y → y = x) :
      ∀ x y : String,
        (ids.foldl (fun parent id => parent.insert id id) parent)[x]? = some y → y = x := by
    induction ids generalizing parent with
    | nil => exact start
    | cons id ids ih =>
      refine ih (parent.insert id id) fun x y hxy => ?_
      rw [TreeMap.getElem?_insert] at hxy
      split at hxy
      · rename_i same
        cases hxy
        exact compare_eq_iff_eq.mp same
      · exact start x y hxy
  funext x
  unfold parentOf
  cases h : (new ids).parent[x]? with
  | none => rfl
  | some y =>
    refine own ∅ (fun x y h => ?_) x y h
    rw [TreeMap.getElem?_emptyc] at h
    cases h

theorem parentOf_insert (uf : UnionFind) (larger smaller : String) :
    (UnionFind.mk (uf.parent.insert larger smaller)).parentOf =
      Function.update uf.parentOf larger smaller := by
  funext x
  unfold parentOf
  rw [TreeMap.getElem?_insert]
  by_cases hx : x = larger
  · rw [hx, if_pos (compare_eq_iff_eq.mpr rfl), Function.update_self]
    rfl
  · rw [if_neg fun h => hx (compare_eq_iff_eq.mp h).symm, Function.update_of_ne hx]

/-- A union of servers whose roots are found ends. -/
theorem exists_union (h : Forest.Descends uf.parentOf keys) (enough : keys.card < fuel)
    (a b : String) : ∃ uf', uf.union fuel a b = some uf' := by
  obtain ⟨ra, -, ha⟩ := h.exists_chase enough a
  obtain ⟨rb, -, hb⟩ := h.exists_chase enough b
  rw [← find_eq_chase] at ha hb
  simp only [union, ha, hb, Option.bind_eq_bind, Option.bind_some]
  split <;> exact ⟨_, rfl⟩

/-- A union adds the edge between its ends. -/
theorem represents_union (h : Forest.Represents uf.parentOf keys edge)
    (roots : ∀ r, Forest.RootOf uf.parentOf a r ∨ Forest.RootOf uf.parentOf b r → r ∈ keys)
    (joined : uf.union fuel a b = some uf') :
    Forest.Represents uf'.parentOf keys fun x y => edge x y ∨ x = a ∧ y = b := by
  obtain ⟨ra, ha, joined⟩ := Option.bind_eq_some_iff.mp joined
  obtain ⟨rb, hb, joined⟩ := Option.bind_eq_some_iff.mp joined
  rw [find_eq_chase] at ha hb
  have roota : Forest.RootOf uf.parentOf a ra := ⟨fuel, ha⟩
  have rootb : Forest.RootOf uf.parentOf b rb := ⟨fuel, hb⟩
  by_cases same : ra = rb
  · rw [if_pos same] at joined
    cases joined
    exact h.of_sameRoot ⟨ra, roota, same ▸ rootb⟩
  · rw [if_neg same] at joined
    by_cases le : ra ≤ rb
    · rw [if_pos le] at joined
      obtain rfl := Option.some.inj joined
      have linked := h.link (.inr ⟨roota, rootb⟩) (lt_of_le_of_ne le same)
      rw [Finset.insert_eq_of_mem (roots rb (.inr rootb))] at linked
      rwa [parentOf_insert]
    · rw [if_neg le] at joined
      obtain rfl := Option.some.inj joined
      have linked := h.link (.inl ⟨roota, rootb⟩) (not_le.mp le)
      rw [Finset.insert_eq_of_mem (roots ra (.inl roota))] at linked
      rwa [parentOf_insert]

/-- The maps that unions lead to. -/
inductive Reachable : UnionFind → Prop where
  | new (ids : List String) : Reachable (new ids)
  | union {uf uf' : UnionFind} (fuel : Nat) (a b : String) (h : Reachable uf)
      (joined : uf.union fuel a b = some uf') : Reachable uf'

theorem Reachable.exists_represents (h : Reachable uf) :
    ∃ keys edge, Forest.Represents uf.parentOf keys edge := by
  induction h with
  | new ids =>
    refine ⟨∅, fun _ _ => False, ?_⟩
    rw [parentOf_new]
    exact Forest.represents_id ∅
  | @union uf uf' fuel a b _ joined ih =>
    obtain ⟨keys, edge, rep⟩ := ih
    obtain ⟨ra, -, ha⟩ := rep.descends.exists_rootOf a
    obtain ⟨rb, -, hb⟩ := rep.descends.exists_rootOf b
    have more : keys ⊆ insert ra (insert rb keys) :=
      (Finset.subset_insert rb keys).trans (Finset.subset_insert ra _)
    refine ⟨_, _, represents_union (rep.mono more) (fun r hr => ?_) joined⟩
    rcases hr with hr | hr
    · rw [hr.unique ha]
      exact Finset.mem_insert_self ra _
    · rw [hr.unique hb]
      exact Finset.mem_insert_of_mem (Finset.mem_insert_self rb keys)

/-- The search for a root ends on every map that unions lead to. -/
theorem Reachable.exists_find (h : Reachable uf) (id : String) :
    ∃ fuel root, uf.find fuel id = some root := by
  obtain ⟨keys, edge, rep⟩ := h.exists_represents
  obtain ⟨root, -, chased⟩ := rep.descends.exists_chase (Nat.lt_succ_self _) id
  exact ⟨_, root, (find_eq_chase uf _ id).trans chased⟩

end UnionFind

/-! ## Joining what the entries declare -/

section

variable {uf : UnionFind} {ids : List String} {fuel : Nat} {edge : String → String → Prop}

/-- The entry declares an edge between the servers, and both have a row. -/
def TrustLogEntry.Joins (ids : List String) (entry : TrustLogEntry) (x y : String) : Prop :=
  ∃ e : TrustEdge, entry = .edge e ∧ x = e.serverA ∧ y = e.serverB ∧ x ∈ ids ∧ y ∈ ids

theorem exists_unionEntry (h : Forest.Represents uf.parentOf ids.toFinset edge)
    (inside : ∀ x y, edge x y → x ∈ ids ∧ y ∈ ids) (enough : ids.length < fuel)
    (entry : TrustLogEntry) : ∃ uf', unionEntry ids fuel uf entry = some uf' ∧
      Forest.Represents uf'.parentOf ids.toFinset fun x y => edge x y ∨ entry.Joins ids x y := by
  have nothing (none : ∀ x y, ¬entry.Joins ids x y) : Forest.Represents uf.parentOf ids.toFinset
      fun x y => edge x y ∨ entry.Joins ids x y :=
    h.congr fun x y => (or_iff_left (none x y)).symm
  cases entry with
  | revocation r =>
    refine ⟨uf, rfl, nothing ?_⟩
    rintro x y ⟨e, ⟨⟩, _⟩
  | edge e =>
    have both : (ids.any (· = e.serverA) && ids.any (· = e.serverB)) = true ↔
        e.serverA ∈ ids ∧ e.serverB ∈ ids := by
      simp only [Bool.and_eq_true, List.any_eq_true, decide_eq_true_eq, exists_eq_right]
    unfold unionEntry
    dsimp only
    by_cases rows : e.serverA ∈ ids ∧ e.serverB ∈ ids
    · rw [if_pos (both.mpr rows)]
      have card : ids.toFinset.card < fuel := (List.toFinset_card_le ids).trans_lt enough
      obtain ⟨uf', joined⟩ := UnionFind.exists_union h.descends card e.serverA e.serverB
      refine ⟨uf', joined, (UnionFind.represents_union h (fun r hr => ?_) joined).congr ?_⟩
      · rw [List.mem_toFinset]
        rcases hr with hr | hr
        · exact (h.joined _ _ hr).mem (· ∈ ids) inside rows.1
        · exact (h.joined _ _ hr).mem (· ∈ ids) inside rows.2
      · refine fun x y => or_congr_right ⟨?_, ?_⟩
        · rintro ⟨rfl, rfl⟩
          exact ⟨e, rfl, rfl, rfl, rows.1, rows.2⟩
        · rintro ⟨e', heq, rfl, rfl, -⟩
          cases heq
          exact ⟨rfl, rfl⟩
    · rw [if_neg fun h => rows (both.mp h)]
      refine ⟨uf, rfl, nothing ?_⟩
      rintro x y ⟨e', heq, rfl, rfl, ha, hb⟩
      cases heq
      exact rows ⟨ha, hb⟩

theorem exists_unions (h : Forest.Represents uf.parentOf ids.toFinset edge)
    (inside : ∀ x y, edge x y → x ∈ ids ∧ y ∈ ids) (enough : ids.length < fuel)
    (entries : List (String × TrustLogEntry)) :
    ∃ uf', entries.foldlM (fun uf entry => unionEntry ids fuel uf entry.2) uf = some uf' ∧
      Forest.Represents uf'.parentOf ids.toFinset fun x y =>
        edge x y ∨ ∃ entry ∈ entries, entry.2.Joins ids x y := by
  induction entries generalizing uf edge with
  | nil =>
    refine ⟨uf, rfl, h.congr fun x y => ?_⟩
    simp only [List.not_mem_nil, false_and, exists_false, or_false]
  | cons entry entries ih =>
    obtain ⟨uf₁, first, rep₁⟩ := exists_unionEntry h inside enough entry.2
    have inside₁ (x y : String) (hxy : edge x y ∨ entry.2.Joins ids x y) : x ∈ ids ∧ y ∈ ids := by
      rcases hxy with old | ⟨e, -, -, -, rows⟩
      · exact inside x y old
      · exact rows
    obtain ⟨uf', rest, rep'⟩ := ih rep₁ inside₁
    refine ⟨uf', ?_, rep'.congr fun x y => ?_⟩
    · rw [List.foldlM_cons, first]
      exact rest
    · rw [List.exists_mem_cons_iff, or_assoc]

theorem not_mem_empty {s : String} : s ∉ (∅ : ServerSet) := TreeSet.not_mem_emptyc

/-- The servers of the list under their roots. -/
structure Groups (uf : UnionFind) (ids : List String)
    (components : TreeMap String ServerSet) : Prop where
  mem : ∀ root s, s ∈ components[root]?.getD ∅ ↔ s ∈ ids ∧ Forest.RootOf uf.parentOf s root
  nonempty : ∀ (root : String) servers, components[root]? = some servers → ∃ s, s ∈ servers

theorem exists_groups {keys : Finset String} {components : TreeMap String ServerSet}
    {earlier : List String} (h : Forest.Descends uf.parentOf keys) (enough : keys.card < fuel)
    (groups : Groups uf earlier components) :
    ∃ components', ids.foldlM (groupServer uf fuel) components = some components' ∧
      Groups uf (earlier ++ ids) components' := by
  induction ids generalizing components earlier with
  | nil => exact ⟨components, rfl, by rwa [List.append_nil]⟩
  | cons s ids ih =>
    obtain ⟨root, -, chased⟩ := h.exists_chase enough s
    have rootOf : Forest.RootOf uf.parentOf s root := ⟨fuel, chased⟩
    rw [← UnionFind.find_eq_chase] at chased
    have more : Groups uf (earlier ++ [s])
        (components.insert root ((components[root]?.getD ∅).insert s)) := by
      constructor
      · intro root' s'
        rw [TreeMap.getElem?_insert, List.mem_append, List.mem_singleton]
        split
        · rename_i same
          cases compare_eq_iff_eq.mp same
          rw [Option.getD_some, TreeSet.mem_insert, compare_eq_iff_eq, groups.mem]
          constructor
          · rintro (rfl | ⟨hs, hroot⟩)
            · exact ⟨.inr rfl, rootOf⟩
            · exact ⟨.inl hs, hroot⟩
          · rintro ⟨hs | rfl, hroot⟩
            · exact .inr ⟨hs, hroot⟩
            · exact .inl rfl
        · rename_i other
          rw [groups.mem]
          constructor
          · rintro ⟨hs, hroot⟩
            exact ⟨.inl hs, hroot⟩
          · rintro ⟨hs | rfl, hroot⟩
            · exact ⟨hs, hroot⟩
            · exact absurd (compare_eq_iff_eq.mpr (rootOf.unique hroot)) other
      · intro root' servers hservers
        rw [TreeMap.getElem?_insert] at hservers
        split at hservers
        · cases hservers
          exact ⟨s, TreeSet.mem_insert_self⟩
        · exact groups.nonempty root' servers hservers
    obtain ⟨components', folded, groups'⟩ := ih more
    refine ⟨components', ?_, ?_⟩
    · rw [List.foldlM_cons, groupServer, chased]
      exact folded
    · rwa [List.append_assoc] at groups'

end

/-! ## The profiles of the groups -/

/-- A map of a list that succeeds everywhere gives what a filter gives. -/
theorem mapM_eq_some_filterMap {α β : Type} {f : α → Option β} {l : List α}
    (h : ∀ a ∈ l, ∃ b, f a = some b) : l.mapM f = some (l.filterMap f) := by
  induction l with
  | nil => rfl
  | cons a l ih =>
    obtain ⟨b, hb⟩ := h a List.mem_cons_self
    rw [List.mapM_cons, ih fun x hx => h x (List.mem_cons_of_mem a hx), hb,
      List.filterMap_cons_some hb]
    rfl

/-- The least member of a set comes first. -/
theorem head?_toList_eq_some {servers : ServerSet} {root : String} (mem : root ∈ servers)
    (least : ∀ s ∈ servers, root ≤ s) : servers.toList.head? = some root := by
  have sorted := TreeSet.ordered_toList (t := servers)
  have there := TreeSet.mem_toList.mpr mem
  have below (s : String) (hs : s ∈ servers.toList) : root ≤ s := least s (TreeSet.mem_toList.mp hs)
  cases hl : servers.toList with
  | nil =>
    rw [hl] at there
    cases there
  | cons first rest =>
    rw [hl] at there below sorted
    rcases List.mem_cons.mp there with rfl | behind
    · rfl
    · have before := compare_lt_iff_lt.mp ((List.pairwise_cons.mp sorted).1 root behind)
      exact absurd (below first List.mem_cons_self) (not_le.mpr before)

/-- The profile of a group whose root is its first server. -/
structure ProfileOf (rows : List ServerProfile) (root : String) (servers : ServerSet)
    (p : EffectiveProfile) : Prop where
  servers : p.servers = servers.toList
  first : p.servers.head? = some root
  row : ∃ row, (rows.find? fun row => row.serverId = root) = some row ∧
    p.displayName = row.displayName ∧ p.avatar = row.avatar ∧ p.bio = row.bio

theorem profileOf_of_effectiveProfile {rows : List ServerProfile} {root : String}
    {servers : ServerSet} {p : EffectiveProfile} (first : servers.toList.head? = some root)
    (h : effectiveProfile rows servers = some p) : ProfileOf rows root servers p := by
  simp only [effectiveProfile, first, Option.bind_eq_bind, Option.bind_some] at h
  obtain ⟨row, found, h⟩ := Option.bind_eq_some_iff.mp h
  cases h
  exact ⟨rfl, first, row, found, rfl, rfl, rfl⟩

theorem exists_effectiveProfile {rows : List ServerProfile} {root : String}
    {servers : ServerSet} (first : servers.toList.head? = some root)
    (mem : root ∈ rows.map ServerProfile.serverId) : ∃ p, effectiveProfile rows servers = some p := by
  obtain ⟨row, hrow, rfl⟩ := List.mem_map.mp mem
  simp only [effectiveProfile, first, Option.bind_eq_bind, Option.bind_some]
  cases found : rows.find? fun r => r.serverId = row.serverId with
  | none => exact absurd (decide_eq_true rfl) (List.find?_eq_none.mp found row hrow)
  | some r => exact ⟨_, rfl⟩

/-! ## The partition -/

/-- Two servers with a row, joined by a declaration that the log leaves. -/
def ActiveEdge (d : ConcordUserDescriptor) (a b : String) : Prop :=
  ∃ entry, Latest d.trustLog entry ∧ entry.Joins d.serverIds a b

/-- The profiles are the classes of servers that paths of edges join, each under its first row. -/
structure MergeView.Partitions (d : ConcordUserDescriptor) (view : MergeView) : Prop where
  sorted : ∀ p ∈ view.profiles, p.servers.Pairwise (· < ·)
  nonempty : ∀ p ∈ view.profiles, p.servers ≠ []
  disjoint : view.profiles.Pairwise fun p q => p.servers.Disjoint q.servers
  covers : ∀ s, (∃ p ∈ view.profiles, s ∈ p.servers) ↔ s ∈ d.serverIds
  ordered : view.profiles.Pairwise fun p q =>
    ∀ a ∈ p.servers.head?, ∀ b ∈ q.servers.head?, a < b
  joined : ∀ a ∈ d.serverIds, ∀ b ∈ d.serverIds,
    (∃ p ∈ view.profiles, a ∈ p.servers ∧ b ∈ p.servers) ↔ Forest.Joined (ActiveEdge d) a b
  canonical : ∀ p ∈ view.profiles, ∃ first row, p.servers.head? = some first ∧
    (d.serverProfiles.find? fun row => row.serverId = first) = some row ∧
    p.displayName = row.displayName ∧ p.avatar = row.avatar ∧ p.bio = row.bio

section

variable {d : ConcordUserDescriptor} {uf : UnionFind} {components : TreeMap String ServerSet}

theorem Groups.mem_iff (groups : Groups uf d.serverIds components) {root s : String}
    {servers : ServerSet} (hc : (root, servers) ∈ components.toList) :
    s ∈ servers ↔ s ∈ d.serverIds ∧ Forest.RootOf uf.parentOf s root := by
  have held : components[root]? = some servers := TreeMap.mem_toList_iff_getElem?_eq_some.mp hc
  rw [← groups.mem, held, Option.getD_some]

/-- A group has a profile, that of its root. -/
theorem Groups.exists_profileOf (groups : Groups uf d.serverIds components)
    (rep : Forest.Represents uf.parentOf d.serverIds.toFinset (ActiveEdge d))
    (component : String × ServerSet) (hc : component ∈ components.toList) :
    ∃ p, effectiveProfile d.serverProfiles component.2 = some p ∧
      ProfileOf d.serverProfiles component.1 component.2 p := by
  obtain ⟨root, servers⟩ := component
  have held : components[root]? = some servers := TreeMap.mem_toList_iff_getElem?_eq_some.mp hc
  obtain ⟨s, hs⟩ := groups.nonempty root servers held
  obtain ⟨ids, hroot⟩ := (groups.mem_iff hc).mp hs
  have inside (x y : String) (hxy : ActiveEdge d x y) : x ∈ d.serverIds ∧ y ∈ d.serverIds := by
    obtain ⟨_, _, _, _, _, _, rows⟩ := hxy
    exact rows
  have row : root ∈ d.serverIds := (rep.joined s root hroot).mem (· ∈ d.serverIds) inside ids
  have first : servers.toList.head? = some root := by
    refine head?_toList_eq_some ((groups.mem_iff hc).mpr ⟨row, ?_⟩) fun s hs => ?_
    · exact Forest.rootOf_self hroot.parent_eq
    · exact rep.rootOf_le ((groups.mem_iff hc).mp hs).2 .refl
  obtain ⟨p, hp⟩ := exists_effectiveProfile first row
  exact ⟨p, hp, profileOf_of_effectiveProfile first hp⟩

/-- The profiles of the groups, by their roots. -/
def profilesOf (d : ConcordUserDescriptor) (components : TreeMap String ServerSet) :
    List EffectiveProfile :=
  components.toList.filterMap fun component => effectiveProfile d.serverProfiles component.2

/-- What holds of two groups in the order of their roots holds of their profiles. -/
theorem Groups.pairwise_profiles (groups : Groups uf d.serverIds components)
    (rep : Forest.Represents uf.parentOf d.serverIds.toFinset (ActiveEdge d))
    {R : EffectiveProfile → EffectiveProfile → Prop}
    (related : ∀ c ∈ components.toList, ∀ c' ∈ components.toList, c.1 < c'.1 →
      ∀ p p', ProfileOf d.serverProfiles c.1 c.2 p → ProfileOf d.serverProfiles c'.1 c'.2 p' →
        R p p') : (profilesOf d components).Pairwise R := by
  unfold profilesOf
  rw [List.pairwise_filterMap]
  have sorted : components.toList.Pairwise fun c c' => compare c.1 c'.1 = .lt :=
    TreeMap.ordered_keys_toList
  refine sorted.imp_of_mem fun {c c'} hc hc' lt p hp p' hp' => ?_
  obtain ⟨q, hq, prof⟩ := groups.exists_profileOf rep c hc
  obtain ⟨q', hq', prof'⟩ := groups.exists_profileOf rep c' hc'
  cases hp.symm.trans hq
  cases hp'.symm.trans hq'
  exact related c hc c' hc' (compare_lt_iff_lt.mp lt) p p' prof prof'

/-- A profile of the groups covers the servers under one root. -/
theorem Groups.profileOf_of_mem (groups : Groups uf d.serverIds components)
    (rep : Forest.Represents uf.parentOf d.serverIds.toFinset (ActiveEdge d))
    {p : EffectiveProfile} (hp : p ∈ profilesOf d components) : ∃ root servers,
      ProfileOf d.serverProfiles root servers p ∧
      ∀ s, s ∈ p.servers ↔ s ∈ d.serverIds ∧ Forest.RootOf uf.parentOf s root := by
  obtain ⟨⟨root, servers⟩, hc, made⟩ := List.mem_filterMap.mp hp
  obtain ⟨q, hq, prof⟩ := groups.exists_profileOf rep (root, servers) hc
  cases made.symm.trans hq
  refine ⟨root, servers, prof, fun s => ?_⟩
  rw [prof.servers, TreeSet.mem_toList, groups.mem_iff hc]

/-- The servers under the root of a row are covered by one profile. -/
theorem Groups.exists_covering (groups : Groups uf d.serverIds components)
    (rep : Forest.Represents uf.parentOf d.serverIds.toFinset (ActiveEdge d)) {s root : String}
    (hs : s ∈ d.serverIds) (hroot : Forest.RootOf uf.parentOf s root) :
    ∃ p ∈ profilesOf d components,
      ∀ s, s ∈ p.servers ↔ s ∈ d.serverIds ∧ Forest.RootOf uf.parentOf s root := by
  have mem := (groups.mem root s).mpr ⟨hs, hroot⟩
  cases held : components[root]? with
  | none =>
    rw [held] at mem
    exact absurd mem not_mem_empty
  | some servers =>
    have hc := TreeMap.mem_toList_iff_getElem?_eq_some.mpr held
    obtain ⟨p, made, prof⟩ := groups.exists_profileOf rep (root, servers) hc
    refine ⟨p, List.mem_filterMap.mpr ⟨(root, servers), hc, made⟩, fun s => ?_⟩
    rw [prof.servers, TreeSet.mem_toList, groups.mem_iff hc]

end

/-- The view lists the profiles of the groups under their roots. -/
theorem exists_view (d : ConcordUserDescriptor) : ∃ uf components,
    mergeView d = some ⟨profilesOf d components⟩ ∧
    Forest.Represents uf.parentOf d.serverIds.toFinset (ActiveEdge d) ∧
    Groups uf d.serverIds components := by
  have start : Forest.Represents (UnionFind.new d.serverIds).parentOf d.serverIds.toFinset
      fun _ _ => False := by
    rw [UnionFind.parentOf_new]
    exact Forest.represents_id _
  obtain ⟨uf, folded, rep⟩ := exists_unions start (fun _ _ h => h.elim)
    (Nat.lt_succ_self d.serverIds.length) (latestEntries d.trustLog).toList
  have active : Forest.Represents uf.parentOf d.serverIds.toFinset (ActiveEdge d) := by
    refine rep.congr fun x y => ?_
    rw [false_or]
    constructor
    · rintro ⟨⟨id, entry⟩, mem, joins⟩
      exact ⟨entry, (mem_latestEntries_iff.mp mem).2, joins⟩
    · rintro ⟨entry, latest, joins⟩
      exact ⟨(entry.edgeId, entry), mem_latestEntries_iff.mpr ⟨rfl, latest⟩, joins⟩
  have none : Groups uf [] ∅ := by
    refine ⟨fun root s => ?_, fun root servers h => ?_⟩
    · rw [TreeMap.getElem?_emptyc]
      exact iff_of_false not_mem_empty fun h => by cases h.1
    · rw [TreeMap.getElem?_emptyc] at h
      cases h
  have card : d.serverIds.toFinset.card < d.serverIds.length + 1 :=
    Nat.lt_succ_of_le (List.toFinset_card_le _)
  obtain ⟨components, grouped, groups⟩ := exists_groups active.descends card none
  rw [List.nil_append] at groups
  refine ⟨uf, components, ?_, active, groups⟩
  have made := mapM_eq_some_filterMap fun component hc =>
    (groups.exists_profileOf active component hc).imp fun _ h => h.1
  have inOrder : (profilesOf d components).Pairwise
      fun p q => decide (p.servers.headD "" ≤ q.servers.headD "") = true := by
    refine groups.pairwise_profiles active fun c _ c' _ lt p p' prof prof' => ?_
    rw [decide_eq_true_eq, List.headD_eq_head?_getD, List.headD_eq_head?_getD, prof.first,
      prof'.first]
    exact lt.le
  simp only [mergeView, folded, grouped, made, Option.bind_eq_bind, Option.bind_some]
  exact congrArg (some ∘ MergeView.mk) (List.mergeSort_of_pairwise inOrder)

/-- A descriptor has a view, and it is the partition by its edges. -/
theorem exists_partitions (d : ConcordUserDescriptor) :
    ∃ view, mergeView d = some view ∧ view.Partitions d := by
  obtain ⟨uf, components, computed, rep, groups⟩ := exists_view d
  refine ⟨_, computed, ?_⟩
  have covering {p : EffectiveProfile} (hp : p ∈ profilesOf d components) :=
    groups.profileOf_of_mem rep hp
  constructor
  · intro p hp
    obtain ⟨root, servers, prof, -⟩ := covering hp
    rw [prof.servers]
    exact TreeSet.ordered_toList.imp compare_lt_iff_lt.mp
  · intro p hp empty
    obtain ⟨root, servers, prof, -⟩ := covering hp
    have first := prof.first
    rw [empty] at first
    cases first
  · refine groups.pairwise_profiles rep fun c hc c' hc' lt p p' prof prof' s hs hs' => ?_
    rw [prof.servers, TreeSet.mem_toList, groups.mem_iff hc] at hs
    rw [prof'.servers, TreeSet.mem_toList, groups.mem_iff hc'] at hs'
    exact lt.ne (hs.2.unique hs'.2)
  · intro s
    constructor
    · rintro ⟨p, hp, hs⟩
      obtain ⟨root, servers, -, mem⟩ := covering hp
      exact ((mem s).mp hs).1
    · intro hs
      obtain ⟨root, -, hroot⟩ := rep.descends.exists_rootOf s
      obtain ⟨p, hp, mem⟩ := groups.exists_covering rep hs hroot
      exact ⟨p, hp, (mem s).mpr ⟨hs, hroot⟩⟩
  · refine groups.pairwise_profiles rep fun c _ c' _ lt p p' prof prof' a ha b hb => ?_
    rw [prof.first] at ha
    rw [prof'.first] at hb
    cases ha
    cases hb
    exact lt
  · intro a ha b hb
    rw [← rep.sameRoot_iff]
    constructor
    · rintro ⟨p, hp, hap, hbp⟩
      obtain ⟨root, servers, -, mem⟩ := covering hp
      exact ⟨root, ((mem a).mp hap).2, ((mem b).mp hbp).2⟩
    · rintro ⟨root, hroot, hroot'⟩
      obtain ⟨p, hp, mem⟩ := groups.exists_covering rep ha hroot
      exact ⟨p, hp, (mem a).mpr ⟨ha, hroot⟩, (mem b).mpr ⟨hb, hroot'⟩⟩
  · intro p hp
    obtain ⟨root, servers, prof, -⟩ := covering hp
    obtain ⟨row, found, fields⟩ := prof.row
    exact ⟨root, row, prof.first, found, fields⟩

/-! ## One view for one partition -/

namespace MergeView.Partitions

variable {d d' : ConcordUserDescriptor} {view view' : MergeView} {p q : EffectiveProfile}
  {s : String}

/-- A server is in one profile. -/
theorem eq_of_mem (h : view.Partitions d) (hp : p ∈ view.profiles) (hq : q ∈ view.profiles)
    (hs : s ∈ p.servers) (hs' : s ∈ q.servers) : p = q := by
  by_contra ne
  have : Std.Symm fun p q : EffectiveProfile => p.servers.Disjoint q.servers :=
    ⟨fun _ _ disjoint => disjoint.symm⟩
  exact h.disjoint.forall hp hq ne hs hs'

/-- The servers of the profile of a server are those joined to it. -/
theorem mem_servers_iff (h : view.Partitions d) (hp : p ∈ view.profiles) (hs : s ∈ p.servers)
    {t : String} : t ∈ p.servers ↔ t ∈ d.serverIds ∧ Forest.Joined (ActiveEdge d) s t := by
  have row : s ∈ d.serverIds := (h.covers s).mp ⟨p, hp, hs⟩
  constructor
  · intro ht
    have row' : t ∈ d.serverIds := (h.covers t).mp ⟨p, hp, ht⟩
    exact ⟨row', (h.joined s row t row').mp ⟨p, hp, hs, ht⟩⟩
  · rintro ⟨row', joined⟩
    obtain ⟨q, hq, hsq, htq⟩ := (h.joined s row t row').mpr joined
    rwa [h.eq_of_mem hp hq hs hsq]

/-- A view of the same rows with the same paths has the profile too. -/
theorem mem_of_same (h : view.Partitions d) (h' : view'.Partitions d')
    (rows : d'.serverProfiles = d.serverProfiles)
    (same : ∀ a ∈ d.serverIds, ∀ b ∈ d.serverIds,
      Forest.Joined (ActiveEdge d') a b ↔ Forest.Joined (ActiveEdge d) a b)
    (hp : p ∈ view.profiles) : p ∈ view'.profiles := by
  have ids : d'.serverIds = d.serverIds := congrArg (List.map ServerProfile.serverId) rows
  obtain ⟨first, row, hfirst, found, fields⟩ := h.canonical p hp
  have hs : first ∈ p.servers := List.mem_of_mem_head? hfirst
  have mem : first ∈ d.serverIds := (h.covers first).mp ⟨p, hp, hs⟩
  obtain ⟨q, hq, hsq⟩ := (h'.covers first).mpr (ids ▸ mem)
  have servers : p.servers = q.servers := by
    refine (h.sorted p hp).eq_of_mem_iff (h'.sorted q hq) fun t => ?_
    rw [h.mem_servers_iff hp hs, h'.mem_servers_iff hq hsq, ids]
    exact and_congr_right fun ht => (same first mem t ht).symm
  obtain ⟨first', row', hfirst', found', fields'⟩ := h'.canonical q hq
  rw [← servers, hfirst] at hfirst'
  cases hfirst'
  rw [rows, found] at found'
  cases found'
  have eq : p = q := by
    obtain ⟨name, avatar, bio⟩ := fields
    obtain ⟨name', avatar', bio'⟩ := fields'
    cases p
    cases q
    simp only at servers name name' avatar avatar' bio bio'
    rw [servers, name, name', avatar, avatar', bio, bio']
  rwa [eq]

/-- Two views of the same rows are equal when the same paths join these. -/
theorem unique (h : view.Partitions d) (h' : view'.Partitions d')
    (rows : d'.serverProfiles = d.serverProfiles)
    (same : ∀ a ∈ d.serverIds, ∀ b ∈ d.serverIds,
      Forest.Joined (ActiveEdge d') a b ↔ Forest.Joined (ActiveEdge d) a b) : view = view' := by
  have ids : d'.serverIds = d.serverIds := congrArg (List.map ServerProfile.serverId) rows
  have before {d view} (h : MergeView.Partitions d view) : view.profiles.Pairwise
      (InvImage (· < ·) fun p => p.servers.headD "") := by
    refine h.ordered.imp_of_mem fun {p q} hp hq lt => ?_
    obtain ⟨a, -, ha, -⟩ := h.canonical p hp
    obtain ⟨b, -, hb, -⟩ := h.canonical q hq
    have less := lt a ha b hb
    simp only [InvImage, List.headD_eq_head?_getD, ha, hb]
    exact less
  have profiles : view.profiles = view'.profiles := by
    refine (before h).eq_of_mem_iff (before h') fun p => ⟨h.mem_of_same h' rows same, ?_⟩
    refine h'.mem_of_same h rows.symm fun a ha b hb => ?_
    rw [ids] at ha hb
    exact (same a ha b hb).symm
  cases view
  cases view'
  exact congrArg MergeView.mk profiles

end MergeView.Partitions

end Concorrd
