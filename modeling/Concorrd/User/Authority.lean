import Concorrd.User.CrashRecovery
import Concorrd.User.Revocation

/-!
# Whose edges are active

An edge belongs to the hero that signs it and to its two servers. The store keeps its log by edge
ids, which are free text: it takes a declaration under any id, and a revocation of any id that the
log names, whoever signs them. So an entry of one hero can take the place of an entry of another.
`listEdges_iff_latest` is what holds of runs in which an id stands for one hero and one pair.
-/

namespace Concorrd

open Machine

/-- The entry is the hero's word about the edge between two servers. A revocation says only the id
of the edge. -/
def About (sha256 : List UInt8 → Vector UInt8 32) (uid : ConcordUid) (a b : String)
    (entry : TrustLogEntry) : Prop :=
  entry.concordUid = uid ∧
    match entry with
    | .edge edge => edge.Between a b
    | .revocation revocation => revocation.edgeId = computeTrustEdgeId sha256 uid a b

/-- The last of the latest entries among some of a log. -/
def LatestAmong (among : TrustLogEntry → Prop) (log : List TrustLogEntry) (entry : TrustLogEntry) :
    Prop :=
  ∃ before later, log = before ++ entry :: later ∧ among entry ∧
    (∀ x ∈ before, among x → x.timestamp ≤ entry.timestamp) ∧
    ∀ x ∈ later, among x → x.timestamp < entry.timestamp

/-- Other entries make no difference. -/
theorem latestAmong_concat {among : TrustLogEntry → Prop} {log : List TrustLogEntry}
    {entry x : TrustLogEntry} (other : ¬among x) :
    LatestAmong among (log ++ [x]) entry ↔ LatestAmong among log entry := by
  constructor
  · rintro ⟨before, later, split, mine, earlier, last⟩
    rcases List.eq_nil_or_concat later with rfl | ⟨later, y, rfl⟩
    · obtain ⟨-, same⟩ := List.append_inj' split rfl
      cases same
      exact absurd mine other
    · rw [List.concat_eq_append, ← List.cons_append, ← List.append_assoc] at split
      obtain ⟨rfl, -⟩ := List.append_inj' split rfl
      rw [List.concat_eq_append] at last
      exact ⟨before, later, rfl, mine, earlier, fun y hy => last y (List.mem_append_left _ hy)⟩
  · rintro ⟨before, later, rfl, mine, earlier, last⟩
    refine ⟨before, later ++ [x], by rw [List.append_assoc, List.cons_append], mine, earlier, ?_⟩
    intro y hy about
    rcases List.mem_append.mp hy with old | new
    · exact last y old about
    · rw [List.mem_singleton.mp new] at about
      exact absurd about other

/-- The hero's latest word about the edge is that it holds. -/
def LatestDeclares (sha256 : List UInt8 → Vector UInt8 32) (uid : ConcordUid) (a b : String)
    (log : List TrustLogEntry) : Prop :=
  ∃ edge, LatestAmong (About sha256 uid a b) log (.edge edge)

/-! ## The store -/

/-- A call of the store, with the nonce it draws. -/
inductive StoreCall where
  | addEdge (edge : TrustEdge) (nonce : Vector UInt8 12)
  | revokeEdge (revocation : TrustEdgeRevocation) (nonce : Vector UInt8 12)

def StoreCall.entry : StoreCall → TrustLogEntry
  | .addEdge edge _ => .edge edge
  | .revokeEdge revocation _ => .revocation revocation

/-- The file, and the entries accepted so far. -/
structure StoreLedger where
  file : Option (List UInt8)
  accepted : List TrustLogEntry

namespace StoreLedger

def start : StoreLedger := ⟨none, []⟩

variable (ed : Ed25519) (aead : Aead) (codec : EntryCodec) (handle : TrustStoreHandle)
  (sha256 : List UInt8 → Vector UInt8 32)

/-- What a call appends to the file. -/
def answer (s : StoreLedger) : StoreCall → Option (Except TrustStoreError (List UInt8))
  | .addEdge edge nonce => some (addEdge ed aead codec handle nonce edge)
  | .revokeEdge revocation nonce => revokeEdge ed aead codec handle nonce revocation s.file

/-- One call; its write completes. -/
def step (s : StoreLedger) (call : StoreCall) : StoreLedger :=
  match answer ed aead codec handle s call with
  | some (.ok bytes) => ⟨some (s.file.getD [] ++ bytes), s.accepted ++ [call.entry]⟩
  | _ => s

/-- The store reports an edge of the hero between the servers. -/
def Reports (s : StoreLedger) (uid : ConcordUid) (a b : String) : Prop :=
  ∃ edges, listEdges ed aead codec handle s.file = some (.ok edges) ∧
    ∃ edge ∈ edges, edge.concordUid = uid ∧ edge.Between a b

/-- If the call is accepted, its id is its hero's: that of the servers it declares an edge between,
or that of no declaration of another hero. Its record has a length that four bytes hold. -/
def OwnId (s : StoreLedger) (call : StoreCall) : Prop :=
  ∀ bytes, answer ed aead codec handle s call = some (.ok bytes) → Fits codec call.entry ∧
    match call with
    | .addEdge edge _ =>
      edge.edgeId = computeTrustEdgeId sha256 edge.concordUid edge.serverA edge.serverB
    | .revokeEdge revocation _ =>
      ∀ edge, .edge edge ∈ s.accepted → edge.edgeId = revocation.edgeId →
        edge.concordUid = revocation.concordUid

variable {ed aead codec handle sha256} {key : List UInt8} {s : StoreLedger} {call : StoreCall}

/-- An accepted call writes its record. What it declares, or revokes, verifies, and the log names the
edge that it revokes. -/
theorem of_answer_ok {bytes : List UInt8}
    (h : answer ed aead codec handle s call = some (.ok bytes)) :
    call.entry.verify ed = true ∧
      (∃ nonce, appendEntry aead codec handle nonce call.entry = .ok bytes) ∧
      ∀ revocation nonce, call = .revokeEdge revocation nonce →
        ∃ log, readLog ed aead codec handle s.file = some (.ok log) ∧
          ∃ entry ∈ log, entry.edgeId = revocation.edgeId := by
  cases call with
  | addEdge edge nonce =>
    have added := Option.some.inj h
    unfold addEdge at added
    split at added
    · cases added
    · rename_i verifies
      refine ⟨?_, ⟨nonce, added⟩, by rintro revocation nonce ⟨⟩⟩
      rwa [Bool.not_eq_true', Bool.not_eq_false] at verifies
  | revokeEdge revocation nonce =>
    have revoked : revokeEdge ed aead codec handle nonce revocation s.file = some (.ok bytes) := h
    unfold revokeEdge at revoked
    split at revoked
    · cases revoked
    · rename_i verifies
      rw [Bool.not_eq_true', Bool.not_eq_false] at verifies
      obtain ⟨result, listed, revoked⟩ := Option.map_eq_some_iff.mp revoked
      split at revoked
      · cases revoked
      · rename_i log
        split at revoked
        · cases revoked
        · rename_i known
          rw [Bool.not_eq_true', Bool.not_eq_false, List.any_eq_true] at known
          obtain ⟨entry, mem, id⟩ := known
          refine ⟨verifies, ⟨nonce, revoked⟩, ?_⟩
          rintro _ _ ⟨⟩
          unfold listLog at listed
          split at listed
          · cases listed
          · exact ⟨log, listed, entry, mem, of_decide_eq_true id⟩

/-- A usable handle has a path and a key; nothing is written through another. -/
theorem step_eq_self (unusable : ∀ path key, resolvePaths handle = .ok path → logKey handle ≠ .ok key) :
    step ed aead codec handle s call = s := by
  unfold step
  split
  · rename_i bytes answered
    obtain ⟨-, ⟨nonce, appended⟩, -⟩ := of_answer_ok answered
    obtain ⟨key, hkey, -⟩ := record_of_appendEntry appended
    unfold appendEntry at appended
    split at appended
    · cases appended
    · rename_i path hpath
      exact absurd hkey (unusable path key hpath)
  · rfl

end StoreLedger

/-! ## Ids and owners -/

/-- The entries of one id are about one edge of one hero. -/
structure Keyed (sha256 : List UInt8 → Vector UInt8 32) (log : List TrustLogEntry) : Prop where
  ids : ∀ edge, .edge edge ∈ log →
    edge.edgeId = computeTrustEdgeId sha256 edge.concordUid edge.serverA edge.serverB
  named : ∀ revocation, .revocation revocation ∈ log →
    ∃ edge, .edge edge ∈ log ∧ edge.edgeId = revocation.edgeId
  owners : ∀ revocation edge, .revocation revocation ∈ log → .edge edge ∈ log →
    edge.edgeId = revocation.edgeId → edge.concordUid = revocation.concordUid

/-- No two edges that the entries declare have one id. -/
def DistinctIds (sha256 : List UInt8 → Vector UInt8 32) (entries : List TrustLogEntry) : Prop :=
  ∀ edge edge', .edge edge ∈ entries → .edge edge' ∈ entries →
    computeTrustEdgeId sha256 edge.concordUid edge.serverA edge.serverB =
      computeTrustEdgeId sha256 edge'.concordUid edge'.serverA edge'.serverB →
    edge'.concordUid = edge.concordUid ∧ edge'.Between edge.serverA edge.serverB

section

variable {sha256 : List UInt8 → Vector UInt8 32} {log : List TrustLogEntry} {edge : TrustEdge}
  {uid : ConcordUid} {a b : String}

theorem TrustEdge.Between.computeTrustEdgeId_eq (h : edge.Between a b) :
    computeTrustEdgeId sha256 uid edge.serverA edge.serverB = computeTrustEdgeId sha256 uid a b := by
  rcases h with ⟨ha, hb⟩ | ⟨ha, hb⟩
  · rw [ha, hb]
  · rw [ha, hb, computeTrustEdgeId_comm]

theorem TrustEdge.Between.trans {edge' : TrustEdge} (h : edge.Between a b)
    (h' : edge'.Between edge.serverA edge.serverB) : edge'.Between a b := by
  rcases h with ⟨ha, hb⟩ | ⟨ha, hb⟩
  · rwa [ha, hb] at h'
  · rw [ha, hb] at h'
    exact h'.symm

/-- The entries under the id of a declaration are its hero's words about its edge. -/
theorem Keyed.edgeId_eq_iff (keyed : Keyed sha256 log) (distinct : DistinctIds sha256 log)
    (mem : .edge edge ∈ log) (own : edge.concordUid = uid) (pair : edge.Between a b)
    {x : TrustLogEntry} (hx : x ∈ log) : x.edgeId = edge.edgeId ↔ About sha256 uid a b x := by
  have id : edge.edgeId = computeTrustEdgeId sha256 uid a b := by
    rw [keyed.ids edge mem, own, pair.computeTrustEdgeId_eq]
  cases x with
  | edge edge' =>
    have id' := keyed.ids edge' hx
    constructor
    · intro same
      have digest : edge'.edgeId = edge.edgeId := same
      rw [id', keyed.ids edge mem] at digest
      obtain ⟨uid', pair'⟩ := distinct edge edge' mem hx digest.symm
      exact ⟨uid'.trans own, pair.trans pair'⟩
    · rintro ⟨own', pair'⟩
      have hero : edge'.concordUid = uid := own'
      show edge'.edgeId = edge.edgeId
      rw [id', hero, pair'.computeTrustEdgeId_eq, id]
  | revocation r =>
    constructor
    · intro same
      have named : r.edgeId = edge.edgeId := same
      exact ⟨(keyed.owners r edge hx mem named.symm).symm.trans own, named.trans id⟩
    · rintro ⟨-, named⟩
      exact Eq.trans named id.symm

/-- A declaration is active exactly when it is its hero's latest word about its edge. -/
theorem Keyed.latest_iff_among (keyed : Keyed sha256 log) (distinct : DistinctIds sha256 log) :
    (∃ edge, Latest log (.edge edge) ∧ edge.concordUid = uid ∧ edge.Between a b) ↔
      LatestDeclares sha256 uid a b log := by
  have same {edge : TrustEdge} (own : edge.concordUid = uid) (pair : edge.Between a b) :
      Latest log (.edge edge) ↔ LatestAmong (About sha256 uid a b) log (.edge edge) := by
    refine exists_congr fun before => exists_congr fun later => and_congr_right fun split => ?_
    subst split
    have iff := fun x hx => keyed.edgeId_eq_iff distinct (List.mem_append_right before
      List.mem_cons_self) own pair (x := x) hx
    have first (x : TrustLogEntry) (hx : x ∈ before) := iff x (List.mem_append_left _ hx)
    have rest (x : TrustLogEntry) (hx : x ∈ later) :=
      iff x (List.mem_append_right before (List.mem_cons_of_mem _ hx))
    constructor
    · rintro ⟨earlier, last⟩
      exact ⟨⟨own, pair⟩, fun x hx about => earlier x hx ((first x hx).mpr about),
        fun x hx about => last x hx ((rest x hx).mpr about)⟩
    · rintro ⟨-, earlier, last⟩
      exact ⟨fun x hx id => earlier x hx ((first x hx).mp id),
        fun x hx id => last x hx ((rest x hx).mp id)⟩
  constructor
  · rintro ⟨edge, latest, own, pair⟩
    exact ⟨edge, (same own pair).mp latest⟩
  · rintro ⟨edge, among⟩
    have about : About sha256 uid a b (.edge edge) := by
      obtain ⟨_, _, _, about, _⟩ := among
      exact about
    obtain ⟨own, pair⟩ := about
    exact ⟨edge, (same own pair).mpr among, own, pair⟩

/-- A log keeps one edge of one hero under each id when a declaration with its own id comes in. -/
theorem Keyed.declare (keyed : Keyed sha256 log) {calls : List StoreCall}
    (distinct : DistinctIds sha256 (calls.map StoreCall.entry))
    (own : ∀ entry ∈ log ++ [.edge edge], ∃ call ∈ calls, call.entry = entry)
    (id : edge.edgeId = computeTrustEdgeId sha256 edge.concordUid edge.serverA edge.serverB) :
    Keyed sha256 (log ++ [.edge edge]) := by
  have declared {e : TrustEdge} (mem : .edge e ∈ log ++ [TrustLogEntry.edge edge]) :
      .edge e ∈ log ∨ e = edge := by
    rcases List.mem_append.mp mem with old | new
    · exact .inl old
    · exact .inr (TrustLogEntry.edge.inj (List.mem_singleton.mp new))
  have revoked {r : TrustEdgeRevocation}
      (mem : .revocation r ∈ log ++ [TrustLogEntry.edge edge]) : .revocation r ∈ log := by
    rcases List.mem_append.mp mem with old | new
    · exact old
    · cases List.mem_singleton.mp new
  have ids (e : TrustEdge) (mem : .edge e ∈ log ++ [TrustLogEntry.edge edge]) :
      e.edgeId = computeTrustEdgeId sha256 e.concordUid e.serverA e.serverB := by
    rcases declared mem with old | rfl
    · exact keyed.ids e old
    · exact id
  refine ⟨ids, fun r mem => ?_, fun r e hr he same => ?_⟩
  · obtain ⟨e, he, same⟩ := keyed.named r (revoked mem)
    exact ⟨e, List.mem_append_left _ he, same⟩
  · obtain ⟨first, hfirst, named⟩ := keyed.named r (revoked hr)
    have digest : e.edgeId = first.edgeId := same.trans named.symm
    have hfirst' := List.mem_append_left [TrustLogEntry.edge edge] hfirst
    rw [ids e he, ids first hfirst'] at digest
    have entries {e : TrustEdge} (mem : .edge e ∈ log ++ [TrustLogEntry.edge edge]) :
        .edge e ∈ calls.map StoreCall.entry := List.mem_map.mpr (own _ mem)
    obtain ⟨uid, -⟩ := distinct e first (entries he) (entries hfirst') digest
    rw [← uid]
    exact keyed.owners r first (revoked hr) hfirst named

/-- And when a revocation by the hero of its id comes in. -/
theorem Keyed.revoke (keyed : Keyed sha256 log) {r : TrustEdgeRevocation}
    (owner : ∀ edge, .edge edge ∈ log → edge.edgeId = r.edgeId → edge.concordUid = r.concordUid)
    {entry : TrustLogEntry} (mem : entry ∈ log) (named : entry.edgeId = r.edgeId) :
    Keyed sha256 (log ++ [.revocation r]) := by
  have declared {e : TrustEdge} (mem : .edge e ∈ log ++ [TrustLogEntry.revocation r]) :
      .edge e ∈ log := by
    rcases List.mem_append.mp mem with old | new
    · exact old
    · cases List.mem_singleton.mp new
  have revoked {r' : TrustEdgeRevocation}
      (mem : .revocation r' ∈ log ++ [TrustLogEntry.revocation r]) :
      .revocation r' ∈ log ∨ r' = r := by
    rcases List.mem_append.mp mem with old | new
    · exact .inl old
    · exact .inr (TrustLogEntry.revocation.inj (List.mem_singleton.mp new))
  refine ⟨fun e mem => keyed.ids e (declared mem), fun r' mem => ?_, fun r' e hr he same => ?_⟩
  · have known : ∃ e, .edge e ∈ log ∧ e.edgeId = r'.edgeId := by
      rcases revoked mem with old | rfl
      · exact keyed.named r' old
      · cases entry with
        | edge e => exact ⟨e, ‹_›, named⟩
        | revocation first =>
          obtain ⟨e, he, same⟩ := keyed.named first ‹_›
          exact ⟨e, he, same.trans named⟩
    obtain ⟨e, he, same⟩ := known
    exact ⟨e, List.mem_append_left _ he, same⟩
  · rcases revoked hr with old | rfl
    · exact keyed.owners r' e old (declared he) same
    · exact owner e (declared he) same

end

/-! ## Runs -/

namespace StoreLedger

variable {ed : Ed25519} {aead : Aead} {codec : EntryCodec} {handle : TrustStoreHandle}
  {sha256 : List UInt8 → Vector UInt8 32} {key : List UInt8} {s : StoreLedger} {call : StoreCall}
  {calls : List StoreCall}

/-- What holds all along: the file holds the accepted entries, which are those of calls, and their
ids stand for one edge of one hero. -/
structure Consistent (ed : Ed25519) (aead : Aead) (codec : EntryCodec)
    (sha256 : List UInt8 → Vector UInt8 32) (key : List UInt8) (calls : List StoreCall)
    (s : StoreLedger) : Prop where
  holds : Holds ed aead codec key (s.file.getD []) s.accepted []
  own : ∀ entry ∈ s.accepted, ∃ call ∈ calls, call.entry = entry
  keyed : Keyed sha256 s.accepted

theorem Consistent.readLog (h : Consistent ed aead codec sha256 key calls s)
    (hkey : logKey handle = .ok key) :
    readLog ed aead codec handle s.file = some (.ok s.accepted) := by
  obtain ⟨extra, result, none, -⟩ := h.holds.exists_readLog_file hkey
  rwa [none rfl, List.append_nil] at result

theorem Consistent.step (h : Consistent ed aead codec sha256 key calls s) (correct : aead.Correct)
    (distinct : DistinctIds sha256 (calls.map StoreCall.entry))
    (reads : codec.fromSlice (codec.toVec call.entry) = .ok call.entry)
    (hkey : logKey handle = .ok key) (hcall : call ∈ calls)
    (ownId : OwnId ed aead codec handle sha256 s call) :
    Consistent ed aead codec sha256 key calls (step ed aead codec handle s call) := by
  unfold StoreLedger.step
  split
  · rename_i bytes answered
    obtain ⟨verifies, ⟨nonce, appended⟩, known⟩ := of_answer_ok answered
    obtain ⟨fits, id⟩ := ownId bytes answered
    obtain ⟨key', hkey', recorded⟩ := record_of_appendEntry appended
    cases hkey.symm.trans hkey'
    obtain ⟨payload, rfl, long, read⟩ := record_eq_framed correct ⟨reads, verifies⟩ recorded
    have own : ∀ entry ∈ s.accepted ++ [call.entry], ∃ call ∈ calls, call.entry = entry := by
      intro entry mem
      rcases List.mem_append.mp mem with old | new
      · exact h.own entry old
      · exact ⟨call, hcall, (List.mem_singleton.mp new).symm⟩
    refine ⟨h.holds.complete (long ▸ fits) read, own, ?_⟩
    cases call with
    | addEdge edge _ => exact h.keyed.declare distinct own id
    | revokeEdge revocation nonce =>
      obtain ⟨log, result, entry, mem, named⟩ := known revocation nonce rfl
      cases (h.readLog hkey).symm.trans result
      exact h.keyed.revoke id mem named
  · exact h

/-- A call adds its entry to the accepted ones or leaves the store as it was. -/
theorem step_cases (ed : Ed25519) (aead : Aead) (codec : EntryCodec) (handle : TrustStoreHandle)
    (s : StoreLedger) (call : StoreCall) : step ed aead codec handle s call = s ∨
      (step ed aead codec handle s call).accepted = s.accepted ++ [call.entry] := by
  unfold step
  split
  · exact .inr rfl
  · exact .inl rfl

/-- The call of another hero says nothing about the edges of this one. -/
theorem latestDeclares_step {uid : ConcordUid} {a b : String}
    (other : call.entry.concordUid ≠ uid) :
    LatestDeclares sha256 uid a b (step ed aead codec handle s call).accepted ↔
      LatestDeclares sha256 uid a b s.accepted := by
  have foreign : ¬About sha256 uid a b call.entry := fun about => other about.1
  rcases step_cases ed aead codec handle s call with same | more
  · rw [same]
  · rw [more]
    exact exists_congr fun edge => latestAmong_concat foreign

theorem consistent_start : Consistent ed aead codec sha256 key calls start where
  holds := holds_nil
  own _ h := by cases h
  keyed := ⟨fun _ h => (by cases h), fun _ h => (by cases h), fun _ _ h => (by cases h)⟩

theorem Consistent.reports_iff (h : Consistent ed aead codec sha256 key calls s)
    (distinct : DistinctIds sha256 (calls.map StoreCall.entry)) {path : String}
    (hpath : resolvePaths handle = .ok path) (hkey : logKey handle = .ok key) {uid : ConcordUid}
    {a b : String} : Reports ed aead codec handle s uid a b ↔
      LatestDeclares sha256 uid a b s.accepted := by
  have listed := listEdges_of_readLog hpath (h.readLog hkey)
  have accepted : DistinctIds sha256 s.accepted := fun edge edge' mem mem' =>
    distinct edge edge' (List.mem_map.mpr (h.own _ mem)) (List.mem_map.mpr (h.own _ mem'))
  unfold Reports
  simp only [listed, Option.some.injEq, Except.ok.injEq, exists_eq_left', mem_activeEdges_iff]
  exact h.keyed.latest_iff_among accepted

/-- Nothing is reported of a store that nothing was accepted into. -/
theorem reports_start_iff {uid : ConcordUid} {a b : String} :
    Reports ed aead codec handle start uid a b ↔
      LatestDeclares sha256 uid a b start.accepted := by
  refine iff_of_false ?_ ?_
  · rintro ⟨edges, listed, edge, mem, -⟩
    unfold listEdges listLog at listed
    split at listed
    · cases listed
    · cases listed
      exact List.not_mem_nil (mem_activeEdges_iff.mp mem).mem
  · rintro ⟨edge, before, later, split, -⟩
    exact absurd split.symm (List.append_ne_nil_of_right_ne_nil _ (List.cons_ne_nil _ _))

end StoreLedger

open StoreLedger in
/-- In a run in which every accepted call has an id of its own hero, the store reports, in every
state, the edges that are declared by their hero's latest word, and an entry of another hero changes
nothing about them. -/
theorem listEdges_iff_latest (ed : Ed25519) (aead : Aead) (codec : EntryCodec)
    (handle : TrustStoreHandle) (sha256 : List UInt8 → Vector UInt8 32) (calls : List StoreCall)
    (correct : aead.Correct)
    (reads : ∀ call ∈ calls, codec.fromSlice (codec.toVec call.entry) = .ok call.entry)
    (distinct : DistinctIds sha256 (calls.map StoreCall.entry))
    (ownIds : Along (StoreLedger.step ed aead codec handle) (OwnId ed aead codec handle sha256)
      .start calls) :
    let after := run (StoreLedger.step ed aead codec handle) .start
    (∀ before later, calls = before ++ later → ∀ uid a b,
      Reports ed aead codec handle (after before) uid a b ↔
        LatestDeclares sha256 uid a b (after before).accepted) ∧
    ∀ before call later, calls = before ++ call :: later →
      ∀ uid, call.entry.concordUid ≠ uid → ∀ a b,
        Reports ed aead codec handle (after (before ++ [call])) uid a b ↔
          Reports ed aead codec handle (after before) uid a b := by
  intro after
  have agrees : ∀ before later, calls = before ++ later → ∀ uid a b,
      Reports ed aead codec handle (after before) uid a b ↔
        LatestDeclares sha256 uid a b (after before).accepted := by
    intro before later split uid a b
    have known : Along (StoreLedger.step ed aead codec handle)
        (fun s call => call ∈ before ∧ OwnId ed aead codec handle sha256 s call) .start before := by
      rw [split] at ownIds
      exact ownIds.of_append.and_forall fun call hcall => hcall
    by_cases usable : ∃ path key, resolvePaths handle = .ok path ∧ logKey handle = .ok key
    · obtain ⟨path, key, hpath, hkey⟩ := usable
      have consistent : Consistent ed aead codec sha256 key calls (after before) := by
        refine invariant (Consistent ed aead codec sha256 key calls) (fun s call known h => ?_)
          known consistent_start
        have hcall : call ∈ calls := split ▸ List.mem_append_left later known.1
        exact h.step correct distinct (reads call hcall) hkey hcall known.2
      exact consistent.reports_iff distinct hpath hkey
    · have same : after before = .start := by
        refine invariant (· = .start) (fun s call _ same => ?_) known rfl
        rw [step_eq_self fun path key hpath hkey => usable ⟨path, key, hpath, hkey⟩, same]
      rw [same]
      exact reports_start_iff
  refine ⟨agrees, fun before call later split uid other a b => ?_⟩
  rw [agrees (before ++ [call]) later (by rw [split, List.append_assoc]; rfl),
    agrees before (call :: later) split]
  have last : after (before ++ [call]) =
      StoreLedger.step ed aead codec handle (after before) call := run_append ..
  rw [last]
  exact latestDeclares_step other

/-! ## A revocation by another hero -/

/-- A cipher that takes its text for itself and adds sixteen bytes. -/
def plainAead : Aead where
  encrypt _ _ plaintext := .ok (plaintext ++ List.replicate 16 0)
  decrypt _ _ ciphertext := .ok (ciphertext.take (ciphertext.length - 16))

theorem plainAead_correct : plainAead.Correct := by
  constructor
  · rintro _ _ plaintext _ ⟨⟩
    rw [List.length_append, List.length_replicate]
  · rintro _ _ plaintext _ ⟨⟩
    simp only [plainAead, List.length_append, List.length_replicate, Nat.add_sub_cancel,
      List.take_left]

def otherHero : ConcordUid := ⟨Vector.replicate 32 1⟩

def ownEdge : TrustEdge := onceDeclared "0000000000000000"

/-- Another hero revokes the id of the edge. -/
def foreignRevocation : TrustEdgeRevocation :=
  ⟨"0000000000000000", otherHero, 2, Vector.replicate 64 0⟩

/-- A codec that knows the edge and the revocation. -/
def twoCodec : EntryCodec where
  toVec
    | .edge _ => [0]
    | .revocation _ => [1]
  fromSlice text := .ok (if text = [0] then .edge ownEdge else .revocation foreignRevocation)

def declareCall : StoreCall := .addEdge ownEdge (Vector.replicate 12 7)

def revokeCall : StoreCall := .revokeEdge foreignRevocation (Vector.replicate 12 7)

/-- A declaration with the id of its servers is reported. -/
theorem listEdges_iff_latest_declared :
    StoreLedger.Reports signedAll plainAead twoCodec openHandle
      (run (StoreLedger.step signedAll plainAead twoCodec openHandle) .start [declareCall]) onceHero
      "a.example" "b.example" ↔
    LatestDeclares zeroDigest onceHero "a.example" "b.example"
      (run (StoreLedger.step signedAll plainAead twoCodec openHandle) .start
        [declareCall]).accepted := by
  refine (listEdges_iff_latest signedAll plainAead twoCodec openHandle zeroDigest [declareCall]
    plainAead_correct (fun call hcall => ?_) (fun edge edge' mem mem' _ => ?_) ?_).1 [declareCall] []
    rfl onceHero "a.example" "b.example"
  · cases List.mem_singleton.mp hcall
    rfl
  · cases List.mem_singleton.mp mem
    cases List.mem_singleton.mp mem'
    exact ⟨rfl, .inl ⟨rfl, rfl⟩⟩
  · have small : trustNonceLen + (1 + 16) < 256 ^ 4 := by decide
    exact ⟨fun _ _ => ⟨small, rfl⟩, trivial⟩

/-- The store takes the revocation, and no longer reports the edge that its hero declares. -/
theorem foreign_revocation_revokes : ¬∀ (ed : Ed25519) (aead : Aead) (codec : EntryCodec)
    (handle : TrustStoreHandle) (sha256 : List UInt8 → Vector UInt8 32) (calls : List StoreCall),
    aead.Correct →
    (∀ call ∈ calls, codec.fromSlice (codec.toVec call.entry) = .ok call.entry) →
    DistinctIds sha256 (calls.map StoreCall.entry) →
    (∀ call ∈ calls, call.entry.verify ed = true) →
    let s := run (StoreLedger.step ed aead codec handle) .start calls
    ∀ uid a b, StoreLedger.Reports ed aead codec handle s uid a b ↔
      LatestDeclares sha256 uid a b s.accepted := by
  intro all
  have agrees := all signedAll plainAead twoCodec openHandle zeroDigest [declareCall, revokeCall]
    plainAead_correct (fun call hcall => ?_) (fun edge edge' mem mem' _ => ?_) (fun call hcall => ?_)
    onceHero "a.example" "b.example"
  · have accepted : (run (StoreLedger.step signedAll plainAead twoCodec openHandle) .start
        [declareCall, revokeCall]).accepted = [.edge ownEdge, .revocation foreignRevocation] := by rfl
    have read : readLog signedAll plainAead twoCodec openHandle
        (run (StoreLedger.step signedAll plainAead twoCodec openHandle) .start
          [declareCall, revokeCall]).file =
        some (.ok [.edge ownEdge, .revocation foreignRevocation]) := by rfl
    have declares : LatestDeclares zeroDigest onceHero "a.example" "b.example"
        [.edge ownEdge, .revocation foreignRevocation] := by
      refine ⟨ownEdge, [], _, rfl, ⟨rfl, .inl ⟨rfl, rfl⟩⟩, fun x hx => (by cases hx), ?_⟩
      intro x hx about
      cases List.mem_singleton.mp hx
      exact absurd about.1 (by decide)
    rw [accepted] at agrees
    obtain ⟨edges, result, edge, mem, -⟩ := agrees.mpr declares
    cases (listEdges_of_readLog rfl read).symm.trans result
    have latest := mem_activeEdges_iff.mp mem
    rcases List.mem_cons.mp latest.mem with same | absent
    · cases same
      have later := latest.time_le (List.mem_cons_of_mem _ List.mem_cons_self) rfl
      exact absurd later (by decide)
    · cases List.mem_singleton.mp absent
  · rcases List.mem_cons.mp hcall with rfl | hcall
    · rfl
    · rw [List.mem_singleton.mp hcall]
      rfl
  · have declared {e : TrustEdge}
        (he : .edge e ∈ [declareCall, revokeCall].map StoreCall.entry) : e = ownEdge := by
      rcases List.mem_cons.mp he with same | he
      · exact TrustLogEntry.edge.inj same
      · cases List.mem_singleton.mp he
    rw [declared mem, declared mem']
    exact ⟨rfl, .inl ⟨rfl, rfl⟩⟩
  · rcases List.mem_cons.mp hcall with rfl | hcall
    · rfl
    · rw [List.mem_singleton.mp hcall]
      rfl

end Concorrd
