import Concorrd.Lib.Run
import Concorrd.Api.Moderation

/-!
# Votes that overlap

The requests that name one vote load its row and commit later, and others may commit in between. A
commit writes the columns that differ from what was loaded.

Whatever overlaps, the row holds no vote that was not cast; and votes are lost exactly where a commit
writes over voters that it has not loaded (`kept_iff_fresh`).
-/

namespace Concorrd.Api

open Machine

/-- An id that a text of voters can hold. -/
def Plain (id : String) : Prop := id ≠ "" ∧ ',' ∉ id.toList

/-- The user a request is authenticated as. -/
structure VoterId where
  text : String
  plain : Plain text

/-- The text of one side. -/
def VoteKick.side (vote : VoteKick) (yes : Bool) : String :=
  if yes then vote.votesYes else vote.votesNo

inductive VoteRequest where
  | cast (userId : VoterId) (yes : Bool) (order : SetOrder)
  | setEligible (count : Nat)
  | execute

/-- What the session of a request has pending on the vote, when the request is not refused. -/
def VoteRequest.handled (vote : VoteKick) : VoteRequest → Option VoteKick
  | .cast userId yes order => (vote.cast order userId.text yes).toOption
  | .setEligible count => (vote.setEligible count).toOption
  | .execute => if vote.status = .passed then some { vote with status := .executed } else none

/-- What is pending, written over the row. -/
def VoteKick.flushed (vote read after : VoteKick) : VoteKick :=
  { vote with
    votesYes := if after.votesYes = read.votesYes then vote.votesYes else after.votesYes
    votesNo := if after.votesNo = read.votesNo then vote.votesNo else after.votesNo
    totalEligible :=
      if after.totalEligible = read.totalEligible then vote.totalEligible else after.totalEligible
    status := if after.status = read.status then vote.status else after.status }

/-- A request between its load and its commit: the row it has loaded, and what it has pending. -/
structure LoadedVote where
  request : VoteRequest
  read : VoteKick
  after : VoteKick

/-- The row of the vote, the requests under way, and those that were committed. -/
structure VoteRun where
  vote : VoteKick
  loaded : List LoadedVote := []
  log : List VoteRequest := []

/-- A request comes and loads the row, or one that is under way commits. One that fails commits
never. -/
inductive VoteEvent where
  | load (request : VoteRequest)
  | commit (i : Nat)

namespace VoteRun

def step (s : VoteRun) : VoteEvent → VoteRun
  | .load request =>
    match request.handled s.vote with
    | some after => { s with loaded := s.loaded ++ [⟨request, s.vote, after⟩] }
    | none => s
  | .commit i =>
    match s.loaded[i]? with
    | some c =>
      { vote := s.vote.flushed c.read c.after
        loaded := s.loaded.eraseIdx i
        log := s.log ++ [c.request] }
    | none => s

end VoteRun

/-- The request is a vote of the user. -/
def VoteRequest.Casts (voter : String) (yes : Bool) : VoteRequest → Prop
  | .cast userId side _ => voter = userId.text ∧ yes = side
  | _ => False

namespace VoteRun

/-- Who started the vote is for it, and so is or is not whoever has cast a vote. -/
def Voted (first : VoteKick) (log : List VoteRequest) (voter : String) (yes : Bool) : Prop :=
  voter = first.initiatedBy ∧ yes = true ∨ ∃ request ∈ log, request.Casts voter yes

/-- The row holds every vote that was cast. -/
def Kept (first : VoteKick) (s : VoteRun) : Prop :=
  ∀ voter yes, Voted first s.log voter yes → voter ∈ voters (s.vote.side yes)

/-- A commit does not write a text of voters over one with voters that it lacks. -/
def Fresh (s : VoteRun) : VoteEvent → Prop
  | .load _ => True
  | .commit i => ∀ c, s.loaded[i]? = some c → ∀ yes, c.after.side yes ≠ c.read.side yes →
      voters (s.vote.side yes) ⊆ voters (c.after.side yes)

end VoteRun

/-! ## One vote more -/

section

variable {vote after : VoteKick} {userId voter : String} {order : SetOrder} {yes side : Bool}
  {ids : List String}

/-- What is joined reads back. -/
theorem mem_voters_joinVoters (plain : ∀ id ∈ ids, Plain id) :
    voter ∈ voters (joinVoters ids) ↔ voter ∈ ids := by
  have pieces : ((joinVoters ids).toList.splitOn ',').map String.ofList =
      if ids = [] then [""] else ids := by
    rw [joinVoters, String.toList_ofList]
    split
    · rename_i none
      rw [none]
      rfl
    · rename_i some
      rw [List.splitOn_intercalate, List.map_map]
      · exact (List.map_congr_left fun id _ => String.ofList_toList).trans (List.map_id ids)
      · rintro _ joined
        obtain ⟨id, mem, rfl⟩ := List.mem_map.mp joined
        exact (plain id mem).2
      · exact fun none => some (List.map_eq_nil_iff.mp none)
  rw [voters, List.mem_dedup, pieces, List.mem_filter, decide_eq_true_iff]
  split
  · rename_i none
    rw [none]
    exact iff_of_false (fun h => h.2 (List.mem_singleton.mp h.1)) List.not_mem_nil
  · exact and_iff_left_of_imp fun mem => (plain voter mem).1

theorem VoteKick.cast_ok (h : vote.cast order userId yes = .ok after) :
    userId ∉ voters (vote.side side) ∧ after.side side = joinVoters (order.list
      (if side = yes then userId :: voters (vote.side side) else voters (vote.side side))) := by
  simp only [VoteKick.cast, refuse_bind, pure_eq_ok, not_or] at h
  obtain ⟨-, -, new, rfl⟩ := h
  cases side
  · exact ⟨new.2, by cases yes <;> rfl⟩
  · exact ⟨new.1, by cases yes <;> rfl⟩

theorem VoteKick.mem_cast (plain : ∀ id ∈ userId :: voters (vote.side side), Plain id)
    (h : vote.cast order userId yes = .ok after) : voter ∈ voters (after.side side) ↔
      voter ∈ voters (vote.side side) ∨ voter = userId ∧ side = yes := by
  rw [(VoteKick.cast_ok h).2, mem_voters_joinVoters, (order.perm _).mem_iff]
  · split
    · rename_i same
      rw [List.mem_cons, and_iff_left same, or_comm]
    · rename_i other
      rw [or_iff_left fun new => other new.2]
  · intro id mem
    have mem := (order.perm _).mem_iff.mp mem
    split at mem
    · exact plain id mem
    · exact plain id (List.mem_cons_of_mem _ mem)

/-- What is pending has the vote that is cast, if any, besides those that were loaded. -/
theorem mem_handled {request : VoteRequest} (plain : ∀ id ∈ voters (vote.side side), Plain id)
    (handled : request.handled vote = some after) :
    (voter ∈ voters (after.side side) ↔
        voter ∈ voters (vote.side side) ∨ request.Casts voter side) ∧
      (request.Casts voter side → voter ∉ voters (vote.side side)) := by
  have ok {x : Except HttpError VoteKick} (h : x.toOption = some after) : x = .ok after := by
    cases x <;> cases h
    rfl
  cases request with
  | cast userId yes order =>
    refine ⟨VoteKick.mem_cast (List.forall_mem_cons.mpr ⟨userId.plain, plain⟩) (ok handled), ?_⟩
    rintro ⟨rfl, -⟩
    exact (VoteKick.cast_ok (ok handled)).1
  | setEligible count =>
    have set := ok handled
    simp only [VoteKick.setEligible, refuse_bind, pure_eq_ok] at set
    rw [set.2]
    exact ⟨(or_iff_left id).symm, False.elim⟩
  | execute =>
    rw [VoteRequest.handled] at handled
    split at handled
    · cases handled
      exact ⟨(or_iff_left id).symm, False.elim⟩
    · cases handled

theorem VoteKick.side_flushed {read : VoteKick} : (vote.flushed read after).side side =
    if after.side side = read.side side then vote.side side else after.side side := by
  cases side <;> rfl

end

/-! ## Runs -/

namespace VoteRun

variable {first vote : VoteKick} {log : List VoteRequest} {request : VoteRequest} {s : VoteRun}
  {voter : String} {yes : Bool}

theorem voted_concat : Voted first (log ++ [request]) voter yes ↔
    Voted first log voter yes ∨ request.Casts voter yes := by
  simp only [Voted, List.mem_append, List.mem_singleton, or_and_right, exists_or, exists_eq_left,
    or_assoc]

/-- Every vote a row holds was cast. -/
def Genuine (first : VoteKick) (log : List VoteRequest) (vote : VoteKick) : Prop :=
  ∀ voter yes, voter ∈ voters (vote.side yes) → Voted first log voter yes

theorem Genuine.plain (start : Plain first.initiatedBy) (h : Genuine first log vote) :
    ∀ id ∈ voters (vote.side yes), Plain id := by
  intro id mem
  rcases h id yes mem with ⟨rfl, -⟩ | ⟨request, -, casts⟩
  · exact start
  · cases request with
    | cast userId => exact casts.1 ▸ userId.plain
    | _ => cases casts

/-- So it is of the row, and of the rows that were loaded. -/
structure Sound (first : VoteKick) (s : VoteRun) : Prop where
  row : Genuine first s.log s.vote
  loaded : ∀ c ∈ s.loaded, Genuine first s.log c.read ∧ c.request.handled c.read = some c.after

theorem sound_step (start : Plain first.initiatedBy) (h : s.Sound first) (e : VoteEvent) :
    (s.step e).Sound first := by
  cases e with
  | load request =>
    rw [step]
    split
    · rename_i handled
      refine ⟨h.row, fun c mem => ?_⟩
      rcases List.mem_append.mp mem with mem | mem
      · exact h.loaded c mem
      · cases List.mem_singleton.mp mem
        exact ⟨h.row, handled⟩
    · exact h
  | commit i =>
    rw [step]
    split
    · rename_i c there
      obtain ⟨genuine, handled⟩ := h.loaded c (List.mem_of_getElem? there)
      refine ⟨fun voter yes mem => voted_concat.mpr ?_, fun other mem => ?_⟩
      · rw [VoteKick.side_flushed] at mem
        split at mem
        · exact .inl (h.row voter yes mem)
        · exact ((mem_handled (genuine.plain start) handled).1.mp mem).imp_left (genuine voter yes)
      · obtain ⟨genuine, handled⟩ := h.loaded other (List.mem_of_mem_eraseIdx mem)
        exact ⟨fun voter yes mem => voted_concat.mpr (.inl (genuine voter yes mem)), handled⟩
    · exact h

/-- A commit loses no vote exactly when it is fresh. -/
theorem kept_step_iff (start : Plain first.initiatedBy) (sound : s.Sound first) (h : s.Kept first)
    (e : VoteEvent) : (s.step e).Kept first ↔ s.Fresh e := by
  cases e with
  | load request =>
    refine iff_of_true ?_ trivial
    rw [step]
    split <;> exact h
  | commit i =>
    rw [step, Fresh]
    cases there : s.loaded[i]? with
    | none => exact iff_of_true h fun c none => by cases none
    | some c =>
      obtain ⟨genuine, handled⟩ := sound.loaded c (List.mem_of_getElem? there)
      constructor
      · rintro kept _ ⟨⟩ yes differs voter mem
        have now := kept voter yes (voted_concat.mpr (.inl (sound.row voter yes mem)))
        rwa [VoteKick.side_flushed, if_neg differs] at now
      · intro fresh voter yes voted
        show voter ∈ voters ((s.vote.flushed c.read c.after).side yes)
        obtain ⟨cast, new⟩ : (voter ∈ voters (c.after.side yes) ↔ voter ∈ voters (c.read.side yes) ∨
            c.request.Casts voter yes) ∧ _ := mem_handled (genuine.plain start) handled
        rw [VoteKick.side_flushed]
        split
        · rename_i same
          refine h voter yes ((voted_concat.mp voted).resolve_right fun casts => new casts ?_)
          exact same ▸ cast.mpr (.inr casts)
        · rename_i differs
          rcases voted_concat.mp voted with before | casts
          · exact fresh c rfl yes differs (h voter yes before)
          · exact cast.mpr (.inr casts)

/-- **Votes that overlap.** In every run of requests on a started vote, whatever overlaps, the row holds
no vote that was not cast; and in all its states it holds every vote that was committed exactly when no
commit writes over voters that it has not loaded. -/
theorem kept_iff_fresh {db : Db} {serverId : String} {body : VoteKickStart} {userId : VoterId}
    {answer : List (String × Json)}
    (started : startVoteKick db serverId body userId.text = .ok ⟨answer, [.addVoteKick first]⟩)
    (es : List VoteEvent) :
    (let s := run step ⟨first, [], []⟩ es; Genuine first s.log s.vote) ∧
    (Along step (fun s e => (s.step e).Kept first) ⟨first, [], []⟩ es ↔
      Along step Fresh ⟨first, [], []⟩ es) := by
  obtain ⟨-, -, -, -, same⟩ := startVoteKick_ok.mp started
  have start : Plain first.initiatedBy := by
    cases same
    exact userId.plain
  have opens (voter : String) (yes : Bool) :
      voter ∈ voters (first.side yes) ↔ Voted first [] voter yes := by
    have text : first.side yes = joinVoters (if yes then [first.initiatedBy] else []) := by
      cases same
      cases yes
      · rfl
      · simp [VoteKick.side, joinVoters]
    rw [text, mem_voters_joinVoters] <;> cases yes <;> simp [Voted, start]
  have sound : Sound first ⟨first, [], []⟩ :=
    ⟨fun voter yes => (opens voter yes).mp, fun _ none => by cases none⟩
  refine ⟨(invariant (P := fun _ _ => True) (Sound first) (fun _ e _ h => sound_step start h e)
    (Along.of_forall fun _ _ => trivial) sound).row, ?_⟩
  exact along_congr_under (fun s => s.Sound first ∧ s.Kept first)
    (fun s e inv kept => ⟨sound_step start inv.1 e, kept⟩)
    (fun s e inv => kept_step_iff start inv.1 inv.2 e)
    ⟨sound, fun voter yes => (opens voter yes).mpr⟩

/-- Ann has started a vote on Bob. -/
def onBob : VoteKick :=
  { serverId := "home", channelId := "!talk:x", targetUserId := "@bob:x", initiatedBy := "@ann:x",
    votesYes := "@ann:x" }

/-- Two users vote on it at once. -/
def bothVote : List VoteEvent :=
  [.load (.cast ⟨"@cid:x", by unfold Plain; decide⟩ true ⟨id, .refl⟩),
    .load (.cast ⟨"@dan:x", by unfold Plain; decide⟩ true ⟨id, .refl⟩), .commit 0, .commit 0]

theorem kept_iff_fresh_onBob :
    Along step (fun s e => (s.step e).Kept onBob) ⟨onBob, [], []⟩ bothVote ↔
      Along step Fresh ⟨onBob, [], []⟩ bothVote := by
  let db : Db := { members := [⟨"home", "@ann:x", .member, false, false, none⟩,
    ⟨"home", "@bob:x", .member, false, false, none⟩] }
  let ann : VoterId := ⟨"@ann:x", by unfold Plain; decide⟩
  have started : startVoteKick db "home" ⟨"!talk:x", ⟨"@bob:x", by decide, by decide⟩, 0⟩ ann.text =
      .ok ⟨[("vote_id", .num 1), ("status", .str "active")], [.addVoteKick onBob]⟩ := rfl
  exact (kept_iff_fresh started _).2

end VoteRun

end Concorrd.Api
