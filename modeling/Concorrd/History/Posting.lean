import Concorrd.History.Latest
import Concorrd.Porch.Ephemeral

/-!
# Reading in the order of posting

Posts to one channel, one after the other, under a clock that never steps back. The persistent porch orders
what it reads by time and id and the ephemeral one keeps a queue. An id begins with the time it was made at
and ends at random, so within a millisecond the ids say nothing about the order: `reading_order_iff`.
-/

namespace Concorrd

/-- A post that is accepted: the clock when its id is made, the id, and the clock when it is stamped. -/
structure Post where
  authorPeerId : String
  body : String
  idClock : Int64
  id : String
  now : Int64

namespace Post

/-- The message on the persistent porch. -/
def message (channelId : String) (post : Post) : ChannelMessage :=
  ⟨post.id, channelId, post.authorPeerId, post.body, post.now⟩

/-- The message on the ephemeral porch. -/
def ephemeral (channelId : String) (post : Post) : EphemeralMessage :=
  ⟨post.id, channelId, post.authorPeerId, post.body, post.now⟩

/-- What is known of a post and a later one. -/
structure Before (a b : Post) : Prop where
  within : a.idClock ≤ a.now ∧ b.idClock ≤ b.now
  clock : a.now ≤ b.idClock
  leading : a.idClock < b.idClock → a.id < b.id
  distinct : a.id ≠ b.id

end Post

/-- Posts in their order. The clock counts from the epoch and never steps back, an id made later has the
greater leading part, and no id is made twice. -/
structure Posts where
  posts : List Post
  positive : ∀ post ∈ posts, 0 ≤ post.now
  before : posts.Pairwise Post.Before

namespace Posts

variable (c : Posts)

/-- Two posts with the id and the stamp of each in one millisecond got ids in their order. -/
def StampedInOrder : Prop :=
  c.posts.Pairwise fun a b => a.now = b.now → a.idClock = b.idClock → a.id < b.id

/-- Of the posts that are retained, two with ids made in one millisecond got them in their order. -/
def RetainedInOrder : Prop :=
  (c.posts.rtake maxMessagesPerChannel).Pairwise fun a b => a.idClock = b.idClock → a.id < b.id

end Posts

/-- The porch after the posts, where each is accepted. -/
def Porch.postAll (channelId : String) (p : Porch) : List Post → Except PorchError Porch
  | [] => .ok p
  | post :: rest =>
    match p.postMessage channelId post.authorPeerId post.body post.id post.now with
    | .error e => .error e
    | .ok out => Porch.postAll channelId out.porch rest

def EphemeralPorch.sendAll (channelId : String) (p : EphemeralPorch) : List Post → Except PorchAuthError EphemeralPorch
  | [] => .ok p
  | post :: rest =>
    match p.sendMessage channelId post.authorPeerId post.body post.id post.now with
    | .error e => .error e
    | .ok out => EphemeralPorch.sendAll channelId out.1 rest

/-! ## What is stored -/

section
variable {p p' : Porch} {channelId authorPeerId body id : String} {now : Int64} {posts : List Post}

/-- The messages of a channel, as they are stored. -/
def Porch.storedMessages (p : Porch) (channelId : String) : List ChannelMessage :=
  ((p.tables .channelMessages).rows.filter fun row => row.cols.channelId = channelId).map Row.cols

theorem storedMessages_postMessage {out : Outcome ChannelMessage}
    (posted : p.postMessage channelId authorPeerId body id now = .ok out) :
    out.porch.storedMessages channelId = p.storedMessages channelId ++ [⟨id, channelId, authorPeerId, body, now⟩] ∧
      out.porch.getChannel channelId = p.getChannel channelId := by
  rw [Porch.postMessage] at posted
  split at posted
  · cases posted
  split at posted
  · cases posted
  split at posted
  · cases posted
  obtain ⟨db, inserted, rfl⟩ := Porch.finish_eq_ok posted
  obtain ⟨rows, frame⟩ := Database.rows_of_insert inserted
  constructor
  · show ((db.tables .channelMessages).rows.filter _).map Row.cols = _
    rw [rows, List.filter_append, List.map_append]
    simp [Porch.storedMessages, Porch.stampRow]
  · show ((db.tables .porchChannels).find? channelId).map _ = _
    rw [frame .porchChannels (by decide)]
    rfl

theorem storedMessages_postAll (posted : p.postAll channelId posts = .ok p') :
    p'.storedMessages channelId = p.storedMessages channelId ++ posts.map (Post.message channelId) ∧
      p'.getChannel channelId = p.getChannel channelId := by
  induction posts generalizing p with
  | nil =>
    cases posted
    exact ⟨(List.append_nil _).symm, rfl⟩
  | cons post rest ih =>
    rw [Porch.postAll] at posted
    split at posted
    · cases posted
    · rename_i out accepted
      obtain ⟨stored, channel⟩ := storedMessages_postMessage accepted
      obtain ⟨rest, same⟩ := ih posted
      rw [rest, stored, List.append_assoc, same, channel]
      exact ⟨rfl, rfl⟩

/-- What is read is what is stored, in order of age. -/
theorem getMessages_of_stored (there : (p.getChannel channelId).isSome = true)
    (timed : ∀ m ∈ p.storedMessages channelId, Int64.minValue < m.createdAt) {limit : UInt32}
    (fits : (p.storedMessages channelId).length ≤ (min limit maxMessagesPerQuery).toNat) :
    p.getMessages channelId none limit = .ok ((p.storedMessages channelId).insertionSort fun a b =>
      (toLex (a.createdAt, a.id) : AgeKey) ≤ toLex (b.createdAt, b.id)) := by
  have found : ¬ (p.getChannel channelId).isNone = true := by
    rw [← Option.not_isSome, there]
    exact Bool.false_ne_true
  have all : (p.tables .channelMessages).rows.filter
      (fun row => row.cols.channelId = channelId ∧ (none : Option Int64).getD Int64.minValue < row.cols.createdAt) =
        (p.tables .channelMessages).rows.filter fun row => row.cols.channelId = channelId := by
    refine List.filter_congr fun row mem => ?_
    by_cases own : row.cols.channelId = channelId
    · have stored : row.cols ∈ p.storedMessages channelId :=
        List.mem_map_of_mem (List.mem_filter.mpr ⟨mem, decide_eq_true own⟩)
      simp [own, timed row.cols stored]
    · simp [own]
  rw [Porch.getMessages, if_neg found, all]
  exact congrArg Except.ok (List.take_of_length_le (by rwa [List.length_insertionSort]))

/-- Messages are read as they are stored exactly when they are stored in order of age. -/
theorem insertionSort_eq_self_iff {messages : List ChannelMessage} :
    (messages.insertionSort fun a b =>
      (toLex (a.createdAt, a.id) : AgeKey) ≤ toLex (b.createdAt, b.id)) = messages ↔
    messages.Pairwise fun a b => (toLex (a.createdAt, a.id) : AgeKey) ≤ toLex (b.createdAt, b.id) := by
  constructor
  · intro same
    have total : Std.Total fun a b : ChannelMessage =>
        (toLex (a.createdAt, a.id) : AgeKey) ≤ toLex (b.createdAt, b.id) := ⟨fun a b => le_total _ _⟩
    have trans : IsTrans ChannelMessage fun a b =>
        (toLex (a.createdAt, a.id) : AgeKey) ≤ toLex (b.createdAt, b.id) := ⟨fun a b c => le_trans⟩
    rw [← same]
    exact List.pairwise_insertionSort _ messages
  · exact fun sorted => sorted.insertionSort_eq

end

section
variable {p p' : EphemeralPorch} {channelId : String} {posts : List Post}

theorem getMessages_sendAll {sent : List EphemeralMessage}
    (queue : p.getMessages channelId = sent.rtake maxMessagesPerChannel)
    (accepted : p.sendAll channelId posts = .ok p') :
    p'.getMessages channelId = (sent ++ posts.map (Post.ephemeral channelId)).rtake maxMessagesPerChannel := by
  induction posts generalizing p sent with
  | nil =>
    cases accepted
    rw [queue, List.map_nil, List.append_nil]
  | cons post rest ih =>
    rw [EphemeralPorch.sendAll] at accepted
    split at accepted
    · cases accepted
    · rename_i out ok
      have pushed := EphemeralPorch.sendMessage_eq_ok ok
      rw [queue, EphemeralPorch.pushBack_rtake] at pushed
      rw [ih pushed accepted, List.append_assoc]
      rfl

end

/-! ## The order of the ids -/

theorem pairwise_iff_of {α : Type} {F R S : α → α → Prop} {l : List α} (known : l.Pairwise F)
    (agree : ∀ a b, F a b → (R a b ↔ S a b)) : l.Pairwise R ↔ l.Pairwise S :=
  ⟨fun h => (known.and h).imp fun {a b} both => (agree a b both.1).mp both.2,
    fun h => (known.and h).imp fun {a b} both => (agree a b both.1).mpr both.2⟩

namespace Post

variable {a b : Post}

/-- A later post is not younger exactly when ids and stamps of one millisecond are in order. -/
theorem Before.age_iff (h : a.Before b) : (toLex (a.now, a.id) : AgeKey) ≤ toLex (b.now, b.id) ↔
    (a.now = b.now → a.idClock = b.idClock → a.id < b.id) := by
  have stamps : a.now ≤ b.now := h.clock.trans h.within.2
  constructor
  · intro le same _
    rcases Prod.Lex.le_iff.mp le with less | ⟨-, ids⟩
    · exact absurd same (ne_of_lt less)
    · exact lt_of_le_of_ne ids h.distinct
  · intro ordered
    rcases lt_or_eq_of_le stamps with less | same
    · exact Prod.Lex.le_iff.mpr (.inl less)
    · refine Prod.Lex.le_iff.mpr (.inr ⟨same, ?_⟩)
      rcases lt_or_eq_of_le (h.within.1.trans h.clock) with less | made
      · exact le_of_lt (h.leading less)
      · exact le_of_lt (ordered same made)

theorem Before.id_iff (h : a.Before b) : a.id < b.id ↔ (a.idClock = b.idClock → a.id < b.id) := by
  constructor
  · exact fun less _ => less
  · intro ordered
    rcases lt_or_eq_of_le (h.within.1.trans h.clock) with less | made
    · exact h.leading less
    · exact ordered made

end Post

/-! ## Reading -/

/-- The persistent porch reads the posts in their order exactly when the ids of one millisecond are in order,
and the ephemeral one, which always does, has them sorted by id exactly when those that it retains are. -/
theorem reading_order_iff (c : Posts) :
    (∀ (p p' : Porch) (channelId : String) (limit : UInt32), (p.getChannel channelId).isSome = true →
      p.storedMessages channelId = [] → p.postAll channelId c.posts = .ok p' →
        c.posts.length ≤ (min limit maxMessagesPerQuery).toNat →
          (p'.getMessages channelId none limit = .ok (c.posts.map (Post.message channelId)) ↔ c.StampedInOrder)) ∧
    (∀ (p p' : EphemeralPorch) (channelId : String), p.getMessages channelId = [] →
      p.sendAll channelId c.posts = .ok p' →
        (p'.getMessages channelId = (c.posts.rtake maxMessagesPerChannel).map (Post.ephemeral channelId) ∧
          (p'.getMessages channelId).Pairwise (fun a b => a.id < b.id) ↔ c.RetainedInOrder)) := by
  constructor
  · intro p p' channelId limit there empty posted fits
    obtain ⟨stored, channel⟩ := storedMessages_postAll posted
    rw [empty, List.nil_append] at stored
    have timed : ∀ m ∈ p'.storedMessages channelId, Int64.minValue < m.createdAt := by
      intro m mem
      rw [stored] at mem
      obtain ⟨post, isPost, rfl⟩ := List.mem_map.mp mem
      exact lt_of_lt_of_le (by decide) (c.positive post isPost)
    rw [getMessages_of_stored (channel ▸ there) timed (by rwa [stored, List.length_map]), stored, Except.ok.injEq,
      insertionSort_eq_self_iff, List.pairwise_map]
    exact pairwise_iff_of c.before fun a b before => before.age_iff
  · intro p p' channelId empty sent
    have start : p.getMessages channelId = ([] : List EphemeralMessage).rtake maxMessagesPerChannel := by
      rw [empty, List.rtake_nil]
    have queue : p'.getMessages channelId = (c.posts.rtake maxMessagesPerChannel).map (Post.ephemeral channelId) := by
      rw [getMessages_sendAll start sent, List.nil_append, Page.rtake_map]
    have retained : (c.posts.rtake maxMessagesPerChannel).Pairwise Post.Before :=
      c.before.sublist (Page.rtake_suffix _ _).sublist
    rw [queue, List.pairwise_map]
    exact (and_iff_right rfl).trans (pairwise_iff_of retained fun a b before => before.id_iff)

/-- Two posts of one millisecond, the second with the smaller id. -/
def hastyPosts : Posts where
  posts :=
    [⟨"peer1", "first", 1700000000000, "01HF7YAT00ZZZZZZZZZZZZZZZZ", 1700000000000⟩,
      ⟨"peer1", "second", 1700000000000, "01HF7YAT000000000000000000", 1700000000000⟩]
  positive := by decide
  before := by
    refine .cons (fun b mem => ?_) (List.pairwise_singleton _ _)
    rw [List.mem_singleton.mp mem]
    exact ⟨by decide, by decide, fun less => absurd less (by decide), by decide⟩

/-- The persistent porch reads them the other way round, and the ephemeral one not in order of id. -/
theorem hasty_posts_swapped : (∃ p', plainPorch.postAll "porch-default" hastyPosts.posts = .ok p' ∧
      p'.getMessages "porch-default" none 500 =
        .ok (hastyPosts.posts.reverse.map (Post.message "porch-default"))) ∧
    (∃ p', EphemeralPorch.fresh.sendAll "welcome" hastyPosts.posts = .ok p' ∧
      ¬ (p'.getMessages "welcome").Pairwise fun a b => a.id < b.id) := by
  constructor
  · have accepted : (plainPorch.postAll "porch-default" hastyPosts.posts).isOk = true := by decide
    cases posted : plainPorch.postAll "porch-default" hastyPosts.posts with
    | error e =>
      rw [posted] at accepted
      cases accepted
    | ok p' =>
      obtain ⟨stored, channel⟩ := storedMessages_postAll posted
      have kept : p'.storedMessages "porch-default" = hastyPosts.posts.map (Post.message "porch-default") :=
        stored.trans (List.nil_append _)
      refine ⟨p', rfl, ?_⟩
      rw [getMessages_of_stored (channel ▸ by decide) (by rw [kept]; decide) (by rw [kept]; decide), kept]
      exact congrArg Except.ok (by decide)
  · have accepted : (EphemeralPorch.fresh.sendAll "welcome" hastyPosts.posts).isOk = true := by decide
    cases sent : EphemeralPorch.fresh.sendAll "welcome" hastyPosts.posts with
    | error e =>
      rw [sent] at accepted
      cases accepted
    | ok p' =>
      have ending : p'.getMessages "welcome" =
          ([] ++ hastyPosts.posts.map (Post.ephemeral "welcome")).rtake maxMessagesPerChannel :=
        getMessages_sendAll rfl sent
      have queue : p'.getMessages "welcome" = hastyPosts.posts.map (Post.ephemeral "welcome") :=
        ending.trans (Page.rtake_of_length_le (by decide))
      refine ⟨p', rfl, ?_⟩
      rw [queue]
      decide

end Concorrd
