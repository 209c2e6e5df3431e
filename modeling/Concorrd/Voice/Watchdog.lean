import Mathlib.Algebra.Order.Field.Rat
import Mathlib.Data.List.TakeWhile
import Mathlib.Tactic.Linarith
import Mathlib.Tactic.NormNum
import Concorrd.Lib.Dict
import Concorrd.Lib.Run

/-!
# The voice health watchdog

A timer samples the remote audio tracks, and `evaluateTrackHealth` keeps one state for each of them.
A track that receives nothing has its subscription restarted, and later the room is reconnected.
Ticks take turns at their awaits, so that a later tick may overtake an earlier one.

`Escalation` says what a history of looks calls for, by the first look of the stall, the first one long
enough after it, and the first one long enough after that. `escalates` says that the watchdog does
exactly this in every run.
-/

namespace Concorrd

open Machine

/-- In milliseconds. -/
def watchdogStaleAfterMs : ℚ := 5000

def watchdogL2AfterMs : ℚ := 5000

/-- A sample of a track. What it says of jitter and loss is not looked at. -/
structure TrackHealthSample where
  publicationSid : String
  participantIdentity : String
  bytesReceived : Nat
  sampleAtMs : ℚ
  deriving DecidableEq

structure TrackHealthState where
  publicationSid : String
  participantIdentity : String
  lastProgressMs : ℚ
  lastBytesReceived : Nat
  lastL1AttemptMs : Option ℚ
  lastL2AttemptMs : Option ℚ
  deriving DecidableEq

inductive WatchdogAction where
  | noop
  | restartSubscription (publicationSid participantIdentity : String)
  | reconnectRoom (reason : String)
  deriving DecidableEq, Repr

section Evaluate

variable (format : ℚ → String)

/-- The next state of a track and what to do. `format` is how a number is written. -/
def evaluateTrackHealth (prev : Option TrackHealthState) (sample : TrackHealthSample) :
    TrackHealthState × WatchdogAction :=
  match prev with
  | none =>
    ({ publicationSid := sample.publicationSid
       participantIdentity := sample.participantIdentity
       lastProgressMs := sample.sampleAtMs
       lastBytesReceived := sample.bytesReceived
       lastL1AttemptMs := none
       lastL2AttemptMs := none }, .noop)
  | some prev =>
    if sample.bytesReceived > prev.lastBytesReceived then
      ({ prev with
         lastProgressMs := sample.sampleAtMs
         lastBytesReceived := sample.bytesReceived
         lastL1AttemptMs := none
         lastL2AttemptMs := none }, .noop)
    else if sample.sampleAtMs - prev.lastProgressMs < watchdogStaleAfterMs then (prev, .noop)
    else
      match prev.lastL1AttemptMs with
      | none =>
        ({ prev with lastL1AttemptMs := some sample.sampleAtMs },
          .restartSubscription sample.publicationSid sample.participantIdentity)
      | some l1 =>
        if sample.sampleAtMs - l1 ≥ watchdogL2AfterMs ∧ prev.lastL2AttemptMs = none then
          ({ prev with lastL2AttemptMs := some sample.sampleAtMs },
            .reconnectRoom ("track " ++ sample.publicationSid ++ " stalled " ++
              format (sample.sampleAtMs - prev.lastProgressMs) ++ "ms after L1 restart"))
        else (prev, .noop)

end Evaluate

/-! ## The room -/

/-- An entry of a report, as far as it is read. -/
structure RtcStat where
  type : String
  bytesReceived : Option Nat
  deriving DecidableEq, Repr

/-- A publication, with the track it has, and the report of the track if one can be had. -/
structure RemoteTrackPublication where
  trackSid : String
  isAudio : Bool := true
  isSubscribed : Bool := true
  isMuted : Bool := false
  track : Option (Option (List RtcStat))
  deriving DecidableEq, Repr

structure RemoteParticipant where
  identity : String
  audioTrackPublications : List RemoteTrackPublication
  deriving DecidableEq, Repr

/-- The bytes that the last entry of the inbound stream counts. -/
def safeGetReceiverStats (report : Option (List RtcStat)) : Option Nat :=
  report.map fun stats => stats.foldl (fun bytes stat =>
    if stat.type = "inbound-rtp" then stat.bytesReceived.getD bytes else bytes) 0

/-- What is read of a room, its publications each at their turn. -/
def collectSamples (remotes : List RemoteParticipant) : List (String × String × Nat) :=
  remotes.flatMap fun participant =>
    participant.audioTrackPublications.filterMap fun pub =>
      if !pub.isAudio || !pub.isSubscribed || pub.isMuted then none
      else
        (pub.track.bind safeGetReceiverStats).map fun bytes =>
          (pub.trackSid, participant.identity, bytes)

/-- What the watchdog asks of the room. -/
inductive RoomCall where
  | setSubscribed (publicationSid : String) (subscribed : Bool)
  | disconnect
  deriving DecidableEq, Repr

def executeAction (remotes : List RemoteParticipant) : WatchdogAction → List RoomCall
  | .noop => []
  | .restartSubscription publicationSid participantIdentity =>
    match (remotes.find? fun participant => participant.identity = participantIdentity).bind fun
        participant => participant.audioTrackPublications.find? fun pub =>
          pub.trackSid = publicationSid with
    | some _ => [.setSubscribed publicationSid false, .setSubscribed publicationSid true]
    | none => []
  | .reconnectRoom _ => [.disconnect]

/-! ## The watchdog -/

/-- A tick that has collected its samples: those it has yet to look at, the publications it met, and its
time. -/
structure WatchdogTick where
  samples : List (String × String × Nat)
  liveSids : List String
  now : ℚ

/-- The states by publication, whether the timer runs, the ticks that are collecting, and those that are
looking. -/
structure VoiceHealthWatchdog where
  states : Dict String TrackHealthState := []
  running : Bool := false
  collecting : Nat := 0
  ticks : List WatchdogTick := []

/-- What happens to the watchdog: a call, the timer, the end of a collection, or the turn of a tick. -/
inductive WatchdogEvent where
  | start
  | stop
  | forget (publicationSid : String)
  | fire
  | collected (remotes : List RemoteParticipant) (now : ℚ)
  | resume (tick : Nat) (remotes : List RemoteParticipant)

/-- What has happened: a look and what was done, the loss of one state, or of all but some. -/
inductive WatchdogRecord where
  | looked (sample : TrackHealthSample) (action : WatchdogAction) (calls : List RoomCall)
  | forgot (publicationSid : String)
  | kept (liveSids : List String)

namespace VoiceHealthWatchdog

variable (format : ℚ → String) (s : VoiceHealthWatchdog)

/-- A tick looks at its next sample, or ends and drops the states of what it did not meet. -/
def proceed (i : Nat) (remotes : List RemoteParticipant) (tick : WatchdogTick) :
    VoiceHealthWatchdog × List WatchdogRecord :=
  match tick.samples with
  | [] =>
    ({ s with
       states := s.states.filter fun e => e.1 ∈ tick.liveSids
       ticks := s.ticks.eraseIdx i }, [.kept tick.liveSids])
  | (sid, identity, bytes) :: samples =>
    let sample : TrackHealthSample := ⟨sid, identity, bytes, tick.now⟩
    let (next, action) := evaluateTrackHealth format (s.states.get sid) sample
    ({ s with
       states := s.states.set sid next
       ticks := s.ticks.set i { tick with samples } },
      [.looked sample action (executeAction remotes action)])

def turn : WatchdogEvent → VoiceHealthWatchdog × List WatchdogRecord
  | .start => ({ s with running := true }, [])
  | .stop => ({ s with running := false, states := [] }, [.kept []])
  | .forget sid => ({ s with states := s.states.pop sid }, [.forgot sid])
  | .fire => ({ s with collecting := if s.running then s.collecting + 1 else s.collecting }, [])
  | .collected remotes now =>
    if s.collecting = 0 then (s, [])
    else
      ({ s with
         collecting := s.collecting - 1
         ticks := s.ticks ++
           [⟨collectSamples remotes, (collectSamples remotes).map Prod.fst, now⟩] }, [])
  | .resume i remotes =>
    match s.ticks[i]? with
    | none => (s, [])
    | some tick => s.proceed format i remotes tick

def step (e : WatchdogEvent) : VoiceHealthWatchdog := (s.turn format e).1

/-- The records of a run, the oldest first. -/
def records (es : List WatchdogEvent) : List WatchdogRecord :=
  gather (step format) (fun s e => (turn format s e).2) s es

end VoiceHealthWatchdog

/-! ## What a history calls for -/

namespace Escalation

/-- The most bytes that a look has seen. -/
def best (looks : List TrackHealthSample) : Nat :=
  (looks.map TrackHealthSample.bytesReceived).foldr max 0

/-- The looks from the first one on that has seen as many. -/
def stall (looks : List TrackHealthSample) : List TrackHealthSample :=
  looks.dropWhile fun look => look.bytesReceived < best looks

/-- The looks from the first one on that comes so long after the start. -/
def since (ms : ℚ) : List TrackHealthSample → List TrackHealthSample
  | [] => []
  | start :: later => later.dropWhile fun look => look.sampleAtMs - start.sampleAtMs < ms

def restart (looks : List TrackHealthSample) : List TrackHealthSample :=
  since watchdogStaleAfterMs (stall looks)

def reconnect (looks : List TrackHealthSample) : List TrackHealthSample :=
  since watchdogL2AfterMs (restart looks)

/-- What the last look calls for: it reconnects the room or restarts the subscription where it is the
first one that is late enough. -/
def action (format : ℚ → String) (looks : List TrackHealthSample) : WatchdogAction :=
  match stall looks, restart looks, reconnect looks with
  | start :: _, _, [sample] =>
    .reconnectRoom ("track " ++ sample.publicationSid ++ " stalled " ++
      format (sample.sampleAtMs - start.sampleAtMs) ++ "ms after L1 restart")
  | _, [sample], _ => .restartSubscription sample.publicationSid sample.participantIdentity
  | _, _, _ => .noop

/-- What the watchdog holds of a track after the looks. -/
def state (looks : List TrackHealthSample) : Option TrackHealthState :=
  looks.head?.bind fun first => (stall looks).head?.map fun start =>
    { publicationSid := first.publicationSid
      participantIdentity := first.participantIdentity
      lastProgressMs := start.sampleAtMs
      lastBytesReceived := best looks
      lastL1AttemptMs := (restart looks).head?.map TrackHealthSample.sampleAtMs
      lastL2AttemptMs := (reconnect looks).head?.map TrackHealthSample.sampleAtMs }

variable {looks : List TrackHealthSample} {sample : TrackHealthSample} {ms : ℚ}

theorem best_concat : best (looks ++ [sample]) = max (best looks) sample.bytesReceived := by
  induction looks with
  | nil => exact max_comm _ _
  | cons look looks ih =>
    show max look.bytesReceived (best (looks ++ [sample])) = _
    rw [ih]
    exact (max_assoc _ _ _).symm

theorem le_best {look : TrackHealthSample} (mem : look ∈ looks) : look.bytesReceived ≤ best looks := by
  induction looks with
  | nil => cases mem
  | cons first looks ih =>
    show look.bytesReceived ≤ max first.bytesReceived (best looks)
    cases mem with
    | head => exact le_max_left _ _
    | tail _ mem => exact (ih mem).trans (le_max_right _ _)

/-- Some look has seen the most bytes. -/
theorem stall_ne_nil (some : looks ≠ []) : stall looks ≠ [] := by
  intro nothing
  have few (look : TrackHealthSample) (mem : look ∈ looks) : look.bytesReceived < best looks :=
    of_decide_eq_true (List.dropWhile_eq_nil_iff.mp nothing look mem)
  have below : ∀ part ⊆ looks, best part < best looks := by
    intro part sub
    induction part with
    | nil =>
      obtain ⟨look, mem⟩ := List.exists_mem_of_ne_nil looks some
      exact (Nat.zero_le _).trans_lt (few look mem)
    | cons look part ih =>
      obtain ⟨mem, sub⟩ := List.cons_subset.mp sub
      exact max_lt (few look mem) (ih sub)
  exact lt_irrefl _ (below looks (List.Subset.refl looks))

/-- A look that has seen more bytes ends the stall. -/
theorem stall_concat_of_lt (more : best looks < sample.bytesReceived) :
    stall (looks ++ [sample]) = [sample] := by
  unfold stall
  rw [best_concat, max_eq_right more.le, List.dropWhile_append_of_pos]
  · exact List.dropWhile_cons_of_neg (by simp)
  · intro look mem
    exact decide_eq_true ((le_best mem).trans_lt more)

theorem stall_concat_of_le (some : looks ≠ []) (same : sample.bytesReceived ≤ best looks) :
    stall (looks ++ [sample]) = stall looks ++ [sample] := by
  have going := stall_ne_nil some
  unfold stall at going ⊢
  rw [best_concat, max_eq_left same, List.dropWhile_append, if_neg (by simpa using going)]

theorem since_cons {start : TrackHealthSample} {later : List TrackHealthSample} :
    since ms (start :: later) =
      later.dropWhile fun look => look.sampleAtMs - start.sampleAtMs < ms := rfl

theorem since_concat_of_nil {start : TrackHealthSample} {later : List TrackHealthSample}
    (none : since ms (start :: later) = []) : since ms (start :: (later ++ [sample])) =
      if sample.sampleAtMs - start.sampleAtMs < ms then [] else [sample] := by
  rw [since_cons] at none ⊢
  rw [List.dropWhile_append, none]
  simp [List.dropWhile_cons]

theorem since_concat_of_cons {start first : TrackHealthSample} {later rest : List TrackHealthSample}
    (late : since ms (start :: later) = first :: rest) :
    since ms (start :: (later ++ [sample])) = first :: (rest ++ [sample]) := by
  rw [since_cons] at late ⊢
  rw [List.dropWhile_append, late]
  rfl

/-- The first look that is late enough is late enough. -/
theorem le_of_since {start first : TrackHealthSample} {later rest : List TrackHealthSample}
    (late : since ms (start :: later) = first :: rest) :
    ms ≤ first.sampleAtMs - start.sampleAtMs := by
  rw [since_cons] at late
  have stopped := List.head?_dropWhile_not
    (fun look : TrackHealthSample => decide (look.sampleAtMs - start.sampleAtMs < ms)) later
  rw [late] at stopped
  simpa using stopped

section Evaluate

variable (format : ℚ → String) {first start : TrackHealthSample}
  {later stalled : List TrackHealthSample}

theorem state_eq (begins : looks.head? = some first) (going : stall looks = start :: stalled) :
    state looks = some
      { publicationSid := first.publicationSid
        participantIdentity := first.participantIdentity
        lastProgressMs := start.sampleAtMs
        lastBytesReceived := best looks
        lastL1AttemptMs := (restart looks).head?.map TrackHealthSample.sampleAtMs
        lastL2AttemptMs := (reconnect looks).head?.map TrackHealthSample.sampleAtMs } := by
  rw [state, begins, going]
  rfl

theorem evaluate_state_of_lt (begins : looks.head? = some first)
    (more : best looks < sample.bytesReceived) :
    state (looks ++ [sample]) = some (evaluateTrackHealth format (state looks) sample).1 ∧
      action format (looks ++ [sample]) = (evaluateTrackHealth format (state looks) sample).2 := by
  have held : looks ≠ [] := by
    rintro rfl
    cases begins
  obtain ⟨start, stalled, going⟩ := List.exists_cons_of_ne_nil (stall_ne_nil held)
  have begun : (looks ++ [sample]).head? = some first := by rw [List.head?_append, begins]; rfl
  have alone := stall_concat_of_lt more
  have quiet : restart (looks ++ [sample]) = [] := by rw [restart, alone]; rfl
  have calm : reconnect (looks ++ [sample]) = [] := by rw [reconnect, quiet]; rfl
  rw [state_eq begun alone, state_eq begins going, action, alone, quiet, calm, best_concat,
    max_eq_right more.le]
  simp [evaluateTrackHealth, more]

theorem evaluate_state_of_le (begins : looks.head? = some first)
    (same : sample.bytesReceived ≤ best looks) :
    state (looks ++ [sample]) = some (evaluateTrackHealth format (state looks) sample).1 ∧
      action format (looks ++ [sample]) = (evaluateTrackHealth format (state looks) sample).2 := by
  have held : looks ≠ [] := by
    rintro rfl
    cases begins
  obtain ⟨start, stalled, going⟩ := List.exists_cons_of_ne_nil (stall_ne_nil held)
  have begun : (looks ++ [sample]).head? = some first := by rw [List.head?_append, begins]; rfl
  have goes : stall (looks ++ [sample]) = start :: (stalled ++ [sample]) := by
    rw [stall_concat_of_le held same, going]
    rfl
  rw [state_eq begun goes, state_eq begins going, action, goes, best_concat, max_eq_left same]
  cases late : since watchdogStaleAfterMs (start :: stalled) with
  | nil =>
    have quiet : restart looks = [] := by rw [restart, going, late]
    have calm : reconnect looks = [] := by rw [reconnect, quiet]; rfl
    have after : restart (looks ++ [sample]) =
        if sample.sampleAtMs - start.sampleAtMs < watchdogStaleAfterMs then [] else [sample] := by
      rw [restart, goes, since_concat_of_nil late]
    have still : reconnect (looks ++ [sample]) = [] := by
      rw [reconnect, after]
      split <;> rfl
    rw [still, calm, quiet, after]
    by_cases early : sample.sampleAtMs - start.sampleAtMs < watchdogStaleAfterMs <;>
      simp [evaluateTrackHealth, not_lt.mpr same, early]
  | cons l1 waiting =>
    have called : restart looks = l1 :: waiting := by rw [restart, going, late]
    have after : restart (looks ++ [sample]) = l1 :: (waiting ++ [sample]) := by
      rw [restart, goes, since_concat_of_cons late]
    have enough := le_of_since late
    cases later : since watchdogL2AfterMs (l1 :: waiting) with
    | nil =>
      have calm : reconnect looks = [] := by rw [reconnect, called, later]
      have still : reconnect (looks ++ [sample]) =
          if sample.sampleAtMs - l1.sampleAtMs < watchdogL2AfterMs then [] else [sample] := by
        rw [reconnect, after, since_concat_of_nil later]
      rw [calm, still, called, after]
      by_cases early : sample.sampleAtMs - l1.sampleAtMs < watchdogL2AfterMs
      · simp [evaluateTrackHealth, not_lt.mpr same, early, not_le.mpr early]
      · -- a look that is late enough after the restart is late enough after the progress
        have stale : ¬sample.sampleAtMs - start.sampleAtMs < watchdogStaleAfterMs := by
          have wait : (0 : ℚ) ≤ watchdogL2AfterMs := by norm_num [watchdogL2AfterMs]
          linarith
        simp [evaluateTrackHealth, not_lt.mpr same, early, stale, not_lt.mp early]
    | cons l2 rest =>
      have done : reconnect looks = l2 :: rest := by rw [reconnect, called, later]
      have still : reconnect (looks ++ [sample]) = l2 :: (rest ++ [sample]) := by
        rw [reconnect, after, since_concat_of_cons later]
      rw [done, still, called, after]
      simp [evaluateTrackHealth, not_lt.mpr same]

/-- A look turns what is held after the looks before it into what is held after it, and is answered as
the history calls for. -/
theorem evaluate_state (looks : List TrackHealthSample) (sample : TrackHealthSample) :
    state (looks ++ [sample]) = some (evaluateTrackHealth format (state looks) sample).1 ∧
      action format (looks ++ [sample]) = (evaluateTrackHealth format (state looks) sample).2 := by
  cases begins : looks.head? with
  | none =>
    obtain rfl := List.head?_eq_none_iff.mp begins
    have alone : stall [sample] = [sample] := List.dropWhile_cons_of_neg (by simp [best])
    have quiet : restart [sample] = [] := by rw [restart, alone]; rfl
    have calm : reconnect [sample] = [] := by rw [reconnect, quiet]; rfl
    have seen : best [sample] = sample.bytesReceived := max_eq_left (Nat.zero_le _)
    rw [List.nil_append, state_eq rfl alone, action, calm, quiet, alone, seen]
    exact ⟨rfl, rfl⟩
  | some first =>
    obtain more | same := lt_or_ge (best looks) sample.bytesReceived
    · exact evaluate_state_of_lt format begins more
    · exact evaluate_state_of_le format begins same

end Evaluate

end Escalation

/-! ## Runs -/

/-- What a record makes of the looks at a publication that are remembered. -/
def recalled (sid : String) (looks : List TrackHealthSample) : WatchdogRecord → List TrackHealthSample
  | .looked sample _ _ => if sample.publicationSid = sid then looks ++ [sample] else looks
  | .forgot gone => if gone = sid then [] else looks
  | .kept liveSids => if sid ∈ liveSids then looks else []

/-- The looks at a publication since its state was last dropped. -/
def looksSince (sid : String) (log : List WatchdogRecord) : List TrackHealthSample :=
  log.foldl (recalled sid) []

theorem looksSince_append (sid : String) (log more : List WatchdogRecord) :
    looksSince sid (log ++ more) = more.foldl (recalled sid) (looksSince sid log) :=
  List.foldl_append

namespace VoiceHealthWatchdog

variable {format : ℚ → String} {s : VoiceHealthWatchdog} {log : List WatchdogRecord}

/-- What is held is what the log calls for. -/
def Recalls (s : VoiceHealthWatchdog) (log : List WatchdogRecord) : Prop :=
  ∀ sid, s.states.get sid = Escalation.state (looksSince sid log)

theorem recalls_drop {p : String → Prop} [DecidablePred p] {r : WatchdogRecord}
    (recalls : s.Recalls log) {s' : VoiceHealthWatchdog}
    (states : s'.states = s.states.filter fun e => p e.1)
    (dropped : ∀ sid looks, recalled sid looks r = if p sid then looks else []) :
    s'.Recalls (log ++ [r]) := by
  intro sid
  rw [states, Dict.get_filter, looksSince_append, List.foldl_cons, dropped, recalls]
  split <;> rfl

theorem recalls_turn (recalls : s.Recalls log) (e : WatchdogEvent) :
    (s.step format e).Recalls (log ++ (s.turn format e).2) := by
  have unchanged : ∀ s' : VoiceHealthWatchdog, s'.states = s.states → s'.Recalls (log ++ []) := by
    intro s' same sid
    rw [List.append_nil, same, recalls]
  cases e with
  | start => exact unchanged _ rfl
  | stop =>
    exact recalls_drop (p := fun _ => False) recalls (List.filter_false _).symm fun _ _ => rfl
  | forget gone =>
    refine recalls_drop (p := fun sid => sid ≠ gone) recalls rfl fun sid looks => ?_
    rw [recalled, ite_not]
    exact if_congr eq_comm rfl rfl
  | fire => exact unchanged _ rfl
  | collected remotes now =>
    rw [step, turn]
    split
    · exact unchanged _ rfl
    · exact unchanged _ rfl
  | resume i remotes =>
    cases found : s.ticks[i]? with
    | none =>
      simp only [step, turn, found]
      exact unchanged _ rfl
    | some tick =>
      simp only [step, turn, found]
      cases next : tick.samples with
      | nil =>
        simp only [proceed, next]
        exact recalls_drop recalls rfl fun _ _ => rfl
      | cons reading rest =>
        obtain ⟨sid, identity, bytes⟩ := reading
        simp only [proceed, next]
        intro other
        rw [looksSince_append, List.foldl_cons, List.foldl_nil, recalled]
        by_cases same : sid = other
        · subst same
          rw [Dict.get_set_self, if_pos rfl, recalls, (Escalation.evaluate_state format _ _).1]
        · rw [Dict.get_set_of_ne fun here => same here.symm, if_neg same, recalls]

theorem recalls_run (format : ℚ → String) (es : List WatchdogEvent) :
    (run (step format) {} es).Recalls (records format {} es) :=
  gather_invariant Recalls (fun _ _ e recalls => recalls_turn recalls e) (fun _ => rfl) es

/-- What a turn records. -/
theorem turn_cases (format : ℚ → String) (s : VoiceHealthWatchdog) (e : WatchdogEvent) :
    (s.turn format e).2 = [] ∨ (∃ liveSids, (s.turn format e).2 = [.kept liveSids]) ∨
      (∃ sid, (s.turn format e).2 = [.forgot sid]) ∨
      ∃ sample remotes,
        let action := (evaluateTrackHealth format (s.states.get sample.publicationSid) sample).2
        (s.turn format e).2 = [.looked sample action (executeAction remotes action)] := by
  cases e with
  | start => exact .inl rfl
  | stop => exact .inr (.inl ⟨[], rfl⟩)
  | forget sid => exact .inr (.inr (.inl ⟨sid, rfl⟩))
  | fire => exact .inl rfl
  | collected remotes now =>
    rw [turn]
    split <;> exact .inl rfl
  | resume i remotes =>
    cases found : s.ticks[i]? with
    | none => exact .inl (by simp only [turn, found])
    | some tick =>
      simp only [turn, found]
      cases next : tick.samples with
      | nil => exact .inr (.inl ⟨tick.liveSids, by simp only [proceed, next]⟩)
      | cons reading rest =>
        simp only [proceed, next]
        exact .inr (.inr (.inr ⟨⟨reading.1, reading.2.1, reading.2.2, tick.now⟩, remotes, rfl⟩))

theorem length_turn_le (s : VoiceHealthWatchdog) (e : WatchdogEvent) :
    (s.turn format e).2.length ≤ 1 := by
  rcases turn_cases format s e with h | ⟨_, h⟩ | ⟨_, h⟩ | ⟨_, _, h⟩ <;> simp [h]

/-- What is done at a look is what is held calls for. -/
theorem turn_eq_looked {e : WatchdogEvent} {sample : TrackHealthSample} {action : WatchdogAction}
    {calls : List RoomCall} (h : (s.turn format e).2 = [.looked sample action calls]) :
    action = (evaluateTrackHealth format (s.states.get sample.publicationSid) sample).2 ∧
      ∃ remotes, calls = executeAction remotes action := by
  rcases turn_cases format s e with none | ⟨_, kept⟩ | ⟨_, gone⟩ | ⟨sample, remotes, looked⟩
  · cases none.symm.trans h
  · cases kept.symm.trans h
  · cases gone.symm.trans h
  · cases looked.symm.trans h
    exact ⟨rfl, remotes, rfl⟩

/-- **Escalation.** In every run, whatever the turns of the ticks and the calls, each look at a
publication does what the looks at it since its state was last dropped call for. -/
theorem escalates (format : ℚ → String) (es : List WatchdogEvent) {before after : List WatchdogRecord}
    {sample : TrackHealthSample} {action : WatchdogAction} {calls : List RoomCall}
    (h : records format {} es = before ++ .looked sample action calls :: after) :
    action = Escalation.action format (looksSince sample.publicationSid before ++ [sample]) ∧
      ∃ remotes, calls = executeAction remotes action := by
  obtain ⟨first, e, later, -, gives, last⟩ := gather_split length_turn_le h
  obtain ⟨does, asks⟩ := turn_eq_looked last
  have recalls : (run (step format) {} first).Recalls before := gives ▸ recalls_run format first
  rw [recalls, ← (Escalation.evaluate_state format _ _).2] at does
  exact ⟨does, asks⟩

def silentRoom : List RemoteParticipant :=
  [⟨"bob", [{ trackSid := "mic", track := some (some [⟨"inbound-rtp", some 5⟩]) }]⟩]

/-- A track that has delivered five bytes and delivers no more is looked at. -/
def silentLooks (times : List ℚ) : List WatchdogEvent :=
  .start :: times.flatMap fun now =>
    [.fire, .collected silentRoom now, .resume 0 silentRoom, .resume 0 silentRoom]

/-- The second look comes late enough. -/
theorem records_silentLooks : records toString {} (silentLooks [0, 6000]) =
    [.looked ⟨"mic", "bob", 5, 0⟩ .noop [], .kept ["mic"]] ++
      .looked ⟨"mic", "bob", 5, 6000⟩ (.restartSubscription "mic" "bob")
        [.setSubscribed "mic" false, .setSubscribed "mic" true] :: [.kept ["mic"]] := by
  let look := (evaluateTrackHealth toString (some ⟨"mic", "bob", 0, 5, none, none⟩)
    ⟨"mic", "bob", 5, 6000⟩).2
  have late : look = .restartSubscription "mic" "bob" := by decide +kernel
  have whole : records toString {} (silentLooks [0, 6000]) =
      [.looked ⟨"mic", "bob", 5, 0⟩ .noop [], .kept ["mic"]] ++
        .looked ⟨"mic", "bob", 5, 6000⟩ look (executeAction silentRoom look) :: [.kept ["mic"]] := rfl
  rw [whole, late]
  rfl

theorem escalates_silent : WatchdogAction.restartSubscription "mic" "bob" =
    Escalation.action toString [⟨"mic", "bob", 5, 0⟩, ⟨"mic", "bob", 5, 6000⟩] :=
  (escalates toString (silentLooks [0, 6000]) records_silentLooks).1

end VoiceHealthWatchdog

end Concorrd
