import Mathlib.Algebra.Order.Field.Rat
import Mathlib.Data.List.Sort
import Mathlib.Logic.Function.Basic
import Mathlib.Tactic.Linarith
import Mathlib.Tactic.NormNum
import Concorrd.Lib.Run
import Concorrd.Api.Document

/-!
# The token cache

`get_user_id` of `dependencies.py`. A call looks its token up in the cache, and asks the homeserver when it is
not there or has expired. A user that the homeserver names is cached, for a lifetime that counts from the
lookup, by a call that makes room first. Calls take turns at their awaits.

An entry never outlives the answer that it came from by more than the lifetime (`AuthRun.Sound.entries`), so that
a call returns no user that the homeserver has not named to it or a lifetime ago (`auth_cache_sound`).
-/

namespace Concorrd.Api

open Machine

/-- Users and times of expiry by token. -/
abbrev TokenCache := Dict String (Json × ℚ)

/-- In seconds. -/
def cacheTtl : ℚ := 300

def cacheMaxSize : Nat := 1000

/-- The token of the header. -/
def bearerToken (authorization : Option String) : Except HttpError String := do
  let authorization ← found authorization ⟨401, "Authorization header required", none⟩
  refuse (¬"Bearer ".toList <+: authorization.toList)
    ⟨401, "Authorization header must use Bearer scheme", none⟩
  let token := String.ofList (authorization.toList.drop 7)
  refuse (token = "") ⟨401, "Missing access token", none⟩
  return token

/-- What becomes of a question to the homeserver. A body that is not JSON is none. -/
inductive Whoami where
  | unreachable
  | response (statusCode : Nat) (body : Option Json)

def membersOf : Json → Option (Dict String Json)
  | .obj members => some members
  | _ => none

/-- The user that the homeserver names. -/
def Whoami.userId : Whoami → Except HttpError Json
  | .unreachable => .error ⟨502, "Unable to reach Matrix homeserver for auth", none⟩
  | .response statusCode body => do
    refuse (statusCode = 401) ⟨401, "Invalid or expired access token", none⟩
    refuse (statusCode ≠ 200) ⟨502, "Matrix homeserver auth check failed", none⟩
    let members ← found (body.bind membersOf) .internal
    found ((Dict.get members "user_id").filter truthy) ⟨401, "Token did not resolve to a user", none⟩

/-- The entries that have not expired. -/
def unexpired (cache : TokenCache) (now : ℚ) : TokenCache := cache.filter fun e => ¬e.2.2 ≤ now

/-- The quarter of the tokens that expires first. -/
def oldest (cache : TokenCache) : List String :=
  ((cache.insertionSort fun e e' => e.2.2 ≤ e'.2.2).map Prod.fst).take (cache.length / 4)

/-- Make room for one more entry: the expired ones go, and then the quarter that expires first. -/
def makeRoom (cache : TokenCache) (now : ℚ) : TokenCache :=
  if cache.length < cacheMaxSize then cache
  else if (unexpired cache now).length < cacheMaxSize then unexpired cache now
  else (unexpired cache now).filter fun e => e.1 ∉ oldest (unexpired cache now)

/-- How far a call has come. `now` is the time of its lookup. -/
inductive AuthPhase where
  | arrived (authorization : Option String)
  | asking (token : String) (now : ℚ)
  | answered (token : String) (now : ℚ) (userId : Json)
  | returned (token : String) (now : ℚ) (userId : Json)
  | raised (error : HttpError)

/-- The call hears what the homeserver has answered. -/
def AuthPhase.heard (token : String) (now : ℚ) (whoami : Whoami) : AuthPhase :=
  match whoami.userId with
  | .error e => .raised e
  | .ok userId => .answered token now userId

/-- A call goes on, at a time, with what the homeserver said if it has asked. -/
structure AuthTurn where
  request : Nat
  now : ℚ
  whoami : Whoami := .unreachable

/-- What the homeserver has answered to a call. -/
structure AuthAnswer where
  request : Nat
  token : String
  whoami : Whoami
  time : ℚ

/-- The cache, the calls, the time, and what the homeserver has answered. -/
structure AuthRun where
  cache : TokenCache
  phase : Nat → AuthPhase
  clock : ℚ
  answers : List AuthAnswer

namespace AuthRun

/-- Nothing is cached, and nobody has called. -/
def opened (requests : Nat → Option String) (start : ℚ) : AuthRun :=
  ⟨[], fun n => .arrived (requests n), start, []⟩

variable (s : AuthRun)

def moved (n : Nat) (phase : AuthPhase) : AuthRun := { s with phase := Function.update s.phase n phase }

/-- What the cache has of a token, unless it has expired. -/
def cached (token : String) (now : ℚ) : Option Json :=
  ((s.cache.get token).filter fun e => now < e.2).map Prod.fst

/-- What a call does up to its next await. -/
def proceed (t : AuthTurn) : AuthRun :=
  match s.phase t.request with
  | .arrived authorization =>
    match bearerToken authorization with
    | .error e => s.moved t.request (.raised e)
    | .ok token =>
      match s.cached token t.now with
      | some userId => s.moved t.request (.returned token t.now userId)
      | none => s.moved t.request (.asking token t.now)
  | .asking token now =>
    { s.moved t.request (.heard token now t.whoami) with
      answers := s.answers ++ [⟨t.request, token, t.whoami, t.now⟩] }
  | .answered token now userId =>
    { s.moved t.request (.returned token now userId) with
      cache := (makeRoom s.cache now).set token (userId, now + cacheTtl) }
  | .returned .. | .raised _ => s

def step (t : AuthTurn) : AuthRun := { s.proceed t with clock := t.now }

/-- The homeserver named the user of the token in this answer. -/
def Names (a : AuthAnswer) (token : String) (userId : Json) : Prop := a.token = token ∧ a.whoami.userId = .ok userId

/-- What stands behind a call. -/
def Backed (n : Nat) : AuthPhase → Prop
  | .asking _ now => now ≤ s.clock
  | .answered token now userId => ∃ a ∈ s.answers, Names a token userId ∧ a.request = n ∧ now ≤ a.time
  | .returned token now userId => ∃ a ∈ s.answers, Names a token userId ∧
    (a.request = n ∨ a.time ≤ now ∧ now - a.time ≤ cacheTtl)
  | .arrived _ | .raised _ => True

/-- What holds of the cache and of the calls at any time. -/
structure Sound : Prop where
  small : s.cache.length ≤ cacheMaxSize
  entries : ∀ e ∈ s.cache, ∃ a ∈ s.answers, Names a e.1 e.2.1 ∧ e.2.2 ≤ a.time + cacheTtl
  past : ∀ a ∈ s.answers, a.time ≤ s.clock
  calls : ∀ n, s.Backed n (s.phase n)

/-! ## Making room -/

theorem oldest_mem {cache : TokenCache} (some : 4 ≤ cache.length) : ∃ e ∈ cache, e.1 ∈ oldest cache := by
  have long : (oldest cache).length = cache.length / 4 := by
    rw [oldest, List.length_take, List.length_map, List.length_insertionSort]
    omega
  obtain ⟨token, mem⟩ := List.exists_mem_of_length_pos (show 0 < (oldest cache).length by omega)
  obtain ⟨e, listed, rfl⟩ := List.mem_map.mp (List.mem_of_mem_take mem)
  exact ⟨e, (List.mem_insertionSort _).mp listed, mem⟩

theorem makeRoom_sublist (cache : TokenCache) (now : ℚ) : (makeRoom cache now).Sublist cache := by
  rw [makeRoom]
  split
  · exact List.Sublist.refl cache
  · split
    · exact List.filter_sublist
    · exact List.filter_sublist.trans List.filter_sublist

/-- A cache that keeps to its bound has room for one more. -/
theorem makeRoom_length {cache : TokenCache} (small : cache.length ≤ cacheMaxSize) (now : ℚ) :
    (makeRoom cache now).length < cacheMaxSize := by
  rw [makeRoom]
  split
  · assumption
  · split
    · assumption
    · rename_i full
      have quarter : 4 ≤ (unexpired cache now).length := le_trans (by decide) (not_lt.mp full)
      obtain ⟨e, mem, old⟩ := oldest_mem quarter
      have fewer : ((unexpired cache now).filter fun e => e.1 ∉ oldest (unexpired cache now)).length <
          (unexpired cache now).length :=
        List.length_filter_lt_length_iff_exists.mpr ⟨e, mem, by simpa using old⟩
      exact fewer.trans_le (List.filter_sublist.length_le.trans small)

/-! ## The steps -/

variable {s} {s' : AuthRun} {t : AuthTurn} {n : Nat} {phase : AuthPhase}

/-- What stands behind a call still does when more has been answered. -/
theorem Backed.mono (h : s.Backed n phase) (answers : s.answers ⊆ s'.answers) (later : s.clock ≤ s'.clock) :
    s'.Backed n phase := by
  cases phase with
  | arrived authorization => trivial
  | raised e => trivial
  | asking token now => exact le_trans h later
  | answered token now userId =>
    obtain ⟨a, mem, named⟩ := h
    exact ⟨a, answers mem, named⟩
  | returned token now userId =>
    obtain ⟨a, mem, named⟩ := h
    exact ⟨a, answers mem, named⟩

/-- One call goes on: the others keep what stands behind them. -/
theorem Sound.next (h : s.Sound) (moved : s'.phase = Function.update s.phase n phase)
    (answers : s.answers ⊆ s'.answers) (later : s.clock ≤ s'.clock) (small : s'.cache.length ≤ cacheMaxSize)
    (entries : ∀ e ∈ s'.cache, ∃ a ∈ s'.answers, Names a e.1 e.2.1 ∧ e.2.2 ≤ a.time + cacheTtl)
    (past : ∀ a ∈ s'.answers, a.time ≤ s'.clock) (backed : s'.Backed n phase) : s'.Sound where
  small := small
  entries := entries
  past := past
  calls m := by
    rw [moved]
    by_cases same : m = n
    · rw [same, Function.update_self]
      exact backed
    · rw [Function.update_of_ne same]
      exact (h.calls m).mono answers later

/-- A call goes on without touching the cache. -/
theorem Sound.moved (h : s.Sound) (later : s.clock ≤ t.now)
    (backed : { s.moved n phase with clock := t.now }.Backed n phase) :
    { s.moved n phase with clock := t.now }.Sound :=
  h.next rfl (List.Subset.refl _) later h.small h.entries (fun a mem => (h.past a mem).trans later) backed

/-- Time passes. -/
theorem Sound.resting (h : s.Sound) (later : s.clock ≤ t.now) : { s with clock := t.now }.Sound where
  small := h.small
  entries := h.entries
  past a mem := (h.past a mem).trans later
  calls n := (h.calls n).mono (List.Subset.refl _) later

/-- What the cache has of a token is no older than the lifetime. -/
theorem Sound.of_cached (h : s.Sound) {token : String} {now : ℚ} {userId : Json} (later : s.clock ≤ now)
    (hit : s.cached token now = some userId) :
    ∃ a ∈ s.answers, Names a token userId ∧ a.time ≤ now ∧ now - a.time ≤ cacheTtl := by
  obtain ⟨e, found, rfl⟩ := Option.map_eq_some_iff.mp hit
  obtain ⟨found, fresh⟩ := Option.filter_eq_some_iff.mp found
  obtain ⟨a, mem, named, expires⟩ := h.entries _ (Dict.mem_of_get found)
  have fresh : now < e.2 := of_decide_eq_true fresh
  refine ⟨a, mem, named, (h.past a mem).trans later, ?_⟩
  linarith

/-- The homeserver answers a call. -/
theorem Sound.answer (h : s.Sound) {token : String} {now : ℚ} (asked : s.phase t.request = .asking token now)
    (later : s.clock ≤ t.now) :
    ({ s.moved t.request (.heard token now t.whoami) with
      answers := s.answers ++ [⟨t.request, token, t.whoami, t.now⟩]
      clock := t.now } : AuthRun).Sound := by
  have kept : s.answers ⊆ s.answers ++ [⟨t.request, token, t.whoami, t.now⟩] := List.subset_append_left _ _
  refine h.next rfl kept later h.small (fun e mem => ?_) (fun a mem => ?_) ?_
  · obtain ⟨a, answer, named⟩ := h.entries e mem
    exact ⟨a, kept answer, named⟩
  · rcases List.mem_append.mp mem with mem | mem
    · exact (h.past a mem).trans later
    · rw [List.mem_singleton.mp mem]
  · rw [AuthPhase.heard]
    split
    · trivial
    · rename_i userId named
      have looked : now ≤ s.clock := by
        have backed := h.calls t.request
        rw [asked] at backed
        exact backed
      have mem : (⟨t.request, token, t.whoami, t.now⟩ : AuthAnswer) ∈
          s.answers ++ [⟨t.request, token, t.whoami, t.now⟩] :=
        List.mem_append_right _ (List.mem_singleton.mpr rfl)
      exact ⟨_, mem, ⟨rfl, named⟩, rfl, looked.trans later⟩

/-- A call caches the user that it was named. -/
theorem Sound.keep (h : s.Sound) {token : String} {now : ℚ} {userId : Json}
    (answered : s.phase t.request = .answered token now userId) (later : s.clock ≤ t.now) :
    { s.moved t.request (.returned token now userId) with
      cache := (makeRoom s.cache now).set token (userId, now + cacheTtl)
      clock := t.now }.Sound := by
  obtain ⟨a, answer, named, own, looked⟩ : ∃ a ∈ s.answers, Names a token userId ∧ a.request = t.request ∧
      now ≤ a.time := by
    have backed := h.calls t.request
    rw [answered] at backed
    exact backed
  have room := makeRoom_length h.small now
  refine h.next rfl (List.Subset.refl _) later ((Dict.length_set_le _ _ _).trans room) (fun e mem => ?_)
    (fun a mem => (h.past a mem).trans later) ⟨a, answer, named, .inl own⟩
  rcases Dict.eq_or_mem_of_mem_set mem with rfl | mem
  · exact ⟨a, answer, named, by linarith⟩
  · exact h.entries e ((makeRoom_sublist s.cache now).subset mem)

/-- A step at a later time keeps everything sound. -/
theorem Sound.step (h : s.Sound) (later : s.clock ≤ t.now) : (s.step t).Sound := by
  rw [AuthRun.step, proceed]
  cases phase : s.phase t.request with
  | arrived authorization =>
    cases read : bearerToken authorization with
    | error e =>
      simp only [read]
      exact h.moved later trivial
    | ok token =>
      cases hit : s.cached token t.now with
      | none =>
        simp only [read, hit]
        exact h.moved later (le_refl t.now)
      | some userId =>
        simp only [read, hit]
        obtain ⟨a, answer, named, recent⟩ := h.of_cached later hit
        exact h.moved later ⟨a, answer, named, .inr recent⟩
  | asking token now => exact h.answer phase later
  | answered token now userId => exact h.keep phase later
  | returned token now userId => exact h.resting later
  | raised e => exact h.resting later

/-- The question of a call has failed: it caches nothing, and ends. -/
theorem cache_of_failed {token : String} {now : ℚ} {e : HttpError} (asked : s.phase t.request = .asking token now)
    (failed : t.whoami.userId = .error e) :
    (s.step t).cache = s.cache ∧ (s.step t).phase t.request = .raised e := by
  rw [AuthRun.step, proceed, asked]
  refine ⟨rfl, ?_⟩
  show Function.update s.phase t.request (.heard token now t.whoami) t.request = _
  rw [Function.update_self, AuthPhase.heard, failed]

/-! ## Runs -/

theorem sound_opened (requests : Nat → Option String) (start : ℚ) : (opened requests start).Sound where
  small := Nat.zero_le _
  entries := by simp [opened]
  past := by simp [opened]
  calls _ := trivial

/-- A run in which the clock does not go back. -/
def Forward (start : ℚ) (turns : List AuthTurn) : Prop :=
  (∀ t ∈ turns, start ≤ t.now) ∧ turns.Pairwise fun t t' => t.now ≤ t'.now

theorem Sound.run (h : s.Sound) {turns : List AuthTurn} (forward : Forward s.clock turns) :
    (Machine.run AuthRun.step s turns).Sound := by
  induction turns generalizing s with
  | nil => exact h
  | cons t turns ih =>
    obtain ⟨ordered, rest⟩ := List.pairwise_cons.mp forward.2
    exact ih (h.step (forward.1 t List.mem_cons_self)) ⟨ordered, rest⟩

/-- In every run, whatever the requests, the answers and the order of the turns, a call that returns a user was
named it for its token by the homeserver, in its own answer or in one no older than the lifetime at the lookup;
nothing is cached but what a successful answer named, and the cache keeps to its bound. -/
theorem auth_cache_sound (requests : Nat → Option String) {start : ℚ} {turns : List AuthTurn}
    (forward : Forward start turns) :
    (∀ n token now userId, (Machine.run step (opened requests start) turns).phase n = .returned token now userId →
      ∃ a ∈ (Machine.run step (opened requests start) turns).answers,
        Names a token userId ∧ (a.request = n ∨ a.time ≤ now ∧ now - a.time ≤ cacheTtl)) ∧
    (∀ e ∈ (Machine.run step (opened requests start) turns).cache,
      ∃ a ∈ (Machine.run step (opened requests start) turns).answers,
        Names a e.1 e.2.1 ∧ e.2.2 ≤ a.time + cacheTtl) ∧
    (∀ t token now e, (Machine.run step (opened requests start) turns).phase t.request = .asking token now →
      t.whoami.userId = .error e →
      ((Machine.run step (opened requests start) turns).step t).cache =
        (Machine.run step (opened requests start) turns).cache) ∧
    (Machine.run step (opened requests start) turns).cache.length ≤ cacheMaxSize := by
  have sound := (sound_opened requests start).run forward
  refine ⟨fun n token now userId returned => ?_, sound.entries, fun t token now e asked failed => ?_, sound.small⟩
  · have backed := sound.calls n
    rw [returned] at backed
    exact backed
  · exact (cache_of_failed asked failed).1

/-- Two calls with one token: the second comes a minute after the first has been answered. -/
def twoCalls : List AuthTurn :=
  [⟨0, 0, .unreachable⟩, ⟨0, 1, .response 200 (some (.obj [("user_id", .str "@ann:example.org")]))⟩,
    ⟨0, 1, .unreachable⟩, ⟨1, 60, .unreachable⟩]

theorem second_call_backed :
    ∃ a ∈ (Machine.run step (opened (fun _ => some "Bearer abc") 0) twoCalls).answers,
      Names a "abc" (.str "@ann:example.org") ∧ (a.request = 1 ∨ a.time ≤ 60 ∧ 60 - a.time ≤ cacheTtl) := by
  have forward : Forward 0 twoCalls := by norm_num [Forward, twoCalls]
  refine (auth_cache_sound (fun _ => some "Bearer abc") forward).1 1 "abc" 60 (.str "@ann:example.org") ?_
  have token : bearerToken (some "Bearer abc") = .ok "abc" := by decide
  have named : (Whoami.response 200 (some (.obj [("user_id", .str "@ann:example.org")]))).userId =
      .ok (.str "@ann:example.org") := rfl
  have fresh : (60 : ℚ) < cacheTtl := by norm_num [cacheTtl]
  simp [Machine.run, twoCalls, step, proceed, opened, moved, token, AuthPhase.heard, named, cached, makeRoom,
    cacheMaxSize, Dict.set, Dict.get, Option.filter, fresh]

end AuthRun

end Concorrd.Api
