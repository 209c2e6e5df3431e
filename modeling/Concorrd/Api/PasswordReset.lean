import Mathlib.Logic.Function.Basic
import Concorrd.Lib.Run
import Concorrd.Api.Invites

/-!
# Password reset

A token is mailed to the recovery address, and its digest and expiry are kept in the row of the user.
Whoever presents the token has the homeserver change the password, and the token is cleared after that
call. The row is loaded before the call and not looked at again, so that a token is good for one change
only when no other request has used it meanwhile (`singleUse_of_prompt`).
-/

namespace Concorrd.Api

open Machine

structure User where
  userId : String
  recoveryEmail : Option String := none
  recoveryTokenHash : Option String := none
  recoveryTokenExpires : Option Nat := none
  deriving DecidableEq, Repr

/-- `RESET_TOKEN_TTL` -/
def resetTokenTtl : Nat := minutes 60

/-- How far a request has come. The row is the one that was loaded. -/
inductive RecoveryPhase where
  | settingEmail (userId : String) (email : Option String)
  | emailLoaded (userId : String) (email : Option String) (loaded : Option User)
  | forgetting (userId : String)
  | issuing (loaded : User)
  | resetting (token : String)
  | stale (loaded : User)
  | asked (loaded : User) (digest : String) (since : Nat)
  | changed (loaded : User) (digest : String)
  | ended
  deriving DecidableEq, Repr

/-- A request goes on, with what it meets: the time, the token that is drawn, whether mail can be sent,
and whether the homeserver has changed the password. -/
structure RecoveryTurn where
  request : Nat
  now : Nat := 0
  drawn : String := ""
  configured : Bool := true
  succeeds : Bool := true

/-- What has happened: a token was issued, an address changed, or a password changed by a request that
found the token when so much had happened. -/
inductive Happening where
  | issued (digest userId : String) (expires : Nat)
  | emailChanged (userId : String)
  | passwordChanged (userId digest : String) (since now : Nat)
  deriving DecidableEq, Repr

/-- The rows, the requests, and what has happened. -/
structure Recovery where
  users : List User := []
  phase : Nat → RecoveryPhase
  log : List Happening := []

/-- Clear the token, where one was loaded: a commit writes the columns that were set to something
else. -/
def User.cleared (loaded current : User) : User :=
  { current with
    recoveryTokenHash := if loaded.recoveryTokenHash = none then current.recoveryTokenHash else none
    recoveryTokenExpires :=
      if loaded.recoveryTokenExpires = none then current.recoveryTokenExpires else none }

/-- Set the address and clear the token. -/
def User.readdressed (loaded : User) (email : Option String) (current : User) : User :=
  { loaded.cleared current with
    recoveryEmail := if email = loaded.recoveryEmail then current.recoveryEmail else email }

/-- A request as it arrives. -/
inductive RecoveryRequest where
  | setRecoveryEmail (userId : String) (email : Option String)
  | forgotPassword (userId : String)
  | resetPassword (token : String)

namespace Recovery

/-- No row is there yet. -/
def opened (requests : Nat → RecoveryRequest) : Recovery where
  phase n := match requests n with
    | .setRecoveryEmail userId email => .settingEmail userId email
    | .forgotPassword userId => .forgetting userId
    | .resetPassword token => .resetting token

variable (hashToken : String → String) (s : Recovery)

def user? (userId : String) : Option User := s.users.find? fun user => user.userId = userId

def moved (n : Nat) (phase : RecoveryPhase) : Recovery :=
  { s with phase := Function.update s.phase n phase }

/-- Change the row of a user. -/
def updated (userId : String) (f : User → User) : Recovery :=
  { s with users := s.users.map fun user => if user.userId = userId then f user else user }

def happens (h : Happening) : Recovery := { s with log := s.log ++ [h] }

/-- The address of a user is another one now. -/
def readdressed (before : Recovery) (userId : String) : Recovery :=
  if (s.user? userId).bind User.recoveryEmail = (before.user? userId).bind User.recoveryEmail then s
  else s.happens (.emailChanged userId)

/-- A request goes on to its next await. -/
def step (t : RecoveryTurn) : Recovery :=
  match s.phase t.request with
  | .settingEmail userId email => s.moved t.request (.emailLoaded userId email (s.user? userId))
  | .emailLoaded userId email none =>
    -- the insert fails when the row is there by now
    if ∃ user ∈ s.users, user.userId = userId then s.moved t.request .ended
    else
      let inserted : Recovery := { s with users := s.users ++ [{ userId, recoveryEmail := email }] }
      (inserted.moved t.request .ended).readdressed s userId
  | .emailLoaded userId email (some loaded) =>
    ((s.updated userId (loaded.readdressed email)).moved t.request .ended).readdressed s userId
  | .forgetting userId =>
    match s.user? userId with
    | some user =>
      s.moved t.request
        (if user.recoveryEmail.getD "" ≠ "" ∧ t.configured then .issuing user else .ended)
    | none => s.moved t.request .ended
  | .issuing loaded =>
    let digest := hashToken t.drawn
    let expires := t.now + resetTokenTtl
    ((s.updated loaded.userId fun user =>
      { user with recoveryTokenHash := some digest, recoveryTokenExpires := some expires }).moved
        t.request .ended).happens (.issued digest loaded.userId expires)
  | .resetting token =>
    match s.users.filter fun user => user.recoveryTokenHash = some (hashToken token) with
    | [user] =>
      match user.recoveryTokenExpires with
      | none => s.moved t.request .ended
      | some expires =>
        s.moved t.request
          (if expires < t.now then .stale user else .asked user (hashToken token) s.log.length)
    | _ => s.moved t.request .ended
  | .stale loaded => (s.updated loaded.userId loaded.cleared).moved t.request .ended
  | .asked loaded digest since =>
    if t.succeeds then
      (s.moved t.request (.changed loaded digest)).happens
        (.passwordChanged loaded.userId digest since t.now)
    else s.moved t.request .ended
  | .changed loaded _ => (s.updated loaded.userId loaded.cleared).moved t.request .ended
  | .ended => s

end Recovery

/-! ## What is asked of tokens -/

/-- It makes the tokens of the user before it worthless. -/
def Happening.Supersedes (userId : String) : Happening → Prop
  | .issued _ user _ | .emailChanged user => user = userId
  | .passwordChanged .. => False

/-- The token was issued to the user, and nothing has superseded it since. -/
def Current (log : List Happening) (digest userId : String) (expires : Nat) : Prop :=
  ∃ before later, log = before ++ .issued digest userId expires :: later ∧
    ∀ h ∈ later, ¬h.Supersedes userId

/-- Each password change is the first by its token, and comes before the token expires, of a request
that found the token while it was current. -/
def SingleUse (log : List Happening) : Prop :=
  ∀ before userId digest since now later,
    log = before ++ .passwordChanged userId digest since now :: later →
      (∀ user since' now', .passwordChanged user digest since' now' ∉ before) ∧
        ∃ expires, Current (before.take since) digest userId expires ∧ now ≤ expires

namespace Recovery

/-- A token that was drawn is new. -/
def Draws (hashToken : String → String) (s : Recovery) (t : RecoveryTurn) : Prop :=
  match s.phase t.request with
  | .issuing _ => ∀ userId expires, .issued (hashToken t.drawn) userId expires ∉ s.log
  | _ => True

/-- When the homeserver has changed the password, the token has not expired, is still in a row, and no
other request is about to clear it; and an address changes only with the token it was loaded with. -/
def Prompt (s : Recovery) (t : RecoveryTurn) : Prop :=
  match s.phase t.request with
  | .asked loaded digest _ => t.succeeds = true →
    (∀ expires ∈ loaded.recoveryTokenExpires, t.now ≤ expires) ∧
      (∃ user ∈ s.users, user.recoveryTokenHash = some digest) ∧
        ∀ n other, s.phase n ≠ .changed other digest
  | .emailLoaded userId email (some loaded) => email ≠ loaded.recoveryEmail →
    loaded.recoveryTokenHash = none → ∀ user ∈ s.user? userId, user.recoveryTokenHash = none
  | _ => True

end Recovery

/-! ## What a log keeps -/

section

variable {log before : List Happening} {digest userId : String} {expires : Nat} {h : Happening}

theorem Current.issued (h : Current log digest userId expires) :
    .issued digest userId expires ∈ log := by
  obtain ⟨before, later, rfl, -⟩ := h
  exact List.mem_append_right _ List.mem_cons_self

/-- A token stays current until something supersedes it. -/
theorem Current.append (current : Current log digest userId expires) (kept : ¬h.Supersedes userId) :
    Current (log ++ [h]) digest userId expires := by
  obtain ⟨before, later, rfl, none⟩ := current
  refine ⟨before, later ++ [h], by rw [List.append_assoc, List.cons_append], ?_⟩
  intro h' mem
  rcases List.mem_append.mp mem with mem | mem
  · exact none h' mem
  · rwa [List.mem_singleton.mp mem]

theorem Current.new : Current (log ++ [.issued digest userId expires]) digest userId expires :=
  ⟨log, [], rfl, by rintro h ⟨⟩⟩

/-- What happens besides password changes does not matter. -/
theorem SingleUse.append (single : SingleUse log)
    (new : ∀ userId digest since now, h = .passwordChanged userId digest since now →
      (∀ user since' now', .passwordChanged user digest since' now' ∉ log) ∧
        ∃ expires, Current (log.take since) digest userId expires ∧ now ≤ expires) :
    SingleUse (log ++ [h]) := by
  intro before userId digest since now later heq
  rcases List.eq_nil_or_concat later with rfl | ⟨later, last, rfl⟩
  · obtain ⟨rfl, same⟩ := List.append_inj' heq rfl
    cases same
    exact new _ _ _ _ rfl
  · rw [List.concat_eq_append, ← List.cons_append, ← List.append_assoc] at heq
    obtain ⟨rfl, -⟩ := List.append_inj' heq rfl
    exact single before userId digest since now later rfl

end

/-- What a request has loaded was so. -/
def RecoveryPhase.Backed (log : List Happening) : RecoveryPhase → Prop
  | .emailLoaded _ _ (some loaded) =>
    loaded.recoveryTokenHash = none ↔ loaded.recoveryTokenExpires = none
  | .stale loaded => loaded.recoveryTokenHash ≠ none ∧ loaded.recoveryTokenExpires ≠ none
  | .asked loaded digest since =>
    loaded.recoveryTokenHash = some digest ∧ since ≤ log.length ∧
      ∃ expires, loaded.recoveryTokenExpires = some expires ∧
        Current (log.take since) digest loaded.userId expires
  | .changed loaded digest =>
    (loaded.recoveryTokenHash ≠ none ∧ loaded.recoveryTokenExpires ≠ none) ∧
      ∃ expires, .issued digest loaded.userId expires ∈ log
  | _ => True

theorem RecoveryPhase.Backed.append {log : List Happening} {phase : RecoveryPhase} {h : Happening}
    (backed : phase.Backed log) : phase.Backed (log ++ [h]) := by
  cases phase with
  | emailLoaded userId email loaded =>
    cases loaded with
    | none => trivial
    | some loaded => exact backed
  | stale loaded => exact backed
  | asked loaded digest since =>
    obtain ⟨hash, le, expires, valid, current⟩ := backed
    refine ⟨hash, ?_, expires, valid, ?_⟩
    · rw [List.length_append]
      exact Nat.le_add_right_of_le le
    · rwa [List.take_append_of_le_length le]
  | changed loaded digest =>
    obtain ⟨loadedToken, expires, issued⟩ := backed
    exact ⟨loadedToken, expires, List.mem_append_left _ issued⟩
  | settingEmail | forgetting | issuing | resetting | ended => trivial

namespace Recovery

/-- Rows hold current tokens with their expiry, and no token that was used and cleared. -/
structure Sound (s : Recovery) : Prop where
  keys : (s.users.map User.userId).Nodup
  paired : ∀ user ∈ s.users, user.recoveryTokenHash = none → user.recoveryTokenExpires = none
  current : ∀ user ∈ s.users, ∀ digest, user.recoveryTokenHash = some digest →
    ∃ expires, user.recoveryTokenExpires = some expires ∧
      Current s.log digest user.userId expires
  backed : ∀ n, (s.phase n).Backed s.log
  unique : ∀ digest userId expires userId' expires', .issued digest userId expires ∈ s.log →
    .issued digest userId' expires' ∈ s.log → userId = userId'
  spent : ∀ userId digest since now, .passwordChanged userId digest since now ∈ s.log →
    (∃ n loaded, s.phase n = .changed loaded digest) ∨
      ∀ user ∈ s.users, user.recoveryTokenHash ≠ some digest
  single : SingleUse s.log

variable {s : Recovery} {n m : Nat} {phase : RecoveryPhase} {userId : String} {f : User → User}

theorem moved_self : (s.moved n phase).phase n = phase := Function.update_self ..

theorem moved_of_ne (other : m ≠ n) : (s.moved n phase).phase m = s.phase m :=
  Function.update_of_ne other ..

theorem sound_moved (h : s.Sound) (backed : phase.Backed s.log)
    (clear : ∀ loaded digest, s.phase n = .changed loaded digest →
      ∀ user ∈ s.users, user.recoveryTokenHash ≠ some digest) : (s.moved n phase).Sound where
  keys := h.keys
  paired := h.paired
  current := h.current
  backed m := by
    by_cases same : m = n
    · rw [same, moved_self]
      exact backed
    · rw [moved_of_ne same]
      exact h.backed m
  unique := h.unique
  spent userId digest since now mem := by
    rcases h.spent userId digest since now mem with ⟨m, loaded, there⟩ | gone
    · by_cases same : m = n
      · exact .inr (clear loaded digest (same ▸ there))
      · refine .inl ⟨m, loaded, ?_⟩
        rw [moved_of_ne same]
        exact there
    · exact .inr gone
  single := h.single

/-- The token of a row is left alone or cleared. -/
def Spares (f : User → User) : Prop := ∀ user, (f user).userId = user.userId ∧
  ((f user).recoveryTokenHash = none ∧ (f user).recoveryTokenExpires = none ∨
    (f user).recoveryTokenHash = user.recoveryTokenHash ∧
      (f user).recoveryTokenExpires = user.recoveryTokenExpires)

/-- Each token that is left was there. -/
theorem mem_updated (spares : Spares f) {user : User} (mem : user ∈ (s.updated userId f).users) :
    ∃ before ∈ s.users, before.userId = user.userId ∧
      (user.recoveryTokenHash = none ∧ user.recoveryTokenExpires = none ∨
        user.recoveryTokenHash = before.recoveryTokenHash ∧
          user.recoveryTokenExpires = before.recoveryTokenExpires) := by
  obtain ⟨before, there, rfl⟩ := List.mem_map.mp mem
  refine ⟨before, there, ?_⟩
  split
  · exact ⟨(spares before).1.symm, (spares before).2⟩
  · exact ⟨rfl, .inr ⟨rfl, rfl⟩⟩

theorem keys_updated (same : ∀ user, (f user).userId = user.userId) :
    (s.updated userId f).users.map User.userId = s.users.map User.userId := by
  rw [updated, List.map_map]
  refine List.map_congr_left fun user _ => ?_
  rw [Function.comp_apply]
  split
  · exact same user
  · rfl

theorem sound_updated (h : s.Sound) (spares : Spares f) : (s.updated userId f).Sound where
  keys := by
    rw [keys_updated fun user => (spares user).1]
    exact h.keys
  paired user mem none := by
    obtain ⟨before, there, -, ⟨-, cleared⟩ | ⟨hash, expires⟩⟩ := mem_updated spares mem
    · exact cleared
    · rw [expires]
      exact h.paired before there (hash ▸ none)
  current user mem digest some := by
    obtain ⟨before, there, same, ⟨cleared, -⟩ | ⟨hash, expires⟩⟩ := mem_updated spares mem
    · rw [cleared] at some
      cases some
    · rw [expires, ← same]
      exact h.current before there digest (hash ▸ some)
  backed := h.backed
  unique := h.unique
  spent userId digest since now mem := by
    refine (h.spent userId digest since now mem).imp_right fun gone user mem some => ?_
    obtain ⟨before, there, -, ⟨cleared, -⟩ | ⟨hash, -⟩⟩ := mem_updated spares mem
    · rw [cleared] at some
      cases some
    · exact gone before there (hash ▸ some)
  single := h.single

theorem sound_emailChanged (h : s.Sound)
    (cleared : ∀ user ∈ s.users, user.userId = userId → user.recoveryTokenHash = none) :
    (s.happens (.emailChanged userId)).Sound where
  keys := h.keys
  paired := h.paired
  current user mem digest some := by
    obtain ⟨expires, valid, current⟩ := h.current user mem digest some
    refine ⟨expires, valid, current.append fun same => ?_⟩
    rw [cleared user mem same.symm] at some
    cases some
  backed n := (h.backed n).append
  unique digest u e u' e' mem mem' := by
    have old {u e} (mem : .issued digest u e ∈ s.log ++ [.emailChanged userId]) :
        .issued digest u e ∈ s.log := (List.mem_append.mp mem).resolve_right fun new => by
      cases List.mem_singleton.mp new
    exact h.unique digest u e u' e' (old mem) (old mem')
  spent u digest since now mem := by
    refine h.spent u digest since now ((List.mem_append.mp mem).resolve_right fun new => ?_)
    cases List.mem_singleton.mp new
  single := h.single.append fun _ _ _ _ same => by cases same

theorem sound_inserted (h : s.Sound) {email : Option String}
    (absent : ¬∃ user ∈ s.users, user.userId = userId) :
    Sound { s with users := s.users ++ [{ userId, recoveryEmail := email }] } where
  keys := by
    rw [List.map_append]
    refine h.keys.append (List.nodup_singleton _) ?_
    intro key before new
    obtain ⟨user, there, rfl⟩ := List.mem_map.mp before
    exact absent ⟨user, there, List.mem_singleton.mp new⟩
  paired user mem none := by
    rcases List.mem_append.mp mem with mem | new
    · exact h.paired user mem none
    · rw [List.mem_singleton.mp new]
  current user mem digest some := by
    rcases List.mem_append.mp mem with mem | new
    · exact h.current user mem digest some
    · rw [List.mem_singleton.mp new] at some
      cases some
  backed := h.backed
  unique := h.unique
  spent u digest since now mem := by
    refine (h.spent u digest since now mem).imp_right fun gone user mem some => ?_
    rcases List.mem_append.mp mem with mem | new
    · exact gone user mem some
    · rw [List.mem_singleton.mp new] at some
      cases some
  single := h.single

/-- A token that was used was issued. -/
theorem Sound.issued (h : s.Sound) {digest : String} {since now : Nat}
    (mem : .passwordChanged userId digest since now ∈ s.log) :
    ∃ expires, .issued digest userId expires ∈ s.log := by
  obtain ⟨before, later, heq⟩ := List.append_of_mem mem
  obtain ⟨-, expires, current, -⟩ := h.single before userId digest since now later heq
  refine ⟨expires, ?_⟩
  rw [heq]
  exact List.mem_append_left _ (List.mem_of_mem_take current.issued)

theorem sound_issued (h : s.Sound) {digest : String} {expires : Nat}
    (new : ∀ userId expires, .issued digest userId expires ∉ s.log) :
    ((s.updated userId fun user => { user with
      recoveryTokenHash := some digest, recoveryTokenExpires := some expires }).happens
        (.issued digest userId expires)).Sound := by
  -- a row is that of the user, or as it was
  have rows {user : User} (mem : user ∈ (s.updated userId fun user => { user with
      recoveryTokenHash := some digest, recoveryTokenExpires := some expires }).users) :
      user.userId = userId ∧ user.recoveryTokenHash = some digest ∧
          user.recoveryTokenExpires = some expires ∨ user ∈ s.users ∧ user.userId ≠ userId := by
    obtain ⟨before, there, rfl⟩ := List.mem_map.mp mem
    split
    · rename_i same
      exact .inl ⟨same, rfl, rfl⟩
    · rename_i other
      exact .inr ⟨there, other⟩
  refine ⟨?_, ?_, ?_, ?_, ?_, ?_, ?_⟩
  · exact Eq.mpr (congrArg List.Nodup (keys_updated fun _ => rfl)) h.keys
  · intro user mem none
    rcases rows mem with ⟨-, some, -⟩ | ⟨there, -⟩
    · rw [some] at none
      cases none
    · exact h.paired user there none
  · intro user mem digest' some
    rcases rows mem with ⟨same, hash, valid⟩ | ⟨there, other⟩
    · rw [hash] at some
      cases some
      exact ⟨expires, valid, same ▸ Current.new⟩
    · obtain ⟨expires', valid, current⟩ := h.current user there digest' some
      exact ⟨expires', valid, current.append fun same => other same.symm⟩
  · exact fun n => (h.backed n).append
  · intro digest' u e u' e' mem mem'
    rcases List.mem_append.mp mem with mem | mem <;> rcases List.mem_append.mp mem' with mem' | mem'
    · exact h.unique digest' u e u' e' mem mem'
    · cases List.mem_singleton.mp mem'
      exact absurd mem (new u e)
    · cases List.mem_singleton.mp mem
      exact absurd mem' (new u' e')
    · cases List.mem_singleton.mp mem
      cases List.mem_singleton.mp mem'
      rfl
  · intro u digest' since now mem
    have old := (List.mem_append.mp mem).resolve_right fun new => by
      cases List.mem_singleton.mp new
    refine (h.spent u digest' since now old).imp_right fun gone user mem some => ?_
    rcases rows mem with ⟨-, hash, -⟩ | ⟨there, -⟩
    · rw [hash] at some
      cases some
      obtain ⟨e, issued⟩ := h.issued old
      exact new u e issued
    · exact gone user there some
  · exact h.single.append fun _ _ _ _ same => by cases same

/-- The homeserver has changed a password. -/
theorem sound_changed (h : s.Sound) {loaded : User} {digest : String} {since now : Nat}
    (asked : s.phase n = .asked loaded digest since)
    (timely : ∀ expires ∈ loaded.recoveryTokenExpires, now ≤ expires)
    (there : ∃ user ∈ s.users, user.recoveryTokenHash = some digest)
    (alone : ∀ m other, s.phase m ≠ .changed other digest) :
    ((s.moved n (.changed loaded digest)).happens
      (.passwordChanged loaded.userId digest since now)).Sound := by
  have backed := h.backed n
  rw [asked] at backed
  obtain ⟨hash, le, expires, valid, current⟩ := backed
  have unspent (user : String) (since' now' : Nat) :
      .passwordChanged user digest since' now' ∉ s.log := by
    intro mem
    rcases h.spent user digest since' now' mem with ⟨m, other, clearing⟩ | gone
    · exact alone m other clearing
    · obtain ⟨user, mem, some⟩ := there
      exact gone user mem some
  refine ⟨h.keys, h.paired, ?_, ?_, ?_, ?_, ?_⟩
  · intro user mem digest' some
    obtain ⟨expires, valid, current⟩ := h.current user mem digest' some
    exact ⟨expires, valid, current.append id⟩
  · intro m
    by_cases same : m = n
    · show (RecoveryPhase.Backed _ ((s.moved n _).phase m))
      rw [same, moved_self]
      refine ⟨⟨by rw [hash]; simp, by rw [valid]; simp⟩, expires, ?_⟩
      exact List.mem_append_left _ (List.mem_of_mem_take current.issued)
    · show (RecoveryPhase.Backed _ ((s.moved n _).phase m))
      rw [moved_of_ne same]
      exact (h.backed m).append
  · intro digest' u e u' e' mem mem'
    have old {u e} (mem : .issued digest' u e ∈ s.log ++
        [.passwordChanged loaded.userId digest since now]) : .issued digest' u e ∈ s.log :=
      (List.mem_append.mp mem).resolve_right fun new => by
        cases List.mem_singleton.mp new
    exact h.unique digest' u e u' e' (old mem) (old mem')
  · intro u digest' since' now' mem
    rcases List.mem_append.mp mem with mem | new
    · refine (h.spent u digest' since' now' mem).imp_left ?_
      rintro ⟨m, other, clearing⟩
      have other' : m ≠ n := by
        rintro rfl
        rw [asked] at clearing
        cases clearing
      exact ⟨m, other, (moved_of_ne other').trans clearing⟩
    · cases List.mem_singleton.mp new
      exact .inl ⟨n, loaded, moved_self⟩
  · refine h.single.append fun _ _ _ _ same => ?_
    cases same
    exact ⟨unspent, expires, current, timely expires valid⟩

theorem spares_cleared {loaded : User}
    (paired : loaded.recoveryTokenHash = none ↔ loaded.recoveryTokenExpires = none) :
    Spares loaded.cleared := by
  refine fun user => ⟨rfl, ?_⟩
  by_cases none : loaded.recoveryTokenHash = none
  · exact .inr ⟨if_pos none, if_pos (paired.mp none)⟩
  · exact .inl ⟨if_neg none, if_neg (mt paired.mpr none)⟩

/-- A token that was loaded is in no row once it is cleared. -/
theorem gone_of_cleared (h : s.Sound) {loaded : User} {digest : String}
    (token : loaded.recoveryTokenHash ≠ none) {expires : Nat}
    (issued : .issued digest loaded.userId expires ∈ s.log) :
    ∀ user ∈ (s.updated loaded.userId loaded.cleared).users, user.recoveryTokenHash ≠ some digest := by
  intro user mem some
  obtain ⟨before, there, rfl⟩ := List.mem_map.mp mem
  split at some
  · rw [User.cleared, if_neg token] at some
    cases some
  · rename_i other
    obtain ⟨expires', -, current⟩ := h.current before there digest some
    exact other (h.unique _ _ _ _ _ current.issued issued)

theorem mem_of_user? {user : User} (found : s.user? userId = some user) :
    user ∈ s.users ∧ user.userId = userId := by
  have same := List.find?_some found
  exact ⟨List.mem_of_find?_eq_some found, of_decide_eq_true same⟩

theorem Sound.pairs (h : s.Sound) {user : User} (mem : user ∈ s.users) :
    user.recoveryTokenHash = none ↔ user.recoveryTokenExpires = none := by
  refine ⟨h.paired user mem, fun none => ?_⟩
  cases some : user.recoveryTokenHash with
  | none => rfl
  | some digest =>
    obtain ⟨expires, valid, -⟩ := h.current user mem digest some
    rw [valid] at none
    cases none

theorem sound_readdressed (h : s.Sound) {before : Recovery}
    (cleared : (s.user? userId).bind User.recoveryEmail ≠
      (before.user? userId).bind User.recoveryEmail →
        ∀ user ∈ s.users, user.userId = userId → user.recoveryTokenHash = none) :
    (s.readdressed before userId).Sound := by
  unfold readdressed
  split
  · exact h
  · rename_i other
    exact sound_emailChanged h (cleared other)

theorem user?_of_mem (h : s.Sound) {user : User} (mem : user ∈ s.users) :
    s.user? user.userId = some user := by
  cases found : s.user? user.userId with
  | none => exact absurd (decide_eq_true rfl) (List.find?_eq_none.mp found user mem)
  | some other =>
    obtain ⟨there, same⟩ := mem_of_user? found
    rw [List.inj_on_of_nodup_map h.keys there mem same]

theorem user?_updated (same : ∀ user, (f user).userId = user.userId) :
    (s.updated userId f).user? userId = (s.user? userId).map f := by
  have still (user : User) : (if user.userId = userId then f user else user).userId = user.userId := by
    split
    · exact same user
    · rfl
  simp only [user?, updated, List.find?_map, Function.comp_def, still]
  refine Option.map_congr fun user found => if_pos ?_
  exact (mem_of_user? found).2

/-- An address changes only when the one set is another than the one loaded. -/
theorem ne_of_readdressed {loaded : User} {email : Option String}
    (other : ((s.updated userId (loaded.readdressed email)).user? userId).bind User.recoveryEmail ≠
      (s.user? userId).bind User.recoveryEmail) : email ≠ loaded.recoveryEmail := by
  rintro rfl
  refine other ?_
  rw [user?_updated (f := loaded.readdressed loaded.recoveryEmail) fun _ => rfl, Option.bind_map]
  refine Option.bind_congr fun user _ => ?_
  exact if_pos rfl

theorem sound_step {hashToken : String → String} {t : RecoveryTurn} (h : s.Sound)
    (draws : s.Draws hashToken t) (prompt : s.Prompt t) : (s.step hashToken t).Sound := by
  have backed := h.backed t.request
  unfold step
  unfold Draws at draws
  unfold Prompt at prompt
  cases here : s.phase t.request with
  | settingEmail userId email =>
    have clear (loaded digest) : s.phase t.request ≠ .changed loaded digest := by
      rw [here]
      rintro ⟨⟩
    refine sound_moved h ?_ fun loaded digest clearing => absurd clearing (clear loaded digest)
    cases found : s.user? userId with
    | none => trivial
    | some user => exact h.pairs (mem_of_user? found).1
  | emailLoaded userId email loaded =>
    have clear (loaded digest) : s.phase t.request ≠ .changed loaded digest := by
      rw [here]
      rintro ⟨⟩
    rw [here] at backed prompt
    cases loaded with
    | none =>
      dsimp only
      split
      · exact sound_moved h trivial fun loaded digest clearing => absurd clearing (clear loaded digest)
      · rename_i absent
        have inserted : (moved { s with users := s.users ++ [{ userId, recoveryEmail := email }] }
            t.request .ended).Sound := sound_moved (sound_inserted h absent) trivial
          fun loaded digest clearing => absurd clearing (clear loaded digest)
        refine sound_readdressed inserted fun _ user mem same => ?_
        rcases List.mem_append.mp mem with there | new
        · exact absurd ⟨user, there, same⟩ absent
        · rw [List.mem_singleton.mp new]
    | some loaded =>
      have spares : Spares (loaded.readdressed email) := spares_cleared backed
      have updated : ((s.updated userId (loaded.readdressed email)).moved t.request .ended).Sound :=
        sound_moved (sound_updated h spares) trivial
          fun loaded digest clearing => absurd clearing (clear loaded digest)
      refine sound_readdressed updated fun other user mem same => ?_
      obtain ⟨before, there, rfl⟩ := List.mem_map.mp mem
      have whose : before.userId = userId := by
        split at same
        · assumption
        · exact same
      rw [if_pos whose]
      by_cases none : loaded.recoveryTokenHash = none
      · refine (if_pos none).trans ?_
        exact prompt (ne_of_readdressed other) none before (whose ▸ user?_of_mem h there)
      · exact if_neg none
  | forgetting userId =>
    have clear (loaded digest) : s.phase t.request ≠ .changed loaded digest := by
      rw [here]
      rintro ⟨⟩
    dsimp only
    split
    · refine sound_moved h ?_ fun loaded digest clearing => absurd clearing (clear loaded digest)
      split <;> trivial
    · exact sound_moved h trivial fun loaded digest clearing => absurd clearing (clear loaded digest)
  | issuing loaded =>
    have clear (loaded digest) : s.phase t.request ≠ .changed loaded digest := by
      rw [here]
      rintro ⟨⟩
    rw [here] at draws
    exact sound_moved (sound_issued h draws) trivial
      fun loaded digest clearing => absurd clearing (clear loaded digest)
  | resetting token =>
    have clear (loaded digest) : s.phase t.request ≠ .changed loaded digest := by
      rw [here]
      rintro ⟨⟩
    have ends : (s.moved t.request .ended).Sound :=
      sound_moved h trivial fun loaded digest clearing => absurd clearing (clear loaded digest)
    dsimp only
    split
    · rename_i user found
      obtain ⟨there, some⟩ := List.mem_filter.mp (found ▸ List.mem_singleton_self user)
      obtain ⟨expires, valid, current⟩ := h.current user there _ (of_decide_eq_true some)
      rw [valid]
      refine sound_moved h ?_ fun loaded digest clearing => absurd clearing (clear loaded digest)
      split
      · exact ⟨by rw [of_decide_eq_true some]; simp, by rw [valid]; simp⟩
      · refine ⟨of_decide_eq_true some, Nat.le_refl _, expires, valid, ?_⟩
        rwa [List.take_length]
    · exact ends
  | stale loaded =>
    have clear (loaded digest) : s.phase t.request ≠ .changed loaded digest := by
      rw [here]
      rintro ⟨⟩
    rw [here] at backed
    refine sound_moved (sound_updated h (spares_cleared ?_)) trivial
      fun loaded digest clearing => absurd clearing (clear loaded digest)
    exact iff_of_false backed.1 backed.2
  | asked loaded digest since =>
    have clear (loaded digest) : s.phase t.request ≠ .changed loaded digest := by
      rw [here]
      rintro ⟨⟩
    rw [here] at prompt
    dsimp only
    split
    · rename_i succeeds
      obtain ⟨timely, there, alone⟩ := prompt succeeds
      exact sound_changed h here timely there alone
    · exact sound_moved h trivial fun loaded digest clearing => absurd clearing (clear loaded digest)
  | changed loaded digest =>
    rw [here] at backed
    obtain ⟨token, expires, issued⟩ := backed
    refine sound_moved (sound_updated h (spares_cleared (iff_of_false token.1 token.2))) trivial
      fun other digest' clearing => ?_
    cases here.symm.trans clearing
    exact gone_of_cleared h token.1 issued
  | ended => exact h

theorem sound_opened (requests : Nat → RecoveryRequest) : (opened requests).Sound where
  keys := List.nodup_nil
  paired := by
    rintro user ⟨⟩
  current := by
    rintro user ⟨⟩
  backed n := by
    show RecoveryPhase.Backed [] (match requests n with
      | .setRecoveryEmail userId email => .settingEmail userId email
      | .forgotPassword userId => .forgetting userId
      | .resetPassword token => .resetting token)
    cases requests n <;> trivial
  unique := by
    rintro _ _ _ _ _ ⟨⟩
  spent := by
    rintro _ _ _ _ ⟨⟩
  single := by
    intro before userId digest since now later heq
    cases before <;> cases heq

end Recovery

/-- In every run, each token leads to at most one password change, before it expires and of a request
that found it current, when no two requests use a token at once, none is kept waiting until the token
has expired, and no address is changed with the token of an earlier row. -/
theorem singleUse_of_prompt (hashToken : String → String) (requests : Nat → RecoveryRequest)
    (turns : List RecoveryTurn)
    (draws : Along (Recovery.step hashToken) (Recovery.Draws hashToken) (.opened requests) turns)
    (prompt : Along (Recovery.step hashToken) Recovery.Prompt (.opened requests) turns) :
    SingleUse (run (Recovery.step hashToken) (.opened requests) turns).log := by
  have sound := invariant Recovery.Sound (fun s t meets h => Recovery.sound_step h meets.1 meets.2)
    (draws.and prompt) (Recovery.sound_opened requests)
  exact sound.single

/-- The digest of `reset-token-1`. -/
def resetDigest : String := "0de6c8537636194b8edc06f57df89b9ce680eaa961ccad1b0e8ab614f89fa12e"

/-- Alice sets an address and has a token mailed to it, and everybody else presents that token. -/
def recoveryRequests : Nat → RecoveryRequest
  | 0 => .setRecoveryEmail "@alice:localhost" (some "alice@example.org")
  | 1 => .forgotPassword "@alice:localhost"
  | _ => .resetPassword "reset-token-1"

def issuingTurns : List RecoveryTurn :=
  [{ request := 0 }, { request := 0 }, { request := 1 }, { request := 1, drawn := "reset-token-1" }]

/-- One request presents the token. -/
theorem singleUse_one_request : SingleUse (run (Recovery.step fun _ => resetDigest)
    (.opened recoveryRequests) (issuingTurns ++ List.replicate 3 { request := 2 })).log := by
  refine singleUse_of_prompt (fun _ => resetDigest) recoveryRequests
    (issuingTurns ++ List.replicate 3 { request := 2 }) ?_ ?_
  · refine ⟨trivial, trivial, trivial, ?_, trivial, trivial, trivial, trivial⟩
    rintro userId expires (_ | ⟨_, ⟨⟩⟩)
  · refine ⟨trivial, trivial, trivial, trivial, trivial, ?_, trivial, trivial⟩
    rintro -
    refine ⟨?_, ⟨_, List.mem_cons_self, rfl⟩, ?_⟩
    · rintro expires ⟨⟩
      decide
    · rintro (_ | _ | _ | n) other ⟨⟩

/-- Two requests present one token at once. -/
theorem token_used_twice : ¬∀ (hashToken : String → String) (requests : Nat → RecoveryRequest)
    (turns : List RecoveryTurn),
    Along (Recovery.step hashToken) (Recovery.Draws hashToken) (.opened requests) turns →
      SingleUse (run (Recovery.step hashToken) (.opened requests) turns).log := by
  intro h
  have single := h (fun _ => resetDigest) recoveryRequests
    (issuingTurns ++ [{ request := 2 }, { request := 3 }, { request := 2 }, { request := 3 }]) ?_
  · obtain ⟨first, -⟩ := single [_, _, _] _ _ _ _ [] rfl
    exact first _ _ _ (List.mem_cons_of_mem _ (List.mem_cons_of_mem _ List.mem_cons_self))
  · refine ⟨trivial, trivial, trivial, ?_, trivial, trivial, trivial, trivial, trivial⟩
    rintro userId expires (_ | ⟨_, ⟨⟩⟩)

end Concorrd.Api
