import Mathlib.Logic.Function.Basic
import Concorrd.Lib.Run
import Concorrd.Api.Invites

/-!
# The budget of an invite

Requests that present one invite take turns at every statement and at every call of the homeserver.
A `SELECT` reads what is committed. The first statement that writes opens the transaction of its
session, at most one is open at a time, and a session that would open another finds the database
locked and ends. A registration reserves its use with a conditional update and gives it back when the
homeserver refuses; redeeming writes down the use count it has read before, plus one
(`budget_kept_iff`).
-/

namespace Concorrd.Api

open Machine

/-- How far a request has come that presents an invite that is not permanent. -/
inductive Phase where
  | redeeming (userId : String)
  | loaded (userId : String) (useCount : Int)
  | allowed (userId : String) (useCount : Int)
  | outside (userId : String) (useCount : Int)
  | flushed
  | registering
  | validated
  | reserved
  | created (userId : String)
  | joined
  | refused
  | released
  | ended
  deriving DecidableEq, Repr

/-- The open transaction: whose it is, and what it sees of the invite and of the members. -/
structure Transaction where
  request : Nat
  useCount : Int
  members : List String
  deriving DecidableEq, Repr

/-- The next statement of a request, with what it meets outside: the time, a ban, the account the
homeserver has created. Any statement may fail. -/
structure Turn where
  request : Nat
  fails : Bool := false
  now : Nat := 0
  banned : Bool := false
  account : Option String := none

/-- What is committed, the open transaction, the requests, and how many accounts or memberships were
granted. -/
structure InviteRun where
  invite : InviteToken
  members : List String
  transaction : Option Transaction := none
  phase : Nat → Phase
  granted : Nat := 0

namespace InviteRun

/-- Nothing was presented yet. Some requests redeem the invite and others register with it. -/
def opened (invite : InviteToken) (members : List String) (redeems : Nat → Option String) :
    InviteRun where
  invite := invite
  members := members
  phase n := ((redeems n).map Phase.redeeming).getD .registering

variable (s : InviteRun)

def moved (n : Nat) (phase : Phase) : InviteRun :=
  { s with phase := Function.update s.phase n phase }

/-- The transaction is published. -/
def committed (transaction : Transaction) : InviteRun :=
  { s with
    invite := { s.invite with useCount := transaction.useCount }
    members := transaction.members
    transaction := none }

/-- The request ends with an error, and its transaction is rolled back. -/
def rolledBack (n : Nat) : InviteRun :=
  { s.moved n .ended with transaction := s.transaction.filter fun open' => open'.request ≠ n }

/-- The next statement of a request, when it does not fail. -/
def proceed (t : Turn) : InviteRun :=
  match s.phase t.request with
  | .redeeming userId =>
    s.moved t.request
      (if s.invite.IsValid t.now then .loaded userId s.invite.useCount else .ended)
  | .loaded userId useCount =>
    s.moved t.request (if t.banned then .ended else .allowed userId useCount)
  | .allowed userId useCount =>
    s.moved t.request (if userId ∈ s.members then .ended else .outside userId useCount)
  | .outside userId useCount =>
    -- the membership and the use count are flushed before the channels are read
    if s.transaction ≠ none ∨ userId ∈ s.members then s.moved t.request .ended
    else
      { s.moved t.request .flushed with
        transaction := some ⟨t.request, useCount + 1, userId :: s.members⟩ }
  | .flushed =>
    match s.transaction with
    | some transaction =>
      { (s.committed transaction).moved t.request .ended with granted := s.granted + 1 }
    | none => s
  | .registering =>
    s.moved t.request (if s.invite.IsValid t.now then .validated else .ended)
  | .validated =>
    if s.transaction ≠ none ∨ s.invite.maxUses ≤ s.invite.useCount then s.moved t.request .ended
    else
      { s.moved t.request .reserved with
        transaction := some ⟨t.request, s.invite.useCount + 1, s.members⟩ }
  | .reserved =>
    match t.account with
    | some userId => { s.moved t.request (.created userId) with granted := s.granted + 1 }
    | none => s.moved t.request .refused
  | .created userId =>
    match s.transaction with
    | some transaction =>
      if userId ∈ transaction.members then s.rolledBack t.request
      else
        { s.moved t.request .joined with
          transaction := some { transaction with members := userId :: transaction.members } }
    | none => s
  | .refused =>
    match s.transaction with
    | some transaction =>
      { s.moved t.request .released with
        transaction := some { transaction with useCount := transaction.useCount - 1 } }
    | none => s
  | .joined | .released =>
    match s.transaction with
    | some transaction => (s.committed transaction).moved t.request .ended
    | none => s
  | .ended => s

def step (t : Turn) : InviteRun := if t.fails then s.rolledBack t.request else s.proceed t

/-- No request is under way. -/
def Settled : Prop := ∀ n, match s.phase n with
  | .redeeming _ | .registering | .ended => True
  | _ => False

/-- Redeeming commits over the use count it has read, and a registration for which an account was
created does not fail, nor is the account a member already. -/
def Counts (t : Turn) : Prop :=
  match s.phase t.request with
  | .flushed => t.fails = false →
    ∀ transaction ∈ s.transaction, transaction.useCount = s.invite.useCount + 1
  | .created userId => t.fails = false ∧ ∀ transaction ∈ s.transaction, userId ∉ transaction.members
  | .joined => t.fails = false
  | _ => True

/-! ### What a turn does -/

end InviteRun

/-- The request has written and not committed yet. -/
def Phase.Writes : Phase → Prop
  | .flushed | .reserved | .created _ | .joined | .refused | .released => True
  | _ => False

/-- The use count a request that redeems has read. -/
def Phase.read? : Phase → Option Int
  | .loaded _ useCount | .allowed _ useCount | .outside _ useCount => some useCount
  | _ => none

/-- What a transaction has made of the use count of the invite. -/
def Phase.Drawn (invite : InviteToken) (useCount : Int) : Phase → Prop
  | .flushed => useCount ≤ invite.maxUses
  | .released => useCount = invite.useCount
  | _ => useCount = invite.useCount + 1 ∧ useCount ≤ invite.maxUses

/-- An account that was created and is not counted in what is committed. -/
def Phase.ahead : Phase → Int
  | .created _ | .joined => 1
  | _ => 0

namespace InviteRun

variable {s s' : InviteRun} {n m : Nat} {phase : Phase} {t : Turn} {b : Int}

@[simp] theorem moved_self : (s.moved n phase).phase n = phase := Function.update_self ..

theorem moved_of_ne (other : m ≠ n) : (s.moved n phase).phase m = s.phase m :=
  Function.update_of_ne other ..

/-- What one turn may do, and whether it counts. -/
inductive Moves (s : InviteRun) (t : Turn) : InviteRun → Prop where
  | stays (counts : s.Counts t) : Moves s t s
  | fails (counts : s.Counts t ↔ (s.phase t.request).ahead = 0) : Moves s t (s.rolledBack t.request)
  | reads {phase : Phase} (counts : s.Counts t) (before : ¬(s.phase t.request).Writes)
    (after : ¬phase.Writes) (read : ∀ c ∈ phase.read?,
      c ∈ (s.phase t.request).read? ∨ c = s.invite.useCount ∧ c < s.invite.maxUses) :
    Moves s t (s.moved t.request phase)
  | flush {userId : String} {useCount : Int} (counts : s.Counts t)
    (here : s.phase t.request = .outside userId useCount) (free : s.transaction = none) :
    Moves s t { s.moved t.request .flushed with
      transaction := some ⟨t.request, useCount + 1, userId :: s.members⟩ }
  | reserve (counts : s.Counts t) (here : s.phase t.request = .validated)
    (free : s.transaction = none) (left : s.invite.useCount < s.invite.maxUses) :
    Moves s t { s.moved t.request .reserved with
      transaction := some ⟨t.request, s.invite.useCount + 1, s.members⟩ }
  | create {userId : String} (counts : s.Counts t) (here : s.phase t.request = .reserved) :
    Moves s t { s.moved t.request (.created userId) with granted := s.granted + 1 }
  | refuse (counts : s.Counts t) (here : s.phase t.request = .reserved) :
    Moves s t (s.moved t.request .refused)
  | join {userId : String} {transaction : Transaction} (counts : s.Counts t)
    (here : s.phase t.request = .created userId) (holds : s.transaction = some transaction) :
    Moves s t { s.moved t.request .joined with
      transaction := some { transaction with members := userId :: transaction.members } }
  | release {transaction : Transaction} (counts : s.Counts t) (here : s.phase t.request = .refused)
    (holds : s.transaction = some transaction) :
    Moves s t { s.moved t.request .released with
      transaction := some { transaction with useCount := transaction.useCount - 1 } }
  | redeem {transaction : Transaction}
    (counts : s.Counts t ↔ transaction.useCount = s.invite.useCount + 1)
    (here : s.phase t.request = .flushed) (holds : s.transaction = some transaction) :
    Moves s t { (s.committed transaction).moved t.request .ended with granted := s.granted + 1 }
  | publish {transaction : Transaction} (counts : s.Counts t)
    (here : s.phase t.request = .joined ∨ s.phase t.request = .released)
    (holds : s.transaction = some transaction) :
    Moves s t ((s.committed transaction).moved t.request .ended)

/-- What fails counts unless an account was created. -/
theorem counts_of_fails (fails : t.fails = true) :
    s.Counts t ↔ (s.phase t.request).ahead = 0 := by
  unfold Counts
  cases s.phase t.request <;> simp [fails, Phase.ahead]

/-- A turn does one of these. -/
theorem step_moves (limited : s.invite.permanent = false) : Moves s t (s.step t) := by
  have valid {now : Nat} (h : s.invite.IsValid now) : s.invite.useCount < s.invite.maxUses :=
    (h.resolve_left (by rw [limited]; decide)).1
  unfold step
  split
  · rename_i fails
    exact .fails (counts_of_fails fails)
  rename_i succeeds
  rw [Bool.not_eq_true] at succeeds
  unfold proceed
  cases here : s.phase t.request with
  | redeeming userId =>
    have counts : s.Counts t := by simp only [Counts, here]
    have writes : ¬(s.phase t.request).Writes := here ▸ id
    dsimp only
    split
    · rename_i h
      refine .reads counts writes id fun c read => .inr ?_
      cases read
      exact ⟨rfl, valid h⟩
    · exact .reads counts writes id fun c read => by cases read
  | loaded userId useCount =>
    have counts : s.Counts t := by simp only [Counts, here]
    have writes : ¬(s.phase t.request).Writes := here ▸ id
    dsimp only
    split
    · exact .reads counts writes id fun c read => by cases read
    · refine .reads counts writes id fun c read => .inl ?_
      rw [here]
      exact read
  | allowed userId useCount =>
    have counts : s.Counts t := by simp only [Counts, here]
    have writes : ¬(s.phase t.request).Writes := here ▸ id
    dsimp only
    split
    · exact .reads counts writes id fun c read => by cases read
    · refine .reads counts writes id fun c read => .inl ?_
      rw [here]
      exact read
  | outside userId useCount =>
    have counts : s.Counts t := by simp only [Counts, here]
    dsimp only
    split
    · exact .reads counts (here ▸ id) id fun c read => by cases read
    · rename_i h
      exact .flush counts here (not_not.mp (not_or.mp h).1)
  | flushed =>
    dsimp only
    split
    · rename_i transaction holds
      refine .redeem ?_ here holds
      simp only [Counts, here, holds, succeeds, true_imp_iff, Option.mem_some_iff, forall_eq']
    · rename_i holds
      exact .stays (by simp only [Counts, here, holds, Option.not_mem_none, false_imp_iff,
        implies_true])
  | registering =>
    have counts : s.Counts t := by simp only [Counts, here]
    have writes : ¬(s.phase t.request).Writes := here ▸ id
    dsimp only
    split
    · exact .reads counts writes id fun c read => by cases read
    · exact .reads counts writes id fun c read => by cases read
  | validated =>
    have counts : s.Counts t := by simp only [Counts, here]
    dsimp only
    split
    · exact .reads counts (here ▸ id) id fun c read => by cases read
    · rename_i h
      obtain ⟨free, left⟩ := not_or.mp h
      exact .reserve counts here (not_not.mp free) (not_le.mp left)
  | reserved =>
    have counts : s.Counts t := by simp only [Counts, here]
    dsimp only
    split
    · exact .create counts here
    · exact .refuse counts here
  | created userId =>
    dsimp only
    split
    · rename_i transaction holds
      split
      · rename_i present
        refine .fails (iff_of_false ?_ ?_)
        · simp only [Counts, here, holds, Option.mem_some_iff, forall_eq']
          exact fun counts => counts.2 present
        · rw [here]
          show ¬(1 : Int) = 0
          decide
      · rename_i absent
        refine .join ?_ here holds
        simp only [Counts, here, holds, Option.mem_some_iff, forall_eq']
        exact ⟨succeeds, absent⟩
    · rename_i holds
      refine .stays ?_
      simp only [Counts, here, holds, Option.not_mem_none, false_imp_iff, implies_true, and_true]
      exact succeeds
  | refused =>
    have counts : s.Counts t := by simp only [Counts, here]
    dsimp only
    split
    · rename_i transaction holds
      exact .release counts here holds
    · exact .stays counts
  | joined =>
    have counts : s.Counts t := by simpa only [Counts, here] using succeeds
    dsimp only
    split
    · rename_i transaction holds
      exact .publish counts (.inl here) holds
    · exact .stays counts
  | released =>
    have counts : s.Counts t := by simp only [Counts, here]
    dsimp only
    split
    · rename_i transaction holds
      exact .publish counts (.inr here) holds
    · exact .stays counts
  | ended => exact .stays (by simp only [Counts, here])

/-- Requests that write are those whose transaction is open, and what they see comes from what was
there. -/
structure Coherent (s : InviteRun) : Prop where
  limited : s.invite.permanent = false
  within : s.invite.useCount ≤ s.invite.maxUses
  owner : ∀ n, (s.phase n).Writes ↔ ∃ transaction ∈ s.transaction, transaction.request = n
  drawn : ∀ transaction ∈ s.transaction,
    (s.phase transaction.request).Drawn s.invite transaction.useCount
  reads : ∀ n, ∀ c ∈ (s.phase n).read?, c < s.invite.maxUses

theorem read?_of_writes (h : phase.Writes) : phase.read? = none := by
  cases phase with
  | loaded | allowed | outside => exact h.elim
  | _ => rfl

section

variable {transaction : Transaction}

/-- Only the request whose transaction is open has written. -/
theorem Coherent.alone (h : Coherent s) (here : (s.phase n).Writes) (other : m ≠ n) :
    ¬(s.phase m).Writes := by
  intro there
  obtain ⟨transaction, holds, own⟩ := (h.owner n).mp here
  obtain ⟨transaction', holds', own'⟩ := (h.owner m).mp there
  cases holds.symm.trans holds'
  exact other (own'.symm.trans own)

theorem Coherent.free (h : Coherent s) (free : s.transaction = none) : ¬(s.phase m).Writes := by
  intro there
  obtain ⟨transaction, holds, -⟩ := (h.owner m).mp there
  rw [free] at holds
  cases holds

theorem Coherent.own (h : Coherent s) (here : (s.phase n).Writes)
    (holds : s.transaction = some transaction) : transaction.request = n := by
  obtain ⟨transaction', holds', own⟩ := (h.owner n).mp here
  cases holds.symm.trans holds'
  exact own

/-- A request writes, while no other does. -/
theorem Coherent.written (h : Coherent s) (phase : Phase) (alone : ∀ m ≠ n, ¬(s.phase m).Writes)
    (writes : phase.Writes) (own : transaction.request = n)
    (drawn : phase.Drawn s.invite transaction.useCount) :
    Coherent { s.moved n phase with transaction := some transaction } where
  limited := h.limited
  within := h.within
  owner m := by
    by_cases same : m = n
    · subst same
      refine iff_of_true ?_ ⟨transaction, rfl, own⟩
      rw [moved_self]
      exact writes
    · rw [moved_of_ne same]
      refine iff_of_false (alone m same) ?_
      rintro ⟨transaction', holds, own'⟩
      cases holds
      exact same (own'.symm.trans own)
  drawn := by
    rintro transaction' holds
    cases holds
    rw [own, moved_self]
    exact drawn
  reads m c read := by
    by_cases same : m = n
    · subst same
      rw [moved_self, read?_of_writes writes] at read
      cases read
    · rw [moved_of_ne same] at read
      exact h.reads m c read

/-- A request ends, and no other has written. -/
theorem Coherent.ended (h : Coherent s) (alone : ∀ m ≠ n, ¬(s.phase m).Writes) (useCount : Int)
    (members : List String) (within : useCount ≤ s.invite.maxUses) :
    Coherent { s.moved n .ended with
      invite := { s.invite with useCount }
      members
      transaction := none } where
  limited := h.limited
  within := within
  owner m := by
    by_cases same : m = n
    · subst same
      rw [moved_self]
      exact iff_of_false id fun open' => by obtain ⟨_, ⟨⟩, -⟩ := open'
    · rw [moved_of_ne same]
      exact iff_of_false (alone m same) fun open' => by obtain ⟨_, ⟨⟩, -⟩ := open'
  drawn := by
    rintro transaction ⟨⟩
  reads m c read := by
    by_cases same : m = n
    · subst same
      rw [moved_self] at read
      cases read
    · rw [moved_of_ne same] at read
      exact h.reads m c read

theorem Coherent.rolledBack (h : Coherent s) : Coherent (s.rolledBack n) where
  limited := h.limited
  within := h.within
  owner m := by
    by_cases same : m = n
    · subst same
      refine iff_of_false (fun writes => ?_) ?_
      · rw [InviteRun.rolledBack, moved_self] at writes
        exact writes
      · rintro ⟨transaction, holds, own⟩
        exact of_decide_eq_true (Option.filter_eq_some_iff.mp holds).2 own
    · rw [InviteRun.rolledBack, moved_of_ne same, h.owner m]
      refine exists_congr fun transaction => and_congr_left fun own => ?_
      rw [Option.mem_def, Option.mem_def, Option.filter_eq_some_iff]
      exact (and_iff_left (decide_eq_true (own ▸ same))).symm
  drawn transaction holds := by
    obtain ⟨holds, other⟩ := Option.filter_eq_some_iff.mp holds
    rw [InviteRun.rolledBack, moved_of_ne (of_decide_eq_true other)]
    exact h.drawn transaction holds
  reads m c read := by
    by_cases same : m = n
    · subst same
      rw [InviteRun.rolledBack, moved_self] at read
      cases read
    · rw [InviteRun.rolledBack, moved_of_ne same] at read
      exact h.reads m c read

/-- A request that has not written goes on without writing. -/
theorem Coherent.read (h : Coherent s) (before : ¬(s.phase n).Writes) (after : ¬phase.Writes)
    (read : ∀ c ∈ phase.read?, c < s.invite.maxUses) : Coherent (s.moved n phase) where
  limited := h.limited
  within := h.within
  owner m := by
    by_cases same : m = n
    · subst same
      rw [moved_self]
      exact iff_of_false after (mt (h.owner m).mpr before)
    · rw [moved_of_ne same]
      exact h.owner m
  drawn transaction holds := by
    have other : transaction.request ≠ n := fun own =>
      before ((h.owner n).mpr ⟨transaction, holds, own⟩)
    rw [moved_of_ne other]
    exact h.drawn transaction holds
  reads m c read' := by
    by_cases same : m = n
    · subst same
      rw [moved_self] at read'
      exact read c read'
    · rw [moved_of_ne same] at read'
      exact h.reads m c read'

theorem coherent_moves (h : Coherent s) (moves : Moves s t s') : Coherent s' := by
  cases moves with
  | stays => exact h
  | fails => exact h.rolledBack
  | reads counts before after read =>
    refine h.read before after fun c mem => ?_
    rcases read c mem with old | ⟨rfl, left⟩
    · exact h.reads _ c old
    · exact left
  | flush counts here free =>
    refine h.written .flushed (fun m _ => h.free free) trivial rfl ?_
    exact h.reads t.request _ (here ▸ rfl)
  | reserve counts here free left =>
    exact h.written .reserved (fun m _ => h.free free) trivial rfl ⟨rfl, left⟩
  | @create userId counts here =>
    have writes : (s.phase t.request).Writes := here ▸ trivial
    obtain ⟨transaction, holds, own⟩ := (h.owner _).mp writes
    have drawn := h.drawn transaction holds
    rw [own, here] at drawn
    have after := h.written (.created userId) (fun m => h.alone writes) trivial own drawn
    rw [← Option.mem_def.mp holds] at after
    exact ⟨after.limited, after.within, after.owner, after.drawn, after.reads⟩
  | refuse counts here =>
    have writes : (s.phase t.request).Writes := here ▸ trivial
    obtain ⟨transaction, holds, own⟩ := (h.owner _).mp writes
    have drawn := h.drawn transaction holds
    rw [own, here] at drawn
    have after := h.written .refused (fun m => h.alone writes) trivial own drawn
    rwa [← Option.mem_def.mp holds] at after
  | join counts here holds =>
    have writes : (s.phase t.request).Writes := here ▸ trivial
    have own := h.own writes holds
    have drawn := h.drawn _ holds
    rw [own, here] at drawn
    exact h.written .joined (fun m => h.alone writes) trivial own drawn
  | release counts here holds =>
    have writes : (s.phase t.request).Writes := here ▸ trivial
    have own := h.own writes holds
    have drawn := h.drawn _ holds
    rw [own, here] at drawn
    refine h.written .released (fun m => h.alone writes) trivial own ?_
    exact Int.sub_eq_iff_eq_add.mpr drawn.1
  | @redeem transaction counts here holds =>
    have writes : (s.phase t.request).Writes := here ▸ trivial
    have own := h.own writes holds
    have drawn := h.drawn _ holds
    rw [own, here] at drawn
    have after := h.ended (fun m => h.alone writes) transaction.useCount transaction.members drawn
    exact ⟨after.limited, after.within, after.owner, after.drawn, after.reads⟩
  | @publish transaction counts here holds =>
    have writes : (s.phase t.request).Writes := by
      rcases here with here | here <;> exact here ▸ trivial
    have own := h.own writes holds
    have drawn := h.drawn _ holds
    refine h.ended (fun m => h.alone writes) transaction.useCount transaction.members ?_
    rcases here with here | here
    · rw [own, here] at drawn
      exact drawn.2
    · rw [own, here] at drawn
      exact drawn.trans_le h.within

end

theorem ahead_of_reads (h : ¬phase.Writes) : phase.ahead = 0 := by
  cases phase with
  | created | joined => exact absurd trivial h
  | _ => rfl

theorem ahead_eq (h : phase.ahead ≠ 0) : phase.ahead = 1 := by
  cases phase with
  | created | joined => rfl
  | _ => exact absurd rfl h

/-- What was granted and should be counted in what is committed. -/
def counted (s : InviteRun) : Int :=
  s.granted - (s.transaction.map fun transaction => (s.phase transaction.request).ahead).getD 0

theorem counted_of_free (free : s.transaction = none) : s.counted = s.granted := by
  rw [counted, free]
  exact Int.sub_zero _

theorem counted_of_holds {transaction : Transaction} (holds : s.transaction = some transaction) :
    s.counted = s.granted - (s.phase transaction.request).ahead := by
  rw [counted, holds]
  rfl

/-- What a turn does to what is granted and to what is written down. -/
inductive Entry (s : InviteRun) (t : Turn) (s' : InviteRun) : Prop where
  | quiet (counts : s.Counts t) (granted : s'.counted = s.counted)
    (uses : s'.invite.useCount = s.invite.useCount)
  | lost (counts : ¬s.Counts t) (granted : s'.counted = s.counted + 1)
    (uses : s'.invite.useCount = s.invite.useCount)
  | used (counts : s.Counts t) (granted : s'.counted = s.counted + 1)
    (uses : s'.invite.useCount = s.invite.useCount + 1)
  | redeemed {transaction : Transaction}
    (counts : s.Counts t ↔ transaction.useCount = s.invite.useCount + 1)
    (holds : s.transaction = some transaction) (here : s.phase transaction.request = .flushed)
    (granted : s'.counted = s.counted + 1) (uses : s'.invite.useCount = transaction.useCount)

/-- A request whose transaction is open goes on. -/
theorem counted_moved {transaction : Transaction} (holds : s'.transaction = some transaction)
    (own : transaction.request = n) (there : s'.phase n = phase) :
    s'.counted = s'.granted - phase.ahead := by
  rw [counted_of_holds holds, own, there]

theorem entry_of_moves (h : Coherent s) (moves : Moves s t s') : Entry s t s' := by
  cases moves with
  | stays counts => exact .quiet counts rfl rfl
  | fails counts =>
    cases holds : s.transaction with
    | none =>
      have free : (s.rolledBack t.request).transaction = none := by
        rw [rolledBack, holds]
        rfl
      refine .quiet (counts.mpr (ahead_of_reads (h.free holds))) ?_ rfl
      rw [counted_of_free holds]
      exact counted_of_free free
    | some transaction =>
      by_cases own : transaction.request = t.request
      · have free : (s.rolledBack t.request).transaction = none := by
          show s.transaction.filter _ = none
          rw [holds]
          exact Option.filter_some_neg (decide_eq_false (not_not.mpr own))
        have before := counted_moved holds own rfl
        have after : (s.rolledBack t.request).counted = s.granted := counted_of_free free
        by_cases ahead : (s.phase t.request).ahead = 0
        · refine .quiet (counts.mpr ahead) ?_ rfl
          omega
        · refine .lost (mt counts.mp ahead) ?_ rfl
          have := ahead_eq ahead
          omega
      · have reads : ¬(s.phase t.request).Writes := fun writes => own (h.own writes holds)
        have kept : (s.rolledBack t.request).transaction = some transaction := by
          show s.transaction.filter _ = some transaction
          rw [holds]
          exact Option.filter_some_pos (decide_eq_true own)
        refine .quiet (counts.mpr (ahead_of_reads reads)) ?_ rfl
        rw [counted_of_holds holds, counted_of_holds kept, rolledBack, moved_of_ne own]
        rfl
  | reads counts before after =>
    refine .quiet counts ?_ rfl
    cases holds : s.transaction with
    | none =>
      rw [counted_of_free holds]
      exact counted_of_free holds
    | some transaction =>
      have other : transaction.request ≠ t.request := fun own =>
        before ((h.owner _).mpr ⟨transaction, holds, own⟩)
      rw [counted_of_holds holds, ← moved_of_ne other]
      exact counted_of_holds holds
  | flush counts here free =>
    refine .quiet counts (Eq.trans (counted_moved rfl rfl moved_self) ?_) rfl
    rw [counted_of_free free]
    exact Int.sub_zero _
  | reserve counts here free =>
    refine .quiet counts (Eq.trans (counted_moved rfl rfl moved_self) ?_) rfl
    rw [counted_of_free free]
    exact Int.sub_zero _
  | create counts here =>
    have writes : (s.phase t.request).Writes := here ▸ trivial
    obtain ⟨transaction, holds, own⟩ := (h.owner _).mp writes
    refine .quiet counts (Eq.trans (counted_moved holds own moved_self) ?_) rfl
    rw [counted_moved holds own here]
    show ((s.granted + 1 : Nat) : Int) - 1 = s.granted - 0
    omega
  | refuse counts here =>
    have writes : (s.phase t.request).Writes := here ▸ trivial
    obtain ⟨transaction, holds, own⟩ := (h.owner _).mp writes
    refine .quiet counts (Eq.trans (counted_moved holds own moved_self) ?_) rfl
    rw [counted_moved holds own here]
    rfl
  | join counts here holds =>
    have writes : (s.phase t.request).Writes := here ▸ trivial
    have own := h.own writes holds
    refine .quiet counts (Eq.trans (counted_moved rfl own moved_self) ?_) rfl
    rw [counted_moved holds own here]
    rfl
  | release counts here holds =>
    have writes : (s.phase t.request).Writes := here ▸ trivial
    have own := h.own writes holds
    refine .quiet counts (Eq.trans (counted_moved rfl own moved_self) ?_) rfl
    rw [counted_moved holds own here]
    rfl
  | redeem counts here holds =>
    have writes : (s.phase t.request).Writes := here ▸ trivial
    have own := h.own writes holds
    refine .redeemed counts holds (own ▸ here) (Eq.trans (counted_of_free rfl) ?_) rfl
    rw [counted_moved holds own here]
    show ((s.granted + 1 : Nat) : Int) = s.granted - 0 + 1
    omega
  | publish counts here holds =>
    have writes : (s.phase t.request).Writes := by
      rcases here with here | here <;> exact here ▸ trivial
    have own := h.own writes holds
    have drawn := h.drawn _ holds
    rcases here with here | here
    · rw [own, here] at drawn
      refine .used counts (Eq.trans (counted_of_free rfl) ?_) drawn.1
      rw [counted_moved holds own here]
      show (s.granted : Int) = s.granted - 1 + 1
      omega
    · rw [own, here] at drawn
      refine .quiet counts (Eq.trans (counted_of_free rfl) ?_) drawn
      rw [counted_moved holds own here]
      exact (Int.sub_zero _).symm

/-- No request has read, or is about to write, more than this. -/
structure Bounded (s : InviteRun) (b : Int) : Prop where
  reads : ∀ n, ∀ c ∈ (s.phase n).read?, c ≤ b
  writes : ∀ transaction ∈ s.transaction, s.phase transaction.request = .flushed →
    transaction.useCount ≤ b + 1

theorem Bounded.mono {b b' : Int} (h : s.Bounded b) (le : b ≤ b') : s.Bounded b' where
  reads n c read := (h.reads n c read).trans le
  writes transaction holds here := (h.writes transaction holds here).trans (Int.add_le_add_right le 1)

theorem Bounded.moved (h : s.Bounded b) (read : ∀ c ∈ phase.read?, c ≤ b) :
    ∀ m, ∀ c ∈ ((s.moved n phase).phase m).read?, c ≤ b := by
  intro m c mem
  by_cases same : m = n
  · subst same
    rw [moved_self] at mem
    exact read c mem
  · rw [moved_of_ne same] at mem
    exact h.reads m c mem

/-- What a request reads is what is committed, and it writes one more than it has read. -/
theorem bounded_moves (h : Coherent s) (bounded : s.Bounded b) (uses : s.invite.useCount ≤ b)
    (moves : Moves s t s') : s'.Bounded b := by
  -- the request of the open transaction has moved on to something else
  have other {transaction : Transaction} {phase : Phase} (own : transaction.request = t.request)
      (no : phase ≠ .flushed) : (s.moved t.request phase).phase transaction.request ≠ .flushed := by
    rw [own, moved_self]
    exact no
  cases moves with
  | stays => exact bounded
  | fails =>
    refine ⟨bounded.moved (by rintro c ⟨⟩), fun transaction holds here => ?_⟩
    obtain ⟨holds, others⟩ := Option.filter_eq_some_iff.mp holds
    rw [rolledBack, moved_of_ne (of_decide_eq_true others)] at here
    exact bounded.writes transaction holds here
  | reads counts before after read =>
    refine ⟨bounded.moved fun c mem => ?_, fun transaction holds here => ?_⟩
    · rcases read c mem with old | ⟨rfl, -⟩
      · exact bounded.reads _ c old
      · exact uses
    · have others : transaction.request ≠ t.request := fun own =>
        before ((h.owner _).mpr ⟨transaction, holds, own⟩)
      rw [moved_of_ne others] at here
      exact bounded.writes transaction holds here
  | flush counts here free =>
    refine ⟨bounded.moved (by rintro c ⟨⟩), ?_⟩
    rintro transaction holds -
    cases holds
    exact Int.add_le_add_right (bounded.reads t.request _ (here ▸ rfl)) 1
  | reserve =>
    refine ⟨bounded.moved (by rintro c ⟨⟩), fun transaction holds here => ?_⟩
    cases holds
    exact absurd here (other rfl (by rintro ⟨⟩))
  | create counts here | refuse counts here =>
    refine ⟨bounded.moved (by rintro c ⟨⟩), fun transaction holds there => ?_⟩
    have writes : (s.phase t.request).Writes := here ▸ trivial
    exact absurd there (other (h.own writes holds) (by rintro ⟨⟩))
  | join counts here holds | release counts here holds =>
    refine ⟨bounded.moved (by rintro c ⟨⟩), fun transaction' holds' there => ?_⟩
    have writes : (s.phase t.request).Writes := here ▸ trivial
    have own := h.own writes holds
    cases holds'
    exact absurd there (other own (by rintro ⟨⟩))
  | redeem | publish =>
    refine ⟨bounded.moved (by rintro c ⟨⟩), ?_⟩
    rintro transaction ⟨⟩

/-- Nothing is owed: what was granted is counted, and what is read and written is no more. -/
def Exact (s : InviteRun) : Prop := s.invite.useCount = s.counted ∧ s.Bounded s.counted

/-- A grant was not counted, and no later one makes up for it. -/
def Short (s : InviteRun) : Prop := s.invite.useCount < s.counted ∧ s.Bounded (s.counted - 1)

theorem exact_of_counts (h : Coherent s) (exact : s.Exact) (moves : Moves s t s')
    (counts : s.Counts t) : s'.Exact := by
  obtain ⟨uses, bounded⟩ := exact
  have after := bounded_moves h bounded uses.le moves
  cases entry_of_moves h moves with
  | quiet _ granted uses' => exact ⟨by rw [uses', granted, uses], by rwa [granted]⟩
  | lost lost => exact absurd counts lost
  | used _ granted uses' =>
    exact ⟨by rw [uses', granted, uses], by rw [granted]; exact after.mono (by omega)⟩
  | redeemed counted holds here granted uses' =>
    exact ⟨by rw [uses', granted, counted.mp counts, uses], by rw [granted]; exact after.mono (by omega)⟩

theorem short_of_exact (h : Coherent s) (exact : s.Exact) (moves : Moves s t s')
    (lost : ¬s.Counts t) : s'.Short := by
  obtain ⟨uses, bounded⟩ := exact
  have after := bounded_moves h bounded uses.le moves
  cases entry_of_moves h moves with
  | quiet counts => exact absurd counts lost
  | lost _ granted uses' =>
    exact ⟨by omega, after.mono (by omega)⟩
  | used counts => exact absurd counts lost
  | redeemed counted holds here granted uses' =>
    -- what it has read is no more than what is committed, and not that
    have written := bounded.writes _ holds here
    have stale := mt counted.mpr lost
    exact ⟨by omega, after.mono (by omega)⟩

theorem short_moves (h : Coherent s) (short : s.Short) (moves : Moves s t s') : s'.Short := by
  obtain ⟨uses, bounded⟩ := short
  have after := bounded_moves h bounded (by omega) moves
  cases entry_of_moves h moves with
  | quiet _ granted uses' | lost _ granted uses' | used _ granted uses' =>
    exact ⟨by omega, after.mono (by omega)⟩
  | redeemed counted holds here granted uses' =>
    have written := bounded.writes _ holds here
    exact ⟨by omega, after.mono (by omega)⟩

theorem maxUses_moves (moves : Moves s t s') : s'.invite.maxUses = s.invite.maxUses := by
  cases moves <;> rfl

/-- While nothing is owed, no more is granted than the invite is good for. -/
theorem granted_le (h : Coherent s) (exact : s.Exact) : (s.granted : Int) ≤ s.invite.maxUses := by
  have within := h.within
  have uses := exact.1
  cases holds : s.transaction with
  | none =>
    rw [counted_of_free holds] at uses
    omega
  | some transaction =>
    rw [counted_of_holds holds] at uses
    have drawn := h.drawn _ holds
    cases here : s.phase transaction.request <;> rw [here] at uses drawn <;>
      simp only [Phase.ahead, Phase.Drawn] at uses drawn <;> omega

theorem counted_of_settled (h : Coherent s) (settled : s.Settled) : s.counted = s.granted := by
  cases holds : s.transaction with
  | none => exact counted_of_free holds
  | some transaction =>
    have writes := (h.owner _).mpr ⟨transaction, holds, rfl⟩
    have quiet := settled transaction.request
    cases here : s.phase transaction.request <;> rw [here] at writes quiet <;>
      exact (by assumption : False).elim

variable {turns : List Turn}

theorem coherent_step (h : Coherent s) (t : Turn) : Coherent (s.step t) :=
  coherent_moves h (step_moves h.limited)

theorem short_run (h : Coherent s) (short : s.Short) : (run step s turns).Short := by
  induction turns generalizing s with
  | nil => exact short
  | cons t turns ih => exact ih (coherent_step h t) (short_moves h short (step_moves h.limited))

/-- A run in which a turn does not count ends with a grant that is not counted. -/
theorem along_or_short (h : Coherent s) (exact : s.Exact) :
    Along step Counts s turns ∨ (run step s turns).Short := by
  induction turns generalizing s with
  | nil => exact .inl trivial
  | cons t turns ih =>
    have moves := step_moves (t := t) h.limited
    by_cases counts : s.Counts t
    · refine (ih (coherent_step h t) (exact_of_counts h exact moves counts)).imp_left fun along => ?_
      exact ⟨counts, along⟩
    · right
      rw [run_cons]
      exact short_run (coherent_step h t) (short_of_exact h exact moves counts)

section

variable {invite : InviteToken} {members : List String} {redeems : Nat → Option String}

/-- A request that has not begun has read and written nothing. -/
theorem opened_phase (n : Nat) : ¬((opened invite members redeems).phase n).Writes ∧
    ((opened invite members redeems).phase n).read? = none := by
  show ¬(((redeems n).map Phase.redeeming).getD .registering).Writes ∧
    (((redeems n).map Phase.redeeming).getD .registering).read? = none
  cases redeems n <;> exact ⟨id, rfl⟩

/-- An invite that nobody has presented yet. -/
theorem coherent_opened (limited : invite.permanent = false)
    (within : invite.useCount ≤ invite.maxUses) : Coherent (opened invite members redeems) where
  limited := limited
  within := within
  owner n := by
    refine iff_of_false (opened_phase n).1 ?_
    rintro ⟨transaction, ⟨⟩, -⟩
  drawn := by
    rintro transaction ⟨⟩
  reads n c read := by
    rw [(opened_phase n).2] at read
    cases read

theorem exact_opened (fresh : invite.useCount = 0) : (opened invite members redeems).Exact := by
  refine ⟨fresh, fun n c read => ?_, ?_⟩
  · rw [(opened_phase n).2] at read
    cases read
  · rintro transaction ⟨⟩

end

end InviteRun

/-- No more is granted than the invite is good for, and in the end the uses are those granted. -/
def BudgetKept (s : InviteRun) (turns : List Turn) : Prop :=
  (∀ before later, turns = before ++ later →
    ((run InviteRun.step s before).granted : Int) ≤ s.invite.maxUses) ∧
  ((run InviteRun.step s turns).Settled →
    (run InviteRun.step s turns).invite.useCount = (run InviteRun.step s turns).granted)

/-- The invite of a run keeps its limit. -/
theorem InviteRun.maxUses_run {s : InviteRun} {turns : List Turn} (h : s.Coherent) :
    (run InviteRun.step s turns).invite.maxUses = s.invite.maxUses := by
  induction turns generalizing s with
  | nil => rfl
  | cons t turns ih =>
    rw [run_cons, ih (coherent_step h t)]
    exact maxUses_moves (step_moves h.limited)

/-- The requests that present an invite keep to its budget when every turn counts: who redeems commits
over the use count that was read, and no registration fails once its account was created. A run that
comes to an end keeps to it in no other case. -/
theorem budget_kept_iff (invite : InviteToken) (members : List String)
    (redeems : Nat → Option String) (turns : List Turn) (limited : invite.permanent = false)
    (fresh : invite.useCount = 0) (good : 0 ≤ invite.maxUses) :
    (Along InviteRun.step InviteRun.Counts (.opened invite members redeems) turns →
      BudgetKept (.opened invite members redeems) turns) ∧
    ((run InviteRun.step (.opened invite members redeems) turns).Settled →
      (BudgetKept (.opened invite members redeems) turns ↔
        Along InviteRun.step InviteRun.Counts (.opened invite members redeems) turns)) := by
  have coherent : (InviteRun.opened invite members redeems).Coherent :=
    InviteRun.coherent_opened limited (by omega)
  have exact : (InviteRun.opened invite members redeems).Exact := InviteRun.exact_opened fresh
  have inv {turns : List Turn}
      (counts : Along InviteRun.step InviteRun.Counts (.opened invite members redeems) turns) :
      (run InviteRun.step (.opened invite members redeems) turns).Coherent ∧
        (run InviteRun.step (.opened invite members redeems) turns).Exact := by
    refine invariant (fun s => s.Coherent ∧ s.Exact) (fun s t counts h => ?_) counts
      ⟨coherent, exact⟩
    exact ⟨InviteRun.coherent_step h.1 t,
      InviteRun.exact_of_counts h.1 h.2 (InviteRun.step_moves h.1.limited) counts⟩
  have kept (counts : Along InviteRun.step InviteRun.Counts (.opened invite members redeems) turns) :
      BudgetKept (.opened invite members redeems) turns := by
    refine ⟨fun before later heq => ?_, fun settled => ?_⟩
    · rw [heq] at counts
      obtain ⟨coherent', exact'⟩ := inv counts.of_append
      rw [← InviteRun.maxUses_run coherent]
      exact InviteRun.granted_le coherent' exact'
    · obtain ⟨coherent', exact'⟩ := inv counts
      rw [exact'.1, InviteRun.counted_of_settled coherent' settled]
  refine ⟨kept, fun settled => ⟨fun h => ?_, kept⟩⟩
  refine (InviteRun.along_or_short coherent exact).resolve_right fun short => ?_
  have coherent' : (run InviteRun.step (.opened invite members redeems) turns).Coherent :=
    invariant (P := fun _ _ => True) InviteRun.Coherent (fun s t _ h => InviteRun.coherent_step h t)
      (Along.of_forall fun _ _ => trivial) coherent
  have uses := h.2 settled
  rw [← InviteRun.counted_of_settled coherent' settled] at uses
  exact absurd uses short.1.ne

/-- An invite for one use. -/
def oneUse : InviteToken :=
  { token := "pizza123", serverId := "srv", createdBy := "@alice:localhost", expiresAt := 3600,
    maxUses := 1 }

/-- The runs of a single request come to an end and keep to the budget. -/
theorem budget_kept_alone :
    BudgetKept (.opened oneUse ["@alice:localhost"] fun _ => some "@bob:localhost")
      (List.replicate 5 { request := 0 }) := by
  have settled : (run InviteRun.step (.opened oneUse ["@alice:localhost"] fun _ =>
      some "@bob:localhost") (List.replicate 5 { request := 0 })).Settled := by
    rintro (_ | n) <;> trivial
  refine ((budget_kept_iff oneUse ["@alice:localhost"] (fun _ => some "@bob:localhost")
    (List.replicate 5 { request := 0 }) rfl rfl (by decide)).2 settled).mpr ?_
  refine ⟨trivial, trivial, trivial, trivial, ?_, trivial⟩
  rintro - transaction holds
  cases holds
  rfl

/-- Two users redeem the one use that both have seen. -/
theorem one_use_redeemed_twice : ¬∀ (invite : InviteToken) (members : List String)
    (redeems : Nat → Option String) (turns : List Turn), invite.permanent = false →
      invite.useCount = 0 → 0 ≤ invite.maxUses →
        BudgetKept (.opened invite members redeems) turns := by
  intro h
  have kept := (h oneUse ["@alice:localhost"]
    (fun n => some (if n = 0 then "@bob:localhost" else "@carol:localhost"))
    ([{ request := 0 }, { request := 1 }] ++ List.replicate 4 { request := 0 } ++
      List.replicate 4 { request := 1 }) rfl rfl (by decide)).1 _ [] (List.append_nil _).symm
  exact absurd kept (by decide)

end Concorrd.Api
