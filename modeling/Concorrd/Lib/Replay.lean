import Mathlib.Data.List.Dedup
import Mathlib.Data.List.Induction
import Mathlib.Data.List.Perm.Subperm
import Mathlib.Order.Lattice

/-!
# Replaying a log

Each entry of a log has a key and a time. A replay goes through the log in order and keeps one entry
for each key: an entry takes the place of the one held unless it is older. What it ends with is what
`IsLatest` describes without a replay (`foldl_take_eq_some_iff`), for any store that takes entries
this way (`view_foldl_eq_some_iff`).

Only entries of one key and one time, the largest of that key, depend on their order. `Picks` takes
one of them for each key: every pick is what some order of the log leaves (`Picks.exists_perm`), and
every order leaves a pick (`exists_picks`).
-/

namespace Replay

variable {α κ τ : Type*} [LinearOrder τ] (key : α → κ) (time : α → τ)

/-- An entry of the log that no entry of its key is later than, and none behind it as late as. -/
def IsLatest (log : List α) (a : α) : Prop :=
  ∃ before later, log = before ++ a :: later ∧ (∀ x ∈ before, key x = key a → time x ≤ time a) ∧
    ∀ x ∈ later, key x = key a → time x < time a

variable {key time} {log : List α} {a b : α}

theorem IsLatest.mem (h : IsLatest key time log a) : a ∈ log := by
  obtain ⟨before, later, rfl, _⟩ := h
  exact List.mem_append_right before List.mem_cons_self

/-- No entry of its key is later than the latest. -/
theorem IsLatest.time_le (h : IsLatest key time log a) (hb : b ∈ log) (same : key b = key a) :
    time b ≤ time a := by
  obtain ⟨before, later, rfl, earlier, rest⟩ := h
  rcases List.mem_append.mp hb with hb | hb
  · exact earlier b hb same
  · rcases List.mem_cons.mp hb with rfl | hb
    · exact le_rfl
    · exact (rest b hb same).le

/-- A new entry is the latest of its key unless it is older than another, and leaves the others what
they were. -/
theorem isLatest_concat : IsLatest key time (log ++ [b]) a ↔
    (a = b ∧ ∀ x ∈ log, key x = key b → time x ≤ time b) ∨
      (IsLatest key time log a ∧ (key b = key a → time b < time a)) := by
  constructor
  · rintro ⟨before, later, heq, earlier, rest⟩
    rcases List.eq_nil_or_concat later with rfl | ⟨later, last, rfl⟩
    · obtain ⟨rfl, hlast⟩ := List.append_inj' heq rfl
      cases hlast
      exact .inl ⟨rfl, earlier⟩
    · rw [List.concat_eq_append, ← List.cons_append, ← List.append_assoc] at heq
      obtain ⟨rfl, hlast⟩ := List.append_inj' heq rfl
      cases hlast
      rw [List.concat_eq_append] at rest
      exact .inr ⟨⟨before, later, rfl, earlier, fun x hx => rest x (List.mem_append_left _ hx)⟩,
        rest b (List.mem_append_right _ (List.mem_singleton_self b))⟩
  · rintro (⟨rfl, h⟩ | ⟨⟨before, later, rfl, earlier, rest⟩, hb⟩)
    · refine ⟨log, [], rfl, h, fun x hx => ?_⟩
      cases hx
    · refine ⟨before, later ++ [b], by rw [List.append_assoc, List.cons_append], earlier, ?_⟩
      intro x hx
      rcases List.mem_append.mp hx with hx | hx
      · exact rest x hx
      · rw [List.mem_singleton.mp hx]
        exact hb

variable (key time) in
/-- A key that the log names has a latest entry. -/
theorem exists_isLatest {x : α} (hx : x ∈ log) :
    ∃ a, key a = key x ∧ IsLatest key time log a := by
  induction log using List.reverseRecOn generalizing x with
  | nil => cases hx
  | append_singleton log b ih =>
    by_cases newest : ∀ y ∈ log, key y = key b → time y ≤ time b
    · by_cases same : key b = key x
      · exact ⟨b, same, isLatest_concat.mpr (.inl ⟨rfl, newest⟩)⟩
      · have old : x ∈ log := by
          rcases List.mem_append.mp hx with hx | hx
          · exact hx
          · rw [List.mem_singleton.mp hx] at same
            exact absurd rfl same
        obtain ⟨a, hkey, latest⟩ := ih old
        exact ⟨a, hkey, isLatest_concat.mpr (.inr ⟨latest, fun h => absurd (h.trans hkey) same⟩)⟩
    · push Not at newest
      obtain ⟨y, hy, hkey, hlt⟩ := newest
      have named : ∃ z ∈ log, key z = key x := by
        rcases List.mem_append.mp hx with hx | hx
        · exact ⟨x, hx, rfl⟩
        · rw [List.mem_singleton.mp hx]
          exact ⟨y, hy, hkey⟩
      obtain ⟨z, hz, hzkey⟩ := named
      obtain ⟨a, ha, latest⟩ := ih hz
      refine ⟨a, ha.trans hzkey, isLatest_concat.mpr (.inr ⟨latest, fun same => ?_⟩)⟩
      exact hlt.trans_le (latest.time_le hy (hkey.trans same))

section

variable [DecidableEq κ]

variable (key time) in
/-- What is held once an entry is read. -/
def take (held : κ → Option α) (a : α) : κ → Option α := fun k =>
  if k = key a ∧ ∀ b ∈ held k, time b ≤ time a then some a else held k

/-- A replay ends with the latest entry of each key. -/
theorem foldl_take_eq_some_iff {k : κ} : log.foldl (take key time) (fun _ => none) k = some a ↔
    key a = k ∧ IsLatest key time log a := by
  induction log using List.reverseRecOn generalizing a k with
  | nil =>
    refine iff_of_false (by rintro ⟨⟩) ?_
    rintro ⟨_, latest⟩
    cases latest.mem
  | append_singleton log b ih =>
    rw [List.foldl_append, List.foldl_cons, List.foldl_nil, isLatest_concat]
    generalize log.foldl (take key time) (fun _ => none) = held at ih
    have newest : (∀ c ∈ held (key b), time c ≤ time b) ↔
        ∀ x ∈ log, key x = key b → time x ≤ time b := by
      constructor
      · intro h x hx same
        obtain ⟨c, hkey, latest⟩ := exists_isLatest key time hx
        have hc : c ∈ held (key b) := ih.mpr ⟨hkey.trans same, latest⟩
        exact (latest.time_le hx hkey.symm).trans (h c hc)
      · intro h c hc
        obtain ⟨hkey, latest⟩ := ih.mp hc
        exact h c latest.mem hkey
    unfold take
    by_cases hk : k = key b
    · subst hk
      simp only [true_and, newest]
      split
      · rename_i h
        rw [Option.some.injEq]
        constructor
        · rintro rfl
          exact ⟨rfl, .inl ⟨rfl, h⟩⟩
        · rintro ⟨hkey, ⟨rfl, _⟩ | ⟨latest, hlt⟩⟩
          · rfl
          · exact absurd (h a latest.mem hkey) (not_le.mpr (hlt hkey.symm))
      · rename_i h
        rw [ih]
        constructor
        · rintro ⟨hkey, latest⟩
          push Not at h
          obtain ⟨x, hx, same, hlt⟩ := h
          exact ⟨hkey, .inr ⟨latest, fun _ =>
            hlt.trans_le (latest.time_le hx (same.trans hkey.symm))⟩⟩
        · rintro ⟨hkey, ⟨rfl, all⟩ | ⟨latest, _⟩⟩
          · exact absurd all h
          · exact ⟨hkey, latest⟩
    · simp only [hk, false_and, if_false]
      rw [ih]
      constructor
      · rintro ⟨hkey, latest⟩
        exact ⟨hkey, .inr ⟨latest, fun same => absurd (hkey.symm.trans same.symm) hk⟩⟩
      · rintro ⟨hkey, ⟨rfl, _⟩ | ⟨latest, _⟩⟩
        · exact absurd hkey.symm hk
        · exact ⟨hkey, latest⟩

/-- A store whose steps are those of a replay ends with the latest entry of each key. -/
theorem view_foldl_eq_some_iff {σ : Type*} (view : σ → κ → Option α) (step : σ → α → σ)
    (steps : ∀ s a, view (step s a) = take key time (view s) a) {s : σ}
    (start : view s = fun _ => none) {k : κ} :
    view (log.foldl step s) k = some a ↔ key a = k ∧ IsLatest key time log a := by
  have views (s : σ) : view (log.foldl step s) = log.foldl (take key time) (view s) := by
    induction log generalizing s with
    | nil => rfl
    | cons b log ih => rw [List.foldl_cons, List.foldl_cons, ih, steps]
  rw [views, start, foldl_take_eq_some_iff]

/-- A store that takes in every entry but those older than the one it holds ends with the latest
entry of each key. -/
theorem view_foldl_insert_eq_some_iff {σ : Type*} (view : σ → κ → Option α) (insert : σ → α → σ)
    (inserted : ∀ s a k, view (insert s a) k = if k = key a then some a else view s k)
    (step : σ → α → σ)
    (steps : ∀ s a, step s a = if ∀ b ∈ view s (key a), time b ≤ time a then insert s a else s)
    {s : σ} (start : view s = fun _ => none) {k : κ} :
    view (log.foldl step s) k = some a ↔ key a = k ∧ IsLatest key time log a := by
  refine view_foldl_eq_some_iff view step (fun s a => ?_) start
  funext k
  rw [steps]
  unfold take
  by_cases hk : k = key a
  · subst hk
    simp only [true_and]
    split
    · rw [inserted, if_pos rfl]
    · rfl
  · simp only [hk, false_and, if_false]
    split
    · rw [inserted, if_neg hk]
    · rfl

end

/-- A key has one latest entry. -/
theorem IsLatest.unique (ha : IsLatest key time log a) (hb : IsLatest key time log b)
    (same : key a = key b) : a = b := by
  classical
  have held := foldl_take_eq_some_iff.mpr ⟨same, ha⟩
  exact Option.some.inj (held.symm.trans (foldl_take_eq_some_iff.mpr ⟨rfl, hb⟩))

/-! ## Orders of one log -/

variable (key time) in
/-- One entry for each key of the log, none of them older than another of its key. -/
structure Picks (log picked : List α) : Prop where
  top : ∀ a ∈ picked, a ∈ log ∧ ∀ b ∈ log, key b = key a → time b ≤ time a
  once : picked.Pairwise fun a b => key a ≠ key b
  every : ∀ a ∈ log, ∃ b ∈ picked, key b = key a

variable {log' picked : List α}

theorem Picks.perm (h : Picks key time log picked) (perm : log'.Perm log) :
    Picks key time log' picked where
  top a ha := by
    obtain ⟨mem, top⟩ := h.top a ha
    exact ⟨perm.mem_iff.mpr mem, fun b hb => top b (perm.mem_iff.mp hb)⟩
  once := h.once
  every a ha := h.every a (perm.mem_iff.mp ha)

variable (key time) in
/-- What a log leaves is a pick. -/
theorem exists_picks (log : List α) :
    ∃ picked, Picks key time log picked ∧ ∀ a, IsLatest key time log a ↔ a ∈ picked := by
  classical
  have mem_iff (a : α) : IsLatest key time log a ↔
      a ∈ log.dedup.filter fun a => IsLatest key time log a := by
    rw [List.mem_filter, List.mem_dedup, decide_eq_true_eq]
    exact ⟨fun h => ⟨h.mem, h⟩, fun h => h.2⟩
  refine ⟨_, ⟨fun a ha => ?_, ?_, fun a ha => ?_⟩, mem_iff⟩
  · have latest := (mem_iff a).mpr ha
    exact ⟨latest.mem, fun b hb same => latest.time_le hb same⟩
  · refine ((List.nodup_dedup log).filter _).imp_of_mem fun {a b} ha hb ne same => ?_
    exact ne (((mem_iff a).mpr ha).unique ((mem_iff b).mpr hb) same)
  · obtain ⟨b, same, latest⟩ := exists_isLatest key time ha
    exact ⟨b, (mem_iff b).mp latest, same⟩

/-- The log with its pick at the end leaves the pick. -/
theorem Picks.exists_perm (h : Picks key time log picked) :
    ∃ log', log'.Perm log ∧ ∀ a, IsLatest key time log' a ↔ a ∈ picked := by
  have nodup : picked.Nodup := h.once.imp fun ne same => ne (congrArg key same)
  obtain ⟨l, perm, sub⟩ := List.subperm_of_subset nodup fun a ha => (h.top a ha).1
  obtain ⟨rest, hrest⟩ := sub.exists_perm_append
  have moved : (rest ++ picked).Perm log :=
    List.perm_append_comm.trans ((perm.symm.append_right rest).trans hrest.symm)
  have leaves {a : α} (ha : a ∈ picked) : IsLatest key time (rest ++ picked) a := by
    obtain ⟨before, later, rfl⟩ := List.append_of_mem ha
    obtain ⟨-, once, apart⟩ := List.pairwise_append.mp h.once
    refine ⟨rest ++ before, later, (List.append_assoc ..).symm, fun x hx same => ?_, ?_⟩
    · rw [← List.append_assoc] at moved
      exact (h.top a ha).2 x (moved.mem_iff.mp (List.mem_append_left _ hx)) same
    · intro x hx same
      exact absurd same.symm ((List.pairwise_cons.mp once).1 x hx)
  refine ⟨rest ++ picked, moved, fun a => ⟨fun latest => ?_, leaves⟩⟩
  obtain ⟨b, hb, same⟩ := h.every a (moved.mem_iff.mp latest.mem)
  rwa [latest.unique (leaves hb) same.symm]

end Replay
