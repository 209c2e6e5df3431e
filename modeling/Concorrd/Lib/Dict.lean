import Mathlib.Data.List.Nodup

/-!
# Dictionaries

A dictionary lists its entries in the order in which their keys were first set. Setting a key that is
there changes its value in place. Each operation has one lemma that says what `get` returns after it.
-/

abbrev Dict (κ α : Type*) := List (κ × α)

namespace Dict

variable {κ α : Type*} [DecidableEq κ]

def get : Dict κ α → κ → Option α
  | [], _ => none
  | e :: d, k => if e.1 = k then some e.2 else get d k

def set : Dict κ α → κ → α → Dict κ α
  | [], k, a => [(k, a)]
  | e :: d, k, a => if e.1 = k then (k, a) :: d else e :: set d k a

/-- Without the key. -/
def pop (d : Dict κ α) (k : κ) : Dict κ α := d.filter fun e => e.1 ≠ k

def keys (d : Dict κ α) : List κ := d.map Prod.fst

variable {d : Dict κ α} {k k' : κ} {a : α} {e : κ × α}

@[simp] theorem get_nil : get ([] : Dict κ α) k = none := rfl

theorem get_cons : get (e :: d) k = if e.1 = k then some e.2 else get d k := rfl

theorem set_cons : set (e :: d) k a = if e.1 = k then (k, a) :: d else e :: set d k a := rfl

theorem pop_cons_self (here : e.1 = k) : pop (e :: d) k = pop d k :=
  List.filter_cons_of_neg (by simpa using here)

theorem pop_cons_of_ne (other : e.1 ≠ k) : pop (e :: d) k = e :: pop d k :=
  List.filter_cons_of_pos (by simpa using other)

omit [DecidableEq κ] in
theorem keys_cons : keys (e :: d) = e.1 :: keys d := rfl

@[simp] theorem get_set_self : (d.set k a).get k = some a := by
  induction d with
  | nil => exact if_pos rfl
  | cons e d ih =>
    by_cases here : e.1 = k
    · rw [set_cons, if_pos here, get_cons, if_pos rfl]
    · rw [set_cons, if_neg here, get_cons, if_neg here, ih]

theorem get_set_of_ne (other : k' ≠ k) : (d.set k a).get k' = d.get k' := by
  induction d with
  | nil => exact if_neg other.symm
  | cons e d ih =>
    by_cases here : e.1 = k
    · rw [set_cons, if_pos here, get_cons, get_cons, if_neg other.symm, if_neg (here ▸ other.symm)]
    · rw [set_cons, if_neg here, get_cons, get_cons, ih]

@[simp] theorem get_pop_self : (d.pop k).get k = none := by
  induction d with
  | nil => rfl
  | cons e d ih =>
    by_cases here : e.1 = k
    · rw [pop_cons_self here]
      exact ih
    · rw [pop_cons_of_ne here, get_cons, if_neg here]
      exact ih

theorem get_pop_of_ne (other : k' ≠ k) : (d.pop k).get k' = d.get k' := by
  induction d with
  | nil => rfl
  | cons e d ih =>
    by_cases here : e.1 = k
    · rw [pop_cons_self here, get_cons, if_neg fun same => other (same.symm.trans here)]
      exact ih
    · rw [pop_cons_of_ne here, get_cons, get_cons, ih]

theorem get_filter (p : κ → Prop) [DecidablePred p] :
    get (d.filter fun e => p e.1) k = if p k then d.get k else none := by
  induction d with
  | nil => exact (ite_self none).symm
  | cons e d ih =>
    by_cases here : e.1 = k
    · subst here
      by_cases kept : p e.1
      · rw [List.filter_cons_of_pos (by simpa using kept), get_cons, if_pos rfl, if_pos kept, get_cons,
          if_pos rfl]
      · rw [List.filter_cons_of_neg (by simpa using kept), ih, if_neg kept, if_neg kept]
    · rw [get_cons, if_neg here, ← ih]
      by_cases kept : p e.1
      · rw [List.filter_cons_of_pos (by simpa using kept), get_cons, if_neg here]
      · rw [List.filter_cons_of_neg (by simpa using kept)]

theorem mem_of_get (h : d.get k = some a) : (k, a) ∈ d := by
  induction d with
  | nil => cases h
  | cons e d ih =>
    rw [get_cons] at h
    split at h
    · rename_i here
      cases h
      cases here
      exact List.mem_cons_self
    · exact List.mem_cons_of_mem e (ih h)

theorem get_eq_none_iff : d.get k = none ↔ k ∉ d.keys := by
  induction d with
  | nil => exact iff_of_true rfl List.not_mem_nil
  | cons e d ih =>
    rw [get_cons, keys_cons, List.mem_cons, not_or]
    split
    · rename_i here
      exact iff_of_false (Option.some_ne_none e.2) fun h => h.1 here.symm
    · rename_i other
      rw [ih]
      exact (and_iff_right fun same => other same.symm).symm

theorem get_ne_none_iff : d.get k ≠ none ↔ k ∈ d.keys := by
  rw [ne_eq, get_eq_none_iff, not_not]

/-- A key that is not there comes last. -/
theorem set_of_get_eq_none (new : d.get k = none) : d.set k a = d ++ [(k, a)] := by
  induction d with
  | nil => rfl
  | cons e d ih =>
    rw [get_cons] at new
    split at new
    · cases new
    · rename_i other
      rw [set_cons, if_neg other, ih new]
      rfl

theorem get_append (d' : Dict κ α) : get (d ++ d') k = (d.get k).or (d'.get k) := by
  induction d with
  | nil => rfl
  | cons e d ih =>
    rw [List.cons_append, get_cons, get_cons]
    split
    · rfl
    · exact ih

theorem keys_set : (d.set k a).keys = if k ∈ d.keys then d.keys else d.keys ++ [k] := by
  induction d with
  | nil => rfl
  | cons e d ih =>
    by_cases here : e.1 = k
    · rw [set_cons, if_pos here, if_pos (here ▸ List.mem_cons_self)]
      exact congrArg (· :: keys d) here.symm
    · have below : k ∈ keys (e :: d) ↔ k ∈ keys d := by
        rw [keys_cons, List.mem_cons]
        exact or_iff_right fun same => here same.symm
      rw [set_cons, if_neg here, if_congr below rfl rfl, keys_cons]
      refine (congrArg (e.1 :: ·) ih).trans ?_
      split <;> rfl

theorem nodup_set (distinct : d.keys.Nodup) : (d.set k a).keys.Nodup := by
  rw [keys_set]
  split
  · exact distinct
  · rename_i new
    exact List.nodup_append.mpr ⟨distinct, List.nodup_singleton k, fun x mem y here same =>
      new ((same.trans (List.mem_singleton.mp here)) ▸ mem)⟩

theorem nodup_pop (distinct : d.keys.Nodup) : (d.pop k).keys.Nodup :=
  distinct.sublist (List.filter_sublist.map Prod.fst)

/-- A key that is there has its value once. -/
theorem get_of_mem (distinct : d.keys.Nodup) (mem : (k, a) ∈ d) : d.get k = some a := by
  induction d with
  | nil => cases mem
  | cons e d ih =>
    obtain ⟨new, distinct⟩ := List.nodup_cons.mp distinct
    rw [get_cons]
    rcases List.mem_cons.mp mem with rfl | mem
    · exact if_pos rfl
    · rw [if_neg fun same : e.1 = k => new (same ▸ List.mem_map_of_mem mem)]
      exact ih distinct mem

theorem mem_set (distinct : d.keys.Nodup) :
    e ∈ d.set k a ↔ e = (k, a) ∨ e ∈ d ∧ e.1 ≠ k := by
  by_cases here : e.1 = k
  · have value : e ∈ d.set k a ↔ e = (k, a) := by
      constructor
      · intro mem
        have found := get_of_mem (nodup_set distinct) mem
        rw [here, get_set_self] at found
        exact Prod.ext here (Option.some.inj found).symm
      · rintro rfl
        exact mem_of_get get_set_self
    rw [value, or_iff_left fun h => h.2 here]
  · have kept : e ∈ d.set k a ↔ e ∈ d := by
      constructor
      · intro mem
        exact mem_of_get ((get_set_of_ne here).symm.trans (get_of_mem (nodup_set distinct) mem))
      · intro mem
        exact mem_of_get ((get_set_of_ne here).trans (get_of_mem distinct mem))
    rw [kept, and_iff_left here, or_iff_right]
    rintro rfl
    exact here rfl

theorem eq_or_mem_of_mem_set (mem : e ∈ d.set k a) : e = (k, a) ∨ e ∈ d := by
  induction d with
  | nil => exact .inl (List.mem_singleton.mp mem)
  | cons e' d ih =>
    rw [set_cons] at mem
    split at mem
    · exact (List.mem_cons.mp mem).imp_right (List.mem_cons_of_mem e')
    · rcases List.mem_cons.mp mem with rfl | mem
      · exact .inr List.mem_cons_self
      · exact (ih mem).imp_right (List.mem_cons_of_mem e')

theorem length_set_le (d : Dict κ α) (k : κ) (a : α) : (d.set k a).length ≤ d.length + 1 := by
  induction d with
  | nil => exact Nat.le_refl _
  | cons e d ih =>
    rw [set_cons]
    split
    · exact Nat.le_succ _
    · exact Nat.succ_le_succ ih

/-- What is listed for keys is found under each of them. -/
theorem get_filterMap (ks : List κ) (f : κ → Option α) :
    get (ks.filterMap fun k => (f k).map (k, ·)) k = if k ∈ ks then f k else none := by
  induction ks with
  | nil => rfl
  | cons k' ks ih =>
    rw [List.filterMap_cons]
    by_cases here : k' = k
    · subst here
      rw [if_pos List.mem_cons_self]
      cases found : f k' with
      | none =>
        refine ih.trans ?_
        rw [found, ite_self]
      | some a => exact if_pos rfl
    · have below : k ∈ k' :: ks ↔ k ∈ ks := List.mem_cons.trans (or_iff_right fun same => here same.symm)
      rw [if_congr below rfl rfl, ← ih]
      cases f k' with
      | none => rfl
      | some a => exact if_neg here

end Dict
