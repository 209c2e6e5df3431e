import Mathlib.Data.Finset.Card
import Mathlib.Data.Finset.Filter
import Mathlib.Data.Finset.Lattice.Basic
import Mathlib.Logic.Function.Basic
import Mathlib.Logic.Relation

/-!
# Union-find without ranks

Every node names a parent, and following parents ends at a node that is its own parent, its root.
Where a parent never lies above its child and only finitely many nodes have another parent than
themselves (`Descends`), the chase ends within their number of steps. Linking points the larger of
two roots at the smaller.

`Represents` ties a forest to the edges it was built from: two nodes have one root exactly when a
path of edges joins them (`Represents.sameRoot_iff`), and the root is the least node it is joined to
(`Represents.rootOf_le`).
-/

namespace Forest

variable {α : Type*}

/-- Follow parents to a node that is its own, for as long as the fuel lasts. -/
def chase [DecidableEq α] (parent : α → α) : Nat → α → Option α
  | 0, _ => none
  | fuel + 1, x => if parent x = x then some x else chase parent fuel (parent x)

/-- Two nodes are joined by a path of edges, followed either way. -/
def Joined (edge : α → α → Prop) : α → α → Prop :=
  Relation.ReflTransGen fun x y => edge x y ∨ edge y x

theorem Joined.symm {edge : α → α → Prop} {x y : α} (h : Joined edge x y) : Joined edge y x := by
  induction h with
  | refl => exact .refl
  | tail _ last ih =>
    have back : Joined edge _ _ := Relation.ReflTransGen.single (Or.symm last)
    exact Relation.ReflTransGen.trans back ih

theorem Joined.mono {edge edge' : α → α → Prop} {x y : α} (h : Joined edge x y)
    (sub : ∀ x y, edge x y → edge' x y) : Joined edge' x y :=
  Relation.ReflTransGen.mono (fun x y either => either.imp (sub x y) (sub y x)) x y h

theorem Joined.of_edge {edge : α → α → Prop} {x y : α} (h : edge x y) : Joined edge x y :=
  Relation.ReflTransGen.single (.inl h)

/-- Edges within a set join its members to members only. -/
theorem Joined.mem {edge : α → α → Prop} {x y : α} (h : Joined edge x y) (within : α → Prop)
    (inside : ∀ x y, edge x y → within x ∧ within y) (hx : within x) : within y := by
  induction h with
  | refl => exact hx
  | tail _ last _ =>
    rcases last with last | last
    · exact (inside _ _ last).2
    · exact (inside _ _ last).1

/-- Joining is the least equivalence that holds of the edges. -/
theorem Joined.lift {edge : α → α → Prop} {same : α → α → Prop} (equivalence : Equivalence same)
    (edges : ∀ x y, edge x y → same x y) {x y : α} (h : Joined edge x y) : same x y := by
  induction h with
  | refl => exact equivalence.refl x
  | tail _ last ih =>
    rcases last with last | last
    · exact equivalence.trans ih (edges _ _ last)
    · exact equivalence.trans ih (equivalence.symm (edges _ _ last))

/-! ## Roots -/

section

variable [DecidableEq α] {parent : α → α} {x y r r' : α}

/-- Following parents from a node ends at the root. -/
def RootOf (parent : α → α) (x r : α) : Prop := ∃ fuel, chase parent fuel x = some r

theorem chase_mono {fuel fuel' : Nat} (h : chase parent fuel x = some r) (le : fuel ≤ fuel') :
    chase parent fuel' x = some r := by
  induction fuel generalizing x fuel' with
  | zero => cases h
  | succ fuel ih =>
    cases fuel' with
    | zero => cases Nat.not_succ_le_zero fuel le
    | succ fuel' =>
      unfold chase at h ⊢
      split at h
      · rename_i root
        rw [if_pos root]
        exact h
      · rename_i inner
        rw [if_neg inner]
        exact ih h (Nat.le_of_succ_le_succ le)

theorem RootOf.unique (h : RootOf parent x r) (h' : RootOf parent x r') : r = r' := by
  obtain ⟨fuel, h⟩ := h
  obtain ⟨fuel', h'⟩ := h'
  have longer := chase_mono h (Nat.le_max_left fuel fuel')
  exact Option.some.inj (longer.symm.trans (chase_mono h' (Nat.le_max_right fuel fuel')))

theorem rootOf_self (h : parent r = r) : RootOf parent r r := ⟨1, if_pos h⟩

theorem RootOf.parent_eq (h : RootOf parent x r) : parent r = r := by
  obtain ⟨fuel, h⟩ := h
  induction fuel generalizing x with
  | zero => cases h
  | succ fuel ih =>
    unfold chase at h
    split at h
    · cases h
      assumption
    · exact ih h

/-- Two nodes have one root. -/
def SameRoot (parent : α → α) (x y : α) : Prop := ∃ r, RootOf parent x r ∧ RootOf parent y r

end

section

variable [LinearOrder α] {parent : α → α} {keys : Finset α} {x r larger smaller : α}

/-- Parents lie at or below their children, and only the keys have another parent than
themselves. -/
structure Descends (parent : α → α) (keys : Finset α) : Prop where
  le : ∀ x, parent x ≤ x
  keys : ∀ x, parent x ≠ x → x ∈ keys

/-- The chase ends within the number of keys at or below its start. -/
theorem Descends.exists_chase_le (h : Descends parent keys) {fuel : Nat}
    (enough : (keys.filter (· ≤ x)).card < fuel) : ∃ r ≤ x, chase parent fuel x = some r := by
  induction fuel generalizing x with
  | zero => cases enough
  | succ fuel ih =>
    unfold chase
    split
    · exact ⟨x, le_rfl, rfl⟩
    · rename_i inner
      have below : parent x < x := (h.le x).lt_of_ne inner
      have fewer : keys.filter (· ≤ parent x) ⊂ keys.filter (· ≤ x) := by
        refine (Finset.ssubset_iff_of_subset ?_).mpr ⟨x, ?_, ?_⟩
        · exact Finset.monotone_filter_right keys fun y _ hy => hy.trans below.le
        · exact Finset.mem_filter.mpr ⟨h.keys x inner, le_rfl⟩
        · exact fun mem => absurd (Finset.mem_filter.mp mem).2 (not_le.mpr below)
      have less := Finset.card_lt_card fewer
      obtain ⟨r, hr, chased⟩ := ih (x := parent x) (by omega)
      exact ⟨r, hr.trans below.le, chased⟩

/-- The chase from any node ends within the number of keys. -/
theorem Descends.exists_chase (h : Descends parent keys) {fuel : Nat} (enough : keys.card < fuel)
    (x : α) : ∃ r ≤ x, chase parent fuel x = some r :=
  h.exists_chase_le ((Finset.card_filter_le keys _).trans_lt enough)

theorem Descends.exists_rootOf (h : Descends parent keys) (x : α) : ∃ r ≤ x, RootOf parent x r := by
  obtain ⟨r, hr, chased⟩ := h.exists_chase (Nat.lt_succ_self _) x
  exact ⟨r, hr, _, chased⟩

theorem Descends.sameRoot_equivalence (h : Descends parent keys) :
    Equivalence (SameRoot parent) where
  refl x := by
    obtain ⟨r, _, hr⟩ := h.exists_rootOf x
    exact ⟨r, hr, hr⟩
  symm := by
    rintro x y ⟨r, hx, hy⟩
    exact ⟨r, hy, hx⟩
  trans := by
    rintro x y z ⟨r, hx, hy⟩ ⟨r', hy', hz⟩
    rw [hy'.unique hy] at hz
    exact ⟨r, hx, hz⟩

/-! ## Linking -/

theorem Descends.link (h : Descends parent keys) (lt : smaller < larger) :
    Descends (Function.update parent larger smaller) (insert larger keys) where
  le x := by
    by_cases hx : x = larger
    · rw [hx, Function.update_self]
      exact lt.le
    · rw [Function.update_of_ne hx]
      exact h.le x
  keys x moved := by
    by_cases hx : x = larger
    · rw [hx]
      exact Finset.mem_insert_self larger keys
    · rw [Function.update_of_ne hx] at moved
      exact Finset.mem_insert_of_mem (h.keys x moved)

/-- After a link the nodes of the larger root have the smaller one, the others the root they had. -/
theorem RootOf.link (h : RootOf parent x r) (top : parent larger = larger)
    (root : parent smaller = smaller) (lt : smaller < larger) :
    RootOf (Function.update parent larger smaller) x (if r = larger then smaller else r) := by
  have still : RootOf (Function.update parent larger smaller) smaller smaller :=
    rootOf_self (by rw [Function.update_of_ne lt.ne, root])
  have above {x y r : α} (hx : Function.update parent larger smaller x = y) (ne : y ≠ x)
      (hy : RootOf (Function.update parent larger smaller) y r) :
      RootOf (Function.update parent larger smaller) x r := by
    obtain ⟨fuel, hfuel⟩ := hy
    refine ⟨fuel + 1, ?_⟩
    unfold chase
    rw [hx, if_neg ne, hfuel]
  obtain ⟨fuel, h⟩ := h
  induction fuel generalizing x with
  | zero => cases h
  | succ fuel ih =>
    unfold chase at h
    split at h
    · rename_i self
      cases h
      split
      · rename_i hx
        subst hx
        exact above (Function.update_self ..) lt.ne still
      · rename_i hx
        exact rootOf_self (by rw [Function.update_of_ne hx, self])
    · rename_i inner
      have hx : x ≠ larger := by
        rintro rfl
        exact inner top
      exact above (Function.update_of_ne hx ..) inner (ih h)

/-! ## The edges behind a forest -/

/-- The forest has the classes that the edges join. -/
structure Represents (parent : α → α) (keys : Finset α) (edge : α → α → Prop) : Prop where
  descends : Descends parent keys
  joined : ∀ x r, RootOf parent x r → Joined edge x r
  edges : ∀ x y, edge x y → SameRoot parent x y

/-- More keys than have moved do no harm. -/
theorem Represents.mono {edge : α → α → Prop} {keys' : Finset α} (h : Represents parent keys edge)
    (sub : keys ⊆ keys') : Represents parent keys' edge where
  descends := ⟨h.descends.le, fun x moved => sub (h.descends.keys x moved)⟩
  joined := h.joined
  edges := h.edges

theorem Represents.congr {edge edge' : α → α → Prop} (h : Represents parent keys edge)
    (same : ∀ x y, edge x y ↔ edge' x y) : Represents parent keys edge' := by
  have eq : edge = edge' := funext fun x => funext fun y => propext (same x y)
  rwa [← eq]

/-- Nodes that are their own parents are joined to nothing else. -/
theorem represents_id (keys : Finset α) : Represents id keys fun _ _ => False where
  descends := ⟨fun _ => le_rfl, fun _ moved => absurd rfl moved⟩
  joined x r h := by
    rw [h.unique (rootOf_self rfl)]
    exact .refl
  edges _ _ h := h.elim

/-- Nodes have one root exactly when edges join them. -/
theorem Represents.sameRoot_iff {edge : α → α → Prop} (h : Represents parent keys edge) {x y : α} :
    SameRoot parent x y ↔ Joined edge x y := by
  constructor
  · rintro ⟨r, hx, hy⟩
    exact (h.joined x r hx).trans (h.joined y r hy).symm
  · exact Joined.lift h.descends.sameRoot_equivalence h.edges

/-- A root lies at or below every node joined to it. -/
theorem Represents.rootOf_le {edge : α → α → Prop} (h : Represents parent keys edge) {x y r : α}
    (hr : RootOf parent x r) (hy : Joined edge x y) : r ≤ y := by
  obtain ⟨r', hx', hy'⟩ := h.sameRoot_iff.mpr hy
  obtain ⟨s, hs, chased⟩ := h.descends.exists_rootOf y
  rw [hr.unique hx', hy'.unique chased]
  exact hs

/-- An edge between nodes of one root adds nothing. -/
theorem Represents.of_sameRoot {edge : α → α → Prop} (h : Represents parent keys edge) {a b : α}
    (same : SameRoot parent a b) :
    Represents parent keys fun x y => edge x y ∨ x = a ∧ y = b where
  descends := h.descends
  joined x r hr := (h.joined x r hr).mono fun _ _ => .inl
  edges x y hxy := by
    rcases hxy with old | ⟨rfl, rfl⟩
    · exact h.edges x y old
    · exact same

/-- Linking the roots of two nodes adds the edge between these. -/
theorem Represents.link {edge : α → α → Prop} (h : Represents parent keys edge) {a b : α}
    (roots : RootOf parent a larger ∧ RootOf parent b smaller ∨
      RootOf parent a smaller ∧ RootOf parent b larger) (lt : smaller < larger) :
    Represents (Function.update parent larger smaller) (insert larger keys)
      fun x y => edge x y ∨ x = a ∧ y = b := by
  have tops : parent larger = larger ∧ parent smaller = smaller := by
    rcases roots with ⟨ha, hb⟩ | ⟨ha, hb⟩
    · exact ⟨ha.parent_eq, hb.parent_eq⟩
    · exact ⟨hb.parent_eq, ha.parent_eq⟩
  have moved {x r : α} (hr : RootOf parent x r) := hr.link tops.1 tops.2 lt
  have older {x y : α} (hxy : Joined edge x y) :
      Joined (fun x y => edge x y ∨ x = a ∧ y = b) x y := hxy.mono fun _ _ => .inl
  have across : Joined (fun x y => edge x y ∨ x = a ∧ y = b) larger smaller := by
    have ab : Joined (fun x y => edge x y ∨ x = a ∧ y = b) a b := .of_edge (.inr ⟨rfl, rfl⟩)
    rcases roots with ⟨ha, hb⟩ | ⟨ha, hb⟩
    · exact ((older (h.joined a _ ha)).symm.trans ab).trans (older (h.joined b _ hb))
    · exact ((older (h.joined b _ hb)).symm.trans ab.symm).trans (older (h.joined a _ ha))
  constructor
  · exact h.descends.link lt
  · intro x r hr
    obtain ⟨old, _, hold⟩ := h.descends.exists_rootOf x
    have hroot := hr.unique (moved hold)
    have upto := older (h.joined x old hold)
    split at hroot
    · rename_i top
      rw [top] at upto
      rw [hroot]
      exact upto.trans across
    · rw [hroot]
      exact upto
  · intro x y hxy
    rcases hxy with old | ⟨rfl, rfl⟩
    · obtain ⟨r, hx, hy⟩ := h.edges x y old
      exact ⟨_, moved hx, moved hy⟩
    · rcases roots with ⟨ha, hb⟩ | ⟨ha, hb⟩
      · refine ⟨smaller, ?_, ?_⟩
        · have linked := moved ha
          rwa [if_pos rfl] at linked
        · have linked := moved hb
          rwa [if_neg lt.ne] at linked
      · refine ⟨smaller, ?_, ?_⟩
        · have linked := moved ha
          rwa [if_neg lt.ne] at linked
        · have linked := moved hb
          rwa [if_pos rfl] at linked

end

end Forest
