import Mathlib.Data.Finset.Image
import Mathlib.Data.Finset.Union
import Mathlib.Logic.Embedding.Basic

/-!
# Walks in a finite graph

A graph is the set of its edges, and a walk is the list of the vertices after the first. A graph
whose edges go down in some rank has finitely many walks between two vertices, and `walks` lists them
(`mem_walks_iff`). A graph drawn on other vertices has the same walks (`isWalk_map`).
-/

namespace Walk

variable {ν μ : Type*}

/-- The list leads from the first vertex along edges to the last. -/
def IsWalk (edges : Finset (ν × ν)) (last : ν) : ν → List ν → Prop
  | a, [] => a = last
  | a, c :: rest => (a, c) ∈ edges ∧ IsWalk edges last c rest

variable {edges : Finset (ν × ν)} {last a : ν} {rest : List ν}

/-- The walks of a graph on other vertices are the images of its walks. -/
theorem isWalk_map (f : ν ↪ μ) {walk : List μ} :
    IsWalk (edges.map (f.prodMap f)) (f last) (f a) walk ↔
      ∃ rest, IsWalk edges last a rest ∧ walk = rest.map f := by
  induction walk generalizing a with
  | nil =>
    constructor
    · intro same
      exact ⟨[], f.injective same, rfl⟩
    · rintro ⟨rest, walk, same⟩
      rw [List.map_eq_nil_iff.mp same.symm] at walk
      exact congrArg f walk
  | cons c walk ih =>
    constructor
    · rintro ⟨edge, further⟩
      obtain ⟨⟨b, d⟩, mem, same⟩ := Finset.mem_map.mp edge
      obtain ⟨hb, rfl⟩ := Prod.mk.inj same
      obtain rfl := f.injective hb
      obtain ⟨rest, isWalk, rfl⟩ := ih.mp further
      exact ⟨d :: rest, ⟨mem, isWalk⟩, rfl⟩
    · rintro ⟨rest, isWalk, same⟩
      cases rest with
      | nil => cases same
      | cons d rest =>
        obtain ⟨rfl, rfl⟩ := List.cons.inj same
        exact ⟨Finset.mem_map.mpr ⟨(a, d), isWalk.1, rfl⟩, ih.mpr ⟨rest, isWalk.2, rfl⟩⟩

variable [DecidableEq ν]

/-- The walks of a number of edges at most. -/
def walks (edges : Finset (ν × ν)) (last : ν) : Nat → ν → Finset (List ν)
  | 0, a => if a = last then {[]} else ∅
  | n + 1, a => (if a = last then {[]} else ∅) ∪
      (edges.filter fun e => e.1 = a).biUnion fun e => (walks edges last n e.2).image (e.2 :: ·)

theorem nil_mem_walks {n : Nat} : [] ∈ walks edges last n a ↔ a = last := by
  cases n with
  | zero => by_cases h : a = last <;> simp [walks, h]
  | succ n => by_cases h : a = last <;> simp [walks, h]

theorem cons_mem_walks {n : Nat} {c : ν} :
    c :: rest ∈ walks edges last (n + 1) a ↔ (a, c) ∈ edges ∧ rest ∈ walks edges last n c := by
  have notNil : c :: rest ∉ (if a = last then {[]} else ∅ : Finset (List ν)) := by
    split <;> simp
  simp only [walks, Finset.mem_union, notNil, false_or, Finset.mem_biUnion, Finset.mem_filter,
    Finset.mem_image]
  constructor
  · rintro ⟨⟨b, d⟩, ⟨edge, rfl⟩, walk, mem, same⟩
    cases same
    exact ⟨edge, mem⟩
  · rintro ⟨edge, mem⟩
    exact ⟨(a, c), ⟨edge, rfl⟩, rest, mem, rfl⟩

/-- Where every edge goes down, the walks are those of as many edges as the first vertex is high. -/
theorem mem_walks_iff {rank : ν → Nat} (descends : ∀ e ∈ edges, rank e.2 < rank e.1) {n : Nat}
    (high : rank a ≤ n) : rest ∈ walks edges last n a ↔ IsWalk edges last a rest := by
  induction rest generalizing n a with
  | nil => exact nil_mem_walks
  | cons c rest ih =>
    cases n with
    | zero =>
      refine iff_of_false ?_ fun walk => ?_
      · by_cases h : a = last <;> simp [walks, h]
      · have lower := descends (a, c) walk.1
        simp only at lower
        omega
    | succ n =>
      rw [cons_mem_walks]
      refine and_congr_right fun edge => ih ?_
      have lower := descends (a, c) edge
      simp only at lower
      omega

end Walk
