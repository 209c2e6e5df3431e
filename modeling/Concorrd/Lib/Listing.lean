import Mathlib.Algebra.Ring.Nat
import Mathlib.Data.List.Perm.Basic

/-!
# Listings of directories

A directory as it is read, entry by entry: an entry may fail to be read, and a directory to be listed. A walk
keeps the directories that it has still to read on a stack, and goes past what it cannot read or list.

`walk_perm` says that the walk finds what can be seen of the directories, each file once, and `files_perm` that
what it does not find is hidden behind an entry that fails.
-/

/-- The entries of a directory, in the order in which they are read. -/
inductive Listing (α : Type*) where
  | nil
  | file (name : String) (reads : Bool) (content : α) (rest : Listing α)
  | dir (name : String) (reads lists : Bool) (inside rest : Listing α)

namespace Listing

variable {α : Type*}

/-- A directory that is still to be read. -/
structure Pending (α : Type*) where
  path : List String
  lists : Bool
  inside : Listing α

/-- The files of the directory itself, as far as they are read. -/
def filesHere (path : List String) : Listing α → List (List String × α)
  | .nil => []
  | .file name reads content rest =>
    if reads then (path ++ [name], content) :: rest.filesHere path else rest.filesHere path
  | .dir _ _ _ _ rest => rest.filesHere path

/-- The directories in it, the last one first. -/
def dirsHere (path : List String) : Listing α → List (Pending α)
  | .nil => []
  | .file _ _ _ rest => rest.dirsHere path
  | .dir name reads lists inside rest =>
    if reads then rest.dirsHere path ++ [⟨path ++ [name], lists, inside⟩] else rest.dirsHere path

/-- How many directories are below. -/
def size : Listing α → Nat
  | .nil => 0
  | .file _ _ _ rest => rest.size
  | .dir _ _ _ inside rest => inside.size + rest.size + 1

/-- The files that the walk finds, with the directories that are still to be read on a stack. -/
def walk : Nat → List (Pending α) → List (List String × α)
  | n + 1, d :: stack =>
    if d.lists then d.inside.filesHere d.path ++ walk n (d.inside.dirsHere d.path ++ stack) else walk n stack
  | _, _ => []

/-! ## What there is -/

/-- The files below, at any depth. -/
def files (path : List String) : Listing α → List (List String × α)
  | .nil => []
  | .file name _ content rest => (path ++ [name], content) :: rest.files path
  | .dir name _ _ inside rest => inside.files (path ++ [name]) ++ rest.files path

/-- Those that no failing entry hides. -/
def seen (path : List String) : Listing α → List (List String × α)
  | .nil => []
  | .file name reads content rest => if reads then (path ++ [name], content) :: rest.seen path else rest.seen path
  | .dir name reads lists inside rest =>
    if reads ∧ lists then inside.seen (path ++ [name]) ++ rest.seen path else rest.seen path

/-- Those that one does. -/
def hidden (path : List String) : Listing α → List (List String × α)
  | .nil => []
  | .file name reads content rest => if reads then rest.hidden path else (path ++ [name], content) :: rest.hidden path
  | .dir name reads lists inside rest =>
    if reads ∧ lists then inside.hidden (path ++ [name]) ++ rest.hidden path
    else inside.files (path ++ [name]) ++ rest.hidden path

/-- Every entry is read, and every directory is listed. -/
def Readable : Listing α → Prop
  | .nil => True
  | .file _ reads _ rest => reads ∧ rest.Readable
  | .dir _ reads lists inside rest => (reads ∧ lists) ∧ inside.Readable ∧ rest.Readable

variable {listing : Listing α} {path : List String}

theorem files_perm (listing : Listing α) (path : List String) :
    (listing.files path).Perm (listing.seen path ++ listing.hidden path) := by
  induction listing generalizing path with
  | nil => exact List.Perm.refl _
  | file name reads content rest ih =>
    rw [files, seen, hidden]
    by_cases read : reads = true
    · rw [if_pos read, if_pos read]
      exact (ih path).cons _
    · rw [if_neg read, if_neg read]
      exact ((ih path).cons _).trans List.perm_middle.symm
  | dir name reads lists inside rest ihInside ih =>
    rw [files, seen, hidden]
    by_cases shown : reads = true ∧ lists = true
    · rw [if_pos shown, if_pos shown]
      refine ((ihInside _).append (ih path)).trans ?_
      rw [List.append_assoc, List.append_assoc]
      refine List.Perm.append_left _ ?_
      rw [← List.append_assoc, ← List.append_assoc]
      exact List.perm_append_comm.append_right _
    · rw [if_neg shown, if_neg shown]
      refine ((ih path).append_left _).trans ?_
      rw [← List.append_assoc, ← List.append_assoc]
      exact List.perm_append_comm.append_right _

theorem hidden_eq_nil_of_readable (readable : listing.Readable) : listing.hidden path = [] := by
  induction listing generalizing path with
  | nil => rfl
  | file name reads content rest ih =>
    rw [hidden, if_pos readable.1]
    exact ih readable.2
  | dir name reads lists inside rest ihInside ih =>
    rw [hidden, if_pos readable.1, ihInside readable.2.1, ih readable.2.2, List.append_nil]

/-! ## The walk -/

/-- What can be seen of a directory that is still to be read. -/
def Pending.seen (d : Pending α) : List (List String × α) := if d.lists then d.inside.seen d.path else []

/-- How many directories the walk has still to read. -/
def left (stack : List (Pending α)) : Nat := (stack.map fun d => d.inside.size + 1).sum

theorem left_append (stack stack' : List (Pending α)) : left (stack ++ stack') = left stack + left stack' := by
  rw [left, List.map_append, List.sum_append]
  rfl

theorem left_dirsHere_le (listing : Listing α) (path : List String) :
    left (listing.dirsHere path) ≤ listing.size := by
  induction listing with
  | nil => exact Nat.le_refl _
  | file name reads content rest ih => exact ih
  | dir name reads lists inside rest _ ih =>
    rw [dirsHere, size]
    split
    · rw [left_append]
      have one : left [(⟨path ++ [name], lists, inside⟩ : Pending α)] = inside.size + 1 := rfl
      omega
    · omega

/-- A directory shows its own files and what can be seen of the directories in it. -/
theorem here_perm (listing : Listing α) (path : List String) :
    (listing.filesHere path ++ (listing.dirsHere path).flatMap Pending.seen).Perm (listing.seen path) := by
  induction listing with
  | nil => exact List.Perm.refl _
  | file name reads content rest ih =>
    rw [filesHere, dirsHere, seen]
    split
    · exact ih.cons _
    · exact ih
  | dir name reads lists inside rest _ ih =>
    rw [filesHere, dirsHere, seen]
    by_cases read : reads = true
    · rw [if_pos read, List.flatMap_append, List.flatMap_singleton, Pending.seen]
      by_cases listed : lists = true
      · rw [if_pos listed, if_pos ⟨read, listed⟩, ← List.append_assoc]
        exact List.perm_append_comm.trans (ih.append_left _)
      · rw [if_neg listed, if_neg fun both => listed both.2, List.append_nil]
        exact ih
    · rw [if_neg read, if_neg fun both => read both.1]
      exact ih

/-- A walk with enough steps finds what can be seen of the directories on the stack. -/
theorem walk_perm {n : Nat} {stack : List (Pending α)} (enough : left stack ≤ n) :
    (walk n stack).Perm (stack.flatMap Pending.seen) := by
  induction n generalizing stack with
  | zero =>
    cases stack with
    | nil => exact List.Perm.refl _
    | cons d stack =>
      rw [left, List.map_cons, List.sum_cons] at enough
      omega
  | succ n ih =>
    cases stack with
    | nil => exact List.Perm.refl _
    | cons d stack =>
      have fewer : d.inside.size + 1 + left stack ≤ n + 1 := enough
      rw [walk, List.flatMap_cons, Pending.seen]
      split
      · have inside := left_dirsHere_le d.inside d.path
        have rest : left (d.inside.dirsHere d.path ++ stack) ≤ n := by
          rw [left_append]
          omega
        refine ((ih rest).append_left _).trans ?_
        rw [List.flatMap_append, ← List.append_assoc]
        exact (here_perm d.inside d.path).append_right _
      · exact ih (by omega)

end Listing
