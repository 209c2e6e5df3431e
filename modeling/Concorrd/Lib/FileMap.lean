import Mathlib.Data.List.Basic
import Mathlib.Logic.Function.Basic

/-!
# Files and directories by path

What stands at each path, without links. Each operation has one lemma that says which files there are after
it: removing a directory takes what stands below it, making directories changes no file, and writing changes
one path.
-/

inductive FileMap.Node where
  | file (content : String)
  | directory
  deriving DecidableEq

/-- What stands at each path. -/
abbrev FileMap := List String → Option FileMap.Node

namespace FileMap

/-- The content, of a file. -/
def Node.content : Node → Option String
  | .file content => some content
  | .directory => none

def contentAt (d : FileMap) (path : List String) : Option String := (d path).bind Node.content

/-- Remove what stands at the path and below it. -/
def rmtree (d : FileMap) (path : List String) : FileMap := fun p => if path <+: p then none else d p

/-- Make the directory and those above it, unless a file is in the way. -/
def mkdirs (d : FileMap) (path : List String) : Option FileMap :=
  if ∃ above ∈ path.inits, (d.contentAt above).isSome then none
  else some fun p => (d p).or (if p <+: path then some .directory else none)

/-- Write the file, unless a directory is in its place. -/
def write (d : FileMap) (path : List String) (content : String) : Option FileMap :=
  if d path = some .directory then none else some (Function.update d path (some (.file content)))

variable {d d' : FileMap} {path p : List String} {content : String}

theorem rmtree_of_prefix (below : path <+: p) : d.rmtree path p = none := if_pos below

theorem rmtree_of_not_prefix (outside : ¬ path <+: p) : d.rmtree path p = d p := if_neg outside

theorem mkdirs_of_not_prefix (made : d.mkdirs path = some d') (outside : ¬ p <+: path) : d' p = d p := by
  rw [mkdirs] at made
  split at made
  · cases made
  · cases made
    show (d p).or (if p <+: path then some .directory else none) = d p
    rw [if_neg outside, Option.or_none]

theorem contentAt_mkdirs (made : d.mkdirs path = some d') (p : List String) : d'.contentAt p = d.contentAt p := by
  rw [mkdirs] at made
  split at made
  · cases made
  · cases made
    rw [contentAt, contentAt]
    cases here : d p with
    | some node => rfl
    | none =>
      rw [Option.none_or]
      split <;> rfl

theorem write_of_ne (written : d.write path content = some d') (other : p ≠ path) : d' p = d p := by
  rw [write] at written
  split at written
  · cases written
  · cases written
    exact Function.update_of_ne other _ _

theorem contentAt_write (written : d.write path content = some d') (p : List String) :
    d'.contentAt p = if p = path then some content else d.contentAt p := by
  split
  · rename_i here
    rw [write] at written
    split at written
    · cases written
    · cases written
      rw [contentAt, here, Function.update_self]
      rfl
  · rename_i other
    rw [contentAt, write_of_ne written other]
    rfl

end FileMap
