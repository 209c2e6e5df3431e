import Mathlib.Data.List.Basic

/-!
# Following a path

What the segments of a path lead to when no link is on the way: a name goes down, two dots go up,
and the top is its own parent. A path that goes down only stays below where it starts.
-/

namespace LexicalPath

/-- The directory or file the segments lead to. -/
def follow : List String → List String → List String
  | dir, [] => dir
  | dir, seg :: segs => if seg = ".." then follow dir.dropLast segs else follow (dir ++ [seg]) segs

variable {dir segs segs' : List String}

/-- Names alone lead down. -/
theorem follow_of_names (names : ".." ∉ segs) : follow dir segs = dir ++ segs := by
  induction segs generalizing dir with
  | nil => exact (List.append_nil dir).symm
  | cons seg segs ih =>
    obtain ⟨first, rest⟩ := not_or.mp (fun h => names (List.mem_cons.mpr h))
    rw [follow, if_neg (Ne.symm first), ih rest, List.append_assoc]
    rfl

end LexicalPath
