import Concorrd.Lib.FileTree
import Concorrd.Porch.Vault

/-!
# The names in a requested path

What a requested path says is its names between slashes. Slashes at the ends and dots between them do
not matter, and a name behind a slash is one name more. A stored path reads back as the path it was
written from.
-/

namespace Concorrd

/-- The names of a text between slashes. -/
def slashNames (s : String) : List String :=
  (splitSlashes s).filter fun seg => seg ≠ "" ∧ seg ≠ "."

theorem splitSlashes_append (a b : String) :
    splitSlashes (a ++ "/" ++ b) = splitSlashes a ++ splitSlashes b := by
  have chars : (a ++ "/" ++ b).toList = a.toList ++ '/' :: b.toList := by
    rw [String.toList_append, String.toList_append, List.append_assoc]
    rfl
  rw [splitSlashes, chars, List.splitOn, List.splitOnP_append_cons _ _ (by simp), List.map_append]
  rfl

theorem slashNames_append (a b : String) :
    slashNames (a ++ "/" ++ b) = slashNames a ++ slashNames b := by
  rw [slashNames, splitSlashes_append, List.filter_append]
  rfl

theorem slashNames_slash_append (s : String) : slashNames ("/" ++ s) = slashNames s := by
  have start := slashNames_append "" s
  rw [String.empty_append] at start
  exact start

theorem slashNames_append_slash (s : String) : slashNames (s ++ "/") = slashNames s := by
  have last := slashNames_append s ""
  rw [String.append_empty] at last
  rw [last]
  exact List.append_nil _

/-- Slashes at the ends say nothing. -/
theorem slashNames_trimSlashes (s : String) : slashNames (trimSlashes s) = slashNames s := by
  have front (cs : List Char) : slashNames (String.ofList (cs.dropWhile (· = '/'))) =
      slashNames (String.ofList cs) := by
    induction cs with
    | nil => rfl
    | cons c cs ih =>
      by_cases slash : c = '/'
      · have split : String.ofList (c :: cs) = "/" ++ String.ofList cs := by
          rw [slash]
          exact @String.ofList_append ['/'] cs
        rw [List.dropWhile_cons_of_pos (by simpa using slash), ih, split, slashNames_slash_append]
      · rw [List.dropWhile_cons_of_neg (by simpa using slash)]
  have back (cs : List Char) : slashNames (String.ofList (cs.dropWhile (· = '/')).reverse) =
      slashNames (String.ofList cs.reverse) := by
    induction cs with
    | nil => rfl
    | cons c cs ih =>
      by_cases slash : c = '/'
      · have split : String.ofList (c :: cs).reverse = String.ofList cs.reverse ++ "/" := by
          rw [slash, List.reverse_cons]
          exact String.ofList_append
        rw [List.dropWhile_cons_of_pos (by simpa using slash), ih, split, slashNames_append_slash]
      · rw [List.dropWhile_cons_of_neg (by simpa using slash)]
  rw [trimSlashes, back, List.reverse_reverse, front, String.ofList_toList]

theorem splitSlashes_of_isName {name : String} (isName : FileTree.IsName name) :
    splitSlashes name = [name] := by
  rw [splitSlashes, List.splitOn, List.splitOnP_eq_singleton, List.map_singleton, String.ofList_toList]
  intro c mem
  exact beq_false_of_ne fun slash => isName.2.2.2 (slash ▸ mem)

/-- A name says itself. -/
theorem slashNames_of_isName {name : String} (isName : FileTree.IsName name) :
    slashNames name = [name] := by
  rw [slashNames, splitSlashes_of_isName isName]
  exact List.filter_cons_of_pos (decide_eq_true ⟨isName.1, isName.2.1⟩)

/-- A request is for its names, unless one of them goes up. -/
theorem vaultSegments_eq_ok_iff {relPath : String} {segs : List String} :
    vaultSegments relPath = .ok segs ↔ slashNames relPath = segs ∧ ".." ∉ segs := by
  have names : (splitSlashes (trimSlashes relPath)).filter (fun seg => seg ≠ "" ∧ seg ≠ ".") =
      slashNames relPath := slashNames_trimSlashes relPath
  unfold vaultSegments
  dsimp only
  rw [names]
  split
  · rename_i up
    refine iff_of_false (fun h => ?_) fun h => ?_
    · cases h
    · rw [h.1] at up
      exact h.2 up
  · rename_i names
    constructor
    · intro h
      rw [← Except.ok.inj h]
      exact ⟨rfl, names⟩
    · rintro ⟨same, -⟩
      rw [same]

/-- The path of an entry asks for one name more than the path of the directory. -/
theorem vaultSegments_entry {relPath name : String} {segs : List String}
    (h : vaultSegments relPath = .ok segs) (isName : FileTree.IsName name) :
    vaultSegments (if relPath.isEmpty then name else trimSlashes relPath ++ "/" ++ name) =
      .ok (segs ++ [name]) := by
  obtain ⟨names, noUp⟩ := vaultSegments_eq_ok_iff.mp h
  refine vaultSegments_eq_ok_iff.mpr ⟨?_, ?_⟩
  · split
    · rename_i empty
      rw [String.isEmpty_iff.mp empty] at names
      rw [slashNames_of_isName isName, ← names]
      rfl
    · rw [slashNames_append, slashNames_trimSlashes, names, slashNames_of_isName isName]
  · rw [List.mem_append, List.mem_singleton, not_or]
    exact ⟨noUp, isName.2.2.1.symm⟩

/-! ## Stored paths -/

theorem slashNames_intercalate {segs : List String} (names : ∀ seg ∈ segs, FileTree.IsName seg) :
    slashNames ("/".intercalate segs) = segs := by
  induction segs with
  | nil => rfl
  | cons seg segs ih =>
    obtain ⟨isName, rest⟩ := List.forall_mem_cons.mp names
    cases segs with
    | nil => rw [String.intercalate_singleton, slashNames_of_isName isName]
    | cons next segs =>
      rw [String.intercalate_cons_cons, slashNames_append, ih rest, slashNames_of_isName isName]
      rfl

/-- Unless the first part is a dot, a path is the names of its text. -/
theorem VaultPath.ofString_eq {s : String} (noDot : (splitSlashes s).head? ≠ some ".") :
    ofString s = ⟨s.toList.head? = some '/', slashNames s⟩ := by
  unfold ofString
  split
  · rename_i rest same
    rw [same] at noDot
    exact absurd rfl noDot
  · rfl

/-- A path of names from the top reads back. -/
theorem VaultPath.ofString_display {segs : List String}
    (names : ∀ seg ∈ segs, FileTree.IsName seg) : ofString (display ⟨true, segs⟩) = ⟨true, segs⟩ := by
  have text : display ⟨true, segs⟩ = "" ++ "/" ++ "/".intercalate segs := by
    rw [display, String.empty_append]
    rfl
  have first : (splitSlashes (display ⟨true, segs⟩)).head? ≠ some "." := by
    rw [text, splitSlashes_append]
    exact fun h => absurd (Option.some.inj h) (by decide)
  have slash : (display ⟨true, segs⟩).toList.head? = some '/' := by
    rw [text, String.toList_append, String.toList_append]
    rfl
  rw [ofString_eq first, slash, text, String.empty_append, slashNames_slash_append,
    slashNames_intercalate names, decide_eq_true rfl]

/-- Names below a root read back. -/
theorem VaultPath.ofString_display_below {segs : List String} (more : segs ≠ [])
    (names : ∀ seg ∈ segs, FileTree.IsName seg) :
    ofString (display ⟨false, segs⟩) = ⟨false, segs⟩ := by
  have text : display ⟨false, segs⟩ = "/".intercalate segs := String.empty_append
  obtain ⟨seg, rest, rfl⟩ := List.exists_cons_of_ne_nil more
  have isName := names seg List.mem_cons_self
  have parts : ∃ tail, "/".intercalate (seg :: rest) = seg ++ tail ∧
      (splitSlashes ("/".intercalate (seg :: rest))).head? = some seg := by
    cases rest with
    | nil =>
      rw [String.intercalate_singleton, splitSlashes_of_isName isName]
      exact ⟨"", String.append_empty.symm, rfl⟩
    | cons next rest =>
      rw [String.intercalate_cons_cons, splitSlashes_append, splitSlashes_of_isName isName]
      exact ⟨_, String.append_assoc, rfl⟩
  obtain ⟨tail, starts, first⟩ := parts
  have noSlash : ("/".intercalate (seg :: rest)).toList.head? ≠ some '/' := by
    rw [starts, String.toList_append]
    cases chars : seg.toList with
    | nil => exact absurd (String.toList_eq_nil_iff.mp chars) isName.1
    | cons c cs =>
      intro slash
      refine isName.2.2.2 ?_
      rw [chars, ← Option.some.inj slash]
      exact List.mem_cons_self
  have noDot : (splitSlashes ("/".intercalate (seg :: rest))).head? ≠ some "." := by
    rw [first]
    exact fun h => isName.2.1 (Option.some.inj h)
  rw [text, ofString_eq noDot, slashNames_intercalate names, decide_eq_false noSlash]

end Concorrd
