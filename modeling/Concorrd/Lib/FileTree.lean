import Mathlib.Data.List.Induction
import Concorrd.Lib.Dict

/-!
# Files, directories and links

A tree of files and directories, some of whose entries are links that lead elsewhere. A path is the
list of its names from the top. `walk` follows the names of a path and the links on the way to the file
or directory they lead to; a link may lead through other links, so many deep. What a walk comes to is
real: no link stands on its path (`real_walk`), and its own path leads to it (`walk_real`).
-/

/-- Where a link leads: names from the top, or from the directory of the link. -/
structure FileTree.Link where
  absolute : Bool
  segments : List String
  deriving DecidableEq

/-- What stands at a path. -/
inductive FileTree.Node (φ δ : Type*) where
  | file (content : φ)
  | directory (data : δ)
  | link (target : FileTree.Link)

/-- A name that an entry of a directory may have. -/
def FileTree.IsName (name : String) : Prop :=
  name ≠ "" ∧ name ≠ "." ∧ name ≠ ".." ∧ '/' ∉ name.toList

instance (name : String) : Decidable (FileTree.IsName name) :=
  inferInstanceAs (Decidable (_ ∧ _))

/-- Whether the node is a directory. -/
def FileTree.Node.isDirectory {φ δ : Type*} : FileTree.Node φ δ → Bool
  | .directory _ => true
  | .file _ | .link _ => false

/-- Whether the node is a link. -/
def FileTree.Node.isLink {φ δ : Type*} : FileTree.Node φ δ → Bool
  | .link _ => true
  | .file _ | .directory _ => false

/-- The entries of a file system by their paths. The top is a directory, and so is what any other entry
stands in. -/
structure FileTree (φ δ : Type*) where
  entries : Dict (List String) (FileTree.Node φ δ)
  distinct : entries.keys.Nodup
  names : ∀ e ∈ entries, ∀ name ∈ e.1, FileTree.IsName name
  top : (entries.get []).map FileTree.Node.isDirectory = some true
  parents : ∀ e ∈ entries,
    e.1 = [] ∨ (entries.get e.1.dropLast).map FileTree.Node.isDirectory = some true

namespace FileTree

variable {φ δ : Type*} (t : FileTree φ δ)

/-- What stands at a path. -/
def node (path : List String) : Option (Node φ δ) := t.entries.get path

/-- The names of what stands in a directory. -/
def children (path : List String) : List String :=
  t.entries.filterMap fun e => if e.1.dropLast = path then e.1.getLast? else none

/-- The directory that a name leads to from a directory. -/
def step (follow : List String → Link → Except String (List String)) (dir : List String)
    (seg : String) : Except String (List String) :=
  match t.node dir with
  | some (.directory _) =>
    if seg = "." then .ok dir
    else if seg = ".." then .ok dir.dropLast
    else
      match t.node (dir ++ [seg]) with
      | none => .error "No such file or directory"
      | some (.link target) => follow dir target
      | some _ => .ok (dir ++ [seg])
  | _ => .error "Not a directory"

/-- The file or directory that names lead to, through links that are so many deep. -/
def walk : Nat → List String → List String → Except String (List String)
  | 0, dir, segs => segs.foldlM (t.step fun _ _ => .error "Too many levels of symbolic links") dir
  | depth + 1, dir, segs =>
    segs.foldlM (t.step fun dir target =>
      walk depth (if target.absolute then [] else dir) target.segments) dir

/-- Whether names lead to a link, if they lead anywhere: the last of them is not followed. -/
def linkStatus (depth : Nat) (dir segs : List String) : Option Bool :=
  match segs.getLast? with
  | none => some false
  | some seg =>
    (t.walk depth dir segs.dropLast).toOption.bind fun parent =>
      if seg = "." ∨ seg = ".." then
        if (t.node parent).map Node.isDirectory = some true then some false else none
      else (t.node (parent ++ [seg])).map Node.isLink

/-- A file or a directory, not a link. -/
def Real (path : List String) : Prop := (t.node path).map Node.isLink = some false

/-- A directory. -/
def IsDirectory (path : List String) : Prop := (t.node path).map Node.isDirectory = some true

variable {t} {dir segs path : List String} {seg name : String} {depth : Nat}

theorem mem_of_node {n : Node φ δ} (there : t.node path = some n) : (path, n) ∈ t.entries :=
  Dict.mem_of_get there

theorem node_of_mem {n : Node φ δ} (mem : (path, n) ∈ t.entries) : t.node path = some n :=
  Dict.get_of_mem t.distinct mem

theorem isDirectory_top : t.IsDirectory [] := t.top

theorem IsDirectory.real (directory : t.IsDirectory path) : t.Real path := by
  unfold IsDirectory at directory
  unfold Real
  cases there : t.node path with
  | none => rw [there] at directory; cases directory
  | some n =>
    rw [there] at directory
    cases n with
    | file content => rfl
    | directory data => rfl
    | link target => cases directory

/-- What stands anywhere stands in a directory. -/
theorem isDirectory_of_node {n : Node φ δ} (there : t.node (dir ++ [seg]) = some n) :
    t.IsDirectory dir := by
  rcases t.parents _ (mem_of_node there) with empty | parent
  · simp at empty
  · rwa [List.dropLast_concat] at parent

theorem isName_of_node {n : Node φ δ} (there : t.node path = some n) (mem : name ∈ path) :
    IsName name := t.names _ (mem_of_node there) name mem

theorem mem_children : name ∈ t.children dir ↔ (t.node (dir ++ [name])).isSome = true := by
  rw [children, List.mem_filterMap]
  constructor
  · rintro ⟨⟨path, n⟩, mem, found⟩
    split at found
    · rename_i parent
      have whole : dir ++ [name] = path := by
        rw [← parent]
        exact List.dropLast_append_getLast? name found
      rw [whole, node_of_mem mem, Option.isSome_some]
    · cases found
  · intro there
    obtain ⟨n, there⟩ := Option.isSome_iff_exists.mp there
    exact ⟨_, mem_of_node there, by simp⟩

theorem IsDirectory.dropLast (directory : t.IsDirectory path) : t.IsDirectory path.dropLast := by
  obtain ⟨n, there, -⟩ := Option.map_eq_some_iff.mp directory
  rcases t.parents _ (mem_of_node there) with empty | parent
  · rw [show path = [] from empty]
    exact isDirectory_top
  · exact parent

/-- A path goes on from a directory only. -/
theorem isDirectory_of_append (more : segs ≠ []) (there : (t.node (dir ++ segs)).isSome = true) :
    t.IsDirectory dir := by
  induction segs using List.reverseRecOn with
  | nil => exact absurd rfl more
  | append_singleton segs seg ih =>
    obtain ⟨n, there⟩ := Option.isSome_iff_exists.mp there
    rw [← List.append_assoc] at there
    have parent := isDirectory_of_node there
    by_cases empty : segs = []
    · rwa [empty, List.append_nil] at parent
    · obtain ⟨d, found, -⟩ := Option.map_eq_some_iff.mp parent
      exact ih empty (by rw [found, Option.isSome_some])

theorem Real.isSome (real : t.Real path) : (t.node path).isSome = true := by
  obtain ⟨n, there, -⟩ := Option.map_eq_some_iff.mp real
  rw [there, Option.isSome_some]

/-! ## Steps -/

section Steps

variable {follow : List String → Link → Except String (List String)} {out : List String}

/-- What a step does. -/
theorem step_eq_ok (h : t.step follow dir seg = .ok out) : t.IsDirectory dir ∧
    ((seg = "." ∧ out = dir) ∨ (seg = ".." ∧ out = dir.dropLast) ∨
      (seg ≠ "." ∧ seg ≠ ".." ∧
        ((∃ target, t.node (dir ++ [seg]) = some (.link target) ∧ follow dir target = .ok out) ∨
          t.Real (dir ++ [seg]) ∧ out = dir ++ [seg]))) := by
  unfold step at h
  split at h
  · rename_i data here
    have directory : t.IsDirectory dir := by
      rw [IsDirectory, here]
      rfl
    refine ⟨directory, ?_⟩
    split at h
    · cases h
      exact .inl ⟨by assumption, rfl⟩
    split at h
    · cases h
      exact .inr (.inl ⟨by assumption, rfl⟩)
    refine .inr (.inr ⟨by assumption, by assumption, ?_⟩)
    split at h
    · cases h
    · rename_i target there
      exact .inl ⟨target, there, h⟩
    · rename_i n other there
      cases h
      refine .inr ⟨?_, rfl⟩
      rw [Real, there]
      cases n with
      | file content => rfl
      | directory data => rfl
      | link target => exact absurd rfl (other target)
  · cases h

/-- A step to what is no link goes there. -/
theorem step_of_real (real : t.Real (dir ++ [seg])) : t.step follow dir seg = .ok (dir ++ [seg]) := by
  obtain ⟨n, there, noLink⟩ := Option.map_eq_some_iff.mp real
  obtain ⟨-, notDot, notDots, -⟩ : IsName seg :=
    isName_of_node there (List.mem_append_right dir (List.mem_singleton_self seg))
  obtain ⟨d, here, directory⟩ := Option.map_eq_some_iff.mp (isDirectory_of_node there)
  unfold step
  rw [here, there]
  cases d with
  | file content => cases directory
  | link target => cases directory
  | directory data =>
    simp only [notDot, notDots, if_false]
    cases n with
    | file content => rfl
    | directory data => rfl
    | link target => cases noLink

/-- Names are followed one after the other. -/
theorem foldlM_cons_eq_ok (h : (seg :: segs).foldlM (t.step follow) dir = .ok out) :
    ∃ next, t.step follow dir seg = .ok next ∧ segs.foldlM (t.step follow) next = .ok out := by
  rw [List.foldlM_cons] at h
  cases stepped : t.step follow dir seg with
  | error e =>
    rw [stepped] at h
    cases h
  | ok next =>
    rw [stepped] at h
    exact ⟨next, rfl, h⟩

theorem real_foldlM (leads : ∀ dir target out, t.IsDirectory dir → follow dir target = .ok out →
    t.Real out) (real : t.Real dir) (h : segs.foldlM (t.step follow) dir = .ok out) : t.Real out := by
  induction segs generalizing dir with
  | nil =>
    cases h
    exact real
  | cons seg segs ih =>
    obtain ⟨next, stepped, h⟩ := foldlM_cons_eq_ok h
    refine ih ?_ h
    obtain ⟨directory, ⟨-, rfl⟩ | ⟨-, rfl⟩ | ⟨-, -, ⟨target, -, led⟩ | ⟨there, rfl⟩⟩⟩ := step_eq_ok stepped
    · exact real
    · exact directory.dropLast.real
    · exact leads dir target next directory led
    · exact there

theorem foldlM_of_real (real : t.Real (dir ++ segs)) :
    segs.foldlM (t.step follow) dir = .ok (dir ++ segs) := by
  induction segs generalizing dir with
  | nil =>
    rw [List.append_nil]
    rfl
  | cons seg segs ih =>
    have whole : dir ++ seg :: segs = (dir ++ [seg]) ++ segs := by
      rw [List.append_assoc]
      rfl
    rw [whole] at real ⊢
    have first : t.Real (dir ++ [seg]) := by
      by_cases empty : segs = []
      · rwa [empty, List.append_nil] at real
      · exact (isDirectory_of_append empty real.isSome).real
    rw [List.foldlM_cons, step_of_real first]
    exact ih real

/-- Where no link is on the way, names lead straight down. -/
theorem foldlM_of_no_link (names : "." ∉ segs ∧ ".." ∉ segs)
    (noLink : ∀ before, before <+: segs → before ≠ [] →
      (t.node (dir ++ before)).map Node.isLink ≠ some true)
    (h : segs.foldlM (t.step follow) dir = .ok out) : out = dir ++ segs := by
  induction segs generalizing dir with
  | nil =>
    cases h
    rw [List.append_nil]
  | cons seg segs ih =>
    have whole (rest : List String) : dir ++ seg :: rest = (dir ++ [seg]) ++ rest := by
      rw [List.append_assoc]
      rfl
    obtain ⟨noDot, noDots⟩ := names
    obtain ⟨next, stepped, h⟩ := foldlM_cons_eq_ok h
    have here := noLink [seg] ⟨segs, rfl⟩ (List.cons_ne_nil seg [])
    obtain ⟨-, ⟨rfl, -⟩ | ⟨rfl, -⟩ | ⟨-, -, ⟨target, there, -⟩ | ⟨-, rfl⟩⟩⟩ := step_eq_ok stepped
    · exact absurd List.mem_cons_self noDot
    · exact absurd List.mem_cons_self noDots
    · rw [there] at here
      exact absurd rfl here
    · rw [whole]
      refine ih ⟨fun mem => noDot (List.mem_cons_of_mem _ mem),
        fun mem => noDots (List.mem_cons_of_mem _ mem)⟩ (fun before start _ => ?_) h
      rw [← whole]
      exact noLink (seg :: before) (List.prefix_cons_inj seg |>.mpr start) (List.cons_ne_nil seg before)

end Steps

/-! ## Walks -/

/-- Names lead on from what the first of them lead to. -/
theorem walk_append (segs' : List String) : t.walk depth dir (segs ++ segs') =
    (t.walk depth dir segs).bind fun path => t.walk depth path segs' := by
  cases depth with
  | zero => exact List.foldlM_append
  | succ depth => exact List.foldlM_append

/-- The last name of a walk stands in the directory that the others lead to. -/
theorem parent_of_walk {out : List String} (name : seg ≠ "." ∧ seg ≠ "..")
    (h : t.walk depth dir (segs ++ [seg]) = .ok out) :
    ∃ parent, t.walk depth dir segs = .ok parent ∧ t.walk depth parent [seg] = .ok out ∧
      t.IsDirectory parent ∧ (t.node (parent ++ [seg])).isSome = true := by
  rw [walk_append] at h
  cases before : t.walk depth dir segs with
  | error e =>
    rw [before] at h
    cases h
  | ok parent =>
    rw [before] at h
    have last : t.walk depth parent [seg] = .ok out := h
    have stepped : ∃ follow next, t.step follow parent seg = .ok next := by
      cases depth with
      | zero =>
        obtain ⟨next, stepped, -⟩ := foldlM_cons_eq_ok last
        exact ⟨_, next, stepped⟩
      | succ depth =>
        obtain ⟨next, stepped, -⟩ := foldlM_cons_eq_ok last
        exact ⟨_, next, stepped⟩
    obtain ⟨follow, next, stepped⟩ := stepped
    obtain ⟨directory, ⟨dot, -⟩ | ⟨dots, -⟩ | ⟨-, -, ⟨target, there, -⟩ | ⟨real, -⟩⟩⟩ :=
      step_eq_ok stepped
    · exact absurd dot name.1
    · exact absurd dots name.2
    · exact ⟨parent, rfl, last, directory, by rw [there, Option.isSome_some]⟩
    · exact ⟨parent, rfl, last, directory, real.isSome⟩

/-- A walk comes to a file or a directory. -/
theorem real_walk {out : List String} (real : t.Real dir) (h : t.walk depth dir segs = .ok out) :
    t.Real out := by
  induction depth generalizing dir segs out with
  | zero =>
    refine real_foldlM (fun _ _ _ _ led => ?_) real h
    cases led
  | succ depth ih =>
    refine real_foldlM (fun dir target out directory led => ih ?_ led) real h
    split
    · exact isDirectory_top.real
    · exact directory.real

/-- The path of a file or a directory leads to it. -/
theorem walk_real (real : t.Real (dir ++ segs)) : t.walk depth dir segs = .ok (dir ++ segs) := by
  cases depth with
  | zero => exact foldlM_of_real real
  | succ depth => exact foldlM_of_real real

theorem walk_of_no_link {out : List String} (names : "." ∉ segs ∧ ".." ∉ segs)
    (noLink : ∀ before, before <+: segs → before ≠ [] →
      (t.node (dir ++ before)).map Node.isLink ≠ some true)
    (h : t.walk depth dir segs = .ok out) : out = dir ++ segs := by
  cases depth with
  | zero => exact foldlM_of_no_link names noLink h
  | succ depth => exact foldlM_of_no_link names noLink h

/-- A name that leads straight down is the last step of a walk, or a link. -/
theorem linkStatus_concat (name : seg ≠ "." ∧ seg ≠ "..") :
    t.linkStatus depth dir (segs ++ [seg]) =
      (t.walk depth dir segs).toOption.bind fun parent => (t.node (parent ++ [seg])).map Node.isLink := by
  have other : ¬(seg = "." ∨ seg = "..") := not_or.mpr name
  rw [linkStatus, List.getLast?_concat, List.dropLast_concat]
  simp only [other, if_false]

/-- What is no link is the end of the walk to it. -/
theorem walk_concat_of_no_link {parent out : List String} (name : seg ≠ "." ∧ seg ≠ "..")
    (before : t.walk depth dir segs = .ok parent)
    (noLink : (t.node (parent ++ [seg])).map Node.isLink ≠ some true)
    (h : t.walk depth dir (segs ++ [seg]) = .ok out) : out = parent ++ [seg] := by
  rw [walk_append, before] at h
  refine walk_of_no_link ⟨?_, ?_⟩ (fun start short more => ?_) h
  · exact fun mem => name.1 (List.mem_singleton.mp mem).symm
  · exact fun mem => name.2 (List.mem_singleton.mp mem).symm
  · rcases List.prefix_cons_iff.mp short with empty | ⟨rest, rfl, last⟩
    · exact absurd empty more
    · rwa [List.prefix_nil.mp last]

/-! ## Trees that differ in the contents of files only -/

/-- A node without its contents. -/
def Node.shape {φ δ : Type*} : Node φ δ → Node Unit Unit
  | .file _ => .file ()
  | .directory _ => .directory ()
  | .link target => .link target

theorem shape_cases {n n' : Option (Node φ δ)} (same : n.map Node.shape = n'.map Node.shape) :
    (n = none ∧ n' = none) ∨ (∃ a b, n = some (.file a) ∧ n' = some (.file b)) ∨
      (∃ a b, n = some (.directory a) ∧ n' = some (.directory b)) ∨
        ∃ target, n = some (.link target) ∧ n' = some (.link target) := by
  cases n with
  | none => exact .inl ⟨rfl, Option.map_eq_none_iff.mp same.symm⟩
  | some n =>
    obtain ⟨n', rfl, shape⟩ := Option.map_eq_some_iff.mp same.symm
    cases n <;> cases n' <;> cases shape
    · exact .inr (.inl ⟨_, _, rfl, rfl⟩)
    · exact .inr (.inr (.inl ⟨_, _, rfl, rfl⟩))
    · exact .inr (.inr (.inr ⟨_, rfl, rfl⟩))

section Shape

variable {t' : FileTree φ δ}
  (same : ∀ path, (t.node path).map Node.shape = (t'.node path).map Node.shape)

include same

theorem step_congr (follow : List String → Link → Except String (List String)) :
    t.step follow = t'.step follow := by
  funext dir seg
  unfold step
  rcases shape_cases (same dir) with ⟨h, h'⟩ | ⟨_, _, h, h'⟩ | ⟨_, _, h, h'⟩ | ⟨_, h, h'⟩
  · rw [h, h']
  · rw [h, h']
  · rw [h, h']
    rcases shape_cases (same (dir ++ [seg])) with ⟨h, h'⟩ | ⟨_, _, h, h'⟩ | ⟨_, _, h, h'⟩ | ⟨_, h, h'⟩
    all_goals rw [h, h']
  · rw [h, h']

/-- Names lead to the same place where the same files, directories and links stand. -/
theorem walk_congr : t.walk depth dir segs = t'.walk depth dir segs := by
  induction depth generalizing dir segs with
  | zero => rw [walk, walk, step_congr same]
  | succ depth ih =>
    rw [walk, walk, step_congr same]
    simp only [ih]

theorem linkStatus_congr : t.linkStatus depth dir segs = t'.linkStatus depth dir segs := by
  have links (path : List String) : (t.node path).map Node.isLink = (t'.node path).map Node.isLink := by
    rcases shape_cases (same path) with ⟨h, h'⟩ | ⟨_, _, h, h'⟩ | ⟨_, _, h, h'⟩ | ⟨_, h, h'⟩
    all_goals simp only [h, h', Option.map_none, Option.map_some, Node.isLink, Node.isDirectory]
  have directories (path : List String) :
      (t.node path).map Node.isDirectory = (t'.node path).map Node.isDirectory := by
    rcases shape_cases (same path) with ⟨h, h'⟩ | ⟨_, _, h, h'⟩ | ⟨_, _, h, h'⟩ | ⟨_, h, h'⟩
    all_goals simp only [h, h', Option.map_none, Option.map_some, Node.isLink, Node.isDirectory]
  unfold linkStatus
  simp only [walk_congr same, links, directories]

end Shape

end FileTree
