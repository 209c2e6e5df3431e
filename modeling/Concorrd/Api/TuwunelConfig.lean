import Mathlib.Data.List.Sort
import Mathlib.Data.List.Dedup
import Mathlib.Data.String.Basic
import Concorrd.Lib.TomlLines

/-!
# The federation settings in `tuwunel.toml`

The routes of administrators read three keys of `[global]` and write the whole file again, with what else
is under `[global]` written by an emitter of their own. Where all its keys are bare, the file survives the
write exactly when its other values are booleans, integers and strings or lists of strings without
control characters (`federation_survives_iff`).
-/

namespace Concorrd.Api

open Toml

structure FederationSettings (α : Type) where
  allowFederation : Bool := true
  forbiddenRemoteServerNames : List α := []
  allowedRemoteServerNames : List α := []

def FederationSettings.map {α β : Type} (f : α → β) (s : FederationSettings α) :
    FederationSettings β where
  allowFederation := s.allowFederation
  forbiddenRemoteServerNames := s.forbiddenRemoteServerNames.map f
  allowedRemoteServerNames := s.allowedRemoteServerNames.map f

/-- What the language makes of a value: its text, where it is no string, and whether a float counts as
true. -/
structure TomlRuntime where
  text : Toml → String := fun _ => ""
  truthyFloat : String → Bool := fun _ => true

namespace Tuwunel

variable (rt : TomlRuntime)

/-! ## Reading -/

def truthy : Toml → Bool
  | .bool value => value
  | .int value => value ≠ 0
  | .float text => rt.truthyFloat text
  | .time _ => true
  | .str value => value ≠ ""
  | .arr items => !items.isEmpty
  | .table entries => !entries.isEmpty

/-- The items of a value, where it has any. -/
def list : Toml → Option (List Toml)
  | .arr items => some items
  | .str value => some (value.toList.map fun c => .str (String.singleton c))
  | .table entries => some (entries.map fun e => .str e.1)
  | .bool _ | .int _ | .float _ | .time _ => none

/-- The table `[global]` of a file, empty where there is none. Another value has no keys. -/
def globalTable (data : Table) : Option Table :=
  match data.get "global" with
  | none => some []
  | some (.table g) => some g
  | some _ => none

/-- The settings of a file, with defaults for what is missing; `none` where reading raises. -/
def readFederation : Option String → Option (FederationSettings Toml)
  | none => some {}
  | some file => do
    let data ← loads file
    let g ← globalTable data
    let forbidden ← list ((g.get "forbidden_remote_server_names").getD (.arr []))
    let allowed ← list ((g.get "allowed_remote_server_names").getD (.arr []))
    return {
      allowFederation := truthy rt ((g.get "allow_federation").getD (.bool true))
      forbiddenRemoteServerNames := forbidden
      allowedRemoteServerNames := allowed }

/-! ## Writing -/

/-- With another text for a character. -/
def replace (c : Char) (new : List Char) (text : List Char) : List Char :=
  text.flatMap fun x => if x = c then new else [x]

/-- Escape backslashes and quotes. -/
def escapeTomlStr (text : List Char) : List Char :=
  replace '"' ['\\', '"'] (replace '\\' ['\\', '\\'] text)

def quoted (text : List Char) : List Char := '"' :: (escapeTomlStr text ++ ['"'])

/-- A string as it is, and the text of any other value. -/
def str : Toml → String
  | .str value => value
  | value => rt.text value

def emitValue : Toml → List Char
  | .bool value => (if value then "true" else "false").toList
  | .str value => quoted value.toList
  | .arr items =>
    '[' :: (List.intercalate ", ".toList (items.map fun v => quoted (str rt v).toList) ++ [']'])
  | .int value => (toString value).toList
  | value => quoted (str rt value).toList

def emitKv (key : String) (value : Toml) : List Char :=
  key.toList ++ " = ".toList ++ emitValue rt value

def managedOrder : List String :=
  ["allow_federation", "forbidden_remote_server_names", "allowed_remote_server_names"]

def headerLines : List String :=
  ["# Tuwunel runtime configuration — federation settings",
    "# Managed by the Concord admin UI. Hand edits to [global] keys",
    "# will be overwritten on the next federation allowlist update.",
    "",
    "[global]"]

/-- The keys in the order they are written: the managed ones first, then the others sorted. -/
def keyOrder (g : Table) : List String :=
  managedOrder.filter (· ∈ g.keys) ++
    (g.keys.dedup.insertionSort (· ≤ ·)).filter (· ∉ managedOrder)

def emitToml (g : Table) : List Char :=
  let lines := headerLines.map String.toList ++
    (keyOrder g).filterMap fun key => (g.get key).map (emitKv rt key)
  List.intercalate ['\n'] lines ++ ['\n']

def overlay (s : FederationSettings String) (g : Table) : Table :=
  ((g.set "allow_federation" (.bool s.allowFederation)).set "forbidden_remote_server_names"
    (.arr (s.forbiddenRemoteServerNames.map .str))).set "allowed_remote_server_names"
    (.arr (s.allowedRemoteServerNames.map .str))

/-- What is kept of the file that is there. One that does not parse is written from scratch; where
`global` is no table, setting a key of it raises. -/
def existingGlobal : Option String → Option Table
  | none => some []
  | some file =>
    match loads file with
    | none => some []
    | some data => globalTable data

/-- The file after the write; `none` where it raises and the file is left. -/
def writeFederation (s : FederationSettings String) (file : Option String) : Option String :=
  (existingGlobal file).map fun g => String.ofList (emitToml rt (overlay s g))

/-! ## What survives -/

/-- The file is written and parses, what was set is read back, and the other keys of `[global]` have
their values. -/
def Survives (file : String) (s : FederationSettings String) : Prop :=
  ∃ written, writeFederation rt s (some file) = some written ∧
    readFederation rt (some written) = some (s.map .str) ∧
    ∃ data data' g', loads file = some data ∧ loads written = some data' ∧
      globalTable data' = some g' ∧ ∀ g, globalTable data = some g →
        ∀ key value, key ∉ managedOrder → g.get key = some value → g'.get key = some value

/-- No character of it but the tab is a control character. -/
def Legal (text : List Char) : Prop := ∀ c ∈ text, illegal c = false

instance (text : List Char) : Decidable (Legal text) := List.decidableBAll _ _

/-- A boolean, an integer, a legal string or a list of legal strings. -/
def Plain : Toml → Prop
  | .bool _ | .int _ => True
  | .str text => Legal text.toList
  | .arr items => ∀ item ∈ items, ∃ text, item = .str text ∧ Legal text.toList
  | .float _ | .time _ | .table _ => False

/-! ## Strings are read as they were -/

variable {rt} {s text rest : List Char} {c : Char} {n : Nat}

@[simp] theorem escapeTomlStr_nil : escapeTomlStr [] = [] := rfl

theorem escapeTomlStr_cons : escapeTomlStr (c :: text) =
    (if c = '\\' then ['\\', '\\'] else if c = '"' then ['\\', '"'] else [c]) ++
      escapeTomlStr text := by
  rw [escapeTomlStr, replace, replace, List.flatMap_cons, List.flatMap_append]
  refine congrArg (· ++ escapeTomlStr text) ?_
  split
  · rfl
  · rw [List.flatMap_cons, List.flatMap_nil, List.append_nil]

theorem push_ite {legal : Prop} [Decidable legal] {left : List Char} :
    push c (if legal then some (text, left) else none) =
      if legal then some (c :: text, left) else none := by
  split <;> rfl

theorem legal_cons : Legal (c :: text) ↔ illegal c = false ∧ Legal text :=
  List.forall_mem_cons

/-- What was escaped is read back up to the quote after it, where it is legal. -/
theorem basicStr_escape : basicStr false .plain (escapeTomlStr text ++ '"' :: rest) =
    if Legal text then some (text, rest) else none := by
  induction text with
  | nil => exact (if_pos (fun c mem => absurd mem List.not_mem_nil)).symm
  | cons c text ih =>
    rw [escapeTomlStr_cons, if_congr legal_cons rfl rfl]
    by_cases slash : c = '\\'
    · subst slash
      have legal : illegal '\\' = false := by decide
      rw [if_pos rfl, if_congr (and_iff_right legal) rfl rfl, ← push_ite, ← ih]
      rfl
    by_cases quote : c = '"'
    · subst quote
      have legal : illegal '"' = false := by decide
      rw [if_neg slash, if_pos rfl, if_congr (and_iff_right legal) rfl rfl, ← push_ite, ← ih]
      rfl
    rw [if_neg slash, if_neg quote, List.cons_append, List.nil_append, List.cons_append,
      basicStr_plain quote slash, ih]
    by_cases legal : illegal c = false
    · rw [if_neg (by rw [legal]; decide), push_ite, if_congr (and_iff_right legal) rfl rfl]
    · rw [if_pos (Bool.not_eq_false _ ▸ legal), if_neg fun both => legal both.1]

theorem escapeTomlStr_head {d : Char} {ds : List Char} (split : escapeTomlStr text = d :: ds) :
    d ≠ '"' := by
  cases text with
  | nil => cases split
  | cons c text =>
    rw [escapeTomlStr_cons] at split
    split at split
    · rw [← (List.cons.inj split).1]
      decide
    · split at split
      · rw [← (List.cons.inj split).1]
        decide
      · rename_i quote
        rw [← (List.cons.inj split).1]
        exact quote

theorem value_quoted (next : c ≠ '"') : value (n + 1) (quoted text ++ c :: rest) =
    if Legal text then some (.str (String.ofList text), c :: rest) else none := by
  have single : after "\"\"" (escapeTomlStr text ++ '"' :: c :: rest) = none := by
    refine if_neg ?_
    cases split : escapeTomlStr text with
    | nil =>
      rintro ⟨more, same⟩
      exact next (List.cons.inj (List.cons.inj same).2).1.symm
    | cons d ds =>
      rintro ⟨more, same⟩
      exact escapeTomlStr_head split (List.cons.inj same).1.symm
  have flat : quoted text ++ c :: rest = '"' :: (escapeTomlStr text ++ '"' :: c :: rest) := by
    rw [quoted, List.cons_append, List.append_assoc]
    rfl
  rw [flat, value_quote single, basicStr_escape]
  split <;> rfl

theorem intercalate_quoted_head (text rest : List Char) (texts : List (List Char)) :
    ∃ more, List.intercalate ", ".toList (quoted text :: texts.map quoted) ++ rest = '"' :: more := by
  cases texts with
  | nil => exact ⟨_, by rw [List.map_nil, List.intercalate_singleton, quoted, List.cons_append]⟩
  | cons t texts =>
    exact ⟨_, by rw [List.map_cons, List.intercalate_cons_cons, quoted, List.cons_append,
      List.cons_append, List.cons_append]⟩

/-- A list of strings from its first on. -/
theorem items_quoted {texts : List (List Char)} (fuel : texts.length + 1 < n) :
    items n (List.intercalate ", ".toList (quoted text :: texts.map quoted) ++ ']' :: rest) =
      if ∀ t ∈ text :: texts, Legal t then
        some ((text :: texts).map fun t => .str (String.ofList t), rest) else none := by
  induction texts generalizing text n with
  | nil =>
    obtain ⟨m, rfl⟩ : ∃ m, n = m + 2 := ⟨n - 2, by simp only [List.length_nil] at fuel; omega⟩
    rw [List.map_nil, List.intercalate_singleton, items, value_quoted (by decide),
      if_congr List.forall_mem_singleton rfl rfl]
    split <;> rfl
  | cons t texts ih =>
    obtain ⟨m, rfl⟩ : ∃ m, n = m + 2 := ⟨n - 2, by omega⟩
    have tail := @ih t (m + 1) (by rw [List.length_cons] at fuel; omega)
    obtain ⟨more, head⟩ := intercalate_quoted_head t (']' :: rest) texts
    rw [head] at tail
    have flat : List.intercalate ", ".toList (quoted text :: (t :: texts).map quoted) ++ ']' :: rest =
        quoted text ++ ',' :: ' ' :: '"' :: more := by
      rw [List.map_cons, List.intercalate_cons_cons, List.append_assoc, List.append_assoc, head]
      rfl
    rw [flat, items, value_quoted (by decide), if_congr List.forall_mem_cons rfl rfl]
    by_cases legal : Legal text
    · rw [if_pos legal, if_congr (and_iff_right legal) rfl rfl]
      refine Eq.trans (b := (items (m + 1) ('"' :: more)).map fun r =>
        (Toml.str (String.ofList text) :: r.1, r.2)) rfl ?_
      rw [tail]
      split <;> rfl
    · rw [if_neg legal, if_neg fun both => legal both.1]
      rfl

/-! ## Line ends in strings -/

theorem newlines_escape : newlines (escapeTomlStr text ++ '"' :: rest) =
    escapeTomlStr (newlines text) ++ '"' :: newlines rest := by
  induction text using newlines.induct with
  | case1 => exact newlines_cons_of_ne (by decide)
  | case2 text ih =>
    rw [escapeTomlStr_cons, if_neg (by decide), if_neg (by decide), escapeTomlStr_cons,
      if_neg (by decide), if_neg (by decide)]
    refine Eq.trans (congrArg ('\n' :: ·) ih) ?_
    rw [show newlines ('\r' :: '\n' :: text) = '\n' :: newlines text from rfl, escapeTomlStr_cons,
      if_neg (by decide), if_neg (by decide)]
    rfl
  | case3 c text other ih =>
    by_cases cr : c = '\r'
    · subst cr
      have next : text.head? ≠ some '\n' := by
        intro same
        cases text with
        | nil => cases same
        | cons d text => exact other text rfl (congrArg (· :: text) (Option.some.inj same))
      have next' : (escapeTomlStr text ++ '"' :: rest).head? ≠ some '\n' := by
        cases text with
        | nil => exact fun same => absurd (Option.some.inj same) (by decide)
        | cons d text =>
          rw [escapeTomlStr_cons]
          split
          · exact fun same => absurd (Option.some.inj same) (by decide)
          · split
            · exact fun same => absurd (Option.some.inj same) (by decide)
            · exact next
      rw [escapeTomlStr_cons, if_neg (by decide), if_neg (by decide), newlines_cr next,
        escapeTomlStr_cons, if_neg (by decide), if_neg (by decide)]
      refine (newlines_cr next').trans ?_
      rw [ih]
      rfl
    · rw [newlines_cons_of_ne cr, escapeTomlStr_cons, escapeTomlStr_cons, List.append_assoc,
        List.append_assoc, ← ih]
      refine newlines_append fun d mem => ?_
      split at mem
      · simp only [List.mem_cons, List.not_mem_nil, or_false, or_self] at mem
        rw [mem]
        decide
      · split at mem
        · simp only [List.mem_cons, List.not_mem_nil, or_false] at mem
          rcases mem with rfl | rfl <;> decide
        · rw [List.mem_singleton.mp mem]
          exact cr

theorem newlines_quoted : newlines (quoted text ++ rest) = quoted (newlines text) ++ newlines rest := by
  rw [quoted, List.cons_append, List.append_assoc, newlines_cons_of_ne (by decide),
    List.singleton_append, newlines_escape, quoted, List.cons_append, List.append_assoc]
  rfl

/-- A legal text has no line ends. -/
theorem newlines_of_legal (legal : Legal text) : newlines text = text := by
  have clean : ∀ c ∈ text, c ≠ '\r' := by
    rintro c mem rfl
    exact absurd (legal '\r' mem) (by decide)
  exact newlines_eq_self clean

theorem legal_newlines : Legal (newlines text) ↔ Legal text := by
  induction text using newlines.induct with
  | case1 => rfl
  | case2 text ih =>
    refine iff_of_false (fun legal => ?_) fun legal => ?_
    · exact absurd (legal '\n' List.mem_cons_self) (by decide)
    · exact absurd (legal '\r' List.mem_cons_self) (by decide)
  | case3 c text other ih =>
    have kept : newlines (c :: text) = c :: newlines text := by
      rw [newlines]
      exact fun text' same same' => other text' same same'
    rw [kept, legal_cons, legal_cons, ih]

/-! ## What is written of a value -/

/-- A value in the shape it is written in. -/
inductive Written where
  | bool (value : Bool)
  | int (value : Int)
  | str (text : List Char)
  | arr (texts : List (List Char))

namespace Written

def ofToml (rt : TomlRuntime) : Toml → Written
  | .bool value => .bool value
  | .int value => .int value
  | .arr items => .arr (items.map fun v => (Tuwunel.str rt v).toList)
  | .str value => .str value.toList
  | .float text => .str (Tuwunel.str rt (.float text)).toList
  | .time text => .str (Tuwunel.str rt (.time text)).toList
  | .table entries => .str (Tuwunel.str rt (.table entries)).toList

def write : Written → List Char
  | .bool value => (if value then "true" else "false").toList
  | .int value => (toString value).toList
  | .str text => quoted text
  | .arr texts => '[' :: (List.intercalate ", ".toList (texts.map quoted) ++ [']'])

/-- What is read of it. -/
def value : Written → Toml
  | .bool value => .bool value
  | .int value => .int value
  | .str text => .str (String.ofList text)
  | .arr texts => .arr (texts.map fun t => .str (String.ofList t))

def texts : Written → List (List Char)
  | .bool _ | .int _ => []
  | .str text => [text]
  | .arr texts => texts

/-- With the line ends that are read. -/
def normal : Written → Written
  | .bool value => .bool value
  | .int value => .int value
  | .str text => .str (newlines text)
  | .arr texts => .arr (texts.map newlines)

def AllLegal (w : Written) : Prop := ∀ t ∈ w.texts, Legal t

instance (w : Written) : Decidable w.AllLegal := List.decidableBAll _ _

end Written

open Written

theorem emitValue_eq (v : Toml) : emitValue rt v = (ofToml rt v).write := by
  cases v with
  | arr items =>
    rw [emitValue, ofToml, write, List.map_map]
    rfl
  | bool | int | float | time | str | table => rfl

variable {w : Written}

theorem allLegal_normal : w.normal.AllLegal ↔ w.AllLegal := by
  cases w with
  | bool | int => rfl
  | str text => exact List.forall_mem_singleton.trans (legal_newlines.trans List.forall_mem_singleton.symm)
  | arr texts =>
    show (∀ t ∈ texts.map newlines, Legal t) ↔ ∀ t ∈ texts, Legal t
    rw [List.forall_mem_map]
    exact forall₂_congr fun t _ => legal_newlines

theorem normal_of_allLegal (legal : w.AllLegal) : w.normal = w := by
  cases w with
  | bool | int => rfl
  | str text => exact congrArg Written.str (newlines_of_legal (legal text List.mem_cons_self))
  | arr texts =>
    refine congrArg Written.arr ((List.map_congr_left fun t mem => ?_).trans (List.map_id texts))
    exact newlines_of_legal (legal t mem)

theorem newlines_texts {texts : List (List Char)} :
    newlines (List.intercalate ", ".toList (texts.map quoted) ++ rest) =
      List.intercalate ", ".toList ((texts.map newlines).map quoted) ++ newlines rest := by
  induction texts with
  | nil => rfl
  | cons t texts ih =>
    cases texts with
    | nil =>
      rw [List.map_singleton, List.map_singleton, List.map_singleton, List.intercalate_singleton,
        List.intercalate_singleton, newlines_quoted]
    | cons t' texts =>
      simp only [List.map_cons, List.intercalate_cons_cons, List.append_assoc] at ih ⊢
      rw [newlines_quoted, newlines_append (forall_of_all (by decide)), ih]

theorem newlines_write : newlines (w.write ++ '\n' :: rest) = w.normal.write ++ '\n' :: newlines rest := by
  have line : newlines ('\n' :: rest) = '\n' :: newlines rest := newlines_cons_of_ne (by decide)
  cases w with
  | bool value =>
    refine (newlines_append (forall_of_all ?_)).trans (congrArg _ line)
    cases value <;> decide
  | int value =>
    refine (newlines_append fun c mem => ?_).trans (congrArg _ line)
    exact ne_of_isBare (isBare_of_mem_int mem) (by decide)
  | str text => exact newlines_quoted.trans (congrArg _ line)
  | arr texts =>
    show newlines ('[' :: (List.intercalate ", ".toList (texts.map quoted) ++ [']']) ++ '\n' :: rest) = _
    rw [List.cons_append, newlines_cons_of_ne (by decide), List.append_assoc, newlines_texts,
      List.singleton_append, newlines_cons_of_ne (by decide), line]
    show _ = '[' :: (List.intercalate ", ".toList ((texts.map newlines).map quoted) ++ [']']) ++ _
    rw [List.cons_append, List.append_assoc]
    rfl

theorem value_write (fuel : w.texts.length + 2 < n) : Toml.value n (w.write ++ '\n' :: rest) =
    if w.AllLegal then some (w.value, '\n' :: rest) else none := by
  obtain ⟨m, rfl⟩ : ∃ m, n = m + 1 := ⟨n - 1, by omega⟩
  cases w with
  | bool value =>
    have legal : (Written.bool value).AllLegal := fun t mem => absurd mem List.not_mem_nil
    rw [if_pos legal]
    exact value_bool
  | int value =>
    have legal : (Written.int value).AllLegal := fun t mem => absurd mem List.not_mem_nil
    rw [if_pos legal]
    exact value_int
  | str text =>
    refine (value_quoted (by decide)).trans ?_
    exact if_congr List.forall_mem_singleton.symm rfl rfl
  | arr texts =>
    cases texts with
    | nil => rfl
    | cons t texts =>
      obtain ⟨more, head⟩ := intercalate_quoted_head t (']' :: '\n' :: rest) texts
      have fuel' : texts.length + 1 < m := by
        have length : (Written.arr (t :: texts)).texts.length = texts.length + 1 := rfl
        omega
      have read : items m (List.intercalate ", ".toList (quoted t :: texts.map quoted) ++
          ']' :: '\n' :: rest) = _ := items_quoted fuel'
      rw [head] at read
      have flat : (Written.arr (t :: texts)).write ++ '\n' :: rest = '[' :: '"' :: more := by
        rw [← head, write, List.map_cons, List.cons_append, List.append_assoc]
        rfl
      rw [flat]
      refine Eq.trans (b := (items m ('"' :: more)).map fun r => (Toml.arr r.1, r.2)) rfl ?_
      rw [read]
      show _ = if ∀ t' ∈ t :: texts, Legal t' then _ else _
      split <;> rfl

/-- What is written of a value starts with no white space. -/
theorem write_head (w : Written) : ∃ c cs, w.write = c :: cs ∧ isWs c = false := by
  cases w with
  | bool value => cases value <;> exact ⟨_, _, rfl, by decide⟩
  | int value =>
    cases split : (toString value).toList with
    | nil => exact absurd split (toString_ne_nil value)
    | cons c cs => exact ⟨c, cs, split, isWs_of_isBare (isBare_of_mem_int (split ▸ List.mem_cons_self))⟩
  | str text => exact ⟨_, _, rfl, by decide⟩
  | arr texts => exact ⟨_, _, rfl, by decide⟩

theorem texts_length_le (w : Written) : w.texts.length ≤ w.write.length := by
  have quotes (t : List Char) : 1 ≤ (quoted t).length := Nat.le_add_left 1 _
  cases w with
  | bool | int => exact Nat.zero_le _
  | str text => exact quotes text
  | arr texts =>
    have each (texts : List (List Char)) :
        texts.length ≤ (List.intercalate ", ".toList (texts.map quoted)).length := by
      induction texts with
      | nil => exact Nat.zero_le _
      | cons t texts ih =>
        have first := quotes t
        cases texts with
        | nil =>
          rw [List.map_singleton, List.intercalate_singleton]
          exact first
        | cons t' texts =>
          simp only [List.map_cons, List.intercalate_cons_cons, List.length_append,
            List.length_cons] at ih ⊢
          omega
    have whole := each texts
    show texts.length ≤ ('[' :: (List.intercalate ", ".toList (texts.map quoted) ++ [']'])).length
    simp only [List.length_cons, List.length_append]
    omega

/-! ## The lines of the table -/

/-- A key and what is written of its value. -/
abbrev Line := String × Written

def Line.write (l : Line) : List Char := l.1.toList ++ ' ' :: '=' :: ' ' :: (l.2.write ++ ['\n'])

/-- The document under the header `[global]`. -/
def under (frozen : List Key) (t : Table) : Doc where
  data := [("global", .table t)]
  flags := { explicit := [["global"]], frozen }
  header := ["global"]

theorem under_unfrozen {t : Table} {frozen : List Key} (inner : ∀ p ∈ frozen, p.length = 2) :
    (under frozen t).flags.isFrozen (under frozen t).header = false := by
  refine List.any_eq_false.mpr fun p mem isPrefix => ?_
  have shorter : p.length ≤ 1 := (List.isPrefixOf_iff_prefix.mp isPrefix).length_le
  have two := inner p mem
  omega

theorem setNew_under {t : Table} {frozen : List Key} {k : String} {item : Toml}
    (new : t.get k = none) : modifyNest true (setNew k item) (under frozen t).header
      (under frozen t).data = some [("global", .table (t ++ [(k, item)]))] := by
  have set : setNew k item t = some (t ++ [(k, item)]) := by
    rw [setNew, if_pos new, Dict.set_of_get_eq_none new]
  show (setNew k item t).map _ = _
  rw [set]
  rfl

theorem document_lines {lines : List Line} {t : Table} {frozen : List Key}
    (bare : ∀ l ∈ lines, IsBareKey l.1) (distinct : (t.keys ++ lines.map Prod.fst).Nodup)
    (inner : ∀ p ∈ frozen, p.length = 2) (fuel : lines.length < n) :
    document n (under frozen t) (lines.flatMap Line.write) =
      if ∀ l ∈ lines, l.2.AllLegal then
        some [("global", .table (t ++ lines.map fun l => (l.1, l.2.value)))] else none := by
  induction lines generalizing n t frozen with
  | nil =>
    obtain ⟨m, rfl⟩ : ∃ m, n = m + 1 := ⟨n - 1, by omega⟩
    rw [if_pos fun l mem => absurd mem List.not_mem_nil, List.map_nil, List.append_nil]
    rfl
  | cons l lines ih =>
    obtain ⟨k, w⟩ := l
    obtain ⟨m, rfl⟩ : ∃ m, n = m + 1 := ⟨n - 1, by omega⟩
    have key : IsBareKey k := bare (k, w) List.mem_cons_self
    obtain ⟨c, cs, head, stop⟩ := write_head w
    have flat : ((k, w) :: lines).flatMap Line.write =
        k.toList ++ ' ' :: '=' :: ' ' :: c :: (cs ++ '\n' :: lines.flatMap Line.write) := by
      rw [List.flatMap_cons, Line.write, head]
      simp only [List.append_assoc, List.cons_append, List.nil_append]
    have read : Toml.value (2 * (c :: (cs ++ '\n' :: lines.flatMap Line.write)).length + 4)
        (c :: (cs ++ '\n' :: lines.flatMap Line.write)) =
          if w.AllLegal then some (w.value, '\n' :: lines.flatMap Line.write) else none := by
      have enough := texts_length_le w
      rw [← List.cons_append, ← head]
      refine value_write ?_
      rw [List.length_append]
      omega
    rw [flat, if_congr List.forall_mem_cons rfl rfl]
    by_cases legal : w.AllLegal
    · rw [if_pos legal] at read
      have new : t.get k = none := by
        rw [Dict.get_eq_none_iff]
        intro mem
        exact (List.nodup_append.mp distinct).2.2 k mem k List.mem_cons_self rfl
      rw [document_line key stop read (under_unfrozen inner) (setNew_under new),
        if_congr (and_iff_right legal) rfl rfl]
      have distinct' : ((t ++ [(k, w.value)]).keys ++ lines.map Prod.fst).Nodup := by
        rw [Dict.keys, List.map_append, List.append_assoc]
        exact distinct
      have inner' : ∀ p ∈ freeze ["global", k] w.value frozen, p.length = 2 := by
        cases w with
        | bool | int | str => exact inner
        | arr texts => exact List.forall_mem_cons.mpr ⟨rfl, inner⟩
      have fuel' : lines.length < m := by
        rw [List.length_cons] at fuel
        omega
      refine Eq.trans (ih (fun l mem => bare l (List.mem_cons_of_mem _ mem)) distinct' inner' fuel') ?_
      rw [List.append_assoc]
      rfl
    · rw [if_neg legal] at read
      rw [document_line_none key stop read, if_neg fun both => legal both.1]

/-! ## The whole file -/

def headerText : List Char := (headerLines.map String.toList).flatMap (· ++ ['\n'])

/-- The lines that are written of a table. -/
def linesOf (rt : TomlRuntime) (g : Table) : List Line :=
  (keyOrder g).filterMap fun key => (g.get key).map fun v => (key, ofToml rt v)

theorem intercalate_newline {lines : List (List Char)} (some' : lines ≠ []) :
    List.intercalate ['\n'] lines ++ ['\n'] = lines.flatMap (· ++ ['\n']) := by
  induction lines with
  | nil => exact absurd rfl some'
  | cons l lines ih =>
    cases lines with
    | nil => rw [List.intercalate_singleton, List.flatMap_singleton]
    | cons l' lines =>
      rw [List.intercalate_cons_cons, List.append_assoc, ih (List.cons_ne_nil _ _)]
      rfl

theorem emitToml_eq (g : Table) :
    emitToml rt g = headerText ++ (linesOf rt g).flatMap Line.write := by
  have joined : emitToml rt g = (headerLines.map String.toList ++
      (keyOrder g).filterMap fun key => (g.get key).map (emitKv rt key)).flatMap (· ++ ['\n']) :=
    intercalate_newline (List.append_ne_nil_of_left_ne_nil (by decide) _)
  have lines : (keyOrder g).filterMap (fun key => (g.get key).map (emitKv rt key)) =
      (linesOf rt g).map fun l => l.1.toList ++ " = ".toList ++ l.2.write := by
    rw [linesOf, List.map_filterMap]
    refine List.filterMap_congr fun key _ => ?_
    rw [Option.map_map]
    refine congrArg (Option.map · (g.get key)) (funext fun v => ?_)
    rw [emitKv, emitValue_eq]
    rfl
  rw [joined, List.flatMap_append, lines]
  refine congrArg (headerText ++ ·) ?_
  rw [List.flatMap_map]
  refine congrArg (List.flatMap · (linesOf rt g)) (funext fun l => ?_)
  rw [Line.write, List.append_assoc, List.append_assoc]
  rfl

/-- The header is three comments, an empty line and the name of the table. -/
theorem headerText_eq : headerText =
    '#' :: (" Tuwunel runtime configuration — federation settings".toList ++ '\n' ::
      '#' :: (" Managed by the Concord admin UI. Hand edits to [global] keys".toList ++ '\n' ::
        '#' :: (" will be overwritten on the next federation allowlist update.".toList ++ '\n' ::
          '\n' :: '[' :: ("global".toList ++ ']' :: '\n' :: [])))) := by
  simp only [headerText, headerLines, List.map_cons, List.map_nil, List.flatMap_cons,
    List.flatMap_nil]
  repeat rw [String.toList_ofList]
  rfl

theorem clean_headerText : ∀ c ∈ headerText, c ≠ '\r' := by
  rw [headerText_eq]
  repeat rw [String.toList_ofList]
  exact forall_of_all (by decide)

theorem document_headerText :
    document (n + 5) {} (headerText ++ rest) = document n (under [] []) rest := by
  rw [headerText_eq]
  simp only [List.cons_append, List.append_assoc, List.nil_append]
  rw [document_comment, document_comment, document_comment, document_newline,
    document_header (by decide)]
  · rfl
  all_goals
    rw [String.toList_ofList]
    exact forall_of_all (by decide)

theorem newlines_lines {lines : List Line} (bare : ∀ l ∈ lines, IsBareKey l.1) :
    newlines (lines.flatMap Line.write) =
      (lines.map fun l => (l.1, l.2.normal)).flatMap Line.write := by
  induction lines with
  | nil => rfl
  | cons l lines ih =>
    obtain ⟨k, w⟩ := l
    have key : IsBareKey k := bare (k, w) List.mem_cons_self
    have flat (w : Written) (rest : List Char) : Line.write (k, w) ++ rest =
        (k.toList ++ [' ', '=', ' ']) ++ (w.write ++ '\n' :: rest) := by
      simp only [Line.write, List.append_assoc, List.cons_append, List.nil_append]
    have clean : ∀ c ∈ k.toList ++ [' ', '=', ' '], c ≠ '\r' := by
      intro c mem
      rcases List.mem_append.mp mem with mem | mem
      · exact ne_of_isBare (key.2 c mem) (by decide)
      · rintro rfl
        exact absurd mem (by decide)
    rw [List.flatMap_cons, List.map_cons, List.flatMap_cons, flat, flat, newlines_append clean,
      newlines_write, ih fun l mem => bare l (List.mem_cons_of_mem _ mem)]

/-- What is read of a file that was written, where all keys are bare. -/
theorem loads_emitToml {g : Table} (bare : ∀ l ∈ linesOf rt g, IsBareKey l.1)
    (distinct : ((linesOf rt g).map Prod.fst).Nodup) :
    loads (String.ofList (emitToml rt g)) =
      if ∀ l ∈ linesOf rt g, l.2.AllLegal then
        some [("global", .table ((linesOf rt g).map fun l => (l.1, l.2.value)))] else none := by
  let read := (linesOf rt g).map fun l => (l.1, l.2.normal)
  have src : newlines (String.ofList (emitToml rt g)).toList = headerText ++ read.flatMap Line.write := by
    rw [String.toList_ofList, emitToml_eq, newlines_append clean_headerText, newlines_lines bare]
  have enough : read.length ≤ (read.flatMap Line.write).length := by
    have each (lines : List Line) : lines.length ≤ (lines.flatMap Line.write).length := by
      induction lines with
      | nil => exact le_rfl
      | cons l lines ih =>
        rw [List.flatMap_cons, List.length_append, List.length_cons, Line.write, List.length_append,
          List.length_cons]
        omega
    exact each read
  have long : 5 ≤ headerText.length := by
    rw [headerText_eq]
    simp only [List.length_cons, List.length_append]
    omega
  obtain ⟨m, fuel⟩ : ∃ m, (headerText ++ read.flatMap Line.write).length + 1 = m + 5 :=
    ⟨_, (Nat.sub_add_cancel (by rw [List.length_append]; omega)).symm⟩
  have fuel' : read.length < m := by
    rw [List.length_append] at fuel
    omega
  have bare' : ∀ l ∈ read, IsBareKey l.1 := List.forall_mem_map.mpr bare
  have keys : read.map Prod.fst = (linesOf rt g).map Prod.fst := by
    rw [List.map_map]
    rfl
  have legal : (∀ l ∈ read, l.2.AllLegal) ↔ ∀ l ∈ linesOf rt g, l.2.AllLegal :=
    List.forall_mem_map.trans (forall₂_congr fun l _ => allLegal_normal)
  rw [loads, src, fuel, document_headerText, document_lines bare' (by rw [keys]; exact distinct)
    (fun p mem => absurd mem List.not_mem_nil) fuel', if_congr legal rfl rfl]
  by_cases all : ∀ l ∈ linesOf rt g, l.2.AllLegal
  · rw [if_pos all, if_pos all, List.nil_append, List.map_map]
    have same : (linesOf rt g).map ((fun l => (l.1, l.2.value)) ∘ fun l => (l.1, l.2.normal)) =
        (linesOf rt g).map fun l => (l.1, l.2.value) :=
      List.map_congr_left fun l mem => by rw [Function.comp_apply, normal_of_allLegal (all l mem)]
    rw [same]
  · rw [if_neg all, if_neg all]

/-! ## Its keys -/

variable {g : Table} {key : String} {v : Toml}

theorem mem_keyOrder : key ∈ keyOrder g ↔ key ∈ g.keys := by
  rw [keyOrder, List.mem_append, List.mem_filter, List.mem_filter, decide_eq_true_eq,
    decide_eq_true_eq, List.mem_insertionSort, List.mem_dedup]
  constructor
  · rintro (⟨-, mem⟩ | ⟨mem, -⟩) <;> exact mem
  · intro mem
    by_cases managed : key ∈ managedOrder
    · exact .inl ⟨managed, mem⟩
    · exact .inr ⟨mem, managed⟩

theorem nodup_keyOrder : (keyOrder g).Nodup := by
  have managed : managedOrder.Nodup := by decide
  have others : (g.keys.dedup.insertionSort (· ≤ ·)).Nodup :=
    (List.perm_insertionSort _ _).nodup_iff.mpr (List.nodup_dedup _)
  refine List.nodup_append.mpr ⟨managed.filter _, others.filter _, fun a mem b mem' same => ?_⟩
  subst same
  exact of_decide_eq_true (List.mem_filter.mp mem').2 (List.mem_filter.mp mem).1

theorem nodup_linesOf : ((linesOf rt g).map Prod.fst).Nodup := by
  rw [linesOf, List.map_filterMap]
  refine nodup_keyOrder.filterMap fun a a' b mem mem' => ?_
  rw [Option.map_map] at mem mem'
  obtain ⟨_, -, rfl⟩ := Option.map_eq_some_iff.mp mem
  obtain ⟨_, -, same⟩ := Option.map_eq_some_iff.mp mem'
  exact same.symm

theorem mem_linesOf {l : Line} :
    l ∈ linesOf rt g ↔ ∃ v, g.get l.1 = some v ∧ l.2 = ofToml rt v := by
  rw [linesOf, List.mem_filterMap]
  constructor
  · rintro ⟨key, -, mem⟩
    obtain ⟨v, found, rfl⟩ := Option.map_eq_some_iff.mp mem
    exact ⟨v, found, rfl⟩
  · rintro ⟨v, found, same⟩
    have mem : l.1 ∈ g.keys := Dict.get_ne_none_iff.mp (by rw [found]; exact Option.some_ne_none v)
    refine ⟨l.1, mem_keyOrder.mpr mem, ?_⟩
    rw [found, Option.map_some, ← same]

/-- What is found under a key of the file that was written. -/
theorem get_read (key : String) : Dict.get ((linesOf rt g).map fun l => (l.1, l.2.value)) key =
    (g.get key).map fun v => (ofToml rt v).value := by
  have entries : (linesOf rt g).map (fun l => (l.1, l.2.value)) =
      (keyOrder g).filterMap fun key =>
        ((g.get key).map fun v => (ofToml rt v).value).map (key, ·) := by
    rw [linesOf, List.map_filterMap]
    refine List.filterMap_congr fun key _ => ?_
    rw [Option.map_map, Option.map_map]
    rfl
  rw [entries, Dict.get_filterMap]
  split
  · rfl
  · rename_i missing
    rw [mem_keyOrder, ← Dict.get_eq_none_iff] at missing
    rw [missing]
    rfl

/-- A value is read as it was exactly when it is plain. -/
theorem plain_iff : Plain v ↔ (ofToml rt v).value = v ∧ (ofToml rt v).AllLegal := by
  cases v with
  | bool | int => exact iff_of_true trivial ⟨rfl, fun t mem => absurd mem List.not_mem_nil⟩
  | str text =>
    have same : (ofToml rt (.str text)).value = .str text := congrArg Toml.str String.ofList_toList
    have texts : (ofToml rt (.str text)).AllLegal ↔ Legal text.toList := List.forall_mem_singleton
    exact ((and_iff_right same).trans texts).symm
  | float | time | table => exact iff_of_false id fun both => Toml.noConfusion both.1
  | arr items =>
    have read : (ofToml rt (.arr items)).value =
        .arr (items.map fun v => .str (String.ofList (str rt v).toList)) :=
      congrArg Toml.arr (List.map_map ..)
    rw [read, Toml.arr.injEq]
    have texts : (ofToml rt (.arr items)).AllLegal ↔ ∀ item ∈ items, Legal (str rt item).toList :=
      List.forall_mem_map
    have same : items.map (fun v => Toml.str (String.ofList (str rt v).toList)) = items ↔
        ∀ item ∈ items, Toml.str (String.ofList (str rt item).toList) = item := by
      conv_lhs => rhs; rw [← List.map_id items]
      exact List.map_inj_left
    rw [texts, same, ← forall₂_and]
    refine forall₂_congr fun item _ => ?_
    cases item with
    | str text =>
      constructor
      · rintro ⟨text', ⟨⟩, legal⟩
        exact ⟨congrArg Toml.str String.ofList_toList, legal⟩
      · exact fun both => ⟨text, rfl, both.2⟩
    | bool | int | float | time | arr | table =>
      refine iff_of_false ?_ fun both => Toml.noConfusion both.1
      rintro ⟨text', same, -⟩
      exact Toml.noConfusion same

theorem get_overlay (s : FederationSettings String) (foreign : key ∉ managedOrder) :
    (overlay s g).get key = g.get key := by
  simp only [managedOrder, List.mem_cons, List.not_mem_nil, or_false, not_or] at foreign
  rw [overlay, Dict.get_set_of_ne foreign.2.2, Dict.get_set_of_ne foreign.2.1,
    Dict.get_set_of_ne foreign.1]

variable {s : FederationSettings String} {file : String} {data : Table}

theorem get_allow : (overlay s g).get "allow_federation" = some (.bool s.allowFederation) := by
  rw [overlay, Dict.get_set_of_ne (by decide), Dict.get_set_of_ne (by decide), Dict.get_set_self]

theorem get_forbidden : (overlay s g).get "forbidden_remote_server_names" =
    some (.arr (s.forbiddenRemoteServerNames.map .str)) := by
  rw [overlay, Dict.get_set_of_ne (by decide), Dict.get_set_self]

theorem get_allowed : (overlay s g).get "allowed_remote_server_names" =
    some (.arr (s.allowedRemoteServerNames.map .str)) := by
  rw [overlay, Dict.get_set_self]

/-- Everything that is written is legal exactly when the names are and so is what was kept. -/
theorem allLegal_overlay : (∀ l ∈ linesOf rt (overlay s g), l.2.AllLegal) ↔
    (∀ key v, key ∉ managedOrder → g.get key = some v → (ofToml rt v).AllLegal) ∧
      ∀ name ∈ s.forbiddenRemoteServerNames ++ s.allowedRemoteServerNames, Legal name.toList := by
  have names (names : List String) :
      (ofToml rt (.arr (names.map .str))).AllLegal ↔ ∀ name ∈ names, Legal name.toList := by
    refine List.forall_mem_map.trans ?_
    exact List.forall_mem_map
  constructor
  · intro legal
    have here (key : String) (v : Toml) (found : (overlay s g).get key = some v) :
        (ofToml rt v).AllLegal := legal (key, ofToml rt v) (mem_linesOf.mpr ⟨v, found, rfl⟩)
    refine ⟨fun key v foreign found => here key v ((get_overlay s foreign).trans found), ?_⟩
    exact List.forall_mem_append.mpr
      ⟨(names _).mp (here _ _ get_forbidden), (names _).mp (here _ _ get_allowed)⟩
  · rintro ⟨kept, legal⟩ ⟨key, w⟩ mem
    obtain ⟨v, found, rfl⟩ := mem_linesOf.mp mem
    obtain ⟨forbidden, allowed⟩ := List.forall_mem_append.mp legal
    by_cases foreign : key ∉ managedOrder
    · exact kept key v foreign ((get_overlay s foreign).symm.trans found)
    · rw [not_not, managedOrder, List.mem_cons, List.mem_cons, List.mem_singleton] at foreign
      rcases foreign with rfl | rfl | rfl
      · cases get_allow.symm.trans found
        exact fun t mem => absurd mem List.not_mem_nil
      · cases get_forbidden.symm.trans found
        exact (names _).mpr forbidden
      · cases get_allowed.symm.trans found
        exact (names _).mpr allowed

theorem value_names (names : List String) :
    (ofToml rt (.arr (names.map .str))).value = .arr (names.map .str) := by
  refine congrArg Toml.arr ?_
  rw [List.map_map, List.map_map]
  exact List.map_congr_left fun name _ => congrArg Toml.str String.ofList_toList

/-- What is read of a written file, where it parses as it should, are the settings. -/
theorem readFederation_written {written : String} (parses : loads written =
    some [("global", .table ((linesOf rt (overlay s g)).map fun l => (l.1, l.2.value)))]) :
    readFederation rt (some written) = some (s.map .str) := by
  have table : globalTable
      [("global", .table ((linesOf rt (overlay s g)).map fun l => (l.1, l.2.value)))] =
      some ((linesOf rt (overlay s g)).map fun l => (l.1, l.2.value)) := rfl
  simp only [readFederation, parses, Option.bind_eq_bind, Option.bind_some, table, get_read,
    get_allow, get_forbidden, get_allowed, Option.map_some, Option.getD_some, value_names, list]
  rfl

theorem bare_linesOf (bare : ∀ key ∈ g.keys, IsBareKey key) :
    ∀ l ∈ linesOf rt (overlay s g), IsBareKey l.1 := by
  rintro ⟨key, w⟩ mem
  obtain ⟨v, found, -⟩ := mem_linesOf.mp mem
  by_cases foreign : key ∈ managedOrder
  · have managed : ∀ key ∈ managedOrder, IsBareKey key := by decide
    exact managed key foreign
  · rw [get_overlay s foreign] at found
    exact bare key (Dict.get_ne_none_iff.mp (by rw [found]; exact Option.some_ne_none v))

/-- The escape is read as the line end it stands for. -/
theorem loads_motd : loads "[global]\nmotd = \"a\\nb\"\n" =
    some [("global", .table [("motd", .str "a\nb")])] := by
  let line : List Char := '"' :: "a\\nb\"\n".toList
  have chars : "[global]\nmotd = \"a\\nb\"\n".toList =
      '[' :: ("global".toList ++ ']' :: '\n' :: ("motd".toList ++ ' ' :: '=' :: ' ' :: line)) := by
    simp only [line]
    repeat rw [String.toList_ofList]
    rfl
  have src : newlines "[global]\nmotd = \"a\\nb\"\n".toList =
      '[' :: ("global".toList ++ ']' :: '\n' :: ("motd".toList ++ ' ' :: '=' :: ' ' :: line)) := by
    rw [newlines_eq_self, chars]
    rw [String.toList_ofList]
    exact forall_of_all (by decide)
  have fuel : ('[' :: ("global".toList ++ ']' :: '\n' ::
      ("motd".toList ++ ' ' :: '=' :: ' ' :: line))).length + 1 = 24 := by
    rw [← chars, String.toList_ofList]
    rfl
  have reads : value (2 * line.length + 4) line = some (.str "a\nb", ['\n']) := by
    simp only [line]
    rw [String.toList_ofList]
    rfl
  rw [loads, src, fuel, document_header (by decide),
    document_line (by decide) (by decide) reads rfl rfl]
  rfl

end Tuwunel

end Concorrd.Api
