import Mathlib.Data.List.Forall2
import Mathlib.Data.List.Basic

/-!
# Patterns of plain characters

Patterns that are characters one after the other, some behind a backslash, between anchors or not. What
an engine does with them is a parameter; `Documented` is what the documentation of regular expressions
says of such patterns. `matches_exactly_iff` says which anchored ones match the text of their characters
and nothing else.
-/

namespace PlainPattern

/-- A character of a pattern, and whether a backslash is before it. -/
abbrev Token := Bool × Char

/-- The tokens as a pattern. -/
def spell (tokens : List Token) : List Char :=
  tokens.flatMap fun t => if t.1 then ['\\', t.2] else [t.2]

/-- The characters of the tokens. -/
def text (tokens : List Token) : List Char := tokens.map Prod.snd

/-- A pattern between anchors. -/
def anchored (inner : List Char) : List Char := '^' :: inner ++ ['$']

/-- Without the backslash before a character, except at the end of a line. -/
def unescape : List Char → List Char
  | [] => []
  | [c] => [c]
  | c :: d :: rest =>
    if c = '\\' ∧ d ≠ '\n' then d :: unescape rest else c :: unescape (d :: rest)

/-- A backslash before each special character. -/
def escape (special : Char → Bool) (chars : List Char) : List Char :=
  spell (chars.map fun c => (special c, c))

def isLetterOrDigit (c : Char) : Bool :=
  ('a' ≤ c && c ≤ 'z') || ('A' ≤ c && c ≤ 'Z') || ('0' ≤ c && c ≤ '9')

/-- The characters of host names. -/
def isPlain (c : Char) : Bool := isLetterOrDigit c || c = '-' || c = '.'

/-- What stands for other than itself, the dot apart. -/
def metacharacters : List Char := ['\\', '+', '*', '?', '(', ')', '|', '[', ']', '{', '}', '^', '$']

/-- A dot without a backslash takes any character of a line, and other tokens their own. -/
def Takes (t : Token) (c : Char) : Prop := if t = (false, '.') then c ≠ '\n' else c = t.2

instance (t : Token) (c : Char) : Decidable (Takes t c) := inferInstanceAs (Decidable (ite _ _ _))

/-- The token stands for its character and nothing else. -/
def Literal (t : Token) : Prop := t ≠ (false, '.') ∧ (t.1 = true → isLetterOrDigit t.2 = false)

instance (t : Token) : Decidable (Literal t) := inferInstanceAs (Decidable (_ ∧ _))

/-- What is documented of an engine that looks for a match of a pattern in a text: plain characters
between anchors are matched with the whole text, and characters without a special meaning anywhere in
it. A letter or digit behind a backslash is reserved: it stands for a class, a position, another
character or nothing, so that where a match takes it at its place, it takes another there as well. -/
structure Documented (finds : List Char → List Char → Prop) : Prop where
  whole : ∀ tokens : List Token,
    (∀ t ∈ tokens, isPlain t.2 = true ∧ (t.1 = true → isLetterOrDigit t.2 = false)) →
      ∀ s, finds (anchored (spell tokens)) s ↔ List.Forall₂ Takes tokens s
  anywhere : ∀ p : List Char, (∀ c ∈ p, c ∉ metacharacters) → ∀ s, finds p s ↔
    ∃ before fit after, s = before ++ fit ++ after ∧ List.Forall₂ Takes (p.map fun c => (false, c)) fit
  reserved : ∀ (u : List Token) (c : Char) (v : List Token),
    (∀ t ∈ u ++ (true, c) :: v, isPlain t.2 = true) → isLetterOrDigit c = true →
      finds (anchored (spell (u ++ (true, c) :: v))) (text u ++ c :: text v) →
        ∃ d, d ≠ c ∧ finds (anchored (spell (u ++ (true, c) :: v))) (text u ++ d :: text v)

variable {finds : List Char → List Char → Prop} {tokens : List Token} {inner s : List Char}

/-! ## Backslashes -/

theorem spell_cons (t : Token) (tokens : List Token) :
    spell (t :: tokens) = (if t.1 then ['\\', t.2] else [t.2]) ++ spell tokens := List.flatMap_cons

theorem text_map (special : Char → Bool) (chars : List Char) :
    text (chars.map fun c => (special c, c)) = chars := by
  rw [text, List.map_map]
  exact List.map_id' chars

theorem anchored_injective {inner inner' : List Char} (same : anchored inner = anchored inner') :
    inner = inner' := by
  simp only [anchored, List.cons_append, List.cons.injEq, true_and] at same
  exact List.append_cancel_right same

theorem mem_unescape {c : Char} : c ∈ unescape inner → c ∈ inner := by
  induction inner using unescape.induct with
  | case1 => exact id
  | case2 d => exact id
  | case3 d e rest slash ih =>
    rw [unescape, if_pos slash]
    intro mem
    rcases List.mem_cons.mp mem with rfl | mem
    · simp
    · simp [ih mem]
  | case4 d e rest other ih =>
    rw [unescape, if_neg other]
    intro mem
    rcases List.mem_cons.mp mem with rfl | mem
    · simp
    · exact List.mem_cons_of_mem d (ih mem)

theorem unescape_cons_of_ne {c : Char} (other : c ≠ '\\') (rest : List Char) :
    unescape (c :: rest) = c :: unescape rest := by
  cases rest with
  | nil => rfl
  | cons d rest => rw [unescape, if_neg fun h => other h.1]

theorem unescape_spell (plain : ∀ t ∈ tokens, t.2 ≠ '\\' ∧ t.2 ≠ '\n') :
    unescape (spell tokens) = text tokens := by
  induction tokens with
  | nil => rfl
  | cons t tokens ih =>
    obtain ⟨⟨noSlash, sameLine⟩, rest⟩ := List.forall_mem_cons.mp plain
    rw [spell_cons]
    split
    · rw [List.cons_append, List.cons_append, unescape, if_pos ⟨rfl, sameLine⟩, List.nil_append, ih rest]
      rfl
    · rw [List.cons_append, List.nil_append, unescape_cons_of_ne noSlash, ih rest]
      rfl

/-- A pattern of one line that has no backslash left is spelt by tokens. -/
theorem exists_spell (oneLine : '\n' ∉ inner) (noSlash : '\\' ∉ unescape inner) :
    ∃ tokens, inner = spell tokens ∧ text tokens = unescape inner := by
  induction inner using unescape.induct with
  | case1 => exact ⟨[], rfl, rfl⟩
  | case2 c => exact ⟨[(false, c)], rfl, rfl⟩
  | case3 c d rest slash ih =>
    rw [unescape, if_pos slash] at noSlash ⊢
    obtain ⟨tokens, rfl, same⟩ := ih (fun mem => oneLine (by simp [mem]))
      (fun mem => noSlash (List.mem_cons_of_mem d mem))
    refine ⟨(true, d) :: tokens, ?_, congrArg (d :: ·) same⟩
    rw [slash.1]
    rfl
  | case4 c d rest other ih =>
    rw [unescape, if_neg other] at noSlash ⊢
    obtain ⟨tokens, same, same'⟩ := ih (fun mem => oneLine (List.mem_cons_of_mem c mem))
      (fun mem => noSlash (List.mem_cons_of_mem c mem))
    exact ⟨(false, c) :: tokens, congrArg (c :: ·) same, congrArg (c :: ·) same'⟩

/-- The tokens of a pattern. -/
def tokensOf : List Char → List Token
  | [] => []
  | [c] => [(false, c)]
  | c :: d :: rest => if c = '\\' then (true, d) :: tokensOf rest else (false, c) :: tokensOf (d :: rest)

theorem tokensOf_cons_of_ne {c : Char} (other : c ≠ '\\') (rest : List Char) :
    tokensOf (c :: rest) = (false, c) :: tokensOf rest := by
  cases rest with
  | nil => rfl
  | cons d rest => rw [tokensOf, if_neg other]

theorem tokensOf_spell (plain : ∀ t ∈ tokens, t.2 ≠ '\\') : tokensOf (spell tokens) = tokens := by
  induction tokens with
  | nil => rfl
  | cons t tokens ih =>
    obtain ⟨noSlash, rest⟩ := List.forall_mem_cons.mp plain
    obtain ⟨escaped, c⟩ := t
    rw [spell_cons]
    cases escaped with
    | false =>
      rw [if_neg Bool.false_ne_true, List.cons_append, List.nil_append, tokensOf_cons_of_ne noSlash,
        ih rest]
    | true =>
      rw [if_pos rfl, List.cons_append, List.cons_append, List.nil_append, tokensOf, if_pos rfl, ih rest]

/-! ## What is matched -/

theorem takes_self (t : Token) : Takes t t.2 := by
  unfold Takes
  split
  · rename_i dot
    rw [dot]
    decide
  · rfl

theorem forall₂_text (tokens : List Token) : List.Forall₂ Takes tokens (text tokens) := by
  induction tokens with
  | nil => exact .nil
  | cons t tokens ih => exact .cons (takes_self t) ih

theorem forall₂_iff_of_literal (literal : ∀ t ∈ tokens, Literal t) :
    List.Forall₂ Takes tokens s ↔ s = text tokens := by
  constructor
  · intro fits
    induction fits with
    | nil => rfl
    | cons takes _ ih =>
      obtain ⟨first, rest⟩ := List.forall_mem_cons.mp literal
      rw [Takes, if_neg first.1] at takes
      rw [takes, ih rest]
      rfl
  · rintro rfl
    exact forall₂_text tokens

/-- A bare dot takes another character. -/
theorem forall₂_bare_dot (u v : List Token) {c : Char} (sameLine : c ≠ '\n') :
    List.Forall₂ Takes (u ++ (false, '.') :: v) (text u ++ c :: text v) :=
  List.rel_append (forall₂_text u) (.cons sameLine (forall₂_text v))

/-- Characters stand for themselves where backslashes are before all dots and no letters and digits. -/
theorem literal_map {special : Char → Bool} (dot : special '.' = true)
    (letters : ∀ c, special c = true → isLetterOrDigit c = false) (chars : List Char) :
    ∀ t ∈ chars.map fun c => (special c, c), Literal t := by
  intro t mem
  obtain ⟨c, -, rfl⟩ := List.mem_map.mp mem
  refine ⟨?_, letters c⟩
  intro bare
  obtain ⟨plain, rfl⟩ := Prod.mk.inj bare
  rw [dot] at plain
  cases plain

/-- **Exact patterns.** Plain characters between anchors match their text and nothing else exactly when
each dot is behind a backslash and no letter or digit is. -/
theorem matches_exactly_iff (documented : Documented finds)
    (plain : ∀ t ∈ tokens, isPlain t.2 = true) :
    (∀ s, finds (anchored (spell tokens)) s ↔ s = text tokens) ↔ ∀ t ∈ tokens, Literal t := by
  constructor
  · intro exactly t mem
    have unreserved : ∀ t ∈ tokens, t.1 = true → isLetterOrDigit t.2 = false := by
      intro t mem escaped
      by_contra reserved
      obtain ⟨u, v, rfl⟩ := List.append_of_mem mem
      obtain ⟨e, c⟩ := t
      cases escaped
      have whole : text (u ++ (true, c) :: v) = text u ++ c :: text v := List.map_append
      obtain ⟨d, other, found⟩ := documented.reserved u c v plain (Bool.of_not_eq_false reserved)
        ((exactly _).mpr whole.symm)
      have same := (exactly _).mp found
      rw [whole] at same
      exact other (List.cons.inj (List.append_cancel_left same)).1
    refine ⟨?_, unreserved t mem⟩
    rintro rfl
    obtain ⟨u, v, rfl⟩ := List.append_of_mem mem
    have fits := forall₂_bare_dot u v (c := 'a') (by decide)
    have found := (documented.whole _ (fun t mem => ⟨plain t mem, unreserved t mem⟩) _).mpr fits
    have same := (exactly _).mp found
    have whole : text (u ++ (false, '.') :: v) = text u ++ '.' :: text v := List.map_append
    rw [whole] at same
    exact absurd (List.cons.inj (List.append_cancel_left same)).1 (by decide)
  · intro literal s
    rw [documented.whole tokens (fun t mem => ⟨plain t mem, (literal t mem).2⟩) s]
    exact forall₂_iff_of_literal literal

/-- Characters without a special meaning are found behind any others. -/
theorem finds_behind (documented : Documented finds) {p : List Char}
    (bare : ∀ c ∈ p, c ∉ metacharacters) (before : List Char) : finds p (before ++ p) := by
  refine (documented.anywhere p bare _).mpr ⟨before, p, [], (List.append_nil _).symm, ?_⟩
  have fits := forall₂_text (p.map fun c => (false, c))
  rwa [text_map (fun _ => false)] at fits

/-! ## An engine for these patterns alone -/

/-- No pattern with a letter or digit behind a backslash is matched with anything. -/
def plainEngine (p s : List Char) : Prop :=
  (∃ inner, p = anchored inner ∧ (∀ t ∈ tokensOf inner, t.1 = true → isLetterOrDigit t.2 = false) ∧
    List.Forall₂ Takes (tokensOf inner) s) ∨
  ((∀ c ∈ p, c ∉ metacharacters) ∧ ∃ before fit after, s = before ++ fit ++ after ∧
    List.Forall₂ Takes (p.map fun c => (false, c)) fit)

theorem ne_slash_of_isPlain {c : Char} (plain : isPlain c = true) : c ≠ '\\' := by
  rintro rfl
  exact absurd plain (by decide)

theorem not_bare_anchored : ¬∀ c ∈ anchored inner, c ∉ metacharacters :=
  fun bare => bare '^' List.mem_cons_self (by decide)

theorem plainEngine_anchored (plain : ∀ t ∈ tokens, isPlain t.2 = true) :
    plainEngine (anchored (spell tokens)) s ↔
      (∀ t ∈ tokens, t.1 = true → isLetterOrDigit t.2 = false) ∧ List.Forall₂ Takes tokens s := by
  have read : tokensOf (spell tokens) = tokens :=
    tokensOf_spell fun t mem => ne_slash_of_isPlain (plain t mem)
  constructor
  · intro found
    rcases found with ⟨inner, same, fits⟩ | ⟨bare, -⟩
    · rw [← anchored_injective same, read] at fits
      exact fits
    · exact absurd bare not_bare_anchored
  · intro fits
    refine .inl ⟨_, rfl, ?_⟩
    rwa [read]

theorem documented_plainEngine : Documented plainEngine where
  whole := by
    intro tokens plain s
    rw [plainEngine_anchored fun t mem => (plain t mem).1]
    exact and_iff_right fun t mem => (plain t mem).2
  anywhere := by
    intro p bare s
    constructor
    · intro found
      rcases found with ⟨inner, rfl, -⟩ | ⟨-, fits⟩
      · exact absurd bare not_bare_anchored
      · exact fits
    · intro fits
      exact .inr ⟨bare, fits⟩
  reserved := by
    intro u c v plain letter found
    have unreserved := ((plainEngine_anchored plain).mp found).1 (true, c) (by simp) rfl
    exact absurd letter (by simp [unreserved])

end PlainPattern
