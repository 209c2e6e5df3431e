import Concorrd.Lib.JsonText

/-!
# Base64

The standard alphabet with padding. A text of base64 has no character that a JSON string escapes, so
its size follows from the number of bytes. `toDigits` are the digits of some bytes without padding,
which `ofDigits` reads. `atob` reads forgivingly, as browsers do; `decodeUrlSafe` reads the other
alphabet without padding, and refuses digits with bits to spare; `decode` reads what `encode` writes, and
refuses anything else.
-/

namespace Base64

/-- The character of a six-bit digit. -/
def digit (n : Nat) : Char :=
  if n < 26 then Char.ofNat (n + 65)
  else if n < 52 then Char.ofNat (n + 71)
  else if n < 62 then Char.ofNat (n - 4)
  else if n = 62 then '+'
  else '/'

/-- Four characters for three bytes, with padding at the end. -/
def encodeChars : List UInt8 → List Char
  | [] => []
  | [a] => [digit (a.toNat / 4), digit (a.toNat % 4 * 16), '=', '=']
  | [a, b] => [digit (a.toNat / 4), digit (a.toNat % 4 * 16 + b.toNat / 16),
      digit (b.toNat % 16 * 4), '=']
  | a :: b :: c :: rest =>
    digit (a.toNat / 4) :: digit (a.toNat % 4 * 16 + b.toNat / 16) ::
      digit (b.toNat % 16 * 4 + c.toNat / 64) :: digit (c.toNat % 64) :: encodeChars rest

/-- The text of some bytes. -/
def encode (bytes : List UInt8) : String := String.ofList (encodeChars bytes)

example : encode [77, 97, 110, 33] = "TWFuIQ==" := by decide

theorem charSize_digit (n : Nat) : Json.charSize (digit n) = 1 := by
  have all : ∀ m ∈ List.range 63, Json.charSize (digit m) = 1 := by decide
  by_cases h : n < 63
  · exact all n (List.mem_range.mpr h)
  · have last : digit n = '/' := by
      rw [digit, if_neg (by omega), if_neg (by omega), if_neg (by omega), if_neg (by omega)]
    rw [last]
    decide

theorem sum_charSize_encodeChars (bytes : List UInt8) :
    ((encodeChars bytes).map Json.charSize).sum = 4 * ((bytes.length + 2) / 3) := by
  have pad : Json.charSize '=' = 1 := by decide
  induction bytes using encodeChars.induct with
  | case1 => rfl
  | case2 a =>
    simp only [encodeChars, List.map_cons, List.map_nil, List.sum_cons, List.sum_nil,
      charSize_digit, pad, List.length_cons, List.length_nil]
    omega
  | case3 a b =>
    simp only [encodeChars, List.map_cons, List.map_nil, List.sum_cons, List.sum_nil,
      charSize_digit, pad, List.length_cons, List.length_nil]
    omega
  | case4 a b c rest ih =>
    simp only [encodeChars, List.map_cons, List.sum_cons, charSize_digit, ih, List.length_cons]
    omega

/-- The size of the text inside a JSON value. -/
theorem textSize_encode (bytes : List UInt8) :
    Json.textSize (encode bytes) = 2 + 4 * ((bytes.length + 2) / 3) := by
  rw [Json.textSize, encode, String.toList_ofList, sum_charSize_encodeChars]

/-! ## Digits -/

/-- The six-bit digits of some bytes. -/
def toDigits : List UInt8 → List Nat
  | [] => []
  | [a] => [a.toNat / 4, a.toNat % 4 * 16]
  | [a, b] => [a.toNat / 4, a.toNat % 4 * 16 + b.toNat / 16, b.toNat % 16 * 4]
  | a :: b :: c :: rest =>
    a.toNat / 4 :: (a.toNat % 4 * 16 + b.toNat / 16) :: (b.toNat % 16 * 4 + c.toNat / 64) ::
      c.toNat % 64 :: toDigits rest

/-- The bytes of some digits. The bits that make no byte are dropped. -/
def ofDigits : List Nat → List UInt8
  | a :: b :: c :: d :: rest =>
    UInt8.ofNat (a * 4 + b / 16) :: UInt8.ofNat (b % 16 * 16 + c / 4) ::
      UInt8.ofNat (c % 4 * 64 + d) :: ofDigits rest
  | [a, b, c] => [UInt8.ofNat (a * 4 + b / 16), UInt8.ofNat (b % 16 * 16 + c / 4)]
  | [a, b] => [UInt8.ofNat (a * 4 + b / 16)]
  | _ => []

/-- The bits that make no byte are zero. -/
def exact : List Nat → Bool
  | _ :: _ :: _ :: _ :: rest => exact rest
  | [_, _, c] => c % 4 = 0
  | [_, b] => b % 16 = 0
  | _ => true

theorem toDigits_spec (bytes : List UInt8) :
    ofDigits (toDigits bytes) = bytes ∧ exact (toDigits bytes) = true ∧
      (toDigits bytes).length % 4 ≠ 1 ∧ ∀ d ∈ toDigits bytes, d < 64 := by
  have byte (a : UInt8) {n : Nat} (h : n = a.toNat) : UInt8.ofNat n = a := by
    rw [h, UInt8.ofNat_toNat]
  induction bytes using toDigits.induct with
  | case1 => exact ⟨rfl, rfl, by decide, fun d h => by cases h⟩
  | case2 a =>
    have := a.toNat_lt
    refine ⟨?_, ?_, by simp [toDigits], ?_⟩
    · rw [toDigits, ofDigits, byte a (by omega)]
    · simp only [toDigits, exact, decide_eq_true_eq]
      omega
    · simp only [toDigits, List.mem_cons, List.not_mem_nil, or_false]
      omega
  | case3 a b =>
    have := a.toNat_lt
    have := b.toNat_lt
    refine ⟨?_, ?_, by simp [toDigits], ?_⟩
    · rw [toDigits, ofDigits, byte a (by omega), byte b (by omega)]
    · simp only [toDigits, exact, decide_eq_true_eq]
      omega
    · simp only [toDigits, List.mem_cons, List.not_mem_nil, or_false]
      omega
  | case4 a b c rest ih =>
    have := a.toNat_lt
    have := b.toNat_lt
    have := c.toNat_lt
    obtain ⟨back, ends, whole, small⟩ := ih
    refine ⟨?_, ends, ?_, ?_⟩
    · rw [toDigits, ofDigits, byte a (by omega), byte b (by omega), byte c (by omega), back]
    · simp only [toDigits, List.length_cons]
      omega
    · simp only [toDigits, List.mem_cons]
      rintro d (rfl | rfl | rfl | rfl | mem)
      · omega
      · omega
      · omega
      · omega
      · exact small d mem

/-- Padding apart, a text is its digits. -/
theorem encodeChars_eq (bytes : List UInt8) :
    ∃ k, encodeChars bytes = (toDigits bytes).map digit ++ List.replicate k '=' := by
  induction bytes using encodeChars.induct with
  | case1 => exact ⟨0, rfl⟩
  | case2 a => exact ⟨2, rfl⟩
  | case3 a b => exact ⟨1, rfl⟩
  | case4 a b c rest ih =>
    obtain ⟨k, same⟩ := ih
    refine ⟨k, ?_⟩
    rw [encodeChars, same]
    rfl

/-! ## Reading -/

/-- The digit of a character. -/
def digitOf (c : Char) : Option Nat :=
  if 'A' ≤ c ∧ c ≤ 'Z' then some (c.toNat - 65)
  else if 'a' ≤ c ∧ c ≤ 'z' then some (c.toNat - 71)
  else if '0' ≤ c ∧ c ≤ '9' then some (c.toNat + 4)
  else if c = '+' then some 62
  else if c = '/' then some 63
  else none

/-- The digit of a character in the alphabet for URLs. -/
def urlDigitOf (c : Char) : Option Nat :=
  if c = '-' then some 62
  else if c = '_' then some 63
  else if c = '+' ∨ c = '/' then none
  else digitOf c

/-- A character of the standard alphabet in that for URLs, and back. -/
def toUrl (c : Char) : Char := if c = '+' then '-' else if c = '/' then '_' else c

def fromUrl (c : Char) : Char := if c = '-' then '+' else if c = '_' then '/' else c

def isAsciiWhitespace (c : Char) : Bool :=
  c = '\t' || c = '\n' || c = '\x0c' || c = '\r' || c = ' '

/-- One or two signs of padding at the end, from the last character on. -/
def dropSigns : List Char → List Char
  | '=' :: '=' :: cs => cs
  | '=' :: cs => cs
  | cs => cs

/-- Padding at the end of whole groups. -/
def dropPadding (cs : List Char) : List Char :=
  if cs.length % 4 = 0 then (dropSigns cs.reverse).reverse else cs

/-- The forgiving reader. -/
def atob (cs : List Char) : Option (List UInt8) :=
  let cs := dropPadding (cs.filter fun c => !isAsciiWhitespace c)
  if cs.length % 4 = 1 then none else (cs.mapM digitOf).map ofDigits

/-- The strict reader of the alphabet for URLs. -/
def decodeUrlSafe (cs : List Char) : Option (List UInt8) :=
  if cs.length % 4 = 1 then none
  else (cs.mapM urlDigitOf).bind fun ds => if exact ds then some (ofDigits ds) else none

variable {c : Char} {cs : List Char} {ds : List Nat} {bytes : List UInt8}

theorem digitOf_ne (h : (digitOf c).isSome) : isAsciiWhitespace c = false ∧ c ≠ '=' := by
  constructor
  · refine Bool.eq_false_iff.mpr fun space => ?_
    simp only [isAsciiWhitespace, Bool.or_eq_true, decide_eq_true_eq] at space
    rcases space with (((rfl | rfl) | rfl) | rfl) | rfl
    all_goals exact absurd h (by decide)
  · rintro rfl
    exact absurd h (by decide)

theorem digitOf_fromUrl {d : Nat} (h : urlDigitOf c = some d) : digitOf (fromUrl c) = some d := by
  unfold urlDigitOf at h
  unfold fromUrl
  split at h
  · rename_i minus
    rw [if_pos minus]
    exact h
  · rename_i minus
    rw [if_neg minus]
    split at h
    · rename_i underscore
      rw [if_pos underscore]
      exact h
    · rename_i underscore
      rw [if_neg underscore]
      split at h
      · cases h
      · exact h

theorem urlDigitOf_toUrl {d : Nat} (small : d < 64) : urlDigitOf (toUrl (digit d)) = some d := by
  have all : ∀ m ∈ List.range 64, urlDigitOf (toUrl (digit m)) = some m := by decide
  exact all d (List.mem_range.mpr small)

theorem mapM_fromUrl (h : cs.mapM urlDigitOf = some ds) : (cs.map fromUrl).mapM digitOf = some ds := by
  induction cs generalizing ds with
  | nil => exact h
  | cons c cs ih =>
    simp only [List.mapM_cons, Option.bind_eq_bind, Option.bind_eq_some_iff, List.map_cons] at h ⊢
    obtain ⟨d, first, ds, rest, same⟩ := h
    exact ⟨d, digitOf_fromUrl first, ds, ih rest, same⟩

theorem mapM_toUrl (small : ∀ d ∈ ds, d < 64) :
    (ds.map fun d => toUrl (digit d)).mapM urlDigitOf = some ds := by
  induction ds with
  | nil => rfl
  | cons d ds ih =>
    rw [List.map_cons, List.mapM_cons, urlDigitOf_toUrl (small d List.mem_cons_self),
      ih fun e mem => small e (List.mem_cons_of_mem d mem)]
    rfl

theorem isSome_of_mapM {α β : Type*} {f : α → Option β} {l : List α} {r : List β}
    (h : l.mapM f = some r) : ∀ a ∈ l, (f a).isSome := by
  induction l generalizing r with
  | nil => exact fun a mem => absurd mem List.not_mem_nil
  | cons b l ih =>
    simp only [List.mapM_cons, Option.bind_eq_bind, Option.bind_eq_some_iff] at h
    obtain ⟨b', first, r', rest, -⟩ := h
    intro a mem
    rcases List.mem_cons.mp mem with rfl | mem
    · rw [first]
      rfl
    · exact ih rest a mem

theorem dropSigns_of_ne (none : ∀ c ∈ cs, c ≠ '=') : dropSigns cs = cs := by
  cases cs with
  | nil => rfl
  | cons c cs =>
    unfold dropSigns
    split
    · rename_i h
      exact absurd (List.cons.inj h).1 (none c List.mem_cons_self)
    · rename_i h
      exact absurd (List.cons.inj h).1 (none c List.mem_cons_self)
    · rfl

theorem dropSigns_one (none : ∀ c ∈ cs, c ≠ '=') : dropSigns ('=' :: cs) = cs := by
  cases cs with
  | nil => rfl
  | cons c cs =>
    unfold dropSigns
    split
    · rename_i h
      exact absurd (List.cons.inj (List.cons.inj h).2).1 (none c List.mem_cons_self)
    · rename_i h
      exact (List.cons.inj h).2.symm
    · rename_i h
      exact absurd rfl (h _)

/-- The padding that fills the last group is dropped again. -/
theorem dropPadding_fill (none : ∀ c ∈ cs, c ≠ '=') (whole : cs.length % 4 ≠ 1) :
    dropPadding (cs ++ List.replicate ((4 - cs.length % 4) % 4) '=') = cs := by
  have reversed : ∀ c ∈ cs.reverse, c ≠ '=' := fun c mem => none c (List.mem_reverse.mp mem)
  have dropped : dropSigns (cs ++ List.replicate ((4 - cs.length % 4) % 4) '=').reverse =
      cs.reverse := by
    have rem : cs.length % 4 = 0 ∨ cs.length % 4 = 2 ∨ cs.length % 4 = 3 := by omega
    rw [List.reverse_append, List.reverse_replicate]
    rcases rem with r | r | r
    · rw [r]
      exact dropSigns_of_ne reversed
    · rw [r]
      rfl
    · rw [r]
      exact dropSigns_one reversed
  rw [dropPadding, if_pos, dropped, List.reverse_reverse]
  rw [List.length_append, List.length_replicate]
  omega

/-- The text of some bytes in the alphabet for URLs, without its padding. -/
theorem trim_encodeChars (bytes : List UInt8) :
    (((encodeChars bytes).map toUrl).reverse.dropWhile (· = '=')).reverse =
      (toDigits bytes).map fun d => toUrl (digit d) := by
  obtain ⟨k, same⟩ := encodeChars_eq bytes
  have none : ∀ c ∈ (toDigits bytes).map fun d => toUrl (digit d), c ≠ '=' := by
    intro c mem
    obtain ⟨d, isDigit, rfl⟩ := List.mem_map.mp mem
    have read := urlDigitOf_toUrl ((toDigits_spec bytes).2.2.2 d isDigit)
    intro sign
    rw [sign] at read
    cases read
  have signs (cs : List Char) :
      (List.replicate k '=' ++ cs).dropWhile (· = '=') = cs.dropWhile (· = '=') :=
    List.dropWhile_append_of_pos fun c mem => decide_eq_true (List.eq_of_mem_replicate mem)
  have pad : toUrl '=' = '=' := rfl
  rw [same, List.map_append, List.map_replicate, List.map_map, List.reverse_append,
    List.reverse_replicate, pad, signs, Function.comp_def]
  generalize (toDigits bytes).map (fun d => toUrl (digit d)) = cs at none
  have kept : cs.reverse.dropWhile (· = '=') = cs.reverse := by
    cases reversed : cs.reverse with
    | nil => rfl
    | cons c ds =>
      have mem : c ∈ cs := List.mem_reverse.mp (reversed ▸ List.mem_cons_self)
      exact List.dropWhile_cons_of_neg (by simpa using none c mem)
  rw [kept, List.reverse_reverse]

/-- What the strict reader reads, the forgiving one reads with padding. -/
theorem atob_fill (h : cs.mapM urlDigitOf = some ds) (whole : cs.length % 4 ≠ 1) :
    atob (cs.map fromUrl ++
      List.replicate ((4 - (cs.map fromUrl).length % 4) % 4) '=') = some (ofDigits ds) := by
  have read := mapM_fromUrl h
  have fits : ∀ c ∈ cs.map fromUrl, isAsciiWhitespace c = false ∧ c ≠ '=' :=
    fun c mem => digitOf_ne (isSome_of_mapM read c mem)
  have whole' : (cs.map fromUrl).length % 4 ≠ 1 := by rwa [List.length_map]
  have kept : ∀ c ∈ cs.map fromUrl ++
      List.replicate ((4 - (cs.map fromUrl).length % 4) % 4) '=', (!isAsciiWhitespace c) = true := by
    intro c mem
    rcases List.mem_append.mp mem with mem | mem
    · rw [(fits c mem).1]
      rfl
    · rw [List.eq_of_mem_replicate mem]
      rfl
  rw [atob, List.filter_eq_self.mpr kept, dropPadding_fill (fun c mem => (fits c mem).2) whole',
    if_neg whole', read]
  rfl

/-- The strict reader of the alphabet with padding. -/
def decode (cs : List Char) : Option (List UInt8) :=
  if cs.length % 4 ≠ 0 then none
  else ((dropPadding cs).mapM digitOf).bind fun ds => if exact ds then some (ofDigits ds) else none

/-- A text is its digits and the padding that fills the last group. -/
theorem encodeChars_fill (bytes : List UInt8) : encodeChars bytes = (toDigits bytes).map digit ++
    List.replicate ((4 - (toDigits bytes).length % 4) % 4) '=' := by
  induction bytes using encodeChars.induct with
  | case1 | case2 a | case3 a b => rfl
  | case4 a b c rest ih =>
    have group : (toDigits (a :: b :: c :: rest)).length % 4 = (toDigits rest).length % 4 := by
      simp only [toDigits, List.length_cons]
      omega
    rw [group, encodeChars, ih]
    rfl

theorem digitOf_digit {d : Nat} (small : d < 64) : digitOf (digit d) = some d := by
  revert d
  decide

theorem mapM_digit (small : ∀ d ∈ ds, d < 64) : (ds.map digit).mapM digitOf = some ds := by
  induction ds with
  | nil => rfl
  | cons d ds ih =>
    have rest := ih fun e mem => small e (List.mem_cons_of_mem d mem)
    rw [List.map_cons, List.mapM_cons, digitOf_digit (small d List.mem_cons_self), rest]
    rfl

/-- Without its padding a text is its digits. -/
theorem dropPadding_encodeChars (bytes : List UInt8) :
    dropPadding (encodeChars bytes) = (toDigits bytes).map digit := by
  obtain ⟨-, -, whole, small⟩ := toDigits_spec bytes
  have fits : ∀ c ∈ (toDigits bytes).map digit, c ≠ '=' := fun c mem =>
    (digitOf_ne (isSome_of_mapM (mapM_digit small) c mem)).2
  have filled := dropPadding_fill fits (by rwa [List.length_map])
  rwa [List.length_map, ← encodeChars_fill] at filled

/-- The strict reader reads what was encoded. -/
theorem decode_encodeChars (bytes : List UInt8) : decode (encodeChars bytes) = some bytes := by
  obtain ⟨back, ends, whole, small⟩ := toDigits_spec bytes
  have groups : ¬(encodeChars bytes).length % 4 ≠ 0 := by
    rw [encodeChars_fill, List.length_append, List.length_map, List.length_replicate]
    omega
  rw [decode, if_neg groups, dropPadding_encodeChars, mapM_digit small, Option.bind_some, if_pos ends, back]

/-- And so does the forgiving one. -/
theorem atob_encodeChars (bytes : List UInt8) : atob (encodeChars bytes) = some bytes := by
  obtain ⟨back, -, whole, small⟩ := toDigits_spec bytes
  have kept : ∀ c ∈ encodeChars bytes, (!isAsciiWhitespace c) = true := by
    intro c mem
    rw [encodeChars_fill] at mem
    rcases List.mem_append.mp mem with mem | mem
    · rw [(digitOf_ne (isSome_of_mapM (mapM_digit small) c mem)).1]
      rfl
    · rw [List.eq_of_mem_replicate mem]
      rfl
  rw [atob, List.filter_eq_self.mpr kept, dropPadding_encodeChars, List.length_map, if_neg whole,
    mapM_digit small, Option.map_some, back]

theorem exists_of_decodeUrlSafe (h : decodeUrlSafe cs = some bytes) :
    ∃ ds, cs.mapM urlDigitOf = some ds ∧ cs.length % 4 ≠ 1 ∧ bytes = ofDigits ds := by
  unfold decodeUrlSafe at h
  split at h
  · cases h
  · rename_i whole
    obtain ⟨ds, read, h⟩ := Option.bind_eq_some_iff.mp h
    split at h
    · cases h
      exact ⟨ds, read, whole, rfl⟩
    · cases h

/-- The forgiving reader refuses every character that is no digit, space or sign of padding. -/
theorem of_atob (h : atob cs = some bytes) :
    ∀ c ∈ cs, isAsciiWhitespace c = true ∨ c = '=' ∨ (digitOf c).isSome := by
  have signs (cs : List Char) : ∀ c ∈ cs, c ∈ dropSigns cs ∨ c = '=' := by
    intro c mem
    unfold dropSigns
    split
    · simp only [List.mem_cons] at mem
      tauto
    · simp only [List.mem_cons] at mem
      tauto
    · exact .inl mem
  intro c mem
  by_cases space : isAsciiWhitespace c = true
  · exact .inl space
  · have mem : c ∈ cs.filter fun c => !isAsciiWhitespace c :=
      List.mem_filter.mpr ⟨mem, by rw [Bool.eq_false_iff.mpr space]; rfl⟩
    unfold atob at h
    generalize cs.filter _ = cs at mem h
    dsimp only at h
    split at h
    · cases h
    · obtain ⟨ds, read, -⟩ := Option.map_eq_some_iff.mp h
      have read := isSome_of_mapM read
      unfold dropPadding at read
      split at read
      · rcases signs cs.reverse c (List.mem_reverse.mpr mem) with mem | sign
        · exact .inr (.inr (read c (List.mem_reverse.mpr mem)))
        · exact .inr (.inl sign)
      · exact .inr (.inr (read c mem))

end Base64
