import Concorrd.Lib.Toml

/-!
# Documents of plain lines

What the parser makes of a comment, of a header that is one bare key, and of a bare key with a value
after it on the same line.
-/

namespace Toml

variable {c : Char} {cs rest : List Char} {k word : String} {n : Nat} {doc : Doc} {item : Toml}
  {t : Table}

/-! ## Characters -/

/-- Stands for itself as a key. -/
def IsBareKey (k : String) : Prop := k ≠ "" ∧ ∀ c ∈ k.toList, isBare c = true

-- by the characters of the text, not by all there are
instance : Decidable (IsBareKey k) := @instDecidableAnd _ _ _ (List.decidableBAll _ _)

theorem forall_of_all {p : Char → Prop} [DecidablePred p] (h : (cs.all fun c => decide (p c)) = true) :
    ∀ c ∈ cs, p c := fun c mem => of_decide_eq_true (List.all_eq_true.mp h c mem)

theorem after_cons_of_ne {w : Char} {ws : List Char} (starts : word.toList = w :: ws) (other : w ≠ c) :
    after word (c :: cs) = none := by
  refine if_neg ?_
  rw [starts]
  intro same
  exact other (List.cons_prefix_cons.mp same).1

theorem isWs_of_isBare (bare : isBare c = true) : isWs c = false := by
  by_contra white
  rw [Bool.not_eq_false, isWs, Bool.or_eq_true, decide_eq_true_eq, decide_eq_true_eq] at white
  rcases white with rfl | rfl <;> exact absurd bare (by decide)

theorem ne_of_isBare {d : Char} (bare : isBare c = true) (odd : isBare d = false) : c ≠ d := by
  rintro rfl
  exact absurd bare (by rw [odd]; decide)

theorem skipWs_cons (stop : isWs c = false) : skipWs (c :: cs) = c :: cs :=
  List.dropWhile_cons_of_neg (by rw [stop]; decide)

theorem IsBareKey.exists_cons (bare : IsBareKey k) :
    ∃ c cs, k.toList = c :: cs ∧ isBare c = true := by
  cases split : k.toList with
  | nil => exact absurd (String.toList_eq_nil_iff.mp split) bare.1
  | cons c cs => exact ⟨c, cs, rfl, bare.2 c (split ▸ List.mem_cons_self)⟩

/-! ## Keys -/

theorem keyPart_bare (bare : IsBareKey k) (stop : isBare c = false) :
    keyPart (k.toList ++ c :: cs) = some (k, c :: cs) := by
  have taken : (k.toList ++ c :: cs).takeWhile isBare = k.toList := by
    rw [List.takeWhile_append_of_pos bare.2, List.takeWhile_cons_of_neg (by rw [stop]; decide),
      List.append_nil]
  have left : (k.toList ++ c :: cs).dropWhile isBare = c :: cs := by
    rw [List.dropWhile_append_of_pos bare.2, List.dropWhile_cons_of_neg (by rw [stop]; decide)]
  obtain ⟨first, others, split, head⟩ := bare.exists_cons
  rw [split, List.cons_append] at taken left ⊢
  rw [keyPart, if_pos head, taken, left, ← split, String.ofList_toList]

theorem parseKey_bare (bare : IsBareKey k) (stop : isBare c = false) {d : Char} {ds : List Char}
    (after : skipWs (c :: cs) = d :: ds) (single : d ≠ '.') :
    parseKey (n + 1) (k.toList ++ c :: cs) = some ([k], d :: ds) := by
  rw [parseKey, keyPart_bare bare stop]
  simp only [Option.bind_eq_bind, Option.bind_some, after]
  split
  · rename_i same
    cases same
    exact absurd rfl single
  · rfl

/-! ## Lines -/

/-- A step on a text that starts a statement. -/
theorem document_cons (stop : isWs c = false) (line : c ≠ '\n') :
    document (n + 1) doc (c :: cs) = (statement doc (c :: cs)).bind fun r =>
      (skipComment (skipWs r.2)).bind fun cs =>
        match cs with
        | [] => some r.1.data
        | '\n' :: cs => document n r.1 cs
        | _ => none := by
  rw [document, skipWs_cons stop]
  split
  · rename_i same
    cases same
  · rename_i same
    cases same
    exact absurd rfl line
  · rfl

/-- A statement that leaves the end of its line. -/
theorem document_statement (stop : isWs c = false) (line : c ≠ '\n') {doc' : Doc}
    (done : statement doc (c :: cs) = some (doc', '\n' :: rest)) :
    document (n + 1) doc (c :: cs) = document n doc' rest := by
  rw [document_cons stop line, done]
  rfl

theorem document_newline : document (n + 1) doc ('\n' :: cs) = document n doc cs := rfl

theorem document_comment {body : List Char}
    (legal : ∀ c ∈ body, c ≠ '\n' ∧ illegal c = false) :
    document (n + 1) doc ('#' :: (body ++ '\n' :: cs)) = document n doc cs := by
  have taken : (body ++ '\n' :: cs).takeWhile (· ≠ '\n') = body := by
    rw [List.takeWhile_append_of_pos fun c mem => decide_eq_true (legal c mem).1]
    exact List.append_nil body
  have left : (body ++ '\n' :: cs).dropWhile (· ≠ '\n') = '\n' :: cs := by
    rw [List.dropWhile_append_of_pos fun c mem => decide_eq_true (legal c mem).1]
    rfl
  have clean : body.any illegal = false :=
    List.any_eq_false.mpr fun c mem => by rw [(legal c mem).2]; exact Bool.false_ne_true
  rw [document_cons (by decide) (by decide)]
  have read : statement doc ('#' :: (body ++ '\n' :: cs)) = some (doc, '#' :: (body ++ '\n' :: cs)) := rfl
  have skipped : skipComment ('#' :: (body ++ '\n' :: cs)) = some ('\n' :: cs) := by
    rw [skipComment, taken, if_neg (by rw [clean]; decide), left]
  rw [read, Option.bind_some, skipWs_cons (by decide), skipped]
  rfl

theorem statement_header (single : c ≠ '[') :
    statement doc ('[' :: c :: cs) = createDict doc (c :: cs) := by
  rw [statement, if_neg (by decide), if_pos rfl]
  rintro cs' same
  exact single (List.cons.inj same).1

/-- A header that is one bare key opens a new table, where it comes first. -/
theorem document_header (bare : IsBareKey k) :
    document (n + 1) {} ('[' :: (k.toList ++ ']' :: '\n' :: cs)) =
      document n { data := [(k, .table [])], flags := { explicit := [[k]] }, header := [k] } cs := by
  have read : parseKey (k.toList ++ ']' :: '\n' :: cs).length
      (skipWs (k.toList ++ ']' :: '\n' :: cs)) = some ([k], ']' :: '\n' :: cs) := by
    obtain ⟨first, others, split, head⟩ := bare.exists_cons
    have kept : skipWs (k.toList ++ ']' :: '\n' :: cs) = k.toList ++ ']' :: '\n' :: cs := by
      rw [split]
      exact skipWs_cons (isWs_of_isBare head)
    have fuel : (k.toList ++ ']' :: '\n' :: cs).length = k.toList.length + (cs.length + 1) + 1 := by
      simp only [List.length_append, List.length_cons]
      omega
    rw [kept, fuel]
    exact parseKey_bare bare (by decide) (skipWs_cons (by decide)) (by decide)
  have created : createDict {} (k.toList ++ ']' :: '\n' :: cs) =
      some ({ data := [(k, .table [])], flags := { explicit := [[k]] }, header := [k] },
        '\n' :: cs) := by
    rw [createDict, read]
    rfl
  refine document_statement (by decide) (by decide) ?_
  rw [← created]
  obtain ⟨first, others, split, head⟩ := bare.exists_cons
  rw [split, List.cons_append]
  exact statement_header (ne_of_isBare head (by decide))

/-- A bare key with a value after it. -/
theorem keyValue_bare (bare : IsBareKey k) {d : Char} {ds : List Char} (stop : isWs d = false) :
    keyValue doc (k.toList ++ ' ' :: '=' :: ' ' :: d :: ds) =
      (value (2 * (d :: ds).length + 4) (d :: ds)).bind fun r =>
        if doc.flags.isFrozen doc.header then none
        else (modifyNest true (setNew k r.1) doc.header doc.data).bind fun data =>
          some ({ doc with
            data
            flags := { doc.flags with frozen := freeze (doc.header ++ [k]) r.1 doc.flags.frozen } },
            r.2) := by
  have fuel : (k.toList ++ ' ' :: '=' :: ' ' :: d :: ds).length =
      k.toList.length + (ds.length + 3) + 1 := by
    simp only [List.length_append, List.length_cons]
    omega
  have read : parseKey (k.toList ++ ' ' :: '=' :: ' ' :: d :: ds).length
      (k.toList ++ ' ' :: '=' :: ' ' :: d :: ds) = some ([k], '=' :: ' ' :: d :: ds) := by
    rw [fuel]
    exact parseKey_bare bare (by decide) rfl (by decide)
  have skipped : skipWs (' ' :: d :: ds) = d :: ds := skipWs_cons stop
  rw [keyValue, read]
  simp only [Option.bind_eq_bind, Option.bind_some]
  rw [show after "=" ('=' :: ' ' :: d :: ds) = some (' ' :: d :: ds) from rfl]
  simp only [Option.bind_some, skipped, List.length_cons, List.dropLast_singleton, List.append_nil,
    List.getLastD_cons, List.getLastD_nil]
  rfl

theorem statement_key (head : isBare c = true) : statement doc (c :: cs) = keyValue doc (c :: cs) := by
  rw [statement.eq_def]
  exact if_pos (by rw [head, Bool.true_or, Bool.true_or])

/-- A line with a key that is not there yet sets it. -/
theorem document_line (bare : IsBareKey k) {d : Char} {ds : List Char} (stop : isWs d = false)
    (reads : value (2 * (d :: ds).length + 4) (d :: ds) = some (item, '\n' :: rest))
    (unfrozen : doc.flags.isFrozen doc.header = false) {data : Table}
    (set : modifyNest true (setNew k item) doc.header doc.data = some data) :
    document (n + 1) doc (k.toList ++ ' ' :: '=' :: ' ' :: d :: ds) =
      document n { doc with
        data
        flags := { doc.flags with frozen := freeze (doc.header ++ [k]) item doc.flags.frozen } }
        rest := by
  have done : keyValue doc (k.toList ++ ' ' :: '=' :: ' ' :: d :: ds) = _ := keyValue_bare bare stop
  rw [reads, Option.bind_some, if_neg (by rw [unfrozen]; decide), set, Option.bind_some] at done
  obtain ⟨first, others, split, head⟩ := bare.exists_cons
  rw [split, List.cons_append] at done ⊢
  refine document_statement (isWs_of_isBare head) (ne_of_isBare head (by decide)) ?_
  rw [statement_key head]
  exact done

/-- A line whose value does not parse ends the document. -/
theorem document_line_none (bare : IsBareKey k) {d : Char} {ds : List Char} (stop : isWs d = false)
    (fails : value (2 * (d :: ds).length + 4) (d :: ds) = none) :
    document (n + 1) doc (k.toList ++ ' ' :: '=' :: ' ' :: d :: ds) = none := by
  have done : keyValue doc (k.toList ++ ' ' :: '=' :: ' ' :: d :: ds) = _ := keyValue_bare bare stop
  rw [fails, Option.bind_none] at done
  obtain ⟨first, others, split, head⟩ := bare.exists_cons
  rw [split, List.cons_append] at done ⊢
  rw [document_cons (isWs_of_isBare head) (ne_of_isBare head (by decide)), statement_key head, done,
    Option.bind_none]

/-! ## Values -/

theorem value_bool {b : Bool} :
    value (n + 1) ((if b then "true" else "false").toList ++ cs) = some (.bool b, cs) := by
  cases b with
  | true => rfl
  | false => rfl

theorem hexVal_of_isDigit (digit : c.isDigit = true) : hexVal c = c.toNat - '0'.toNat := by
  rw [hexVal, if_pos digit]

theorem natOf_toDigits : natOf 10 (Nat.toDigits 10 n) = n := by
  have same : natOf 10 (Nat.toDigits 10 n) = Nat.ofDigitChars 10 (Nat.toDigits 10 n) 0 := by
    rw [natOf, Nat.ofDigitChars_eq_foldl]
    refine List.foldl_ext _ _ _ fun sum d mem => ?_
    rw [hexVal_of_isDigit (Nat.isDigit_of_mem_toDigits (by decide) (by decide) mem)]
  rw [same, Nat.ofDigitChars_ten_toDigits]

/-- Digits that go on to the end of the line are a whole run. -/
theorem sepRun_digits (digits : ∀ c ∈ cs, c.isDigit = true) :
    sepRun Char.isDigit (cs ++ '\n' :: rest) = (cs, '\n' :: rest) := by
  induction cs with
  | nil => cases rest <;> rfl
  | cons c cs ih =>
    have ih := ih fun d mem => digits d (List.mem_cons_of_mem c mem)
    have digit := digits c List.mem_cons_self
    cases more : cs ++ '\n' :: rest with
    | nil => exact absurd more (List.append_ne_nil_of_right_ne_nil cs (List.cons_ne_nil _ _))
    | cons d ds => rw [List.cons_append, more, sepRun, if_pos digit, ← more, ih]

theorem fixed_eq_none {m : Nat} (shorter : cs.length < m) :
    fixed m (cs ++ '\n' :: rest) = none := by
  refine if_neg ?_
  rintro ⟨-, digits⟩
  have mem : '\n' ∈ (cs ++ '\n' :: rest).take m := by
    rw [List.take_append, List.mem_append]
    refine .inr ?_
    rw [show m - cs.length = (m - cs.length - 1) + 1 by omega, List.take_succ_cons]
    exact List.mem_cons_self
  exact absurd (List.all_eq_true.mp digits _ mem) (by decide)

theorem skipFloatPart_newline : skipFloatPart ('\n' :: rest) = '\n' :: rest := rfl

/-- No number starts with a zero but zero. -/
theorem head_toDigits_ne (positive : 0 < n) (split : Nat.toDigits 10 n = c :: cs) : c ≠ '0' := by
  induction n using Nat.strongRecOn generalizing c cs with
  | ind n ih =>
    rw [Nat.toDigits_eq_if (by decide)] at split
    split at split
    · rename_i single
      have digits : ∀ m < 10, 0 < m → Nat.digitChar m ≠ '0' := by decide
      rw [← (List.cons.inj split).1]
      exact digits n single positive
    · rename_i longer
      cases high : Nat.toDigits 10 (n / 10) with
      | nil => exact absurd high Nat.toDigits_ne_nil
      | cons d ds =>
        rw [high, List.cons_append] at split
        rw [← (List.cons.inj split).1]
        exact ih (n / 10) (by omega) (by omega) high

/-- The digits of a number, to the end of the line, are its integer part. -/
theorem intPart_toDigits : intPart (Nat.toDigits 10 n ++ '\n' :: rest) =
    some (Nat.toDigits 10 n, '\n' :: rest) := by
  rcases Nat.eq_zero_or_pos n with rfl | positive
  · rfl
  · have digits : ∀ c ∈ Nat.toDigits 10 n, c.isDigit = true := fun c mem =>
      Nat.isDigit_of_mem_toDigits (by decide) (by decide) mem
    cases split : Nat.toDigits 10 n with
    | nil => exact absurd split Nat.toDigits_ne_nil
    | cons c cs =>
      rw [split] at digits
      rw [List.cons_append, intPart, if_neg (head_toDigits_ne positive split),
        if_pos (digits c List.mem_cons_self),
        sepRun_digits fun d mem => digits d (List.mem_cons_of_mem c mem)]

theorem basedInt_eq_none (none' : ∀ word ∈ ["0x", "0b", "0o"], after word cs = none) :
    basedInt cs = none := by
  simp only [basedInt, none' "0x" (by decide), none' "0b" (by decide), none' "0o" (by decide),
    Option.bind_none, Option.bind_eq_bind, Option.or_none]

/-- What is left after so many digits are the other digits. -/
theorem fixed_digits {m year : Nat} {left : List Char} (digits : ∀ c ∈ cs, c.isDigit = true)
    (read : fixed m (cs ++ '\n' :: rest) = some (year, left)) :
    ∃ cs', left = cs' ++ '\n' :: rest ∧ ∀ c ∈ cs', c.isDigit = true := by
  rcases Nat.lt_or_ge cs.length m with shorter | longer
  · rw [fixed_eq_none shorter] at read
    cases read
  · rw [fixed] at read
    split at read
    · cases read
      exact ⟨cs.drop m, List.drop_append_of_le_length longer,
        fun c mem => digits c (List.mem_of_mem_drop mem)⟩
    · cases read

theorem fixed_cons_eq_none {m : Nat} (odd : c.isDigit = false) : fixed (m + 1) (c :: cs) = none := by
  refine if_neg ?_
  rintro ⟨-, digits⟩
  rw [List.take_succ_cons, List.all_cons, odd] at digits
  cases digits

theorem after_digits (digits : ∀ c ∈ cs, c.isDigit = true) {w : Char} {ws : List Char}
    (starts : word.toList = w :: ws) (odd : w.isDigit = false) (line : w ≠ '\n') :
    after word (cs ++ '\n' :: rest) = none := by
  cases cs with
  | nil => exact after_cons_of_ne starts line
  | cons c cs =>
    refine after_cons_of_ne starts ?_
    rintro rfl
    exact absurd (digits w List.mem_cons_self) (by rw [odd]; decide)

/-- Digits to the end of the line are no date. -/
theorem datetime_digits (digits : ∀ c ∈ cs, c.isDigit = true) :
    datetime (cs ++ '\n' :: rest) = none := by
  rw [datetime]
  cases read : fixed 4 (cs ++ '\n' :: rest) with
  | none => rfl
  | some r =>
    obtain ⟨cs', left, digits'⟩ := fixed_digits digits read
    simp only [Option.bind_eq_bind, Option.bind_some, left,
      show after "-" _ = none from after_digits digits' rfl (by decide) (by decide), Option.bind_none]

theorem localTime_digits (digits : ∀ c ∈ cs, c.isDigit = true) :
    localTime (cs ++ '\n' :: rest) = none := by
  rw [localTime, clock]
  cases read : fixed 2 (cs ++ '\n' :: rest) with
  | none => rfl
  | some r =>
    obtain ⟨cs', left, digits'⟩ := fixed_digits digits read
    simp only [Option.bind_eq_bind, Option.bind_some, left,
      show after ":" _ = none from after_digits digits' rfl (by decide) (by decide), Option.bind_none]

/-- What starts with a digit or a sign is no string, array or table. -/
theorem value_eq_bareValue (bare : isBare c = true) :
    value (n + 1) (c :: cs) = bareValue (c :: cs) := by
  have quote : c ≠ '"' := ne_of_isBare bare (by decide)
  have apostrophe : c ≠ '\'' := ne_of_isBare bare (by decide)
  have bracket : c ≠ '[' := ne_of_isBare bare (by decide)
  have brace : c ≠ '{' := ne_of_isBare bare (by decide)
  rw [value, if_neg (by simp only [quote, apostrophe, decide_false, Bool.or_false,
    Bool.false_eq_true, not_false_eq_true]), if_neg bracket, if_neg brace]

theorem bareValue_eq_decimal (word : after "true" cs = none) (word' : after "false" cs = none)
    (date : datetime cs = none) (time : localTime cs = none)
    (based : ∀ word ∈ ["0x", "0b", "0o"], after word cs = none) {r : Toml × List Char}
    (read : decimal cs = some r) : bareValue cs = some r := by
  simp only [bareValue, word, word', date, time, basedInt_eq_none based, read, Option.none_or,
    Option.some_or]

theorem sign_digit (digit : c.isDigit = true) : sign (c :: cs) = (false, c :: cs) := by
  unfold sign
  split
  · rename_i same
    cases same
    cases digit
  · rename_i same
    cases same
    cases digit
  · rfl

theorem decimal_nat {i : Nat} : decimal (Nat.toDigits 10 i ++ '\n' :: rest) =
    some (.int i, '\n' :: rest) := by
  have signed : sign (Nat.toDigits 10 i ++ '\n' :: rest) =
      (false, Nat.toDigits 10 i ++ '\n' :: rest) := by
    cases split : Nat.toDigits 10 i with
    | nil => exact absurd split Nat.toDigits_ne_nil
    | cons c cs =>
      have mem : c ∈ Nat.toDigits 10 i := split ▸ List.mem_cons_self
      exact sign_digit (Nat.isDigit_of_mem_toDigits (by decide) (by decide) mem)
  rw [decimal, signed]
  simp only [Option.bind_eq_bind, intPart_toDigits, Option.bind_some, skipFloatPart_newline, if_true,
    natOf_toDigits, Bool.false_eq_true, if_false]

theorem decimal_neg {i : Nat} : decimal ('-' :: (Nat.toDigits 10 i ++ '\n' :: rest)) =
    some (.int (-i), '\n' :: rest) := by
  rw [decimal, sign]
  simp only [Option.bind_eq_bind, intPart_toDigits, Option.bind_some, skipFloatPart_newline, if_true,
    natOf_toDigits]

theorem isBare_of_isDigit (digit : c.isDigit = true) : isBare c = true := by
  rw [isBare, Char.isAlphanum, digit, Bool.or_true, Bool.true_or, Bool.true_or]

theorem value_nat {i : Nat} : value (n + 1) (Nat.toDigits 10 i ++ '\n' :: rest) =
    some (.int i, '\n' :: rest) := by
  have digits : ∀ c ∈ Nat.toDigits 10 i, c.isDigit = true := fun c mem =>
    Nat.isDigit_of_mem_toDigits (by decide) (by decide) mem
  have based : ∀ word ∈ ["0x", "0b", "0o"], after word (Nat.toDigits 10 i ++ '\n' :: rest) = none := by
    intro word mem
    have zero : ∃ ws, word.toList = '0' :: ws ∧ ws.head? ≠ some '\n' ∧ ws ≠ [] := by
      simp only [List.mem_cons, List.not_mem_nil, or_false] at mem
      rcases mem with rfl | rfl | rfl <;> exact ⟨_, rfl, by decide, by decide⟩
    obtain ⟨ws, starts, line, longer⟩ := zero
    rcases Nat.eq_zero_or_pos i with rfl | positive
    · refine if_neg ?_
      rw [starts]
      rintro ⟨more, same⟩
      cases ws with
      | nil => exact longer rfl
      | cons w ws =>
        cases (List.cons.inj (List.cons.inj same).2).1
        exact line rfl
    · cases split : Nat.toDigits 10 i with
      | nil => exact absurd split Nat.toDigits_ne_nil
      | cons c cs => exact after_cons_of_ne starts (head_toDigits_ne positive split).symm
  have read := bareValue_eq_decimal
    (after_digits digits rfl (by decide) (by decide)) (after_digits digits rfl (by decide) (by decide))
    (datetime_digits digits) (localTime_digits digits) based
    (decimal_nat : decimal (Nat.toDigits 10 i ++ '\n' :: rest) = _)
  cases split : Nat.toDigits 10 i with
  | nil => exact absurd split Nat.toDigits_ne_nil
  | cons c cs =>
    have bare : isBare c = true := isBare_of_isDigit (digits c (split ▸ List.mem_cons_self))
    rw [split, List.cons_append] at read
    exact (value_eq_bareValue bare).trans read

theorem value_neg {i : Nat} : value (n + 1) ('-' :: (Nat.toDigits 10 i ++ '\n' :: rest)) =
    some (.int (-i), '\n' :: rest) := by
  have date : datetime ('-' :: (Nat.toDigits 10 i ++ '\n' :: rest)) = none := by
    rw [datetime, fixed_cons_eq_none (by decide)]
    rfl
  have time : localTime ('-' :: (Nat.toDigits 10 i ++ '\n' :: rest)) = none := by
    rw [localTime, clock, fixed_cons_eq_none (by decide)]
    rfl
  rw [value_eq_bareValue (by decide)]
  refine bareValue_eq_decimal (after_cons_of_ne rfl (by decide)) (after_cons_of_ne rfl (by decide)) date
    time ?_ decimal_neg
  intro word mem
  simp only [List.mem_cons, List.not_mem_nil, or_false] at mem
  rcases mem with rfl | rfl | rfl <;> exact after_cons_of_ne rfl (by decide)

theorem toString_natCast (i : Nat) : (toString (Int.ofNat i)).toList = Nat.toDigits 10 i :=
  Nat.toList_repr

theorem toString_negSucc (i : Nat) :
    (toString (Int.negSucc i)).toList = '-' :: Nat.toDigits 10 (i + 1) := by
  show ("-" ++ Nat.repr (i + 1)).toList = _
  rw [String.toList_append, Nat.toList_repr]
  rfl

theorem toString_ne_nil (i : Int) : (toString i).toList ≠ [] := by
  cases i with
  | ofNat i => exact toString_natCast i ▸ Nat.toDigits_ne_nil
  | negSucc i => exact toString_negSucc i ▸ List.cons_ne_nil _ _

theorem isBare_of_mem_int {i : Int} (mem : c ∈ (toString i).toList) : isBare c = true := by
  have digit {i : Nat} (mem : c ∈ Nat.toDigits 10 i) : isBare c = true :=
    isBare_of_isDigit (Nat.isDigit_of_mem_toDigits (by decide) (by decide) mem)
  cases i with
  | ofNat i => exact digit (toString_natCast i ▸ mem)
  | negSucc i =>
    rw [toString_negSucc] at mem
    rcases List.mem_cons.mp mem with rfl | mem
    · decide
    · exact digit mem

theorem value_int {i : Int} : value (n + 1) ((toString i).toList ++ '\n' :: rest) =
    some (.int i, '\n' :: rest) := by
  cases i with
  | ofNat i =>
    rw [toString_natCast]
    exact value_nat
  | negSucc i =>
    rw [toString_negSucc]
    exact value_neg

/-! ## Strings -/

theorem basicStr_plain (quote : c ≠ '"') (slash : c ≠ '\\') :
    basicStr false .plain (c :: cs) =
      if illegal c then none else push c (basicStr false .plain cs) := by
  rw [basicStr.eq_def]
  dsimp only
  rw [if_neg Bool.false_ne_true, if_neg quote, if_neg slash, if_neg Bool.false_ne_true]

/-- A quote that two more do not follow opens a string of one line. -/
theorem value_quote (single : after "\"\"" cs = none) :
    value (n + 1) ('"' :: cs) =
      (basicStr false .plain cs).map fun r => (.str (String.ofList r.1), r.2) := by
  rw [value, if_pos (by decide), quotedValue, show String.ofList ['"', '"'] = "\"\"" from rfl, single]
  rfl

/-! ## Line ends -/

theorem newlines_cons_of_ne (other : c ≠ '\r') : newlines (c :: cs) = c :: newlines cs := by
  rw [newlines]
  exact fun _ same => absurd same other

theorem newlines_cr (next : cs.head? ≠ some '\n') : newlines ('\r' :: cs) = '\r' :: newlines cs := by
  rw [newlines]
  rintro cs' - rfl
  exact next rfl

theorem newlines_append (clean : ∀ c ∈ cs, c ≠ '\r') :
    newlines (cs ++ rest) = cs ++ newlines rest := by
  induction cs with
  | nil => rfl
  | cons c cs ih =>
    rw [List.cons_append, newlines_cons_of_ne (clean c List.mem_cons_self),
      ih fun d mem => clean d (List.mem_cons_of_mem c mem)]
    rfl

theorem newlines_eq_self (clean : ∀ c ∈ cs, c ≠ '\r') : newlines cs = cs := by
  have whole : newlines (cs ++ []) = cs ++ newlines [] := newlines_append clean
  rwa [List.append_nil, newlines, List.append_nil] at whole

end Toml
