import StateMachines.Proofs.Source.Literals

/-!
# Number literals

A float is read before an integer is. It is one only with a point or an exponent, so what stands
behind the digits of an integer must be neither. What ends an exponent, a fraction or the digits of
a base is said by the grammar, and the readers stop there.

## Main results

* `exponent_append`, `exponent_eq_before`: an exponent is read, if there is one.
* `FloatText.float?_append`, `IntegerText.int?_append`: numbers are read up to their suffix.
* `IntegerText.float?_eq_none`: integers are no floats.
* `lexeme?_integer`, `lexeme?_float`: number literals are read.
-/

namespace StateMachines.Source

open Text

variable {c d : Char} {cs ds rest tail text mantissa spelling suffix : List Char}
  {before : Option (List Char)} {signed dot : Bool}

/-! ## Digits -/

/-- A decimal digit has a value. -/
theorem hexDigit?_of_isDigit (hc : isDigit c = true) : ∃ digit < 10, hexDigit? c = some digit := by
  have hall : "0123456789".toList.all (fun c => (hexDigit? c).any (· < 10)) = true := by
    decide
  have hvalue := List.all_eq_true.1 hall c (mem_of_isDigit hc)
  cases hdigit : hexDigit? c with
  | none => simp [hdigit] at hvalue
  | some digit => exact ⟨digit, by simpa [hdigit] using hvalue, rfl⟩

/-- What ends a word ends a number. -/
theorem plain_of_not_isIdentContinue (hc : isIdentContinue c = false) :
    isDigit c = false ∧ c ≠ '_' ∧ isIdentStart c = false ∧ ¬ (c = 'e' ∨ c = 'E') := by
  refine ⟨Bool.eq_false_iff.2 fun h => ?_, ?_, Bool.eq_false_iff.2 fun h => ?_, ?_⟩
  · simp [(plain_of_isDigit h).2.2.1] at hc
  · rintro rfl
    exact absurd hc (by decide)
  · simp [isIdentContinue_of_isIdentStart h] at hc
  · rintro (rfl | rfl) <;> exact absurd hc (by decide)

/-- Digits of a base, and underscores among them, are read up to something else. -/
theorem digits_append {base : Nat} {empty : Bool}
    (hdigits : ∀ d ∈ ds, d = '_' ∨ ∃ digit, hexDigit? d = some digit ∧ digit < base)
    (hsome : empty = true → base ≠ 10 ∧ ∃ d ∈ ds, d ≠ '_')
    (htail : ∀ d ∈ tail.head?, d ≠ '_' ∧
      ∀ digit, hexDigit? d = some digit → base ≤ digit ∧ 10 ≤ digit) :
    digits base empty (ds ++ tail) = some tail := by
  induction ds generalizing empty with
  | nil =>
    have hempty : empty = false := by
      cases empty with
      | false => rfl
      | true => simpa using hsome rfl
    cases tail with
    | nil => simp [digits, hempty]
    | cons d tail =>
      obtain ⟨hne, hgreat⟩ := htail d rfl
      cases hdigit : hexDigit? d with
      | none => simp [digits, hempty, hne, hdigit]
      | some digit =>
        obtain ⟨hbase, hten⟩ := hgreat digit hdigit
        simp [digits, hempty, hne, hdigit, Nat.not_lt.2 hbase, Nat.not_lt.2 hten]
  | cons d ds ih =>
    obtain ⟨hd, hmore⟩ := List.forall_mem_cons.1 hdigits
    rw [List.cons_append, digits]
    by_cases hunderscore : d = '_'
    · subst hunderscore
      have hbase : ¬ (empty && decide (base = 10)) = true := by
        simpa using fun hempty => (hsome hempty).1
      rw [if_pos rfl, if_neg hbase]
      refine ih hmore fun hempty => ⟨(hsome hempty).1, ?_⟩
      obtain ⟨e, he, hne⟩ := (hsome hempty).2
      exact ⟨e, (List.mem_cons.1 he).resolve_left hne, hne⟩
    · obtain ⟨digit, hdigit, hlt⟩ := hd.resolve_left hunderscore
      rw [if_neg hunderscore, hdigit]
      simp only [hlt, if_true]
      exact ih hmore (by simp)

/-- Behind a suffix a number must end. -/
theorem endNumber_append (hsuffix : Suffix suffix rest)
    (hrest : ∀ c ∈ rest.head?, isIdentContinue c = false) :
    endNumber (suffix ++ rest) = some rest := by
  rw [endNumber, hsuffix.dropSuffix_append]
  cases rest with
  | nil => rfl
  | cons c rest => simp [hrest c rfl]

/-! ## Exponents -/

/-- A digit is neither a sign nor an underscore nor a point nor the letter of an exponent. -/
theorem ne_of_isDigit (hc : isDigit c = true) :
    ¬ (c = '+' ∨ c = '-') ∧ c ≠ '_' ∧ c ≠ '.' ∧ ¬ (c = 'e' ∨ c = 'E') := by
  have hnone : "+-_.eE".toList.all (fun c => !isDigit c) = true := by decide
  have hmem : c ∉ "+-_.eE".toList := fun hmem => by
    simpa [hc] using List.all_eq_true.1 hnone c hmem
  simpa [not_or, and_assoc] using hmem

/-- There is at most one sign, in front of all digits. -/
theorem exponent_sign (hc : c = '+' ∨ c = '-') :
    exponent before signed false (c :: cs) =
      if signed then before else exponent before true false cs := by
  rcases hc with rfl | rfl <;> rfl

/-- A digit makes it an exponent. -/
theorem exponent_digit {some_ : Bool} (hc : isDigit c = true) :
    exponent before signed some_ (c :: cs) = exponent before signed true cs := by
  simp [exponent, hc, ne_of_isDigit hc]

/-- Underscores are passed over. -/
theorem exponent_underscore {some_ : Bool} :
    exponent before signed some_ ('_' :: cs) = exponent before signed some_ cs := rfl

/-- The digits of an exponent are read up to something else. -/
theorem exponent_digits (hds : DecimalDigits ds) (htail : DigitsEnd tail) :
    exponent before signed true (ds ++ tail) = some tail := by
  induction ds with
  | nil =>
    cases tail with
    | nil => rfl
    | cons c tail =>
      obtain ⟨hdigit, hne⟩ := htail c rfl
      simp [exponent, hdigit, hne]
  | cons d ds ih =>
    obtain ⟨hd, hmore⟩ := List.forall_mem_cons.1 hds
    rw [List.cons_append]
    rcases hd with hd | rfl
    · rw [exponent_digit hd, ih hmore]
    · rw [exponent_underscore, ih hmore]

/-- An exponent is read. -/
theorem exponent_append (htext : Exponent signed text) (htail : DigitsEnd tail) :
    exponent before signed false (text ++ tail) = some tail := by
  induction htext with
  | sign hc htext ih => exact (exponent_sign hc).trans ih
  | underscore htext ih => exact exponent_underscore.trans ih
  | digits hc hcs => exact (exponent_digit hc).trans (exponent_digits hcs htail)

/-- If no exponent follows, the number ends in front of the letter. -/
theorem exponent_eq_before (hnone : ∀ text, Exponent signed text → ¬ text <+: cs) :
    exponent before signed false cs = before := by
  induction cs generalizing signed with
  | nil => rfl
  | cons c cs ih =>
    by_cases hsign : c = '+' ∨ c = '-'
    · rw [exponent_sign hsign]
      cases signed with
      | true => rfl
      | false =>
        exact ih fun text htext hprefix =>
          hnone (c :: text) (.sign hsign htext) (List.cons_prefix_cons.2 ⟨rfl, hprefix⟩)
    by_cases hdigit : isDigit c = true
    · have hone : Exponent signed [c] := .digits hdigit (List.forall_mem_nil _)
      exact absurd (List.cons_prefix_cons.2 ⟨rfl, List.nil_prefix⟩) (hnone [c] hone)
    by_cases hunderscore : c = '_'
    · subst hunderscore
      rw [exponent_underscore]
      exact ih fun text htext hprefix =>
        hnone ('_' :: text) (.underscore htext) (List.cons_prefix_cons.2 ⟨rfl, hprefix⟩)
    · simp [exponent, hsign, hdigit, hunderscore]

/-! ## Floats -/

/-- The digits in front of a point, and those behind it, are passed over. -/
theorem mantissa_digits (hds : DecimalDigits ds) :
    Source.mantissa dot (ds ++ tail) = Source.mantissa dot tail := by
  induction ds with
  | nil => rfl
  | cons d ds ih =>
    obtain ⟨hd, hmore⟩ := List.forall_mem_cons.1 hds
    rw [List.cons_append]
    conv_lhs => unfold Source.mantissa
    exact (if_pos (by simpa using hd)).trans (ih hmore)

/-- A point in front of neither another one nor a letter is passed over. -/
theorem mantissa_point (hd : d ≠ '.') (hstart : isIdentStart d = false) :
    Source.mantissa false ('.' :: d :: cs) = Source.mantissa true (d :: cs) := by
  conv_lhs => unfold Source.mantissa
  simp [hd, hstart, show isDigit '.' = false by decide]

/-- The letter of an exponent. -/
theorem mantissa_exponent (hc : c = 'e' ∨ c = 'E') :
    Source.mantissa dot (c :: cs) =
      exponent (if dot then some (c :: cs) else none) false false cs := by
  rcases hc with rfl | rfl <;> cases dot <;> rfl

/-- A number without an exponent ends where its digits do. Without a point it is no float. -/
theorem mantissa_of_ends (htail : DigitsEnd tail) (hnone : NoExponent tail)
    (hpoint : dot = true ∨ NoPoint tail) :
    Source.mantissa dot tail = if dot then some tail else none := by
  cases tail with
  | nil => rfl
  | cons c cs =>
    obtain ⟨hdigit, hne⟩ := htail c rfl
    by_cases hexponent : c = 'e' ∨ c = 'E'
    · rw [mantissa_exponent hexponent]
      exact exponent_eq_before fun text htext hprefix =>
        hnone c text hexponent htext (List.cons_prefix_cons.2 ⟨rfl, hprefix⟩)
    · conv_lhs => unfold Source.mantissa
      cases dot with
      | true => simp [hdigit, hne, hexponent]
      | false =>
        by_cases hdot : c = '.'
        · subst hdot
          obtain ⟨d, hd, hstops⟩ := hpoint.resolve_left Bool.false_ne_true cs rfl
          obtain ⟨after, rfl⟩ := List.head?_eq_some_iff.1 hd
          simp [hdigit, hstops]
        · simp [hdigit, hne, hexponent, hdot]

/-- The digits of a number, perhaps with a fraction, are passed over. -/
theorem Mantissa.mantissa_append {fraction : Bool} (hmantissa : Mantissa fraction mantissa)
    (tail : List Char) :
    ∃ c cs, mantissa = c :: cs ∧ isDigit c = true ∧
      Source.mantissa false (cs ++ tail) = Source.mantissa fraction tail := by
  cases hmantissa with
  | whole hc hcs => exact ⟨_, _, rfl, hc, mantissa_digits hcs⟩
  | @fraction c d cs ds hc hcs hd hds =>
    refine ⟨_, _, rfl, hc, ?_⟩
    have hfraction : Source.mantissa true (d :: (ds ++ tail)) = Source.mantissa true tail :=
      mantissa_digits (List.forall_mem_cons.2 ⟨.inl hd, hds⟩)
    rw [List.append_assoc, mantissa_digits hcs, List.cons_append, List.cons_append,
      mantissa_point (ne_of_isDigit hd).2.2.1 (plain_of_isDigit hd).2.1, hfraction]

/-- A float begins with a digit, and is read up to its suffix. -/
theorem FloatText.float?_append (htext : FloatText spelling tail) :
    (∃ c cs, spelling = c :: cs ∧ isDigit c = true) ∧
      float? (spelling ++ tail) = endNumber tail := by
  suffices hread : ∃ c cs, spelling = c :: cs ∧ isDigit c = true ∧
      Source.mantissa false (cs ++ tail) = some tail by
    obtain ⟨c, cs, rfl, hc, hmantissa⟩ := hread
    refine ⟨⟨c, cs, rfl, hc⟩, ?_⟩
    rw [List.cons_append, float?, if_pos hc, hmantissa, Option.bind_some]
  cases htext with
  | @point c cs tail hc hcs htail =>
    refine ⟨_, _, rfl, hc, ?_⟩
    rw [List.append_assoc, mantissa_digits hcs]
    cases tail with
    | nil => rfl
    | cons d tail =>
      obtain ⟨hne, hcontinue⟩ := htail d rfl
      obtain ⟨hdigit, hunderscore, hstart, hletter⟩ := plain_of_not_isIdentContinue hcontinue
      have hends : DigitsEnd (d :: tail) := by
        rintro _ ⟨⟩
        exact ⟨hdigit, hunderscore⟩
      have hexponent : NoExponent (d :: tail) := fun e text he htext hprefix =>
        hletter ((List.cons_prefix_cons.1 hprefix).1 ▸ he)
      exact (mantissa_point hne hstart).trans (mantissa_of_ends hends hexponent (.inl rfl))
  | @fraction mantissa tail hmantissa hends hexponent =>
    obtain ⟨c, cs, rfl, hc, hread⟩ := hmantissa.mantissa_append tail
    exact ⟨c, cs, rfl, hc, hread.trans (mantissa_of_ends hends hexponent (.inl rfl))⟩
  | @exponent fraction mantissa text tail e hmantissa he htext hends =>
    obtain ⟨c, cs, rfl, hc, hread⟩ := hmantissa.mantissa_append (e :: (text ++ tail))
    refine ⟨c, cs ++ e :: text, rfl, hc, ?_⟩
    rw [List.append_assoc, List.cons_append, hread, mantissa_exponent he,
      exponent_append htext hends]

/-! ## Integers -/

/-- An integer is no float. -/
theorem IntegerText.float?_eq_none (htext : IntegerText spelling tail) :
    float? (spelling ++ tail) = none := by
  cases htext with
  | decimal hc hcs hends hpoint hexponent hbase =>
    rw [List.cons_append, float?, if_pos hc, mantissa_digits hcs,
      mantissa_of_ends hends hexponent (.inr hpoint)]
    rfl
  | based hbase hdigits hsome hends =>
    simp only [List.mem_cons, Prod.mk.injEq, List.not_mem_nil, or_false] at hbase
    rcases hbase with ⟨rfl, rfl⟩ | ⟨rfl, rfl⟩ | ⟨rfl, rfl⟩ <;> rfl

/-- No letter for another base follows the first digit of a decimal integer. -/
theorem int?_of_decimal (hbase : c = '0' → ∀ d ∈ cs.head?, d ∉ ['x', 'o', 'b']) :
    int? (c :: cs) = (digits 10 true (c :: cs)).bind endNumber := by
  have hletter : ∀ d rest, d ∈ ['x', 'o', 'b'] → c :: cs ≠ '0' :: d :: rest := by
    rintro d rest hd heq
    cases heq
    exact hbase rfl d rfl hd
  unfold int?
  split
  next heq => exact absurd heq (hletter 'x' _ (by decide))
  next heq => exact absurd heq (hletter 'o' _ (by decide))
  next heq => exact absurd heq (hletter 'b' _ (by decide))
  next => rfl

/-- An integer is read up to its suffix. -/
theorem IntegerText.int?_append (htext : IntegerText spelling tail) :
    int? (spelling ++ tail) = endNumber tail := by
  cases htext with
  | @decimal c cs tail hc hcs hends hpoint hexponent hbase =>
    have hvalue : ∀ {d}, isDigit d = true → ∃ digit, hexDigit? d = some digit ∧ digit < 10 :=
      fun hd => (hexDigit?_of_isDigit hd).imp fun _ h => h.symm
    obtain ⟨digit, hdigit, hlt⟩ := hvalue hc
    have hread : digits 10 true (c :: (cs ++ tail)) = some tail := by
      rw [digits, if_neg (ne_of_isDigit hc).2.1, hdigit]
      simp only [hlt, if_true]
      refine digits_append (fun d hd => (hcs d hd).symm.imp_right hvalue) (by simp) fun d hd => ?_
      obtain ⟨hplain, hne⟩ := hends d hd
      exact ⟨hne, fun digit h => ⟨ten_le_of_hexDigit? hplain h, ten_le_of_hexDigit? hplain h⟩⟩
    have hletter : c = '0' → ∀ d ∈ (cs ++ tail).head?, d ∉ ['x', 'o', 'b'] := by
      intro hzero d hd
      cases cs with
      | nil => exact hbase hzero rfl d hd
      | cons e cs =>
        obtain rfl : e = d := Option.some.inj hd
        have hnone : ['x', 'o', 'b'].all (fun c => !isDigit c && c ≠ '_') = true := by decide
        intro hmem
        have hplain := List.all_eq_true.1 hnone e hmem
        rcases hcs e List.mem_cons_self with h | h <;> simp [h] at hplain
    rw [List.cons_append, int?_of_decimal hletter, hread, Option.bind_some]
  | @based letter base ds tail hbase hdigits hsome hends =>
    have hread : base ≠ 10 → digits base true (ds ++ tail) = some tail := fun hne =>
      digits_append hdigits (fun _ => ⟨hne, hsome⟩) hends
    simp only [List.mem_cons, Prod.mk.injEq, List.not_mem_nil, or_false] at hbase
    have hbased : base ≠ 10 ∧ int? ('0' :: letter :: (ds ++ tail)) =
        (digits base true (ds ++ tail)).bind endNumber := by
      rcases hbase with ⟨rfl, rfl⟩ | ⟨rfl, rfl⟩ | ⟨rfl, rfl⟩ <;> exact ⟨by decide, rfl⟩
    rw [List.cons_append, List.cons_append, hbased.2, hread hbased.1, Option.bind_some]

/-- An integer begins with a digit. -/
theorem IntegerText.exists_cons (htext : IntegerText spelling tail) :
    ∃ c cs, spelling = c :: cs ∧ isDigit c = true := by
  cases htext with
  | decimal hc => exact ⟨_, _, rfl, hc⟩
  | based => exact ⟨_, _, rfl, by decide⟩

/-! ## Tokens -/

/-- What begins with a digit is a number. -/
theorem literalToken?_of_isDigit (hc : isDigit c = true) :
    literalToken? (c :: cs) =
      ((float? (c :: cs)).map (.float, ·) <|> (int? (c :: cs)).map (.int, ·)) := by
  have hne : ∀ d, isDigit d = false → d ≠ c := by
    rintro d hd rfl
    cases hd.symm.trans hc
  have hquoted : quoted? .text (c :: cs) = none :=
    quoted?_eq_none (by simp [hne 'r' (by decide), hne '\x22' (by decide)])
  have hmarked : marked? (c :: cs) = none :=
    marked?_eq_none (by
      simp [literalOpenings, hne 'r' (by decide), hne 'b' (by decide), hne 'c' (by decide)])
  have hcharacter : character? .text (c :: cs) = none :=
    character?_eq_none (by simp [hne '\x27' (by decide)])
  rw [literalToken?, hquoted, hmarked, hcharacter]
  simp

/-- A number is read, with its suffix. -/
theorem lexeme?_number {literal : Literal}
    (hspelling : ∃ c cs, spelling = c :: cs ∧ isDigit c = true)
    (hliteral : literalToken? (spelling ++ (suffix ++ rest)) = some (literal, rest)) :
    lexeme? (spelling ++ suffix ++ rest) =
      some ([.literal literal (String.ofList (spelling ++ suffix))], rest) := by
  obtain ⟨c, cs, rfl, hc⟩ := hspelling
  obtain ⟨hblank, -, -, hmark⟩ := plain_of_isDigit hc
  rw [← List.append_assoc] at hliteral
  exact lexeme?_literal hblank
    (fun h => hmark ((by decide : "/()[]\x7b\x7d".toList ⊆ marks) h)) hliteral

/-- An integer is read. -/
theorem lexeme?_integer (htext : IntegerText spelling (suffix ++ rest))
    (hsuffix : Suffix suffix rest) (hrest : ∀ c ∈ rest.head?, isIdentContinue c = false) :
    lexeme? (spelling ++ suffix ++ rest) =
      some ([.literal .int (String.ofList (spelling ++ suffix))], rest) := by
  refine lexeme?_number htext.exists_cons ?_
  have hfloat := htext.float?_eq_none
  have hint := htext.int?_append
  rw [endNumber_append hsuffix hrest] at hint
  obtain ⟨c, cs, rfl, hc⟩ := htext.exists_cons
  rw [List.cons_append] at hfloat hint ⊢
  rw [literalToken?_of_isDigit hc, hfloat, hint]
  rfl

/-- A float is read. -/
theorem lexeme?_float (htext : FloatText spelling (suffix ++ rest))
    (hsuffix : Suffix suffix rest) (hrest : ∀ c ∈ rest.head?, isIdentContinue c = false) :
    lexeme? (spelling ++ suffix ++ rest) =
      some ([.literal .float (String.ofList (spelling ++ suffix))], rest) := by
  obtain ⟨hspelling, hfloat⟩ := htext.float?_append
  refine lexeme?_number hspelling ?_
  rw [endNumber_append hsuffix hrest] at hfloat
  obtain ⟨c, cs, rfl, hc⟩ := hspelling
  rw [List.cons_append] at hfloat ⊢
  rw [literalToken?_of_isDigit hc, hfloat]
  rfl

end StateMachines.Source
