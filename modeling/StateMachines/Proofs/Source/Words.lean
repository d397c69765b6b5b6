import Mathlib.Data.List.TakeDrop
import StateMachines.Proofs.Source.Lexeme

/-!
# Words and marks

Names, punctuation and delimiters are read as what they stand for. What begins none of the other
kinds of lexemes shows in its first character.

## Main results

* `lexeme?_eq_leaf?`: what is neither blank nor comment nor delimiter.
* `lexeme?_word`, `lexeme?_rawWord`: names are read.
* `lexeme?_mark`, `lexeme?_opening`, `lexeme?_closing`: punctuation and delimiters are read.
* `lexeme?_lifetime`, `lexeme?_rawLifetime`: the marks of lifetimes are read.
-/

namespace StateMachines.Source

open Text

variable {c d : Char} {cs rest : List Char}

/-! ## Characters -/

/-- No word begins with a blank. -/
theorem isIdentStart_of_isBlank (hc : isBlank c = true) : isIdentStart c = false := by
  -- There are few blanks, so each of them can be looked up.
  have hnone : (List.range' 9 5 ++ [0x20, 0x85, 0xa0, 0x1680] ++ List.range' 0x2000 11 ++
      [0x200e, 0x200f, 0x2028, 0x2029, 0x202f, 0x205f, 0x3000]).all
        (fun n => !isIdentStart (Char.ofNat n)) = true := by
    decide +kernel
  have hmem : c.toNat ∈ List.range' 9 5 ++ [0x20, 0x85, 0xa0, 0x1680] ++ List.range' 0x2000 11 ++
      [0x200e, 0x200f, 0x2028, 0x2029, 0x202f, 0x205f, 0x3000] := by
    simp only [isBlank, isWhiteSpace, Bool.or_eq_true, Bool.and_eq_true, decide_eq_true_eq] at hc
    simp only [List.mem_append, List.mem_range'_1, List.mem_cons, List.not_mem_nil, or_false]
    omega
  simpa using List.all_eq_true.1 hnone _ hmem

/-- The quotes, delimiters and marks. -/
def marks : List Char := "\"()[]\x7b\x7d".toList ++ punctuation

/-- Marks are not blank, stand in no word and are no digits. -/
theorem plain_of_mem_marks (hc : c ∈ marks) :
    isBlank c = false ∧ isIdentContinue c = false ∧ isDigit c = false ∧ hexDigit? c = none := by
  have hall : marks.all (fun c => !isBlank c && !isIdentContinue c && !isDigit c &&
      (hexDigit? c).isNone) = true := by
    decide
  simpa [and_assoc] using List.all_eq_true.1 hall c hc

/-- A digit is one of ten characters. -/
theorem mem_of_isDigit (hc : isDigit c = true) : c ∈ "0123456789".toList := by
  have hall : (List.range' 48 10).all (fun n => "0123456789".toList.contains (Char.ofNat n)) =
      true := by
    decide
  have hmem : c.toNat ∈ List.range' 48 10 := by
    simp only [isDigit, Bool.and_eq_true, decide_eq_true_eq, Char.le_def, UInt32.le_iff_toNat_le]
      at hc
    rw [List.mem_range'_1]
    exact ⟨hc.1, Nat.lt_succ_of_le hc.2⟩
  simpa using List.all_eq_true.1 hall _ hmem

/-- A digit is neither blank nor the beginning of a word. -/
theorem plain_of_isDigit (hc : isDigit c = true) :
    isBlank c = false ∧ isIdentStart c = false ∧ isIdentContinue c = true ∧ c ∉ marks := by
  have hall : "0123456789".toList.all (fun c => !isBlank c && !isIdentStart c &&
      isIdentContinue c && !marks.contains c) = true := by
    decide
  simpa [and_assoc] using List.all_eq_true.1 hall c (mem_of_isDigit hc)

/-- What begins a word is neither blank nor a digit nor a mark. -/
theorem plain_of_isIdentStart (hc : isIdentStart c = true) :
    isBlank c = false ∧ isDigit c = false ∧ c ∉ marks := by
  refine ⟨Bool.eq_false_iff.2 fun hblank => ?_, Bool.eq_false_iff.2 fun hdigit => ?_,
    fun hmem => ?_⟩
  · cases hc.symm.trans (isIdentStart_of_isBlank hblank)
  · cases hc.symm.trans (plain_of_isDigit hdigit).2.1
  · cases (plain_of_mem_marks hmem).2.1.symm.trans (isIdentContinue_of_isIdentStart hc)

/-- Other characters are no delimiters. -/
theorem delimiter?_eq_none (hc : c ∉ "()[]\x7b\x7d".toList) : delimiter? c = none := by
  simp only [String.reduceToList, List.mem_cons, List.not_mem_nil, or_false, not_or] at hc
  simp [delimiter?, hc]

/-- The longest part of a text whose characters are of a kind. -/
theorem span_append {p : Char → Bool} (hcs : ∀ d ∈ cs, p d = true)
    (hrest : ∀ d ∈ rest.head?, p d = false) : (cs ++ rest).span p = (cs, rest) := by
  rw [List.span_eq_takeWhile_dropWhile, List.takeWhile_append_of_pos hcs,
    List.dropWhile_append_of_pos hcs]
  cases rest with
  | nil => simp
  | cons d rest =>
    have hd := hrest d rfl
    simp [hd]

/-! ## One token -/

/-- Only a slash begins a comment. -/
theorem comment?_eq_none (hc : c ≠ '/') : comment? (c :: rest) = none := by
  unfold comment?
  split <;> simp_all

/-- The mark for what is missing begins with a parenthesis. -/
theorem isPrefixOf_faultMark (hc : c ≠ '(') : faultMark.isPrefixOf (c :: rest) = false := by
  have hmark : faultMark = '(' :: "/*ERROR*/)".toList := by decide
  rw [hmark, List.isPrefixOf_cons_cons, beq_eq_false_iff_ne.2 hc.symm, Bool.false_and]

/-- A text that begins with neither a blank nor a comment nor a delimiter. -/
theorem lexeme?_eq_leaf? (hblank : isBlank c = false) (hparen : c ≠ '(')
    (hcomment : comment? (c :: rest) = none) (hdelimiter : delimiter? c = none) :
    lexeme? (c :: rest) = (leaf? (c :: rest)).map fun (t, rest) => ([t], rest) := by
  simp only [lexeme?, hblank, isPrefixOf_faultMark hparen, hcomment, hdelimiter]
  simp

/-- No string literal begins here. -/
theorem quoted?_eq_none {flavour : Flavour}
    (hnone : ∀ opening ∈ [['\x22'], ['r', '\x22'], ['r', '#']], ¬ opening <+: cs) :
    quoted? flavour cs = none := by
  simp only [List.forall_mem_cons, List.not_mem_nil, false_imp_iff, implies_true, and_true] at hnone
  obtain ⟨hquote, hraw, hhash⟩ := hnone
  have hrest : ∀ rest, cs = 'r' :: rest → rawString flavour rest = none := by
    rintro rest rfl
    cases rest with
    | nil => rfl
    | cons d rest =>
      have hd : d ≠ '\x22' ∧ d ≠ '#' := by
        constructor
        · rintro rfl
          exact hraw ⟨rest, rfl⟩
        · rintro rfl
          exact hhash ⟨rest, rfl⟩
      simp [rawString, List.span_eq_takeWhile_dropWhile, hd]
  unfold quoted?
  split
  next rest => exact absurd ⟨rest, rfl⟩ hquote
  next rest => simp [hrest rest rfl]
  next => rfl

/-- Other hexadecimal digits are letters. -/
theorem ten_le_of_hexDigit? {digit : Nat} (hc : isDigit c = false)
    (hdigit : hexDigit? c = some digit) : 10 ≤ digit := by
  unfold hexDigit? at hdigit
  split at hdigit
  next hdecimal => simp [isDigit, hdecimal] at hc
  next => split at hdigit <;> grind

/-- No number begins with what is no digit. -/
theorem number?_eq_none (hc : isDigit c = false) :
    float? (c :: cs) = none ∧ int? (c :: cs) = none := by
  have hne : c ≠ '0' := by
    rintro rfl
    cases hc
  have hdigits : digits 10 true (c :: cs) = none := by
    unfold digits
    split
    next => rfl
    next =>
      cases hhex : hexDigit? c with
      | none => rfl
      | some digit => simp [Nat.not_lt.2 (ten_le_of_hexDigit? hc hhex)]
  refine ⟨by simp [float?, hc], ?_⟩
  unfold int?
  split
  next heq => cases heq; exact absurd rfl hne
  next heq => cases heq; exact absurd rfl hne
  next heq => cases heq; exact absurd rfl hne
  next => rw [hdigits]; rfl

/-- No literal between single quotes begins here. -/
theorem character?_eq_none {flavour : Flavour} (hne : ¬ ['\x27'] <+: cs) :
    character? flavour cs = none := by
  unfold character?
  split
  next rest => exact absurd ⟨rest, rfl⟩ hne
  next => rfl

/-- No literal begins here whose kind is given by a letter. -/
theorem marked?_eq_none (hnone : ∀ opening ∈ literalOpenings, ¬ opening <+: cs) :
    marked? cs = none := by
  -- What stands behind the letter is the rest of an opening.
  have hrest : ∀ {letter rest opening}, cs = letter :: rest → letter :: opening ∈ literalOpenings →
      ¬ opening <+: rest := by
    rintro letter rest opening rfl hmem hprefix
    exact hnone _ hmem (List.cons_prefix_cons.2 ⟨rfl, hprefix⟩)
  have hquoted : ∀ {flavour letter rest}, cs = letter :: rest →
      (∀ opening ∈ [['\x22'], ['r', '\x22'], ['r', '#']], letter :: opening ∈ literalOpenings) →
      quoted? flavour rest = none := fun hcs hmem =>
    quoted?_eq_none fun opening hopening => hrest hcs (hmem opening hopening)
  unfold marked?
  split
  next rest =>
    rw [hquoted rfl (by decide), character?_eq_none (hrest rfl (by decide))]
    rfl
  next rest =>
    rw [hquoted rfl (by decide)]
    rfl
  next => rfl

/-- A text that begins with none of the marks of a literal is not taken for one. -/
theorem literalToken?_eq_none (hdigit : isDigit c = false)
    (hnone : ∀ opening ∈ ['\x22'] :: ['\x27'] :: ['r', '#'] :: literalOpenings,
      ¬ opening <+: c :: cs) : literalToken? (c :: cs) = none := by
  have hopenings : ∀ o ∈ [['\x22'], ['r', '\x22'], ['r', '#']],
      o ∈ ['\x22'] :: ['\x27'] :: ['r', '#'] :: literalOpenings := by
    decide
  have htext : quoted? .text (c :: cs) = none :=
    quoted?_eq_none fun o ho => hnone o (hopenings o ho)
  have hmarked : marked? (c :: cs) = none :=
    marked?_eq_none fun o ho => hnone o (by simp [ho])
  rw [literalToken?, htext, hmarked, character?_eq_none (hnone _ (by decide)),
    (number?_eq_none hdigit).1, (number?_eq_none hdigit).2]
  rfl

/-- A word is not taken for a literal. -/
theorem literalToken?_of_word (hc : isIdentStart c = true)
    (hnone : ∀ opening ∈ ['r', '#'] :: literalOpenings, ¬ opening <+: c :: cs) :
    literalToken? (c :: cs) = none := by
  obtain ⟨-, hdigit, hmark⟩ := plain_of_isIdentStart hc
  have hquote : ∀ d ∈ marks, ¬ [d] <+: c :: cs := by
    rintro d hd hprefix
    exact hmark ((List.cons_prefix_cons.1 hprefix).1 ▸ hd)
  refine literalToken?_eq_none hdigit ?_
  rw [List.forall_mem_cons, List.forall_mem_cons]
  exact ⟨hquote _ (by decide), hquote _ (by decide), hnone⟩

/-- No literal begins with a mark. -/
theorem literalToken?_of_mark (hc : c ∈ punctuation) (hquote : c ≠ '\x27') :
    literalToken? (c :: cs) = none := by
  have hdigit := (plain_of_mem_marks (List.mem_append_right _ hc)).2.2.1
  refine literalToken?_eq_none hdigit fun o ho => ?_
  -- No opening begins with another mark than the single quote.
  have hhead : o.head?.all (fun d => d = '\x27' || !punctuation.contains d) = true := by
    have hall : (['\x22'] :: ['\x27'] :: ['r', '#'] :: literalOpenings).all (fun o =>
        o.head?.all (fun d => d = '\x27' || !punctuation.contains d)) = true := by
      decide
    exact List.all_eq_true.1 hall o ho
  cases o with
  | nil => exact absurd ho (by decide)
  | cons d o =>
    intro hprefix
    obtain ⟨rfl, -⟩ := List.cons_prefix_cons.1 hprefix
    simp [hquote, hc] at hhead

/-- What begins a word is no punctuation. -/
theorem punctToken?_eq_none (hc : c ∉ punctuation) : punctToken? (c :: rest) = none := by
  have hchar : punctChar? (c :: rest) = none := by
    unfold punctChar?
    split
    next => rfl
    next => rfl
    next heq => cases heq; exact if_neg hc
    next heq => cases heq
  rw [punctToken?, hchar]

/-- A plain name is read. -/
theorem plainIdent?_append (hc : isIdentStart c = true) (hcs : ∀ d ∈ cs, isIdentContinue d = true)
    (hrest : ∀ d ∈ rest.head?, isIdentContinue d = false) :
    plainIdent? (c :: (cs ++ rest)) = some (c :: cs, rest) := by
  simp only [plainIdent?, hc, if_true, span_append hcs hrest]

/-- A name is read where no raw one begins. -/
theorem anyIdent?_append (hc : isIdentStart c = true) (hcs : ∀ d ∈ cs, isIdentContinue d = true)
    (hraw : ¬ ['r', '#'] <+: c :: (cs ++ rest))
    (hrest : ∀ d ∈ rest.head?, isIdentContinue d = false) :
    anyIdent? (c :: (cs ++ rest)) = some (String.ofList (c :: cs), rest) := by
  unfold anyIdent?
  split
  next rest' heq => exact absurd ⟨rest', heq.symm⟩ hraw
  next => rw [plainIdent?_append hc hcs hrest]; rfl

/-- A raw name is read. -/
theorem anyIdent?_raw (hc : isIdentStart c = true) (hcs : ∀ d ∈ cs, isIdentContinue d = true)
    (hmarkable : String.ofList (c :: cs) ∉ unmarkable)
    (hrest : ∀ d ∈ rest.head?, isIdentContinue d = false) :
    anyIdent? ('r' :: '#' :: c :: (cs ++ rest)) =
      some (String.ofList ('r' :: '#' :: c :: cs), rest) := by
  have hname : "r#" ++ String.ofList (c :: cs) = String.ofList (['r', '#'] ++ c :: cs) :=
    String.ofList_append.symm
  simp only [anyIdent?, plainIdent?_append hc hcs hrest, if_neg hmarkable, hname]
  rfl

/-- What is neither literal nor punctuation is read as a word. -/
theorem leaf?_of_word {name : String} (hliteral : literalToken? (c :: cs) = none)
    (hc : c ∉ punctuation) (hopening : ∀ opening ∈ literalOpenings, ¬ opening <+: c :: cs)
    (hword : anyIdent? (c :: cs) = some (name, rest)) :
    leaf? (c :: cs) = some (.ident name, rest) := by
  have hopening' : literalOpenings.any (·.isPrefixOf (c :: cs)) = false := by
    simpa only [List.any_eq_false, List.isPrefixOf_iff_prefix] using hopening
  have hident : ident? (c :: cs) = some (name, rest) := by
    rw [ident?, hopening', hword]
    rfl
  rw [leaf?, hliteral, punctToken?_eq_none hc, hident]
  rfl

/-- A word is read. -/
theorem lexeme?_word (hc : isIdentStart c = true) (hcs : ∀ d ∈ cs, isIdentContinue d = true)
    (hends : WordEnds (c :: cs) rest) :
    lexeme? (c :: (cs ++ rest)) = some ([.ident (String.ofList (c :: cs))], rest) := by
  obtain ⟨hblank, -, hmark⟩ := plain_of_isIdentStart hc
  have hne : ∀ d ∈ marks, c ≠ d := by
    rintro d hd rfl
    exact hmark hd
  have hdelimiter : delimiter? c = none :=
    delimiter?_eq_none fun h => hmark ((by decide : "()[]\x7b\x7d".toList ⊆ marks) h)
  have hliteral : literalToken? (c :: (cs ++ rest)) = none :=
    literalToken?_of_word hc hends.2
  have hword := anyIdent?_append hc hcs (hends.2 _ List.mem_cons_self) hends.1
  rw [lexeme?_eq_leaf? hblank (hne _ (by decide)) (comment?_eq_none (hne _ (by decide)))
    hdelimiter, leaf?_of_word hliteral
      (fun h => hmark (List.mem_append_right _ h))
      (fun o ho => hends.2 o (List.mem_cons_of_mem _ ho)) hword]
  rfl

/-- A raw name is read. -/
theorem lexeme?_rawWord (hc : isIdentStart c = true)
    (hcs : ∀ d ∈ cs, isIdentContinue d = true) (hmarkable : String.ofList (c :: cs) ∉ unmarkable)
    (hends : ∀ d ∈ rest.head?, isIdentContinue d = false) :
    lexeme? ('r' :: '#' :: c :: (cs ++ rest)) =
      some ([.ident (String.ofList ('r' :: '#' :: c :: cs))], rest) := by
  obtain ⟨-, -, hmark⟩ := plain_of_isIdentStart hc
  have hne : c ≠ '\x22' ∧ c ≠ '#' := by
    constructor <;> rintro rfl <;> exact hmark (by decide)
  have hquoted : quoted? .text ('r' :: '#' :: c :: (cs ++ rest)) = none := by
    simp [quoted?, rawString, List.span_eq_takeWhile_dropWhile, hne]
  have hliteral : literalToken? ('r' :: '#' :: c :: (cs ++ rest)) = none := by
    rw [literalToken?, hquoted, (number?_eq_none (by decide)).1, (number?_eq_none (by decide)).2]
    rfl
  have hopening : ∀ o ∈ literalOpenings, ¬ o <+: 'r' :: '#' :: c :: (cs ++ rest) := by
    simp [literalOpenings, hne.1.symm, hne.2.symm]
  rw [lexeme?_eq_leaf? (by decide) (by decide) (comment?_eq_none (by decide)) (by decide),
    leaf?_of_word hliteral (by decide) hopening (anyIdent?_raw hc hcs hmarkable hends)]
  rfl

/-! ## Marks -/

/-- Whether punctuation comes next. -/
theorem punctChar?_of_isMark (hc : IsMark c rest) : punctChar? (c :: rest) = some (c, rest) := by
  obtain ⟨hmem, hcomment⟩ := hc
  unfold punctChar?
  split
  next heq => cases heq; exact absurd ⟨rfl, .inl rfl⟩ hcomment
  next heq => cases heq; exact absurd ⟨rfl, .inr rfl⟩ hcomment
  next heq => cases heq; exact if_pos hmem
  next heq => cases heq

/-- A punctuation character is joint if another one follows. -/
theorem isSome_punctChar?_iff : (punctChar? rest).isSome = true ↔ Touches rest := by
  constructor
  · intro h
    unfold punctChar? at h
    split at h
    next => cases h
    next => cases h
    next c after hline hblock =>
      split at h
      next hmem =>
        refine ⟨c, after, rfl, hmem, ?_⟩
        rintro ⟨rfl, hhead | hhead⟩ <;> obtain ⟨tail, rfl⟩ := List.head?_eq_some_iff.1 hhead
        · exact hline tail rfl rfl
        · exact hblock tail rfl rfl
      next => cases h
    next => cases h
  · rintro ⟨c, after, rfl, hc⟩
    rw [punctChar?_of_isMark hc]
    rfl

/-- A punctuation character does not begin a comment. -/
theorem comment?_of_isMark (hc : IsMark c rest) : comment? (c :: rest) = none := by
  obtain ⟨-, hcomment⟩ := hc
  unfold comment?
  split <;> first | rfl | skip
  all_goals
    rename_i heq
    cases heq
    exact absurd ⟨rfl, by simp⟩ hcomment

/-- A mark is read. -/
theorem lexeme?_mark {joint : Bool} (hc : IsMark c rest) (hquote : c ≠ '\x27')
    (hjoint : joint = true ↔ Touches rest) :
    lexeme? (c :: rest) = some ([.punct c joint], rest) := by
  have hblank := (plain_of_mem_marks (List.mem_append_right _ hc.1)).1
  have hne : ∀ d, d ∉ punctuation → c ≠ d := by
    rintro d hd rfl
    exact hd hc.1
  have hdelimiter : delimiter? c = none := by
    have hdisjoint : punctuation.all (fun c => c ∉ "()[]\x7b\x7d".toList) = true := by decide
    exact delimiter?_eq_none (of_decide_eq_true (List.all_eq_true.1 hdisjoint c hc.1))
  have hjoint' : (punctChar? rest).isSome = joint := by
    rw [Bool.eq_iff_iff, isSome_punctChar?_iff, hjoint]
  rw [lexeme?_eq_leaf? hblank (hne _ (by decide)) (comment?_of_isMark hc) hdelimiter, leaf?,
    literalToken?_of_mark hc.1 hquote]
  simp [punctToken?, punctChar?_of_isMark hc, hquote, hjoint']

/-- A delimiter is read if it does not begin the mark for what is missing. -/
theorem lexeme?_delimiter {t : Token} (hblank : isBlank c = false)
    (hfault : faultMark.isPrefixOf (c :: rest) = false) (hcomment : c ≠ '/')
    (hdelimiter : delimiter? c = some t) : lexeme? (c :: rest) = some ([t], rest) := by
  simp only [lexeme?, hblank, hfault, comment?_eq_none hcomment, hdelimiter]
  simp

/-- Opening delimiters are read. -/
theorem lexeme?_opening (d : Delimiter) (hmark : ¬ faultMark <+: d.chars.1 :: rest) :
    lexeme? (d.chars.1 :: rest) = some ([.opening d], rest) := by
  have hfault : faultMark.isPrefixOf (d.chars.1 :: rest) = false := by
    rwa [Bool.eq_false_iff, ne_eq, List.isPrefixOf_iff_prefix]
  cases d <;> exact lexeme?_delimiter (by decide) hfault (by decide) rfl

/-- Closing delimiters are read. -/
theorem lexeme?_closing (d : Delimiter) :
    lexeme? (d.chars.2 :: rest) = some ([.closing d], rest) := by
  cases d <;> exact lexeme?_delimiter (by decide) (isPrefixOf_faultMark (by decide)) (by decide) rfl

/-- The mark for what is missing is read. -/
theorem lexeme?_faultMark :
    lexeme? (faultMark ++ rest) = some ([.literal .fault (String.ofList faultMark)], rest) := by
  have hmark : faultMark = '(' :: "/*ERROR*/)".toList := by decide
  have hprefix : faultMark.isPrefixOf (faultMark ++ rest) = true :=
    List.isPrefixOf_iff_prefix.2 (List.prefix_append _ _)
  have hblank : isBlank '(' = false := by decide
  rw [hmark, List.cons_append] at hprefix ⊢
  rw [lexeme?, hblank, hmark, hprefix]
  simp

/-! ## Lifetimes -/

/-- A single quote begins no literal if another one does not follow behind the next character. -/
theorem literalToken?_of_quote (hc : c ≠ '\x5c') (hnext : cs.head? ≠ some '\x27') :
    literalToken? ('\x27' :: c :: cs) = none := by
  have hbody : charBody .text .plain (c :: cs) = none := by
    unfold charBody
    simp only [hc, ne_eq, not_false_eq_true, and_self, if_true, Flavour.admits]
    split
    next rest => exact absurd rfl hnext
    next => rfl
  have hcharacter : character? .text ('\x27' :: c :: cs) = none := by
    rw [character?, hbody]
    rfl
  rw [literalToken?, hcharacter, (number?_eq_none (by decide)).1, (number?_eq_none (by decide)).2]
  rfl

/-- A single quote in front of a name is the mark of a lifetime. -/
theorem lexeme?_quote {name : String} (hliteral : literalToken? ('\x27' :: cs) = none)
    (hname : anyIdent? cs = some (name, rest)) (hquote : rest.head? ≠ some '\x27')
    (hhash : rest.head? = some '#' → ['r', '#'] <+: cs) :
    lexeme? ('\x27' :: cs) = some ([.punct '\x27' true], cs) := by
  have hpunct : punctToken? ('\x27' :: cs) = some (.punct '\x27' true, cs) := by
    have hchar : punctChar? ('\x27' :: cs) = some ('\x27', cs) :=
      punctChar?_of_isMark ⟨by decide, by simp⟩
    rw [punctToken?, hchar]
    simp only [hname]
    cases rest with
    | nil => rfl
    | cons d rest =>
      by_cases hd : d = '#'
      · subst hd
        have hraw : "r#".toList.isPrefixOf cs = true :=
          List.isPrefixOf_iff_prefix.2 (hhash rfl)
        simp only [hraw]
        rfl
      · have hd' : d ≠ '\x27' := fun heq => hquote (congrArg some heq)
        split <;> simp_all
  rw [lexeme?_eq_leaf? (by decide) (by decide) (comment?_eq_none (by decide)) (by decide), leaf?,
    hliteral, hpunct]
  rfl

/-- The mark of a lifetime is read. -/
theorem lexeme?_lifetime (hc : isIdentStart c = true) (hcs : ∀ d ∈ cs, isIdentContinue d = true)
    (hends : ∀ d ∈ rest.head?, isIdentContinue d = false ∧ d ≠ '\x27' ∧ d ≠ '#') :
    lexeme? ('\x27' :: c :: (cs ++ rest)) = some ([.punct '\x27' true], c :: (cs ++ rest)) := by
  have hnext : ∀ d, isIdentContinue d = false → (∀ e ∈ rest.head?, e ≠ d) →
      (cs ++ rest).head? ≠ some d := by
    intro d hd hrest hhead
    cases cs with
    | nil => exact hrest d hhead rfl
    | cons e cs =>
      obtain rfl : e = d := Option.some.inj hhead
      cases hd.symm.trans (hcs e List.mem_cons_self)
  have hraw : ¬ ['r', '#'] <+: c :: (cs ++ rest) := by
    rintro ⟨after, heq⟩
    refine hnext '#' (by decide) (fun e he => (hends e he).2.2) ?_
    rw [← (List.cons.inj heq).2]
    rfl
  have hne : c ≠ '\x5c' := by
    rintro rfl
    exact absurd hc (by decide)
  exact lexeme?_quote
    (literalToken?_of_quote hne (hnext _ (by decide) fun e he => (hends e he).2.1))
    (anyIdent?_append hc hcs hraw fun d hd => (hends d hd).1)
    (fun hhead => (hends _ hhead).2.1 rfl) fun hhead => absurd rfl (hends _ hhead).2.2

/-- The mark of a lifetime with a raw name is read. -/
theorem lexeme?_rawLifetime (hc : isIdentStart c = true)
    (hcs : ∀ d ∈ cs, isIdentContinue d = true) (hmarkable : String.ofList (c :: cs) ∉ unmarkable)
    (hends : ∀ d ∈ rest.head?, isIdentContinue d = false ∧ d ≠ '\x27') :
    lexeme? ('\x27' :: 'r' :: '#' :: c :: (cs ++ rest)) =
      some ([.punct '\x27' true], 'r' :: '#' :: c :: (cs ++ rest)) :=
  lexeme?_quote (literalToken?_of_quote (by decide) (by simp))
    (anyIdent?_raw hc hcs hmarkable fun d hd => (hends d hd).1)
    (fun hhead => (hends _ hhead).2 rfl) fun _ => ⟨_, rfl⟩

end StateMachines.Source
