import StateMachines.Proofs.Source.Words

/-!
# Literals between quotes

What stands between the quotes of a literal is read by the states of the reader, and in a string
literal it is read as its value. A raw literal ends at the first quote with enough hashes behind it.
A name that follows at once is a suffix, and does not matter.

## Main definitions

* `LiteralState.Passes`: the states pass over an escape.

## Main results

* `Escape.passes`: escapes are read as the characters that they stand for.
* `stringBody_quoted`, `rawBody_append`: the values of string literals.
* `lexeme?_text`, `lexeme?_byteString`, `lexeme?_cString`, `lexeme?_char`, `lexeme?_byte`: literals
  are read.
-/

namespace StateMachines.Source

open Text

variable {flavour : Flavour} {c d : Char}
  {cs rest tail value digits acc spelling suffix : List Char}

/-! ## Escapes -/

/-- The reading is inside an escape. -/
def LiteralState.InEscape : LiteralState → Prop
  | .escape | .hexFirst | .hexSecond _ | .pointOpen | .point _ _ => True
  | _ => False

/-- The reading of an escape passes over the rest of it, which makes it stand for a character. -/
inductive LiteralState.Passes (flavour : Flavour) : LiteralState → List Char → Char → Prop where
  | last {state : LiteralState} {c out : Char} (hstate : state.InEscape)
      (hstep : state.next flavour c = .go .plain (some out)) : Passes flavour state [c] out
  | step {state : LiteralState} (next : LiteralState) {c out : Char} {cs : List Char}
      (hstate : state.InEscape) (hstep : state.next flavour c = .go next none)
      (hrest : Passes flavour next cs out) : Passes flavour state (c :: cs) out

namespace LiteralState

/-- The digits of an escape by code point, behind some of them. -/
theorem passes_point {value count : Nat} (hchars : ∀ c ∈ digits, c = '_' ∨ (hexDigit? c).isSome)
    (hfirst : count ≠ 0 ∨ ∃ c rest, digits = c :: rest ∧ c ≠ '_')
    (hlength : count + (digits.filterMap hexDigit?).length ≤ 6)
    (hvalid : ((digits.filterMap hexDigit?).foldl (fun value digit => 16 * value + digit)
      value).isValidChar)
    (hzero : flavour = .cText → (digits.filterMap hexDigit?).foldl
      (fun value digit => 16 * value + digit) value ≠ 0) :
    Passes flavour (.point value count) (digits ++ ['\x7d']) (Char.ofNat
      ((digits.filterMap hexDigit?).foldl (fun value digit => 16 * value + digit) value)) := by
  induction digits generalizing value count with
  | nil =>
    have hcount : count ≠ 0 := hfirst.resolve_right (by simp)
    have hbrace : hexDigit? '\x7d' = none := by decide
    have hvalid' : value.isValidChar := hvalid
    have hzero' : ¬ (flavour = .cText ∧ value = 0) := fun h => hzero h.1 h.2
    exact .last trivial (by
      simp [LiteralState.next, LiteralState.nextPoint, hbrace, hcount, hvalid', hzero'])
  | cons c digits ih =>
    obtain ⟨hc, hmore⟩ := List.forall_mem_cons.1 hchars
    cases hdigit : hexDigit? c with
    | none =>
      obtain rfl : c = '_' := hc.resolve_right (by simp [hdigit])
      have hcount : count ≠ 0 := hfirst.resolve_right (by simp)
      rw [List.filterMap_cons_none hdigit] at hlength hvalid hzero ⊢
      refine .step (.point value count) trivial ?_ (ih hmore (.inl hcount) hlength hvalid hzero)
      simp [LiteralState.next, LiteralState.nextPoint, hdigit, hcount]
    | some digit =>
      rw [List.filterMap_cons_some hdigit, List.length_cons] at hlength
      rw [List.filterMap_cons_some hdigit, List.foldl_cons] at hvalid hzero ⊢
      refine .step (.point (16 * value + digit) (count + 1)) trivial ?_
        (ih hmore (.inl (by omega)) (by omega) hvalid hzero)
      simp [LiteralState.next, LiteralState.nextPoint, hdigit, show count ≠ 6 by omega]

/-- The reading was in an escape. -/
theorem Passes.inEscape {state : LiteralState} (hpasses : Passes flavour state cs c) :
    state.InEscape := by
  cases hpasses with
  | last hstate | step next hstate => exact hstate

end LiteralState

open LiteralState (Passes)

/-- Escapes are passed over. -/
theorem Escape.passes (hescape : Escape flavour c spelling) :
    Passes flavour .escape spelling c := by
  cases hescape with
  | mark hmark hzero =>
    refine .last trivial ?_
    simp only [escapes, List.mem_cons, Prod.mk.injEq, List.not_mem_nil, or_false] at hmark
    rcases hmark with ⟨rfl, rfl⟩ | ⟨rfl, rfl⟩ | ⟨rfl, rfl⟩ | ⟨rfl, rfl⟩ | ⟨rfl, rfl⟩ | ⟨rfl, rfl⟩ |
      ⟨rfl, rfl⟩
    any_goals rfl
    cases flavour with
    | cText => exact absurd rfl (hzero rfl)
    | text | bytes => rfl
  | @code c d first second hfirst hsecond hcode =>
    refine .step .hexFirst trivial rfl
      (.step (.hexSecond first) trivial ?_ (.last trivial ?_))
    · simp [LiteralState.next, hfirst]
    · cases flavour with
      | text =>
        have hlt : 16 * first + second < 128 := hcode
        simp [LiteralState.next, LiteralState.nextHex, hsecond, hlt]
      | bytes => simp [LiteralState.next, LiteralState.nextHex, hsecond]
      | cText =>
        have hne : 16 * first + second ≠ 0 := hcode
        simp only [LiteralState.next, LiteralState.nextHex, hsecond, if_neg hne]
  | @point digits hdigits hflavour hzero =>
    have hpoint : Passes flavour (.point 0 0) (digits ++ ['\x7d']) _ :=
      LiteralState.passes_point hdigits.chars (.inr hdigits.first)
        (by simpa using hdigits.length_le) hdigits.valid hzero
    have hopen : LiteralState.escape.next flavour 'u' = .go .pointOpen none := by
      simp [LiteralState.next, LiteralState.nextEscape, hflavour]
    exact .step .pointOpen trivial hopen (.step (.point 0 0) trivial rfl hpoint)

/-! ## String literals -/

/-- A step of the reading of an ordinary literal that adds nothing. -/
theorem stringBody_go {state : LiteralState} (next : LiteralState)
    (hstep : state.next flavour c = .go next none) :
    stringBody flavour state acc (c :: cs) = stringBody flavour next acc cs := by
  rw [stringBody, hstep]

/-- A step of the reading of an ordinary literal that adds a character. -/
theorem stringBody_out {state : LiteralState} (next : LiteralState) (d : Char)
    (hstep : state.next flavour c = .go next (some d)) :
    stringBody flavour state acc (c :: cs) = stringBody flavour next (d :: acc) cs := by
  rw [stringBody, hstep]

/-- An escape adds the character that it stands for. -/
theorem stringBody_passes {state : LiteralState} (hpasses : Passes flavour state spelling c) :
    stringBody flavour state acc (spelling ++ cs) = stringBody flavour .plain (c :: acc) cs := by
  induction hpasses with
  | last hstate hstep => exact stringBody_out .plain _ hstep
  | step next hstate hstep hrest ih => exact (stringBody_go next hstep).trans ih

/-- Behind a line end that is joined to the next line, blanks do not count. -/
theorem stringBody_indent {indent : List Char} (hindent : Indent indent) :
    stringBody flavour .continuation acc (indent ++ cs) =
      stringBody flavour .continuation acc cs := by
  induction hindent with
  | nil => rfl
  | space hc hrest ih =>
    rw [List.cons_append, stringBody_go .continuation, ih]
    rcases hc with rfl | rfl <;> rfl
  | line hend hrest ih =>
    cases hend with
    | feed => exact (stringBody_go _ rfl).trans ih
    | returnFeed => exact (stringBody_go _ rfl).trans ((stringBody_go _ rfl).trans ih)

/-- The value that stands between quotes is read. -/
theorem stringBody_quoted (hquoted : Quoted flavour value tail) (acc rest : List Char) :
    stringBody flavour .plain acc (tail ++ rest) = some (acc.reverse ++ value, rest) := by
  -- A character of the value is added in front of the reverse of those before it.
  have hadd : ∀ (d : Char) (value acc : List Char),
      (d :: acc).reverse ++ value = acc.reverse ++ d :: value := by
    simp
  induction hquoted generalizing acc with
  | close => simp [stringBody, LiteralState.next, LiteralState.nextPlain]
  | char hc hadmits hrest ih =>
    rw [List.cons_append, stringBody_out .plain _, ih, hadd]
    simp [LiteralState.next, LiteralState.nextPlain, hc, hadmits]
  | line hrest ih =>
    rw [List.cons_append, List.cons_append, stringBody_go .afterReturn rfl,
      stringBody_out .plain '\n' rfl, ih, hadd]
  | escape hescape hrest ih =>
    rw [List.cons_append, List.append_assoc, stringBody_go .escape rfl,
      stringBody_passes hescape.passes, ih, hadd]
  | @join end_ indent value tail hend hindent htail hrest ih =>
    have hplain : stringBody flavour .continuation acc (tail ++ rest) =
        stringBody flavour .plain acc (tail ++ rest) := by
      cases tail with
      | nil => cases hrest
      | cons c tail =>
        have hc := htail c rfl
        simp only [List.mem_cons, List.not_mem_nil, or_false, not_or] at hc
        simp [stringBody, LiteralState.next, hc]
    have hend' : stringBody flavour .escape acc (end_ ++ (indent ++ (tail ++ rest))) =
        stringBody flavour .continuation acc (indent ++ (tail ++ rest)) := by
      cases hend with
      | feed => exact stringBody_go _ rfl
      | returnFeed => exact (stringBody_go _ rfl).trans (stringBody_go _ rfl)
    simp only [List.cons_append, List.append_assoc]
    rw [stringBody_go .escape rfl, hend', stringBody_indent hindent, hplain, ih]

/-- A quote can stand in literals of all flavours. -/
theorem Flavour.admits_quote (flavour : Flavour) : flavour.admits '\x22' = true := by
  cases flavour <;> decide

/-- A raw literal ends at the first quote that is followed by enough hashes. -/
theorem rawBody_append {hashes : Nat} {afterReturn : Bool}
    (hopen : ∀ before after, value = before ++ '\x22' :: after →
      ¬ List.replicate hashes '#' <+: after)
    (hreturn : afterReturn = true → value.head? = some '\n') (hpaired : ReturnsPaired value)
    (hadmits : ∀ c ∈ value, flavour.admits c = true) :
    rawBody flavour hashes afterReturn acc
        (value ++ '\x22' :: (List.replicate hashes '#' ++ rest)) =
      some (acc.reverse ++ value, rest) := by
  induction value generalizing afterReturn acc with
  | nil =>
    have hafter : afterReturn = false := by
      cases afterReturn with
      | false => rfl
      | true => cases hreturn rfl
    simp [rawBody, hafter, flavour.admits_quote]
  | cons c value ih =>
    have hafter : (afterReturn && decide (c ≠ '\n')) = false := by
      cases afterReturn with
      | false => rfl
      | true => simp [Option.some.inj (hreturn rfl)]
    have hquote : ¬ (c = '\x22' ∧
        (value ++ '\x22' :: (List.replicate hashes '#' ++ rest)).take hashes =
          List.replicate hashes '#') := by
      rintro ⟨rfl, htake⟩
      have hprefix : List.replicate hashes '#' <+:
          value ++ '\x22' :: (List.replicate hashes '#' ++ rest) := by
        have htaken := List.take_prefix hashes
          (value ++ '\x22' :: (List.replicate hashes '#' ++ rest))
        rwa [htake] at htaken
      rcases Nat.lt_or_ge value.length hashes with hlt | hle
      · -- Then the closing quote is among the hashes.
        have hvalue : value ++ ['\x22'] <+: List.replicate hashes '#' :=
          List.prefix_of_prefix_length_le ⟨List.replicate hashes '#' ++ rest, by simp⟩ hprefix
            (by simpa using Nat.succ_le_of_lt hlt)
        exact absurd (List.eq_of_mem_replicate (hvalue.subset (by simp)) : '\x22' = '#')
          (by decide)
      · exact hopen [] value rfl (List.prefix_of_prefix_length_le hprefix
          (List.prefix_append _ _) (by simpa using hle))
    have hmore : ∀ before after, value = before ++ '\x22' :: after →
        ¬ List.replicate hashes '#' <+: after := fun before after heq =>
      hopen (c :: before) after (congrArg (c :: ·) heq)
    have hpairs : ReturnsPaired value := fun before after heq =>
      hpaired (c :: before) after (congrArg (c :: ·) heq)
    have hnext : decide (c = '\r') = true → value.head? = some '\n' := fun hc =>
      hpaired [] value (congrArg (· :: value) (of_decide_eq_true hc))
    obtain ⟨hc, hadmits⟩ := List.forall_mem_cons.1 hadmits
    rw [List.cons_append, rawBody, hafter]
    simp only [hc, Bool.not_true, Bool.or_false, Bool.false_eq_true, if_false, Bool.and_eq_true,
      decide_eq_true_eq, hquote]
    rw [ih hmore hnext hpairs hadmits]
    simp

/-- The value of a string literal is read. -/
theorem StringText.quoted?_append (htext : StringText flavour value spelling) :
    quoted? flavour (spelling ++ rest) = some (String.ofList value, rest) := by
  cases htext with
  | ordinary htail =>
    rw [List.cons_append, quoted?, stringBody_quoted htail]
    rfl
  | @raw hashes value hvalue =>
    have hspan : (List.replicate hashes '#' ++ '\x22' ::
        (value ++ '\x22' :: (List.replicate hashes '#' ++ rest))).span (· = '#') =
        (List.replicate hashes '#', '\x22' ::
          (value ++ '\x22' :: (List.replicate hashes '#' ++ rest))) :=
      span_append (by simp) (by simp)
    have hraw : rawBody flavour hashes false []
        (value ++ '\x22' :: (List.replicate hashes '#' ++ rest)) = some (value, rest) :=
      rawBody_append hvalue.open_ (by simp) hvalue.paired hvalue.admits
    simp only [List.cons_append, List.append_assoc] at hspan ⊢
    rw [quoted?, rawString, hspan]
    simp only [List.length_replicate, hvalue.hashes_le, if_true, hraw]
    rfl

/-! ## Literals between single quotes -/

/-- A step of the reading of an escape between single quotes. -/
theorem charBody_go {state next : LiteralState} (hstate : state.InEscape) (hnext : next.InEscape)
    (hstep : state.next flavour c = .go next none) :
    charBody flavour state (c :: cs) = charBody flavour next cs := by
  have hne : ¬ (state = .plain ∧ c ≠ '\x5c') := by
    rintro ⟨rfl, -⟩
    exact hstate
  conv_lhs => unfold charBody
  simp only [if_neg hne, hstep]
  -- The next state is none of those behind a line end.
  cases next with
  | plain | afterReturn | continuation | continuationReturn => exact hnext.elim
  | escape | hexFirst | hexSecond | pointOpen | point => rfl

/-- An escape may be all that stands between single quotes. -/
theorem charBody_passes {state : LiteralState} (hpasses : Passes flavour state spelling c) :
    charBody flavour state (spelling ++ '\x27' :: rest) = some rest := by
  induction hpasses with
  | @last state d out hstate hstep =>
    have hne : ¬ (state = .plain ∧ d ≠ '\x5c') := by
      rintro ⟨rfl, -⟩
      exact hstate
    simp [charBody, if_neg hne, hstep]
  | step next hstate hstep hrest ih => exact (charBody_go hstate hrest.inEscape hstep).trans ih

/-- What is appended to a literal is dropped. -/
theorem Suffix.dropSuffix_append (hsuffix : Suffix suffix rest) :
    dropSuffix (suffix ++ rest) = rest := by
  cases hsuffix with
  | none hrest =>
    cases rest with
    | nil => rfl
    | cons c rest => simp [dropSuffix, hrest c rfl]
  | @name c cs rest hc hcs hrest =>
    rw [List.cons_append, dropSuffix, if_pos hc, ← List.cons_append,
      List.dropWhile_append_of_pos
        (List.forall_mem_cons.2 ⟨isIdentContinue_of_isIdentStart hc, hcs⟩)]
    cases rest with
    | nil => rfl
    | cons d rest => simp [hrest d rfl]

/-- A literal between single quotes is read, with its suffix. -/
theorem CharText.character?_append (htext : CharText flavour spelling)
    (hsuffix : Suffix suffix rest) :
    character? flavour (spelling ++ (suffix ++ rest)) = some rest := by
  have hbody : ∃ body, spelling = '\x27' :: body ∧
      charBody flavour .plain (body ++ (suffix ++ rest)) = some (suffix ++ rest) := by
    cases htext with
    | @char c hc hadmits => exact ⟨_, rfl, by simp [charBody, hc, hadmits]⟩
    | @escape c spelling hescape =>
      refine ⟨_, rfl, ?_⟩
      have hpassed : charBody flavour .escape (spelling ++ '\x27' :: (suffix ++ rest)) = _ :=
        charBody_passes hescape.passes
      simp only [List.cons_append, List.append_assoc, List.nil_append]
      unfold charBody
      exact hpassed
  obtain ⟨body, rfl, hread⟩ := hbody
  rw [List.cons_append, character?, hread, Option.map_some, hsuffix.dropSuffix_append]

/-! ## Tokens -/

/-- The spelling of what stands in front. -/
theorem spellingBefore_append (cs rest : List Char) :
    spellingBefore (cs ++ rest) rest = String.ofList cs := by
  rw [spellingBefore, List.length_append, Nat.add_sub_cancel, List.take_left]

/-- A literal is read. -/
theorem lexeme?_literal {literal : Literal} (hblank : isBlank c = false)
    (hplain : c ∉ "/()[]\x7b\x7d".toList)
    (hliteral : literalToken? (c :: cs ++ rest) = some (literal, rest)) :
    lexeme? (c :: cs ++ rest) =
      some ([.literal literal (String.ofList (c :: cs))], rest) := by
  have hne : ∀ d ∈ "/()[]\x7b\x7d".toList, c ≠ d := by
    rintro d hd rfl
    exact hplain hd
  have hdelimiter : delimiter? c = none := delimiter?_eq_none fun h =>
    hplain (List.mem_cons_of_mem '/' h)
  have hleaf : leaf? (c :: cs ++ rest) =
      some (.literal literal (String.ofList (c :: cs)), rest) := by
    rw [leaf?, hliteral, ← spellingBefore_append]
  rw [List.cons_append] at hleaf ⊢
  rw [lexeme?_eq_leaf? hblank (hne _ (by decide)) (comment?_eq_none (hne _ (by decide)))
    hdelimiter, hleaf]
  rfl

/-- A string is read. -/
theorem lexeme?_text (htext : StringText .text value spelling) (hsuffix : Suffix suffix rest) :
    lexeme? (spelling ++ suffix ++ rest) =
      some ([.literal (.string (String.ofList value) !suffix.isEmpty)
        (String.ofList (spelling ++ suffix))], rest) := by
  have hliteral : literalToken? (spelling ++ suffix ++ rest) =
      some (.string (String.ofList value) !suffix.isEmpty, rest) := by
    have hlength : decide (rest.length < (suffix ++ rest).length) = !suffix.isEmpty := by
      rw [List.length_append]
      cases suffix with
      | nil => simp
      | cons c suffix => exact decide_eq_true (Nat.lt_add_of_pos_left suffix.length.succ_pos)
    rw [List.append_assoc, literalToken?, htext.quoted?_append]
    simp [hsuffix.dropSuffix_append, ← hlength]
  cases htext with
  | ordinary | raw => exact lexeme?_literal (by decide) (by decide) hliteral

/-- A literal that begins with the letter of its kind is read. -/
theorem lexeme?_marked {literal : Literal} (hc : c = 'b' ∨ c = 'c')
    (hmarked : marked? (c :: (cs ++ rest)) = some (literal, rest)) :
    lexeme? (c :: cs ++ rest) = some ([.literal literal (String.ofList (c :: cs))], rest) := by
  have hliteral : literalToken? (c :: cs ++ rest) = some (literal, rest) := by
    rw [List.cons_append, literalToken?, hmarked]
    rcases hc with rfl | rfl <;> rfl
  rcases hc with rfl | rfl <;> exact lexeme?_literal (by decide) (by decide) hliteral

/-- A string of bytes is read. -/
theorem lexeme?_byteString (htext : StringText .bytes value spelling)
    (hsuffix : Suffix suffix rest) :
    lexeme? ('b' :: (spelling ++ suffix) ++ rest) =
      some ([.literal .byteString (String.ofList ('b' :: (spelling ++ suffix)))], rest) := by
  refine lexeme?_marked (.inl rfl) ?_
  rw [List.append_assoc, marked?, htext.quoted?_append]
  simp [hsuffix.dropSuffix_append]

/-- A string that ends with a zero is read. -/
theorem lexeme?_cString (htext : StringText .cText value spelling)
    (hsuffix : Suffix suffix rest) :
    lexeme? ('c' :: (spelling ++ suffix) ++ rest) =
      some ([.literal .cString (String.ofList ('c' :: (spelling ++ suffix)))], rest) := by
  refine lexeme?_marked (.inr rfl) ?_
  rw [List.append_assoc, marked?, htext.quoted?_append]
  simp [hsuffix.dropSuffix_append]

/-- A literal between single quotes begins with one. -/
theorem CharText.exists_cons (htext : CharText flavour spelling) :
    ∃ body, spelling = '\x27' :: body := by
  cases htext with
  | char | escape => exact ⟨_, rfl⟩

/-- A character is read. -/
theorem lexeme?_char (htext : CharText .text spelling) (hsuffix : Suffix suffix rest) :
    lexeme? (spelling ++ suffix ++ rest) =
      some ([.literal .char (String.ofList (spelling ++ suffix))], rest) := by
  have hcharacter := htext.character?_append hsuffix
  obtain ⟨body, rfl⟩ := htext.exists_cons
  have hliteral : literalToken? ('\x27' :: body ++ suffix ++ rest) = some (.char, rest) := by
    rw [List.append_assoc, literalToken?, hcharacter]
    rfl
  exact lexeme?_literal (by decide) (by decide) hliteral

/-- A byte is read. -/
theorem lexeme?_byte (htext : CharText .bytes spelling) (hsuffix : Suffix suffix rest) :
    lexeme? ('b' :: (spelling ++ suffix) ++ rest) =
      some ([.literal .byte (String.ofList ('b' :: (spelling ++ suffix)))], rest) := by
  have hcharacter := htext.character?_append hsuffix
  obtain ⟨body, rfl⟩ := htext.exists_cons
  refine lexeme?_marked (.inl rfl) ?_
  rw [List.append_assoc, marked?, hcharacter]
  rfl

end StateMachines.Source
