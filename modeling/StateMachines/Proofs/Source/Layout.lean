import StateMachines.Proofs.Source.Comments
import StateMachines.Proofs.Source.Numbers

/-!
# Reading what is written

The reader of texts takes every `Lexeme` for the tokens that it stands for, and so all of a text for
the tokens that are written in it.

## Main results

* `lexeme?_of_lexeme`: one lexeme is read.
* `Written.tokens?_eq`: the tokens of a text are read.
* `trees?_treesTokens`: tokens of trees are read as these trees.
* `TextOf.read?_eq`: the trees of a text are read.
-/

namespace StateMachines.Source

open Text

variable {c : Char} {rest text : List Char}

/-! ## Texts -/

/-- A blank is passed over. -/
theorem lexeme?_blank (hc : isBlank c = true) : lexeme? (c :: rest) = some ([], rest) := by
  rw [lexeme?, if_pos hc]

/-- Every lexeme is read. -/
theorem lexeme?_of_lexeme {tokens : List Token} (htext : Lexeme tokens text rest) :
    lexeme? (text ++ rest) = some (tokens, rest) := by
  cases htext with
  | blank hc => exact lexeme?_blank hc
  | line htext hplain hrest =>
    have hcomment := comment?_line htext hplain hrest
    exact lexeme?_comment hcomment
  | block htail hplain =>
    have hcomment : comment? ('/' :: '*' :: (_ ++ rest)) = _ := comment?_block htail hplain
    exact lexeme?_comment hcomment
  | docLine htext hreturn hhead hrest hending =>
    exact lexeme?_comment (comment?_docLine htext hreturn hhead hrest hending)
  | docBlock htail hdoc hpaired => exact lexeme?_comment (comment?_docBlock htail hdoc hpaired)
  | opening d hmark => exact lexeme?_opening d hmark
  | closing d => exact lexeme?_closing d
  | word hc hcs hends => exact lexeme?_word hc hcs hends
  | rawWord hc hcs hmarkable hends => exact lexeme?_rawWord hc hcs hmarkable hends
  | mark hc hquote hjoint => exact lexeme?_mark hc hquote hjoint
  | lifetime hc hcs hends => exact lexeme?_lifetime hc hcs hends
  | rawLifetime hc hcs hmarkable hends => exact lexeme?_rawLifetime hc hcs hmarkable hends
  | text htext hsuffix => exact lexeme?_text htext hsuffix
  | byteString htext hsuffix => exact lexeme?_byteString htext hsuffix
  | cString htext hsuffix => exact lexeme?_cString htext hsuffix
  | char htext hsuffix => exact lexeme?_char htext hsuffix
  | byte htext hsuffix => exact lexeme?_byte htext hsuffix
  | integer htext hsuffix hrest => exact lexeme?_integer htext hsuffix hrest
  | float htext hsuffix hrest => exact lexeme?_float htext hsuffix hrest
  | fault => exact lexeme?_faultMark

/-- A lexeme takes at least one character. -/
theorem Lexeme.ne_nil {tokens : List Token} (htext : Lexeme tokens text rest) : text ≠ [] := by
  cases htext with
  | text htext | char htext =>
    cases htext
    all_goals exact List.cons_ne_nil _ _
  | integer htext =>
    obtain ⟨c, cs, rfl, -⟩ := htext.exists_cons
    exact List.cons_ne_nil _ _
  | float htext =>
    obtain ⟨⟨c, cs, rfl, -⟩, -⟩ := htext.float?_append
    exact List.cons_ne_nil _ _
  | _ => exact List.cons_ne_nil _ _

/-- The tokens of a text that is long enough to read them are read. -/
theorem Written.tokensAlong {tokens : List Token} (htext : Written tokens text) :
    ∀ bound : List Char, text.length ≤ bound.length → tokensAlong bound text = some tokens := by
  induction htext with
  | nil => exact fun bound _ => by cases bound <;> rfl
  | @cons first more text rest hfirst hrest ih =>
    rintro bound hle
    obtain ⟨c, cs, rfl⟩ := List.exists_cons_of_ne_nil hfirst.ne_nil
    cases bound with
    | nil => simp at hle
    | cons d bound =>
      have hread := lexeme?_of_lexeme hfirst
      rw [List.cons_append] at hread hle ⊢
      simp only [Source.tokensAlong, hread]
      rw [ih bound]
      · rfl
      · simp only [List.length_cons, List.length_append] at hle
        omega

/-- No token begins with a byte order mark. -/
theorem Written.head?_ne {tokens : List Token} (htext : Written tokens text) :
    text.head? ≠ some '\ufeff' := by
  intro hhead
  obtain ⟨tail, rfl⟩ := List.head?_eq_some_iff.1 hhead
  have hnone : lexeme? ('\ufeff' :: tail) = none := by
    have hstart : isIdentStart '\ufeff' = false := by decide +kernel
    have hliteral : literalToken? ('\ufeff' :: tail) = none :=
      literalToken?_eq_none (by decide) (by simp [literalOpenings])
    have hword : anyIdent? ('\ufeff' :: tail) = none := by
      simp [anyIdent?, plainIdent?, hstart]
    have hleaf : leaf? ('\ufeff' :: tail) = none := by
      rw [leaf?, hliteral, punctToken?_eq_none (by decide), ident?, hword]
      simp
    rw [lexeme?_eq_leaf? (by decide) (by decide) (comment?_eq_none (by decide)) (by decide), hleaf]
    rfl
  have hread := htext.tokensAlong ('\ufeff' :: tail) (Nat.le_refl _)
  simp [Source.tokensAlong, hnone] at hread

/-- The tokens of a text are read, perhaps behind a byte order mark. -/
theorem Written.tokens?_eq {tokens : List Token} {text : String} {cs : List Char}
    (hwritten : Written tokens cs) (htext : text.toList = cs ∨ text.toList = '\ufeff' :: cs) :
    tokens? text = some tokens := by
  have hread := hwritten.tokensAlong cs (Nat.le_refl _)
  rcases htext with htext | htext
  · have hhead := hwritten.head?_ne
    rw [tokens?, htext]
    split
    next => exact absurd rfl hhead
    next => exact hread
  · rw [tokens?, htext]
    exact hread

/-! ## Trees -/

mutual

/-- The tokens of a tree are read as this tree. -/
theorem treesFrom_tokens (stack : List (Delimiter × List Tree)) (current : List Tree)
    (t : Tree) (more : List Token) :
    treesFrom stack current (t.tokens ++ more) = treesFrom stack (t :: current) more := by
  cases t with
  | ident s => rfl
  | punct c joint => rfl
  | literal value s => rfl
  | group d content =>
    have hcontent := treesFrom_treesTokens ((d, current) :: stack) [] content
      (.closing d :: more)
    rw [Tree.tokens, List.cons_append, List.append_assoc, treesFrom, List.singleton_append,
      hcontent, treesFrom, if_pos rfl, List.append_nil, List.reverse_reverse]

/-- The tokens of trees are read as these trees. -/
theorem treesFrom_treesTokens (stack : List (Delimiter × List Tree)) (current ts : List Tree)
    (more : List Token) :
    treesFrom stack current (treesTokens ts ++ more) =
      treesFrom stack (ts.reverse ++ current) more := by
  cases ts with
  | nil => rfl
  | cons t rest =>
    rw [treesTokens, List.append_assoc, treesFrom_tokens stack current t,
      treesFrom_treesTokens stack (t :: current) rest more, List.reverse_cons,
      List.append_assoc, List.singleton_append]

end

/-- The tokens of trees are read as these trees. -/
theorem trees?_treesTokens (ts : List Tree) : trees? (treesTokens ts) = some ts := by
  have hread := treesFrom_treesTokens [] [] ts []
  rw [List.append_nil, List.append_nil] at hread
  rw [trees?, hread, treesFrom]
  simp

/-- The trees of a text are read. -/
theorem TextOf.read?_eq {ts : List Tree} {text : String} (htext : TextOf ts text) :
    read? text = some ts := by
  obtain ⟨cs, hwritten, hcs⟩ := htext
  rw [read?, hwritten.tokens?_eq hcs, Option.bind_some, trees?_treesTokens]

end StateMachines.Source
