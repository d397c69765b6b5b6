import StateMachines.Proofs.Source.Words

/-!
# Comments

Comments are passed over, and documentation is read as the attribute that it stands for. A line
comment ends in front of the line end. A block comment ends where its mark is closed as often as it
was opened.

## Main results

* `CommentTail.exists_blockBody`: where a block comment ends.
* `comment?_line`, `comment?_block`, `comment?_docLine`, `comment?_docBlock`: comments are read.
-/

namespace StateMachines.Source

open Text

variable {c : Char} {rest text tail : List Char}

/-! ## Where comments end -/

/-- A character that is no part of a mark is passed over. -/
theorem blockBody_char (hopen : ¬ (c = '/' ∧ rest.head? = some '*'))
    (hclose : ¬ (c = '*' ∧ rest.head? = some '/')) (depth : Nat) :
    blockBody depth (c :: rest) = (blockBody depth rest).map fun p => (c :: p.1, p.2) := by
  rw [blockBody]
  · rintro rest' rfl rfl
    exact hopen ⟨rfl, rfl⟩
  · rintro rest' rfl rfl
    exact hclose ⟨rfl, rfl⟩

/-- A block comment ends where its mark is closed, whatever stands around it. -/
theorem CommentTail.exists_blockBody (htail : CommentTail tail) :
    ∃ body, tail = body ++ ['*', '/'] ∧ ∀ rest,
      blockBody 0 (tail ++ rest) = some (body, rest) ∧
      ∀ depth, blockBody (depth + 1) (tail ++ rest) =
        (blockBody depth rest).map fun p => (tail ++ p.1, p.2) := by
  induction htail with
  | close => exact ⟨[], rfl, fun rest => ⟨rfl, fun depth => rfl⟩⟩
  | @nest inner outer hinner houter ihinner ihouter =>
    obtain ⟨_, -, hin⟩ := ihinner
    obtain ⟨body, rfl, hout⟩ := ihouter
    have hnest : ∀ depth rest,
        blockBody depth ('/' :: '*' :: (inner ++ (body ++ ['*', '/'])) ++ rest) =
          (blockBody depth (body ++ ['*', '/'] ++ rest)).map fun p =>
            ('/' :: '*' :: (inner ++ p.1), p.2) := by
      intro depth rest
      have hassoc : '/' :: '*' :: (inner ++ (body ++ ['*', '/'])) ++ rest =
          '/' :: '*' :: (inner ++ (body ++ ['*', '/'] ++ rest)) := by
        simp
      rw [hassoc, blockBody, (hin _).2 depth, Option.map_map]
      rfl
    refine ⟨'/' :: '*' :: (inner ++ body), by simp, fun rest => ⟨?_, fun depth => ?_⟩⟩
    · rw [hnest, (hout rest).1]
      rfl
    · rw [hnest, (hout rest).2, Option.map_map]
      congr 1
      funext p
      simp
  | @char c tail hopen hclose htail ih =>
    obtain ⟨body, rfl, hbody⟩ := ih
    have hhead : ∀ rest, (body ++ ['*', '/'] ++ rest).head? = (body ++ ['*', '/']).head? := by
      intro rest
      cases body <;> rfl
    have hchar : ∀ depth rest, blockBody depth (c :: (body ++ ['*', '/']) ++ rest) =
        (blockBody depth (body ++ ['*', '/'] ++ rest)).map fun p => (c :: p.1, p.2) := by
      intro depth rest
      exact blockBody_char ((hhead rest).symm ▸ hopen) ((hhead rest).symm ▸ hclose) depth
    refine ⟨c :: body, rfl, fun rest => ⟨?_, fun depth => ?_⟩⟩
    · rw [hchar, (hbody rest).1]
      rfl
    · rw [hchar, (hbody rest).2, Option.map_map]
      rfl

/-- A character within a line. -/
theorem takeLine_cons (hfeed : c ≠ '\n') (hreturn : ¬ (c = '\r' ∧ rest.head? = some '\n')) :
    takeLine (c :: rest) = (c :: (takeLine rest).1, (takeLine rest).2) := by
  rw [takeLine]
  · rintro rfl
    exact hfeed rfl
  · rintro rest' rfl rfl
    exact hreturn ⟨rfl, rfl⟩

/-- Nothing is left of a line at its end. -/
theorem takeLine_of_lineEnds (hrest : LineEnds rest) : takeLine rest = ([], rest) := by
  rcases hrest with rfl | hhead
  · rfl
  · obtain ⟨tail, rfl⟩ := List.head?_eq_some_iff.1 hhead
    rfl

/-- The rest of a line ends in front of the next one. -/
theorem takeLine_append (htext : OneLine text) (hrest : LineEnds rest) :
    (takeLine (text ++ rest)).2 = rest := by
  induction text with
  | nil => rw [List.nil_append, takeLine_of_lineEnds hrest]
  | cons c text ih =>
    obtain ⟨hfeed, hline⟩ := not_or.1 (List.mem_cons.not.1 htext)
    by_cases hreturn : c = '\r' ∧ (text ++ rest).head? = some '\n'
    · -- A carriage return in front of the line feed belongs to the line end.
      obtain ⟨rfl, hhead⟩ := hreturn
      cases text with
      | nil =>
        obtain ⟨tail, rfl⟩ := List.head?_eq_some_iff.1 hhead
        rfl
      | cons d text =>
        cases Option.some.inj hhead
        exact absurd List.mem_cons_self hline
    · rw [List.cons_append, takeLine_cons (Ne.symm hfeed) hreturn, ih hline]

/-- The text of a line, without the carriage return in front of its end. -/
theorem takeLine_text {ending : List Char} (htext : OneLine text) (hreturn : '\r' ∉ text)
    (hrest : LineEnds rest) (hending : ending = [] ∨ (ending = ['\r'] ∧ rest ≠ [])) :
    takeLine (text ++ ending ++ rest) = (text, rest) := by
  induction text with
  | nil =>
    rcases hending with rfl | ⟨rfl, hne⟩
    · exact takeLine_of_lineEnds hrest
    · obtain ⟨tail, rfl⟩ := List.head?_eq_some_iff.1 (hrest.resolve_left hne)
      rfl
  | cons c text ih =>
    obtain ⟨hfeed, htext⟩ := not_or.1 (List.mem_cons.not.1 htext)
    obtain ⟨hc, hreturn⟩ := not_or.1 (List.mem_cons.not.1 hreturn)
    rw [List.cons_append, List.cons_append,
      takeLine_cons (Ne.symm hfeed) (fun h => hc h.1.symm), ih htext hreturn]

/-- Paired carriage returns are not bare. -/
theorem hasBareReturn_eq_false (hpaired : ReturnsPaired text) : hasBareReturn text = false := by
  induction text using hasBareReturn.induct with
  | case1 text ih =>
    rw [hasBareReturn]
    refine ih fun before after heq => hpaired ('\r' :: '\n' :: before) after ?_
    rw [heq]
    rfl
  | case2 text hfeed =>
    obtain ⟨tail, rfl⟩ := List.head?_eq_some_iff.1 (hpaired [] text rfl)
    exact absurd rfl (hfeed tail)
  | case3 c text hpair hreturn ih =>
    rw [hasBareReturn]
    · refine ih fun before after heq => hpaired (c :: before) after ?_
      rw [heq]
      rfl
    · exact hpair
    · exact hreturn
  | case4 => rfl

/-- Without carriage returns there are none to pair. -/
theorem returnsPaired_of_notMem (hreturn : '\r' ∉ text) : ReturnsPaired text := by
  rintro before after rfl
  exact absurd (List.mem_append_right _ List.mem_cons_self) hreturn

/-- Text without bare returns can be documentation. -/
theorem docTokens_eq (hpaired : ReturnsPaired text) :
    docTokens false text = some (documentation text) := by
  rw [docTokens, hasBareReturn_eq_false hpaired]
  rfl

/-- A comment is read for what it stands for. -/
theorem lexeme?_comment {tokens : List Token} {text : List Char}
    (hcomment : comment? ('/' :: text) = some (tokens, rest)) :
    lexeme? ('/' :: text) = some (tokens, rest) := by
  rw [lexeme?]
  simp only [isPrefixOf_faultMark (show '/' ≠ '(' by decide), hcomment,
    show isBlank '/' = false by decide]
  rfl

/-- A comment up to the end of a line is passed over. -/
theorem comment?_line (htext : OneLine text) (hplain : ¬ IsDocLine text) (hrest : LineEnds rest) :
    comment? ('/' :: '/' :: (text ++ rest)) = some ([], rest) := by
  have htake := takeLine_append htext hrest
  rcases text with - | ⟨c, text⟩
  · rcases hrest with rfl | hhead
    · rfl
    · obtain ⟨tail, rfl⟩ := List.head?_eq_some_iff.1 hhead
      rfl
  · by_cases hc : c = '/'
    · -- Four slashes are no documentation.
      subst hc
      have hslash : text.head? = some '/' := by
        by_contra hne
        exact hplain (.inr ⟨rfl, by simpa [List.head?_eq_getElem?] using hne⟩)
      obtain ⟨text, rfl⟩ := List.head?_eq_some_iff.1 hslash
      have hline := takeLine_append
        (fun h => htext (List.mem_cons_of_mem _ (List.mem_cons_of_mem _ h))) hrest
      rw [List.cons_append, List.cons_append, comment?, hline]
    · have hbang : c ≠ '!' := by
        rintro rfl
        exact hplain (.inl rfl)
      rw [List.cons_append] at htake
      rw [List.cons_append, comment?, htake]
      · simp [hc]
      · simp [hc]
      · simp [hbang]

/-- A line of documentation. -/
theorem comment?_docLine {ending : List Char} (htext : OneLine text) (hreturn : '\r' ∉ text)
    (hhead : text.head? ≠ some '/') (hrest : LineEnds rest)
    (hending : ending = [] ∨ (ending = ['\r'] ∧ rest ≠ [])) :
    comment? ('/' :: '/' :: '/' :: (text ++ ending ++ rest)) =
      some (documentation text, rest) := by
  have hslash : (text ++ ending ++ rest).head? ≠ some '/' := by
    cases text with
    | cons c text => exact hhead
    | nil =>
      rcases hending with rfl | ⟨rfl, -⟩
      · rcases hrest with rfl | hfeed
        · simp
        · simp [hfeed]
      · simp
  have hline : comment? ('/' :: '/' :: '/' :: (text ++ ending ++ rest)) =
      (docTokens false (takeLine (text ++ ending ++ rest)).1).map
        (·, (takeLine (text ++ ending ++ rest)).2) := by
    rw [comment?]
    rintro cs heq
    exact hslash (by rw [heq]; rfl)
  rw [hline, takeLine_text htext hreturn hrest hending,
    docTokens_eq (returnsPaired_of_notMem hreturn)]
  rfl

/-- A block comment is passed over. -/
theorem comment?_block (htail : CommentTail tail) (hplain : ¬ IsDocBlock tail) :
    comment? ('/' :: '*' :: (tail ++ rest)) = some ([], rest) := by
  obtain ⟨body, rfl, hbody⟩ := htail.exists_blockBody
  have hread : ∀ {cs}, body ++ ['*', '/'] = cs → blockBody 0 (cs ++ rest) = some (body, rest) := by
    rintro cs rfl
    exact (hbody rest).1
  generalize htail' : body ++ ['*', '/'] = cs at hread hplain ⊢
  rcases cs with - | ⟨c, cs⟩
  · simp at htail'
  by_cases hc : c = '*'
  · -- Documentation begins with one star, and not at the end of the comment.
    subst hc
    have hnext : cs.head? = some '*' ∨ cs.head? = some '/' := by
      by_contra! hne
      exact hplain (.inr ⟨rfl, by simpa [List.head?_eq_getElem?] using hne⟩)
    rcases hnext with hstar | hslash
    · obtain ⟨cs, rfl⟩ := List.head?_eq_some_iff.1 hstar
      rw [List.cons_append, List.cons_append, comment?]
      have := hread rfl
      rw [List.cons_append, List.cons_append] at this
      rw [this]
      rfl
    · obtain ⟨cs, rfl⟩ := List.head?_eq_some_iff.1 hslash
      have hclosed : blockBody 0 ('*' :: '/' :: (cs ++ rest)) = some ([], cs ++ rest) := rfl
      obtain ⟨-, hrest⟩ := Prod.mk.inj (Option.some.inj (hclosed.symm.trans (hread rfl)))
      rw [List.cons_append, List.cons_append, comment?, hrest]
  · have hbang : c ≠ '!' := by
      rintro rfl
      exact hplain (.inl rfl)
    have hcs := hread rfl
    rw [List.cons_append] at hcs ⊢
    rw [comment?, hcs]
    · rfl
    · simp [hc]
    · simp [hc]
    · simp [hc]
    · simp [hbang]

/-- A block of documentation. -/
theorem comment?_docBlock (htail : CommentTail ('*' :: (text ++ ['*', '/'])))
    (hdoc : IsDocBlock ('*' :: (text ++ ['*', '/']))) (hpaired : ReturnsPaired text) :
    comment? ('/' :: '*' :: '*' :: (text ++ ['*', '/'] ++ rest)) =
      some (documentation text, rest) := by
  obtain ⟨body, htext, hbody⟩ := htail.exists_blockBody
  obtain rfl : '*' :: text = body := List.append_cancel_right htext
  have hread := (hbody rest).1
  obtain ⟨-, hstar, hslash⟩ := hdoc.resolve_left (by simp)
  have hnext : ∀ {d}, ('*' :: (text ++ ['*', '/']))[1]? ≠ some d →
      ∀ cs, text ++ ['*', '/'] ++ rest ≠ d :: cs := by
    intro d hne cs heq
    cases text <;> simp_all
  have hblock : comment? ('/' :: '*' :: '*' :: (text ++ ['*', '/'] ++ rest)) =
      (blockBody 0 ('*' :: (text ++ ['*', '/'] ++ rest))).bind fun p =>
        (docTokens false (p.1.drop 1)).bind fun tokens => some (tokens, p.2) := by
    rw [comment?]
    · rfl
    · exact hnext hslash
    · exact hnext hstar
  rw [List.cons_append] at hread
  rw [hblock, hread]
  simp [docTokens_eq hpaired]

end StateMachines.Source
