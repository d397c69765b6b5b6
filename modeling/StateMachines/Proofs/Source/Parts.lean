import Mathlib.Data.List.Forall2
import StateMachines.Proofs.Source.Reads
import StateMachines.Proofs.Source.Rendering

/-!
# Reading the parts of an enum

Paths and values are read as what they stand for, and a list as its parts.

## Main results

* `commaSeparated_reads`: a list is read part by part.
* `plainPath_reads`, `path_reads`: paths are read, with and without room for generic arguments.
* `expression_reads`: what stands alone is read as an expression.
-/

namespace StateMachines.Source

open Derive (Path)
open Reader

variable {α β : Type} {ts rest : List Tree} {names : List String} {path : Path}

/-! ## Lists -/

/-- A part of a list ends here. -/
def AtEnd (rest : List Tree) : Prop := rest = [] ∨ ∃ joint more, rest = .punct ',' joint :: more

/-- A part of a list that is not empty can be read, whatever stands behind it. -/
def ReadsPart (item : Reader α) (ts : List Tree) (a : α) : Prop :=
  ts ≠ [] ∧ ∀ rest, AtEnd rest → Reads item (ts ++ rest) a rest

/-- A list is read if its parts are. -/
theorem commaSeparated_reads {part : β → List Tree → Prop} {means : β → α → Prop}
    {item : Reader α} {bs : List β} (hitem : ∀ b ∈ bs, ∀ ts, part b ts →
      ∃ a, means b a ∧ ReadsPart item ts a) (hlist : Commas part bs ts) :
    ∃ as, List.Forall₂ means bs as ∧ Reads (commaSeparated item) ts as [] := by
  -- The parts are gathered in reverse behind those that were read before.
  suffices hsteps : ∃ as, List.Forall₂ means bs as ∧ ∀ (before : List α) (trailing : Bool),
      ∃ after, Reads.Steps (fun gathered => do
        if List.isEmpty (← ahead) then return (gathered, false)
        let items := (← item) :: gathered.1
        if List.isEmpty (← ahead) then return ((items, false), false)
        punct ","
        return ((items, true), true)) (before, trailing) ts (as.reverse ++ before, after) [] by
    obtain ⟨as, has, hsteps⟩ := hsteps
    obtain ⟨after, hsteps⟩ := hsteps [] false
    refine ⟨as, has, ?_⟩
    have hread : Reads (separated "," List.isEmpty item) ts (as, after) [] := by
      refine .bind (.repeating hsteps) ?_
      simp only [List.append_nil, List.reverse_reverse]
      exact .pure _
    exact hread.map Prod.fst
  induction hlist with
  | nil => exact ⟨[], .nil, fun before trailing => ⟨trailing, .stop (.pure _)⟩⟩
  | @single b ts hb =>
    obtain ⟨a, ha, hne, hread⟩ := hitem b List.mem_cons_self ts hb
    refine ⟨[a], .cons ha .nil, fun before trailing => ⟨false, .stop ?_⟩⟩
    have hread := hread [] (.inl rfl)
    rw [List.append_nil] at hread
    refine .ahead_bind (.ite_false (by simpa using hne) (.bind hread ?_))
    exact .ahead_bind (.ite_true rfl (.pure _))
  | @cons b bs ts more joint hb hrest ih =>
    obtain ⟨a, ha, hne, hread⟩ := hitem b List.mem_cons_self ts hb
    obtain ⟨as, has, hsteps⟩ := ih fun b hb => hitem b (List.mem_cons_of_mem _ hb)
    refine ⟨a :: as, .cons ha has, fun before trailing => ?_⟩
    obtain ⟨after, hsteps⟩ := hsteps (a :: before) true
    have hread := hread (.punct ',' joint :: more) (.inr ⟨joint, more, rfl⟩)
    refine ⟨after, ?_⟩
    rw [List.reverse_cons, List.append_assoc]
    refine .more ?_ ?_ hsteps
    · refine .ahead_bind (.ite_false (by simp) (.bind hread ?_))
      exact .ahead_bind (.ite_false (by simp) (.bind (.punct rfl rfl) (.pure _)))
    · simp only [List.length_append, List.length_cons]
      omega

/-! ## Paths -/

/-- What is not reserved can be part of any path. -/
theorem IsFree.isPathName {name : String} (hname : IsFree name) : IsPathName name := .inl hname

/-- Fewer names can be allowed. -/
theorem PathTrees.isPathName (hpath : PathTrees IsFree path ts) : PathTrees IsPathName path ts := by
  have hnames : ∀ {names ts}, NamesTrees IsFree names ts → NamesTrees IsPathName names ts := by
    intro names ts hnames
    induction hnames with
    | single hname => exact .single hname.isPathName
    | cons hname _ ih => exact .cons hname.isPathName ih
  cases hpath with
  | plain h => exact .plain (hnames h)
  | rooted h => exact .rooted (hnames h)

/-- A name that can be part of a path stands in front. -/
theorem atPathName_cons {name : String} (hname : IsPathName name) :
    atPathName (.ident name :: rest) = true := by
  rw [atPathName, Bool.or_eq_true]
  exact hname.imp_right decide_eq_true

/-- No part of a path follows. -/
def EndsPath (rest : List Tree) : Prop := atPunct "::" rest = false ∧ atPunct "<" rest = false

/-- Names joined by `::` are read one by one. -/
theorem joined_reads (hnames : NamesTrees IsPathName names ts) (hrest : EndsPath rest) :
    Reads (joined "::" (fun ts => !atPathName ts) word) (ts ++ rest) (names, false) rest := by
  suffices hsteps : ∀ (before : List String) (trailing : Bool),
      Reads.Steps (fun gathered => do
        if !atPathName (← ahead) then return (gathered, false)
        let items := (← word) :: gathered.1
        let more ← punct? "::"
        return ((items, more), more)) (before, trailing) (ts ++ rest)
          (names.reverse ++ before, false) rest by
    refine .bind (.repeating (hsteps [] false)) ?_
    simp only [List.append_nil, List.reverse_reverse]
    exact .pure _
  induction hnames with
  | single hname =>
    intro before trailing
    refine .stop (.ahead_bind (.ite_false ?_ (.bind (.word _) ?_)))
    · simp [atPathName_cons hname]
    · exact .bind (.punct?_of_not hrest.1) (.pure _)
  | @cons name names ts joint hname hmore ih =>
    intro before trailing
    rw [List.reverse_cons, List.append_assoc]
    refine .more (.ahead_bind (.ite_false ?_ (.bind (.word _) ?_))) ?_ (ih (name :: before) true)
    · simp [atPathName_cons hname]
    · exact .bind (.punct?_of_at rfl rfl) (.pure _)
    · simp only [List.length_append, List.length_cons]
      omega

/-- There is at least one name. -/
theorem NamesTrees.ne_nil {allowed : String → Prop} (hnames : NamesTrees allowed names ts) :
    names ≠ [] := by
  cases hnames <;> exact List.cons_ne_nil _ _

/-- A path is not empty. -/
theorem PathTrees.ne_nil {allowed : String → Prop} (hpath : PathTrees allowed path ts) :
    ts ≠ [] := by
  cases hpath with
  | plain hnames => cases hnames <;> exact List.cons_ne_nil _ _
  | rooted _ => exact List.cons_ne_nil _ _

/-- A path of plain names is read. -/
theorem plainPath_reads (hpath : PathTrees IsPathName path ts) (hrest : EndsPath rest) :
    Reads plainPath (ts ++ rest) path rest := by
  have hbody : ∀ {names ts} (rooted : Bool), NamesTrees IsPathName names ts →
      Reads (do
        let gathered ← joined "::" (fun ts => !atPathName ts) word
        if gathered.1.isEmpty then discard name
        if gathered.2 then expected "path segment after `::`"
        return ({ rooted, segments := gathered.1.map ({ name := · }) } : Path)) (ts ++ rest)
        { rooted, segments := names.map ({ name := · }) } rest := by
    intro names ts rooted hnames
    refine .bind (joined_reads hnames hrest) (.ite_false ?_ (.ite_false ?_ (.pure _)))
    · simpa using hnames.ne_nil
    · simp
  cases hpath with
  | plain hnames =>
    refine .bind (.punct?_of_not ?_) (hbody false hnames)
    cases hnames <;> rfl
  | rooted hnames => exact .bind (.punct?_of_at rfl rfl) (hbody true hnames)

/-- A part of a path without arguments is read. -/
theorem segment_reads {g : Grammar} {inType : Bool} {name : String} (hname : IsPathName name)
    (hrest : atGenericArguments inType rest = false) :
    Reads (g.segment inType) (.ident name :: rest) { name } rest := by
  refine .ahead_bind ?_
  by_cases hplace : name ∈ ["super", "self", "crate", "try"]
  · exact .ite_true (by simpa [atOneOf] using hplace) (.bind (.word name) (.pure _))
  · refine .ite_false (by simpa [atOneOf] using hplace) ?_
    by_cases hself : name = "Self"
    · subst hself
      exact .ite_true rfl (.bind (.word _) (.ahead_bind (.ite_false (by simp [hrest]) (.pure _))))
    · have hfree : isName name = true := by
        refine hname.resolve_right ?_
        simp only [placeWords, List.mem_cons, List.not_mem_nil, or_false, not_or] at hplace ⊢
        exact ⟨hplace.1, hplace.2.1, hself, hplace.2.2.1⟩
      refine .ite_false (by simpa [atKeyword] using hself) (.bind (.name hfree) ?_)
      exact .ahead_bind (.ite_false (by simp [hrest]) (.pure _))

/-- Arguments do not stand at the end of a path. -/
theorem EndsPath.atGenericArguments (hrest : EndsPath rest) (inType : Bool) :
    atGenericArguments inType rest = false := by
  simp [Source.atGenericArguments, hrest.1, hrest.2]

/-- What follows a name in a path is read, up to the end of the path. -/
theorem furtherSegments_reads {g : Grammar} {inType joint : Bool}
    (hnames : NamesTrees IsPathName names ts) (hrest : EndsPath rest) :
    Reads (g.furtherSegments inType) (.punct ':' true :: .punct ':' joint :: (ts ++ rest))
      (names.map ({ name := · })) rest := by
  refine .collect ?_
  induction hnames generalizing joint with
  | single hname =>
    refine .more (.ahead_bind (.ite_true rfl (.bind (.punct rfl rfl)
      (.bind (segment_reads hname (hrest.atGenericArguments _)) (.pure _))))) ?_
      (.stop (.ahead_bind (.ite_false ?_ (.pure _))))
    · simp only [List.append_eq, List.length_append, List.length_cons]
      omega
    · simp [hrest.1]
  | cons hname hmore ih =>
    refine .more (.ahead_bind (.ite_true rfl (.bind (.punct rfl rfl)
      (.bind (segment_reads hname ?_) (.pure _))))) ?_ ih
    · cases hmore <;> simp [atGenericArguments, atPunct, atChars]
    · simp only [List.append_eq, List.length_cons, List.cons_append]
      omega

/-- A path is read, also where generic arguments could stand. -/
theorem path_reads {g : Grammar} {inType : Bool} (hpath : PathTrees IsPathName path ts)
    (hrest : EndsPath rest) : Reads (g.path inType) (ts ++ rest) path rest := by
  have hbody : ∀ {names ts} (rooted : Bool), NamesTrees IsPathName names ts →
      Reads (do
        let first ← g.segment inType
        let further ← g.furtherSegments inType
        return ({ rooted, segments := first :: further } : Path)) (ts ++ rest)
        { rooted, segments := names.map ({ name := · }) } rest := by
    intro names ts rooted hnames
    cases hnames with
    | single hname =>
      refine .bind (segment_reads hname (hrest.atGenericArguments _))
        (.bind (.collect (.stop (.ahead_bind (.ite_false ?_ (.pure _))))) (.pure _))
      simp [hrest.1]
    | cons hname hmore =>
      refine .bind (segment_reads hname ?_) (.bind (furtherSegments_reads hmore hrest) (.pure _))
      cases hmore <;> simp [atGenericArguments, atPunct, atChars]
  cases hpath with
  | plain hnames =>
    refine .bind (.punct?_of_not ?_) (hbody false hnames)
    cases hnames <;> rfl
  | rooted hnames => exact .bind (.punct?_of_at rfl rfl) (hbody true hnames)

/-! ## Expressions -/

/-- Nothing goes on with an expression at the end of a part. -/
theorem AtEnd.endsPath (hrest : AtEnd rest) : EndsPath rest := by
  rcases hrest with rfl | ⟨joint, more, rfl⟩ <;> exact ⟨rfl, rfl⟩

/-- No attribute stands at the end of a part. -/
theorem AtEnd.atPunct_hash (hrest : AtEnd rest) : atPunct "#" rest = false := by
  rcases hrest with rfl | ⟨joint, more, rfl⟩ <;> rfl

/-- Nothing follows an operand at the end of a part. -/
theorem trailers_reads {g : Grammar} {value : Value} (hrest : AtEnd rest) :
    Reads (g.trailers value) rest value rest := by
  refine .repeating (.stop (.ahead_bind ?_))
  rcases hrest with rfl | ⟨joint, more, rfl⟩ <;> exact .pure _

/-- No operator follows an operand at the end of a part. -/
theorem extendRule_reads {g : Grammar} {value : Value} (hvalue : value.isRange = false)
    (hrest : AtEnd rest) : Reads (g.extendRule true .jump value) rest value rest := by
  refine .repeating (.stop (.ahead_bind (.ite_false (by simp [hvalue]) ?_)))
  rcases hrest with rfl | ⟨joint, more, rfl⟩ <;> exact .pure _

/-- What begins with none of the marks that can stand in front of an operand. -/
def Unmarked (ts : List Tree) : Prop :=
  ∀ token ∈ ["#", "&", "*", "!", "-"], atPunct token ts = false

/-- An atom that stands alone is an operand. -/
theorem operandRule_reads {g : Grammar} {value : Value} (hts : Unmarked ts)
    (hatom : Reads (g.atom true) ts value rest)
    (hsettled : value ≠ .expression .provisional) (hrest : AtEnd rest) :
    Reads (g.operandRule true) ts value rest := by
  have hattributes : Reads g.attributes ts [] ts := by
    refine .collect (.stop (.ahead_bind (.ite_false ?_ (.pure _))))
    simp [hts "#" (by decide)]
  refine .get_bind fun mark => .bind hattributes (.ahead_bind (.ite_false ?_ (.ite_false ?_ ?_)))
  · simp [hts "&" (by decide)]
  · simp [hts "*" (by decide), hts "!" (by decide), hts "-" (by decide)]
  · refine .bind hatom (.bind (trailers_reads hrest) (.ite_false hsettled ?_))
    exact .ite_false (by simp) (.pure _)

/-- An operand that stands alone is an expression. -/
theorem expression_reads {n : Nat} {value : Value}
    (hoperand : Reads ((Grammar.nested n).operandRule true) ts value rest)
    (hvalue : value.isRange = false) (hrest : AtEnd rest) :
    Reads ((Grammar.nested (n + 2)).expression true) ts value rest :=
  Reads.bind (r := (Grammar.nested (n + 1)).operand true) hoperand
    (extendRule_reads (g := Grammar.nested n) hvalue hrest)

/-- A literal is an atom. -/
theorem atom_reads_of_literal? {g : Grammar} {value : Literal} {spelling : String}
    (hvalue : literal? ts = some (value, spelling, rest)) :
    Reads (g.atom true) ts (.literal value) rest := by
  refine .ahead_bind (.ite_true ?_ (.bind (.literal hvalue) (.pure _)))
  rw [atLiteral, hvalue]
  rfl

/-- A name in a path is none of the other words. -/
theorem IsPathName.ne {name word : String} (hname : IsPathName name)
    (hword : word ∈ keywords ∧ word ∉ placeWords) : name ≠ word := by
  rintro rfl
  rcases hname with hfree | hplace
  · exact of_decide_eq_true hfree hword.1
  · exact hword.2 hplace

/-- What begins a path and nothing else. -/
inductive BeginsPath : List Tree → Prop where
  | name {name : String} {more : List Tree} (hname : IsPathName name)
      (hmore : atPunct "#" more = false) : BeginsPath (.ident name :: more)
  | root {joint : Bool} {more : List Tree} :
      BeginsPath (.punct ':' true :: .punct ':' joint :: more)

/-- Paths begin like paths. -/
theorem PathTrees.beginsPath (hpath : PathTrees IsPathName path ts)
    (hrest : atPunct "#" rest = false) : BeginsPath (ts ++ rest) := by
  cases hpath with
  | rooted _ => exact .root
  | plain hnames =>
    cases hnames with
    | single hname => exact .name hname hrest
    | cons hname _ => exact .name hname rfl

/-- No mark stands in front of a path. -/
theorem BeginsPath.unmarked (hts : BeginsPath ts) : Unmarked ts := by
  cases hts <;> simp [Unmarked, atPunct, atChars]

/-- A path begins with no literal. -/
theorem BeginsPath.literal?_eq_none (hts : BeginsPath ts) : literal? ts = none := by
  cases hts with
  | root => rfl
  | @name name more hname _ =>
    unfold literal?
    split
    next heq => cases heq
    next heq => cases heq; exact absurd rfl (hname.ne (by decide))
    next heq => cases heq; exact absurd rfl (hname.ne (by decide))
    next heq => cases heq
    next => rfl

/-- What begins a path is read as one, or as something that begins with one. -/
theorem atom_reads_of_path {g : Grammar} {value : Value} (hts : BeginsPath ts)
    (hread : Reads (g.pathExpression true) ts value rest) :
    Reads (g.atom true) ts value rest := by
  have hliteral : ¬ atLiteral ts = true := by simp [atLiteral, hts.literal?_eq_none]
  cases hts with
  | @name name more hname hmore =>
    have hasync : name ≠ "async" := hname.ne (by decide)
    have htry : name ≠ "try" := hname.ne (by decide)
    have hclosure : atClosure (.ident name :: more) = false := by
      simp [atClosure, atPunct, atChars, atOneOf, atKeyword, hasync,
        show name ≠ "move" from hname.ne (by decide),
        show name ≠ "static" from hname.ne (by decide),
        show name ≠ "for" from hname.ne (by decide),
        show name ≠ "const" from hname.ne (by decide)]
    have hoperation : atCompilerOperation (.ident name :: more) = false := by
      simp [atCompilerOperation, behind, hmore]
    refine .ahead_bind (.ite_false hliteral (.ite_false ?_ (.ite_false ?_ (.ite_false ?_
      (.ite_false ?_ (.ite_true ?_ hread))))))
    · simp [atKeyword, hasync]
    · simp [atKeyword, htry]
    · simp [hclosure]
    · simp [hoperation]
    · simp [atPathExpression, atPathName_cons hname]
  | root =>
    exact .ahead_bind (.ite_false hliteral (.ite_false Bool.false_ne_true
      (.ite_false Bool.false_ne_true (.ite_false Bool.false_ne_true
        (.ite_false Bool.false_ne_true (.ite_true rfl hread))))))

/-- The parts of a path carry no arguments. -/
theorem PathTrees.isPlain {allowed : String → Prop} (hpath : PathTrees allowed path ts) :
    isPlain path = true := by
  cases hpath <;> simp [Source.isPlain]

/-- A path that stands alone is read as its value. -/
theorem pathExpression_reads {g : Grammar} (hpath : PathTrees IsPathName path ts)
    (hrest : AtEnd rest) : Reads (g.pathExpression true) (ts ++ rest) (.path path) rest := by
  have hangle : atPunct "<" (ts ++ rest) = false := by
    cases hpath with
    | rooted _ => rfl
    | plain hnames => cases hnames <;> rfl
  have hqualified : Reads (g.qualifiedPath false) (ts ++ rest) (false, path) rest :=
    .bind (.punct?_of_not hangle) (.bind (path_reads hpath hrest.endsPath) (.pure _))
  refine .bind hqualified (.ahead_bind ?_)
  rcases hrest with rfl | ⟨joint, more, rfl⟩ <;> exact .pure _

/-- A macro is read as such. -/
theorem expansion_reads {g : Grammar} {mark : Bool} {d : Delimiter} {content : List Tree}
    (hpath : PathTrees IsPathName path ts) :
    Reads (g.pathExpression true) (ts ++ [.punct '!' mark, .group d content])
      (.expression (.expansion d)) [] := by
  have hangle : atPunct "<" (ts ++ [.punct '!' mark, .group d content]) = false := by
    cases hpath with
    | rooted _ => rfl
    | plain hnames => cases hnames <;> rfl
  have hqualified : Reads (g.qualifiedPath false) (ts ++ [.punct '!' mark, .group d content])
      (false, path) [.punct '!' mark, .group d content] :=
    .bind (.punct?_of_not hangle) (.bind (path_reads hpath ⟨rfl, rfl⟩) (.pure _))
  refine .bind hqualified (.ahead_bind (.ite_true ?_ (.bind (.punct rfl rfl)
    (.bind (.anyGroup d content) (.pure _)))))
  simp [hpath.isPlain, atPunct, atChars]

/-! ## Values of settings -/

/-- A literal that stands alone is read as the value of a setting. -/
theorem settingValue_reads_of_literal? {n : Nat} {value : Literal} {spelling : String}
    (hts : rest ≠ [] → Unmarked ts) (hvalue : literal? ts = some (value, spelling, rest))
    (hrest : AtEnd rest) :
    Reads (Grammar.nested (n + 2)).settingValue ts (.literal value) rest := by
  refine .ahead_bind ?_
  rw [hvalue]
  rcases hrest with rfl | ⟨joint, more, rfl⟩
  · exact .bind (.literal hvalue) (.pure _)
  · -- The literal is read as an expression.
    have hend : AtEnd (.punct ',' joint :: more) := .inr ⟨_, _, rfl⟩
    have hts := hts (List.cons_ne_nil _ _)
    have hoperand := operandRule_reads (g := .nested n) hts (atom_reads_of_literal? hvalue)
      (by simp) hend
    exact .ite_false (by simp [hts "#" (by decide)]) (expression_reads hoperand rfl hend)

/-- What begins with a path is read as the value of a setting. -/
theorem settingValue_reads_of_path {n : Nat} {value : Value} (hts : BeginsPath ts)
    (hread : Reads ((Grammar.nested n).pathExpression true) ts value rest)
    (hrange : value.isRange = false) (hsettled : value ≠ .expression .provisional)
    (hrest : AtEnd rest) : Reads (Grammar.nested (n + 2)).settingValue ts value rest := by
  refine .ahead_bind ?_
  rw [hts.literal?_eq_none]
  exact .ite_false (by simp [hts.unmarked "#" (by decide)]) (expression_reads
    (operandRule_reads hts.unmarked (atom_reads_of_path hts hread) hsettled hrest) hrange hrest)

end StateMachines.Source
