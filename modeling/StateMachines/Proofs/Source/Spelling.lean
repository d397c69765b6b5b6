import StateMachines.Proofs.Source.Words
import StateMachines.Proofs.Source.Rendering

/-!
# Every enum has a text

Every token that an enum is made of can be written in front of a blank, whatever stands behind the
blank: names, punctuation, delimiters and string literals, in which some characters are escaped. So
with blanks between its tokens every enum can be written whose names can.

## Main results

* `Written.word`, `Written.mark`, `Written.colons`, `Written.opening`, `Written.closing`,
  `Written.text`: a token is written in front of others.
* `exists_stateEnumText`, `exists_eventEnumText`: every enum has a text.
-/

namespace StateMachines.Source

open Text
open Derive (Path StateEnum StateVariant EventEnum EventVariant)

variable {more : List Token} {rest : List Char}

/-- Nothing is written for a blank. -/
theorem Written.blank (hrest : Written more rest) : Written more (' ' :: rest) :=
  .cons (.blank rfl) hrest

/-! ## Names -/

/-- A name that can be written, as it is or as a raw one. -/
inductive IsIdentifier : String → Prop where
  | plain {c : Char} {cs : List Char} (hc : isIdentStart c = true)
      (hcs : ∀ d ∈ cs, isIdentContinue d = true) : IsIdentifier (String.ofList (c :: cs))
  | raw {c : Char} {cs : List Char} (hc : isIdentStart c = true)
      (hcs : ∀ d ∈ cs, isIdentContinue d = true)
      (hmarkable : String.ofList (c :: cs) ∉ unmarkable) :
      IsIdentifier (String.ofList ('r' :: '#' :: c :: cs))

/-- Whether a text is a name as it is. -/
def isPlainIdentifier (name : String) : Bool :=
  match name.toList with
  | c :: cs => isIdentStart c && cs.all isIdentContinue
  | [] => false

/-- Names as they are can be written. -/
theorem isIdentifier_of_isPlain {name : String} (hname : isPlainIdentifier name = true) :
    IsIdentifier name := by
  rw [isPlainIdentifier] at hname
  cases htext : name.toList with
  | nil => simp [htext] at hname
  | cons c cs =>
    rw [htext, Bool.and_eq_true] at hname
    rw [← String.ofList_toList (s := name), htext]
    exact .plain hname.1 (List.all_eq_true.1 hname.2)

/-- A blank ends a word: what makes a word the beginning of a literal follows it at once. -/
theorem wordEnds_blank {name : List Char} (hname : ∀ d ∈ name, isIdentContinue d = true) :
    WordEnds name (' ' :: rest) := by
  refine ⟨by rintro c ⟨⟩; decide, fun opening hopening hprefix => ?_⟩
  -- The letters of an opening are followed by a mark, and the letters of a name by a blank.
  have hmark : ((opening.dropWhile isIdentContinue).head?).any (· ≠ ' ') = true := by
    have hall : (['r', '#'] :: literalOpenings).all (fun opening =>
        ((opening.dropWhile isIdentContinue).head?).any (· ≠ ' ')) = true := by
      decide
    exact List.all_eq_true.1 hall opening hopening
  obtain ⟨tail, heq⟩ := hprefix
  have hdrop := congrArg (List.dropWhile isIdentContinue) heq
  rw [List.dropWhile_append_of_pos hname, List.dropWhile_append] at hdrop
  cases hrest : opening.dropWhile isIdentContinue with
  | nil => simp [hrest] at hmark
  | cons d ds =>
    rw [hrest] at hdrop hmark
    have hblank : d = ' ' := (List.cons.inj hdrop).1
    simp [hblank] at hmark

/-- A name is written in front of a blank. -/
theorem Written.word {name : String} (hname : IsIdentifier name) (hrest : Written more rest) :
    Written (.ident name :: more) (name.toList ++ ' ' :: rest) := by
  cases hname with
  | plain hc hcs =>
    rw [String.toList_ofList]
    exact .cons (.word hc hcs (wordEnds_blank (List.forall_mem_cons.2
      ⟨isIdentContinue_of_isIdentStart hc, hcs⟩))) hrest.blank
  | raw hc hcs hmarkable =>
    rw [String.toList_ofList]
    exact .cons (.rawWord hc hcs hmarkable (by rintro c ⟨⟩; decide)) hrest.blank

/-- As it is. -/
theorem Written.plainWord (name : String) (hname : isPlainIdentifier name = true)
    (hrest : Written more rest) : Written (.ident name :: more) (name.toList ++ ' ' :: rest) :=
  hrest.word (isIdentifier_of_isPlain hname)

/-! ## Marks -/

/-- A mark in front of a blank stands alone. -/
theorem isMark_blank {c : Char} (hc : c ∈ punctuation) : IsMark c (' ' :: rest) :=
  ⟨hc, by simp⟩

/-- A mark is written in front of a blank. -/
theorem Written.mark {c : Char} (hc : c ∈ punctuation) (hquote : c ≠ '\x27')
    (hrest : Written more rest) : Written (.punct c false :: more) (c :: ' ' :: rest) := by
  have htouches : ¬ Touches (' ' :: rest) := by
    rintro ⟨d, after, heq, hd, -⟩
    cases heq
    exact absurd hd (by decide)
  exact .cons (.mark (isMark_blank hc) hquote (by simp [htouches])) hrest.blank

/-- The mark between the names of a path is written in front of a blank. -/
theorem Written.colons (hrest : Written more rest) :
    Written (.punct ':' true :: .punct ':' false :: more) (':' :: ':' :: ' ' :: rest) := by
  have htouches : Touches (':' :: ' ' :: rest) := ⟨':', ' ' :: rest, rfl, isMark_blank (by decide)⟩
  have hfirst : Lexeme [.punct ':' true] [':'] (':' :: ' ' :: rest) :=
    .mark ⟨by decide, by simp⟩ (by decide) (by simp [htouches])
  have hsecond : Written (.punct ':' false :: more) (':' :: ' ' :: rest) :=
    hrest.mark (by decide) (by decide)
  exact .cons hfirst hsecond

/-- An opening delimiter is written in front of a blank. -/
theorem Written.opening (d : Delimiter) (hrest : Written more rest) :
    Written (.opening d :: more) (d.chars.1 :: ' ' :: rest) := by
  have hfault : ¬ faultMark <+: d.chars.1 :: ' ' :: rest := by
    have hmark : faultMark = '(' :: '/' :: "*ERROR*/)".toList := by decide
    rw [hmark, List.cons_prefix_cons, List.cons_prefix_cons]
    exact fun hprefix => absurd hprefix.2.1 (by decide)
  have hlexeme : Lexeme [.opening d] [d.chars.1] (' ' :: rest) := .opening d hfault
  exact .cons hlexeme hrest.blank

/-- A closing delimiter is written in front of a blank. -/
theorem Written.closing (d : Delimiter) (hrest : Written more rest) :
    Written (.closing d :: more) (d.chars.2 :: ' ' :: rest) := by
  have hlexeme : Lexeme [.closing d] [d.chars.2] (' ' :: rest) := .closing d
  exact .cons hlexeme hrest.blank

/-! ## String literals -/

/-- What stands for a character between quotes. -/
def escapedChar (c : Char) : List Char :=
  if c = '\x22' ∨ c = '\x5c' then ['\x5c', c] else if c = '\r' then ['\x5c', 'r'] else [c]

/-- What stands for a text between quotes stands for this text. -/
theorem quoted_flatMap_escapedChar (value : List Char) :
    Quoted .text value (value.flatMap escapedChar ++ ['\x22']) := by
  induction value with
  | nil => exact .close
  | cons c value ih =>
    rw [List.flatMap_cons, List.append_assoc, escapedChar]
    split
    next hc =>
      have hescape : Escape .text c [c] := .mark (by rcases hc with rfl | rfl <;> decide) nofun
      exact .escape hescape ih
    next hc =>
      obtain ⟨hquote, hbackslash⟩ := not_or.1 hc
      split
      next hreturn =>
        subst hreturn
        have hescape : Escape .text '\r' ['r'] := .mark (by decide) nofun
        exact .escape hescape ih
      next hreturn => exact .char ⟨hquote, hbackslash, hreturn⟩ rfl ih

/-- The spelling of a text between quotes. -/
def quotedText (value : String) : List Char :=
  '\x22' :: (value.toList.flatMap escapedChar ++ ['\x22'])

/-- A string literal is written in front of a blank. -/
theorem Written.text (value : String) (hrest : Written more rest) :
    Written (.literal (.string value false) (String.ofList (quotedText value)) :: more)
      (quotedText value ++ ' ' :: rest) := by
  have hsuffix : Suffix [] (' ' :: rest) := .none (by rintro c ⟨⟩; decide)
  have hliteral := Lexeme.text (.ordinary (quoted_flatMap_escapedChar value.toList)) hsuffix
  rw [String.ofList_toList, List.append_nil] at hliteral
  exact .cons hliteral hrest.blank

/-! ## Trees -/

/-- Tokens can be written in front of others. -/
def Writable (tokens : List Token) : Prop :=
  ∀ more rest, Written more rest → ∃ text, Written (tokens ++ more) text

/-- Trees can be written. -/
def WritableTrees (ts : List Tree) : Prop := Writable (treesTokens ts)

/-- The tokens of trees stand one after another. -/
theorem treesTokens_append (ts us : List Tree) :
    treesTokens (ts ++ us) = treesTokens ts ++ treesTokens us := by
  induction ts with
  | nil => rfl
  | cons t ts ih => rw [List.cons_append, treesTokens, treesTokens, ih, List.append_assoc]

namespace WritableTrees

variable {ts us : List Tree} {joint : Bool}

theorem nil : WritableTrees [] := fun _ rest hrest => ⟨rest, hrest⟩

theorem append (hts : WritableTrees ts) (hus : WritableTrees us) : WritableTrees (ts ++ us) := by
  intro more rest hrest
  obtain ⟨between, hbetween⟩ := hus more rest hrest
  obtain ⟨text, htext⟩ := hts _ between hbetween
  rw [treesTokens_append, List.append_assoc]
  exact ⟨text, htext⟩

theorem ident {name : String} (hname : IsIdentifier name) (hts : WritableTrees ts) :
    WritableTrees (.ident name :: ts) := by
  intro more rest hrest
  obtain ⟨text, htext⟩ := hts more rest hrest
  exact ⟨_, htext.word hname⟩

theorem punct {c : Char} (hc : c ∈ punctuation ∧ c ≠ '\x27') (hts : WritableTrees ts) :
    WritableTrees (.punct c false :: ts) := by
  intro more rest hrest
  obtain ⟨text, htext⟩ := hts more rest hrest
  exact ⟨_, htext.mark hc.1 hc.2⟩

theorem colons (hts : WritableTrees ts) :
    WritableTrees (.punct ':' true :: .punct ':' false :: ts) := by
  intro more rest hrest
  obtain ⟨text, htext⟩ := hts more rest hrest
  exact ⟨_, htext.colons⟩

theorem text (value : String) (hts : WritableTrees ts) :
    WritableTrees
      (.literal (.string value false) (String.ofList (quotedText value)) :: ts) := by
  intro more rest hrest
  obtain ⟨text, htext⟩ := hts more rest hrest
  exact ⟨_, htext.text value⟩

theorem group (d : Delimiter) (hts : WritableTrees ts) (hus : WritableTrees us) :
    WritableTrees (.group d ts :: us) := by
  intro more rest hrest
  obtain ⟨behind, hbehind⟩ := hus more rest hrest
  obtain ⟨content, hcontent⟩ := hts _ _ (hbehind.closing d)
  refine ⟨d.chars.1 :: ' ' :: content, ?_⟩
  have hopening := hcontent.opening d
  rw [treesTokens, Tree.tokens]
  simpa using hopening

end WritableTrees

/-! ## Parts of enums -/

/-- A name that is not reserved and can be written. -/
structure IsValidName (name : String) : Prop where
  free : IsFree name
  identifier : IsIdentifier name

/-- The fields and the names of attributes are such names. -/
theorem isValidName_of_mem {name : String} (hname : name ∈ ["fsm", "state", "event", "name", "out",
    "events", "allow_unreachable"]) : IsValidName name := by
  have hall : (["fsm", "state", "event", "name", "out", "events", "allow_unreachable"].all
      fun name => isName name && isPlainIdentifier name) = true := by
    decide
  have hvalid := List.all_eq_true.1 hall name hname
  rw [Bool.and_eq_true] at hvalid
  exact ⟨hvalid.1, isIdentifier_of_isPlain hvalid.2⟩

/-- A path of such names. -/
def IsValidPath (path : Path) : Prop :=
  ∃ rooted names, names ≠ [] ∧ (∀ name ∈ names, IsValidName name) ∧
    path = { rooted, segments := names.map ({ name := · }) }

/-- A part can be written. -/
def CanBeWritten {α : Type} (part : α → List Tree → Prop) (a : α) : Prop :=
  ∃ ts, part a ts ∧ WritableTrees ts

/-- Names joined by `::` can be written. -/
theorem canBeWritten_names {names : List String} (hne : names ≠ [])
    (hnames : ∀ name ∈ names, IsValidName name) : CanBeWritten (NamesTrees IsFree) names := by
  induction names with
  | nil => exact absurd rfl hne
  | cons name names ih =>
    obtain ⟨hname, hnames⟩ := List.forall_mem_cons.1 hnames
    cases names with
    | nil => exact ⟨_, .single hname.free, .ident hname.identifier .nil⟩
    | cons next names =>
      obtain ⟨ts, hts, hwritable⟩ := ih (List.cons_ne_nil _ _) hnames
      exact ⟨_, .cons hname.free hts, .ident hname.identifier (.colons hwritable)⟩

/-- A path can be written. -/
theorem IsValidPath.canBeWritten {path : Path} (hpath : IsValidPath path) :
    CanBeWritten (PathTrees IsFree) path := by
  obtain ⟨rooted, names, hne, hnames, rfl⟩ := hpath
  obtain ⟨ts, hts, hwritable⟩ := canBeWritten_names hne hnames
  cases rooted with
  | false => exact ⟨ts, .plain hts, hwritable⟩
  | true => exact ⟨_, .rooted hts, .colons hwritable⟩

/-- A list can be written if its parts can. -/
theorem canBeWritten_commas {α : Type} {part : α → List Tree → Prop} {as : List α}
    (has : ∀ a ∈ as, CanBeWritten part a) : CanBeWritten (Commas part) as := by
  induction as with
  | nil => exact ⟨[], .nil, .nil⟩
  | cons a as ih =>
    obtain ⟨ha, has⟩ := List.forall_mem_cons.1 has
    obtain ⟨ts, hts, hwritable⟩ := ha
    obtain ⟨more, hmore, hrest⟩ := ih has
    exact ⟨_, .cons hts hmore, hwritable.append (.punct (by decide) hrest)⟩

/-- What can be given. -/
def Given.IsValid : Given → Prop
  | .text field _ => IsValidName field
  | .flag field _ => IsValidName field
  | .path field value => IsValidName field ∧ IsValidPath value
  | .paths field value => IsValidName field ∧ ∀ path ∈ value, IsValidPath path

/-- What is given can be written as an entry. -/
theorem Given.IsValid.canBeWritten {given : Given} (hgiven : given.IsValid) :
    CanBeWritten Given.Trees given := by
  cases given with
  | text field value =>
    exact ⟨_, .text, .ident hgiven.identifier (.punct (by decide) (.text value .nil))⟩
  | flag field value =>
    have hword : IsIdentifier (flagWord value) := by
      cases value <;> exact isIdentifier_of_isPlain rfl
    exact ⟨_, .flag, .ident hgiven.identifier (.punct (by decide) (.ident hword .nil))⟩
  | path field value =>
    obtain ⟨ts, hts, hwritable⟩ := hgiven.2.canBeWritten
    exact ⟨_, .path hts, .ident hgiven.1.identifier (.punct (by decide) hwritable)⟩
  | paths field value =>
    obtain ⟨ts, hts, hwritable⟩ := canBeWritten_commas fun path hpath =>
      (hgiven.2 path hpath).canBeWritten
    exact ⟨_, .paths hts, .ident hgiven.1.identifier (.group .paren hwritable .nil)⟩

/-- All that is given can be written in one attribute. -/
theorem canBeWritten_attributes {own : String} {gs : List Given} (hown : IsValidName own)
    (hgs : ∀ given ∈ gs, given.IsValid) :
    ∃ ts, AttributesTrees (some own) gs ts ∧ WritableTrees ts := by
  obtain ⟨content, hcontent, hwritable⟩ := canBeWritten_commas fun given hgiven =>
    (hgs given hgiven).canBeWritten
  have hattributes : AttributesTrees (some own) (gs ++ []) [.punct '#' false,
      .group .bracket [.ident own, .group .paren content]] := .list rfl hcontent .nil
  rw [List.append_nil] at hattributes
  exact ⟨_, hattributes, .punct (by decide)
    (.group .bracket (.ident hown.identifier (.group .paren hwritable .nil)) .nil)⟩

/-- A variant can be written. -/
theorem canBeWritten_variant {own ident : String} {gs : List Given} (hown : IsValidName own)
    (hident : IsValidName ident) (hgs : ∀ given ∈ gs, given.IsValid) :
    ∃ ts, VariantTrees own ident gs ts ∧ WritableTrees ts := by
  obtain ⟨ts, hts, hwritable⟩ := canBeWritten_attributes hown hgs
  exact ⟨_, .variant hts hident.free .none, hwritable.append (.ident hident.identifier .nil)⟩

/-- An enum can be written behind its attributes. -/
theorem canBeWritten_enum {ν : Type} {own : Option String} {variant : ν → List Tree → Prop}
    {ident : String} {gs : List Given} {variants : List ν} {attributes : List Tree}
    (hattributes : AttributesTrees own gs attributes) (hwritable : WritableTrees attributes)
    (hident : IsValidName ident) (hvariants : ∀ v ∈ variants, CanBeWritten variant v) :
    ∃ ts text, EnumTrees own variant ident gs variants ts ∧ TextOf ts text := by
  obtain ⟨content, hcontent, hbody⟩ := canBeWritten_commas hvariants
  have henum : WritableTrees (attributes ++ ([] ++ [.ident "enum", .ident ident,
      .group .brace content])) :=
    hwritable.append (.ident (isIdentifier_of_isPlain rfl)
      (.ident hident.identifier (.group .brace hbody .nil)))
  obtain ⟨cs, hcs⟩ := henum [] [] .nil
  rw [List.append_nil] at hcs
  exact ⟨_, String.ofList cs, .enum hattributes .default hident.free hcontent, cs, hcs,
    .inl (String.toList_ofList)⟩

/-! ## Enums -/

/-- The names of a state, its targets and its events can be written. -/
structure StateVariant.IsValid (v : StateVariant) : Prop where
  ident : IsValidName v.ident
  out : ∀ path ∈ v.out, IsValidPath path
  events : ∀ path ∈ v.events, IsValidPath path

/-- What is given for a state: all that is declared. -/
def StateVariant.given (v : StateVariant) : List Given :=
  v.name.toList.map (.text "name") ++ [.paths "out" v.out, .paths "events" v.events]

/-- Each field of a state is given once. -/
theorem StateVariant.gives_given (v : StateVariant) : StateVariant.Gives v (given v) where
  nodup := by cases hname : v.name <;> simp [given, hname, Given.field]
  declared := by cases hname : v.name <;> simp [given, hname]
  name := by simp +contextual [given]
  out := by simp [given]
  events := by simp [given]

/-- A state can be written. -/
theorem StateVariant.IsValid.canBeWritten {v : StateVariant} (hv : StateVariant.IsValid v) :
    CanBeWritten (fun v ts => ∃ gs, StateVariant.Gives v gs ∧ VariantTrees "state" v.ident gs ts)
      v := by
  have hgiven : ∀ given ∈ StateVariant.given v, given.IsValid := by
    simp only [StateVariant.given, List.forall_mem_append, List.forall_mem_map,
      List.forall_mem_cons]
    exact ⟨fun name _ => isValidName_of_mem (by decide),
      ⟨isValidName_of_mem (by decide), hv.out⟩, ⟨isValidName_of_mem (by decide), hv.events⟩,
      by simp⟩
  have hown : IsValidName "state" := isValidName_of_mem (by decide)
  obtain ⟨ts, hts, hwritable⟩ := canBeWritten_variant hown hv.ident hgiven
  exact ⟨ts, ⟨_, StateVariant.gives_given v, hts⟩, hwritable⟩

/-- The names of a state enum and of its states can be written. -/
structure StateEnum.IsValid (e : StateEnum) : Prop where
  ident : IsValidName e.ident
  events : ∀ path ∈ e.events, IsValidPath path
  variants : ∃ variants, e.variants = some variants ∧ ∀ v ∈ variants, StateVariant.IsValid v

/-- What is given for a state enum: all that is declared. -/
def StateEnum.given (e : StateEnum) : List Given :=
  e.events.toList.map (.path "events") ++ [.flag "allow_unreachable" e.allowUnreachable]

/-- Each field of a state enum is given once. -/
theorem StateEnum.gives_given (e : StateEnum) : StateEnum.Gives e (given e) where
  nodup := by cases hevents : e.events <;> simp [given, hevents, Given.field]
  declared := by cases hevents : e.events <;> simp [given, hevents]
  events := by simp +contextual [given]
  allowUnreachable := by simp +contextual [given]

/-- Every state enum has a text. -/
theorem exists_stateEnumText {e : StateEnum} (he : StateEnum.IsValid e) :
    ∃ text, StateEnumText e text := by
  obtain ⟨variants, hvariants, hvalid⟩ := he.variants
  have hgiven : ∀ given ∈ StateEnum.given e, given.IsValid := by
    simp only [StateEnum.given, List.forall_mem_append, List.forall_mem_map, List.forall_mem_cons]
    exact ⟨fun path hpath => ⟨isValidName_of_mem (by decide),
      he.events path (Option.mem_toList.1 hpath)⟩, isValidName_of_mem (by decide), by simp⟩
  have hown : IsValidName "fsm" := isValidName_of_mem (by decide)
  obtain ⟨attributes, hattributes, hwritable⟩ := canBeWritten_attributes hown hgiven
  obtain ⟨ts, text, henum, htext⟩ := canBeWritten_enum hattributes hwritable he.ident
    fun v hv => (hvalid v hv).canBeWritten
  exact ⟨text, variants, _, ts, hvariants, StateEnum.gives_given e, henum, htext⟩

/-- The names of an event enum and of its events can be written. -/
structure EventEnum.IsValid (e : EventEnum) : Prop where
  ident : IsValidName e.ident
  variants : ∃ variants, e.variants = some variants ∧ ∀ v ∈ variants, IsValidName v.ident

/-- What is given for an event: its name, if it has another one. -/
def EventVariant.given (v : EventVariant) : List Given := v.name.toList.map (.text "name")

/-- The field of an event is given at most once. -/
theorem EventVariant.gives_given (v : EventVariant) : EventVariant.Gives v (given v) where
  nodup := by cases hname : v.name <;> simp [given, hname]
  declared := by cases hname : v.name <;> simp [given, hname]
  name := by simp +contextual [given]

/-- Every event enum has a text. -/
theorem exists_eventEnumText {e : EventEnum} (he : EventEnum.IsValid e) :
    ∃ text, EventEnumText e text := by
  obtain ⟨variants, hvariants, hvalid⟩ := he.variants
  have hvariant : ∀ v ∈ variants, CanBeWritten
      (fun v ts => ∃ gs, EventVariant.Gives v gs ∧ VariantTrees "event" v.ident gs ts) v := by
    intro v hv
    have hgiven : ∀ given ∈ EventVariant.given v, given.IsValid := by
      simp only [EventVariant.given, List.forall_mem_map]
      exact fun name _ => isValidName_of_mem (by decide)
    have hown : IsValidName "event" := isValidName_of_mem (by decide)
    obtain ⟨ts, hts, hwritable⟩ := canBeWritten_variant hown (hvalid v hv) hgiven
    exact ⟨ts, ⟨_, EventVariant.gives_given v, hts⟩, hwritable⟩
  obtain ⟨ts, text, henum, htext⟩ := canBeWritten_enum .nil .nil he.ident hvariant
  exact ⟨text, variants, ts, hvariants, henum, htext⟩

end StateMachines.Source
