import StateMachines.Proofs.Source.Layout
import StateMachines.Proofs.Source.Parts

/-!
# Reading attributes

Attributes are read as settings. Those of a certain name hold entries, which mean what is given
there; all others have no effect on what is gathered from that name.

## Main results

* `Given.MeantBy`: what a setting means.
* `settings_eq`: the entries of an attribute mean what is given.
* `attributes_reads`: attributes are read, and what is gathered from them is what is given.
-/

namespace StateMachines.Source

open Derive (Path)
open Reader

variable {ts rest content : List Tree} {path : Path} {n : Nat} {d : Delimiter}

/-! ## Settings -/

/-- The name of an attribute is read. -/
theorem settingPath_reads (hname : AttributeName path ts) (hrest : EndsPath rest) :
    Reads settingPath (ts ++ rest) path rest := by
  cases hname with
  | path hpath =>
    refine .ahead_bind (.ite_false ?_ (plainPath_reads hpath hrest))
    have hnames : ∀ {names ts}, NamesTrees IsPathName names ts →
        atKeyword "unsafe" (ts ++ rest) = false := by
      intro names ts hnames
      cases hnames with
      | single hname => exact decide_eq_false (hname.ne (by decide))
      | cons hname _ => exact decide_eq_false (hname.ne (by decide))
    cases hpath with
    | plain h => simp [hnames h]
    | rooted _ => exact Bool.false_ne_true
  | unsafe_ => exact .ahead_bind (.ite_true rfl (.bind (.word _) (.pure _)))

/-- A setting without anything behind its path. -/
theorem setting_reads_word {g : Grammar} (hname : AttributeName path ts) (hrest : AtEnd rest) :
    Reads g.setting (ts ++ rest) { path, body := .word } rest := by
  refine .bind (settingPath_reads hname hrest.endsPath) (.ahead_bind ?_)
  rcases hrest with rfl | ⟨joint, more, rfl⟩ <;> exact .pure _

/-- A setting with a list. -/
theorem setting_reads_list {g : Grammar} (hname : AttributeName path ts) :
    Reads g.setting (ts ++ .group d content :: rest) { path, body := .list content } rest :=
  .bind (settingPath_reads hname ⟨rfl, rfl⟩)
    (.ahead_bind (.bind (Reads.anyGroup d content).discard (.pure _)))

/-- A setting with a value. -/
theorem setting_reads_value {g : Grammar} {value : Value} {joint : Bool} {vs : List Tree}
    (hname : AttributeName path ts) (hequals : atChars ['='] vs = false)
    (hgreater : atChars ['>'] vs = false) (hvalue : Reads g.settingValue vs value rest) :
    Reads g.setting (ts ++ .punct '=' joint :: vs) { path, body := .value value } rest := by
  -- Neither a comparison nor an arrow begins with this equals sign.
  have hdouble : atPunct "==" (.punct '=' joint :: vs) = false := by
    change atChars ['=', '='] _ = false
    simpa [atChars] using fun _ => hequals
  have harrow : atPunct "=>" (.punct '=' joint :: vs) = false := by
    change atChars ['=', '>'] _ = false
    simpa [atChars] using fun _ => hgreater
  have hcondition : (atPunct "=" (.punct '=' joint :: vs) &&
      !atPunct "==" (.punct '=' joint :: vs) && !atPunct "=>" (.punct '=' joint :: vs)) = true := by
    rw [hdouble, harrow]
    rfl
  exact .bind (settingPath_reads hname ⟨rfl, rfl⟩)
    (.ahead_bind (.ite_true hcondition (.bind (.punct rfl rfl) (.bind hvalue (.pure _)))))

/-- A path stands in front of neither an equals sign nor a greater sign. -/
theorem BeginsPath.atChars_eq_false (hts : BeginsPath ts) :
    atChars ['='] ts = false ∧ atChars ['>'] ts = false := by
  cases hts <;> exact ⟨rfl, rfl⟩

/-- What follows the name of an attribute is read. -/
theorem BodyTrees.setting_reads {name body : List Tree} (hname : AttributeName path name)
    (hbody : BodyTrees body) :
    ∃ read, Reads (Grammar.nested (n + 2)).setting (name ++ body) { path, body := read } [] := by
  cases hbody with
  | word => exact ⟨_, setting_reads_word hname (.inl rfl)⟩
  | list => exact ⟨_, setting_reads_list hname⟩
  | @literal vs joint hvalue =>
    obtain ⟨value, spelling, hread⟩ : ∃ value spelling,
        literal? vs = some (value, spelling, []) := by
      cases hvalue with
      | literal => exact ⟨_, _, rfl⟩
      | @flag value => cases value <;> exact ⟨_, _, rfl⟩
      | negative hnumber => exact ⟨_, _, if_pos hnumber⟩
    refine ⟨_, setting_reads_value hname ?_ ?_
      (settingValue_reads_of_literal? (absurd rfl) hread (.inl rfl))⟩ <;>
      cases hvalue <;> rfl
  | @expansion _ ts content d joint mark hpath =>
    have hts : BeginsPath (ts ++ [.punct '!' mark, .group d content]) := hpath.beginsPath rfl
    exact ⟨_, setting_reads_value hname hts.atChars_eq_false.1 hts.atChars_eq_false.2
      (settingValue_reads_of_path hts (expansion_reads hpath) rfl (by simp) (.inl rfl))⟩

/-! ## Entries -/

/-- An entry that begins with a path is a setting. -/
theorem entry_reads {g : Grammar} {s : Setting} {more : List Tree}
    (hpath : PathTrees IsPathName path ts) (hmore : atPunct "#" more = false)
    (hsetting : Reads g.setting (ts ++ more) s rest) :
    Reads g.entry (ts ++ more) (.setting s) rest := by
  have hliteral : atLiteral (ts ++ more) = false := by
    simp [atLiteral, (hpath.beginsPath hmore).literal?_eq_none]
  refine .ahead_bind (.ite_false (by simp [hliteral]) (.ite_true ?_ (.bind hsetting (.pure _))))
  cases hpath with
  | plain hnames => cases hnames <;> simp [atWord]
  | rooted hnames => cases hnames <;> simp [atWord, atPunct, atChars]

/-- What a setting means for what is given. -/
def Given.MeantBy (s : Setting) : Given → Prop
  | .text field value => s.path = .ofName field ∧ s.asText = .ok value
  | .flag field value => s.path = .ofName field ∧ s.asFlag = .ok value
  | .path field value => s.path = .ofName field ∧ s.asPath = .ok value
  | .paths field value => s.path = .ofName field ∧ s.asPaths = .ok value

/-- A name is a path. -/
theorem IsFree.pathTrees {name : String} (hname : IsFree name) :
    PathTrees IsPathName (.ofName name) [.ident name] := .plain (.single hname.isPathName)

/-- Entries of a list are read, provided that each of them is. -/
theorem settings_eq_of_reads {β : Type} {part : β → List Tree → Prop} {means : β → Entry → Prop}
    {bs : List β} (hentry : ∀ n, ∀ b ∈ bs, ∀ ts, part b ts →
      ∃ e, means b e ∧ ReadsPart (Grammar.nested (n + 2)).entry ts e)
    (hlist : Commas part bs content) :
    ∃ entries, List.Forall₂ means bs entries ∧ settings content = .ok entries := by
  obtain ⟨entries, hentries, hread⟩ :=
    commaSeparated_reads (hentry (4 * treesSize content + 2)) hlist
  exact ⟨entries, hentries, hread.readAll⟩

/-- A path in a list of paths is read. -/
theorem entry_readsPart_path {g : Grammar} (hpath : PathTrees IsFree path ts) :
    ReadsPart g.entry ts (.setting { path, body := .word }) :=
  ⟨hpath.ne_nil, fun _ hrest => entry_reads hpath.isPathName hrest.atPunct_hash
    (setting_reads_word (.path hpath.isPathName) hrest)⟩

/-- Listed paths are read. -/
theorem mapM_listedPath {paths : List Path} (hpaths : Commas (PathTrees IsFree) paths content) :
    ∃ entries, settings content = .ok entries ∧ entries.mapM Setting.listedPath = .ok paths := by
  have hentry : ∀ n, ∀ path ∈ paths, ∀ ts, PathTrees IsFree path ts →
      ∃ e, Setting.listedPath e = .ok path ∧ ReadsPart (Grammar.nested (n + 2)).entry ts e :=
    fun n path _ ts hpath => ⟨_, rfl, entry_readsPart_path hpath⟩
  obtain ⟨entries, hentries, hread⟩ := settings_eq_of_reads hentry hpaths
  refine ⟨entries, hread, ?_⟩
  clear hread hpaths hentry
  induction hentries with
  | nil => rfl
  | cons he _ ih =>
    rw [List.mapM_cons, he, ih]
    rfl

/-- A text that is a path is read as one. -/
theorem pathOfText?_eq {text : String} (hpath : PathTrees IsFree path ts) (htext : TextOf ts text) :
    pathOfText? text = some path := by
  have hread : Reads ((Grammar.nested (4 * treesSize ts + 4)).path true) (ts ++ []) path [] :=
    path_reads hpath.isPathName ⟨rfl, rfl⟩
  rw [List.append_nil] at hread
  rw [pathOfText?, htext.read?_eq, Option.bind_some, readPart, hread.readAll]
  rfl

/-- An entry with a value is read, if its value is. -/
theorem entry_readsPart_value {g : Grammar} {field : String} {joint : Bool} {value : Value}
    (hfield : IsFree field) (hvalue : ∀ rest, AtEnd rest → atChars ['='] (ts ++ rest) = false ∧
      atChars ['>'] (ts ++ rest) = false ∧ Reads g.settingValue (ts ++ rest) value rest) :
    ReadsPart g.entry (.ident field :: .punct '=' joint :: ts)
      (.setting { path := .ofName field, body := .value value }) := by
  refine ⟨List.cons_ne_nil _ _, fun rest hrest => ?_⟩
  obtain ⟨hequals, hgreater, hread⟩ := hvalue rest hrest
  have hentry : Reads g.entry ([.ident field] ++ .punct '=' joint :: (ts ++ rest)) _ rest :=
    entry_reads hfield.pathTrees rfl
      (setting_reads_value (.path hfield.pathTrees) hequals hgreater hread)
  exact hentry

/-- An entry with a literal is read. -/
theorem entry_readsPart_literal {field : String} {joint : Bool} {t : Tree} {value : Literal}
    {spelling : String} (hfield : IsFree field)
    (hread : ∀ rest, literal? (t :: rest) = some (value, spelling, rest))
    (hpunct : ∀ c joint, t ≠ .punct c joint) :
    ReadsPart (Grammar.nested (n + 2)).entry [.ident field, .punct '=' joint, t]
      (.setting { path := .ofName field, body := .value (.literal value) }) := by
  have hchars : ∀ c cs rest, atChars (c :: cs) (t :: rest) = false := by
    intro c cs rest
    cases t with
    | punct c joint => exact absurd rfl (hpunct c joint)
    | _ => rfl
  have hmark : ∀ rest, Unmarked (t :: rest) := by
    intro rest
    simp only [Unmarked, List.forall_mem_cons]
    exact ⟨hchars _ _ _, hchars _ _ _, hchars _ _ _, hchars _ _ _, hchars _ _ _, by simp⟩
  exact entry_readsPart_value hfield fun rest hrest => ⟨hchars _ _ _, hchars _ _ _,
    settingValue_reads_of_literal? (fun _ => hmark rest) (hread rest) hrest⟩

/-- What is given in an entry is read. -/
theorem Given.Trees.readsPart {given : Given} (hgiven : given.Trees ts)
    (hfield : IsFree given.field) :
    ∃ s, given.MeantBy s ∧ ReadsPart (Grammar.nested (n + 2)).entry ts (.setting s) := by
  cases hgiven with
  | text =>
    exact ⟨_, ⟨rfl, rfl⟩, entry_readsPart_literal hfield (fun _ => rfl) (by simp)⟩
  | word =>
    refine ⟨{ path := _, body := .word }, ⟨rfl, rfl⟩, List.cons_ne_nil _ _, fun rest hrest => ?_⟩
    exact entry_reads hfield.pathTrees hrest.atPunct_hash
      (setting_reads_word (.path hfield.pathTrees) hrest)
  | @flag _ value =>
    have hword : ∀ rest, literal? (.ident (flagWord value) :: rest) =
        some (.bool value, flagWord value, rest) := by
      cases value <;> exact fun _ => rfl
    exact ⟨{ path := _, body := .value (.literal (.bool value)) }, ⟨rfl, rfl⟩,
      entry_readsPart_literal hfield hword (by simp)⟩
  | @quotedFlag _ spelling value =>
    refine ⟨_, ⟨rfl, ?_⟩, entry_readsPart_literal hfield (fun _ => rfl) (by simp)⟩
    cases value <;> rfl
  | @path _ value _ _ hpath =>
    refine ⟨{ path := _, body := .value (.path value) }, ⟨rfl, rfl⟩,
      entry_readsPart_value hfield fun rest hrest => ?_⟩
    have hts := hpath.isPathName.beginsPath hrest.atPunct_hash
    exact ⟨hts.atChars_eq_false.1, hts.atChars_eq_false.2, settingValue_reads_of_path hts
      (pathExpression_reads hpath.isPathName hrest) rfl (by simp) hrest⟩
  | quotedPath hpath htext =>
    refine ⟨_, ⟨rfl, ?_⟩, entry_readsPart_literal hfield (fun _ => rfl) (by simp)⟩
    simp [Setting.asPath, pathOfText?_eq hpath htext]
  | @paths _ value content d hpaths =>
    obtain ⟨entries, hread, hmap⟩ := mapM_listedPath hpaths
    refine ⟨{ path := _, body := .list content }, ⟨rfl, ?_⟩, List.cons_ne_nil _ _,
      fun rest hrest => ?_⟩
    · simp [Setting.asPaths, hread, hmap]
    · have hentry : Reads (Grammar.nested (n + 2)).entry ([.ident _] ++ .group d content :: rest)
          _ rest :=
        entry_reads hfield.pathTrees rfl (setting_reads_list (.path hfield.pathTrees))
      exact hentry

/-! ## Attributes -/

/-- What stands in a list is read as settings that mean it. -/
theorem settings_eq {gs : List Given} (hlist : Commas Given.Trees gs content)
    (hfields : ∀ given ∈ gs, IsFree given.field) :
    ∃ ss : List Setting, List.Forall₂ (fun given s => given.MeantBy s) gs ss ∧
      settings content = .ok (ss.map .setting) := by
  have hentry : ∀ n, ∀ given ∈ gs, ∀ ts, given.Trees ts →
      ∃ e, (∃ s, e = .setting s ∧ given.MeantBy s) ∧
        ReadsPart (Grammar.nested (n + 2)).entry ts e := by
    intro n given hmem ts hgiven
    obtain ⟨s, hs, hread⟩ := hgiven.readsPart (n := n) (hfields given hmem)
    exact ⟨_, ⟨s, rfl, hs⟩, hread⟩
  obtain ⟨entries, hentries, hread⟩ := settings_eq_of_reads hentry hlist
  have hsettings : ∃ ss : List Setting, List.Forall₂ (fun given s => given.MeantBy s) gs ss ∧
      entries = ss.map .setting := by
    clear hread hentry hfields hlist
    induction hentries with
    | nil => exact ⟨[], .nil, rfl⟩
    | cons he _ ih =>
      obtain ⟨s, rfl, hs⟩ := he
      obtain ⟨ss, hss, rfl⟩ := ih
      exact ⟨s :: ss, .cons hs hss, rfl⟩
  obtain ⟨ss, hss, rfl⟩ := hsettings
  exact ⟨ss, hss, hread⟩

/-- What is gathered from attributes of a name is what the settings are that are given there. -/
def Gathers (own : Option String) (attributes ss : List Setting) : Prop :=
  ∀ name ∈ own, ∀ {ρ : Type} (fields : Fields ρ) (r : Reading ρ),
    attributes.foldl (Reading.readAttribute name fields) r = ss.foldl (Reading.set fields) r

/-- Nothing is gathered from an attribute of another name, or from one without a list. -/
theorem Gathers.skip {own : Option String} {s : Setting} {attributes ss : List Setting}
    (hs : ∀ name ∈ own, s.path = .ofName name → s.body = .word)
    (hgathers : Gathers own attributes ss) : Gathers own (s :: attributes) ss := by
  intro name hname ρ fields r
  have hread : Reading.readAttribute name fields r s = r := by
    unfold Reading.readAttribute
    split
    next hpath => rw [hs name hname hpath]
    next => rfl
  rw [List.foldl_cons, hread, hgathers name hname]

/-- From an attribute of the name its list is gathered. -/
theorem Gathers.list {own : Option String} {name : String} {attributes ss more : List Setting}
    (hname : own = some name) (hread : settings content = .ok (ss.map .setting))
    (hgathers : Gathers own attributes more) :
    Gathers own ({ path := .ofName name, body := .list content } :: attributes) (ss ++ more) := by
  intro name' hname' ρ fields r
  obtain rfl : name = name' := Option.some.inj (hname.symm.trans hname')
  have hlist : Reading.readAttribute name fields r
      { path := .ofName name, body := .list content } = ss.foldl (Reading.set fields) r := by
    rw [Reading.readAttribute, if_pos rfl]
    simp only [hread, List.foldl_map]
    rfl
  rw [List.foldl_cons, hlist, List.foldl_append, hgathers name hname']

/-- One attribute is read in front of all the others. -/
theorem collects_attributes {g : Grammar} {joint : Bool} {s : Setting} {as : List Setting}
    (hsetting : Reads g.setting content s [])
    (hmore : Reads.Collects (do
      if atPunct "#" (← ahead) then return some (← g.attribute) else return none) ts as rest) :
    Reads.Collects (do
      if atPunct "#" (← ahead) then return some (← g.attribute) else return none)
      (.punct '#' joint :: .group .bracket content :: ts) (s :: as) rest := by
  refine .more (.ahead_bind (.ite_true rfl (.bind
    (.bind (.punct rfl rfl) (.within hsetting)) (.pure _)))) ?_ hmore
  simp only [List.length_cons]
  omega

/-- Attributes are read, and what is gathered from them is what is given. -/
theorem attributes_reads {own : Option String} {gs : List Given}
    (hattributes : AttributesTrees own gs ts) (hown : ∀ name ∈ own, IsFree name)
    (hfields : ∀ given ∈ gs, IsFree given.field) :
    ∃ as ss, List.Forall₂ (fun given s => given.MeantBy s) gs ss ∧ Gathers own as ss ∧
      ∀ rest, atPunct "#" rest = false →
        Reads (Grammar.nested (n + 2)).attributes (ts ++ rest) as rest := by
  suffices hcollects : ∃ as ss, List.Forall₂ (fun given s => given.MeantBy s) gs ss ∧
      Gathers own as ss ∧ ∀ rest, atPunct "#" rest = false → Reads.Collects (do
        if atPunct "#" (← ahead) then return some (← (Grammar.nested (n + 2)).attribute)
        else return none) (ts ++ rest) as rest by
    obtain ⟨as, ss, hss, hgathers, hread⟩ := hcollects
    exact ⟨as, ss, hss, hgathers, fun rest hrest => .collect (hread rest hrest)⟩
  induction hattributes with
  | nil =>
    refine ⟨[], [], .nil, fun _ _ _ _ _ => rfl, fun rest hrest =>
      .stop (.ahead_bind (.ite_false ?_ (.pure _)))⟩
    simp [hrest]
  | @word name gs ts joint hname hmore ih =>
    obtain ⟨as, ss, hss, hgathers, hread⟩ := ih hfields
    have hsetting : Reads (Grammar.nested (n + 2)).setting ([.ident name] ++ []) _ [] :=
      setting_reads_word (.path (hown name hname).pathTrees) (.inl rfl)
    exact ⟨_, ss, hss, hgathers.skip fun _ _ _ => rfl,
      fun rest hrest => collects_attributes hsetting (hread rest hrest)⟩
  | @list name gs more content ts d joint hname hcontent hmore ih =>
    rw [List.forall_mem_append] at hfields
    obtain ⟨as, ss, hss, hgathers, hread⟩ := ih hfields.2
    obtain ⟨given, hgiven, hcontents⟩ := settings_eq hcontent hfields.1
    have hsetting : Reads (Grammar.nested (n + 2)).setting ([.ident name] ++ [.group d content])
        _ [] := setting_reads_list (.path (hown name hname).pathTrees)
    exact ⟨_, given ++ ss, List.rel_append hgiven hss, hgathers.list hname hcontents,
      fun rest hrest => collects_attributes hsetting (hread rest hrest)⟩
  | @other path gs name body ts joint hname hother hbody hmore ih =>
    obtain ⟨as, ss, hss, hgathers, hread⟩ := ih hfields
    obtain ⟨content, hsetting⟩ := hbody.setting_reads (n := n) hname
    exact ⟨_, ss, hss, hgathers.skip fun own hown hpath => absurd hpath (hother own hown),
      fun rest hrest => collects_attributes hsetting (hread rest hrest)⟩

end StateMachines.Source
