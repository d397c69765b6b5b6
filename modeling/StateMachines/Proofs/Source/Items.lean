import StateMachines.Proofs.Source.Attributes

/-!
# Reading enums

An enum is read with its attributes, its visibility and its variants, and a variant with its
attributes and its number.

## Main results

* `variant_readsPart`: variants are read.
* `item_reads`: an enum is read as an item with these variants.
-/

namespace StateMachines.Source

open Reader

variable {ts rest : List Tree} {n : Nat} {gs : List Given}

/-! ## Variants -/

/-- A variant is read as one without fields, from whose attributes a list of settings is gathered
that mean what is given. -/
structure VariantMeans (own ident : String) (gs : List Given) (v : Variant) : Prop where
  ident : v.ident = ident
  shape : v.shape = .unit
  given : ∃ ss, List.Forall₂ (fun given s => given.MeantBy s) gs ss ∧
    Gathers (some own) v.attributes ss

/-- An integer is read as an operand. -/
theorem operandRule_reads_int {spelling : String} (hrest : AtEnd rest) :
    Reads ((Grammar.nested n).operandRule true) (.literal .int spelling :: rest)
      (.literal .int) rest :=
  operandRule_reads (by simp [Unmarked, atPunct, atChars]) (atom_reads_of_literal? rfl) (by simp)
    hrest

/-- A negative integer is read as an operand. -/
theorem operandRule_reads_negative {spelling : String} {joint : Bool} (hrest : AtEnd rest) :
    Reads ((Grammar.nested (n + 1)).operandRule true)
      (.punct '-' joint :: .literal .int spelling :: rest) (.expression .unary) rest := by
  have hattributes : Reads (Grammar.nested (n + 1)).attributes
      (.punct '-' joint :: .literal .int spelling :: rest) []
      (.punct '-' joint :: .literal .int spelling :: rest) :=
    .collect (.stop (.ahead_bind (.ite_false Bool.false_ne_true (.pure _))))
  have hoperand : Reads ((Grammar.nested (n + 1)).operand true) (.literal .int spelling :: rest)
      (.literal .int) rest := operandRule_reads_int hrest
  have hsign : Reads (punct "-") (.punct '-' joint :: .literal .int spelling :: rest) ()
      (.literal .int spelling :: rest) := .punct rfl rfl
  exact .get_bind fun mark => .bind hattributes (.ahead_bind (.ite_false Bool.false_ne_true
    (.ite_true rfl (.bind hsign (.bind hoperand.discard (.pure _))))))

/-- What follows the name of a variant without fields is read. -/
theorem DiscriminantTrees.reads {α : Type} {a : α} (hnumber : DiscriminantTrees ts)
    (hrest : AtEnd rest) :
    Reads (do
      if ← punct? "=" then discard ((Grammar.nested (n + 4)).expression true)
      return a) (ts ++ rest) a rest := by
  have hmarked : ∀ {joint : Bool} {ts : List Tree} {value : Value},
      Reads ((Grammar.nested (n + 4)).expression true) ts value rest →
      Reads (do
        if ← punct? "=" then discard ((Grammar.nested (n + 4)).expression true)
        return a) (.punct '=' joint :: ts) a rest := fun hread =>
    .bind (.punct?_of_at rfl rfl) (.ite_true rfl (.bind hread.discard (.pure _)))
  cases hnumber with
  | none =>
    refine .bind (.punct?_of_not ?_) (.ite_false Bool.false_ne_true (.pure _))
    rcases hrest with rfl | ⟨joint, more, rfl⟩ <;> rfl
  | positive => exact hmarked (expression_reads (operandRule_reads_int hrest) rfl hrest)
  | negative => exact hmarked (expression_reads (operandRule_reads_negative hrest) rfl hrest)

/-- No fields stand in front of the end of a variant or of its number. -/
theorem DiscriminantTrees.shape_reads {g : Grammar} (hnumber : DiscriminantTrees ts)
    (hrest : AtEnd rest) : Reads g.shape (ts ++ rest) .unit (ts ++ rest) := by
  have hgroup : ∀ d, atGroup d (ts ++ rest) = false := by
    intro d
    cases hnumber with
    | none => rcases hrest with rfl | ⟨joint, more, rfl⟩ <;> rfl
    | positive => rfl
    | negative => rfl
  exact .ahead_bind (.ite_false (by simp [hgroup]) (.ite_false (by simp [hgroup]) (.pure _)))

/-- A variant is read. -/
theorem variant_readsPart {own ident : String} (hvariant : VariantTrees own ident gs ts)
    (hown : IsFree own) (hfields : ∀ given ∈ gs, IsFree given.field) :
    ∃ v, VariantMeans own ident gs v ∧ ReadsPart (Grammar.nested (n + 4)).variant ts v := by
  cases hvariant with
  | @variant attributes number hattributes hident hnumber =>
    have hown' : ∀ name ∈ some own, IsFree name := by
      rintro name ⟨⟩
      exact hown
    obtain ⟨as, ss, hss, hgathers, hread⟩ := attributes_reads (n := n + 2) hattributes hown' hfields
    refine ⟨{ attributes := as, ident, shape := .unit }, ⟨rfl, rfl, ss, hss, hgathers⟩, by simp,
      fun rest hrest => ?_⟩
    have hpub : atKeyword "pub" (.ident ident :: (number ++ rest)) = false :=
      decide_eq_false (hident.isPathName.ne (by decide))
    have hvisibility : Reads visibility? (.ident ident :: (number ++ rest)) false
        (.ident ident :: (number ++ rest)) :=
      .bind (.keyword?_of_not hpub) (.ite_false Bool.false_ne_true (.pure _))
    rw [List.append_assoc, List.cons_append]
    exact .bind (hread _ rfl) (.bind hvisibility.discard_capture (.bind (.name hident)
      (.bind (hnumber.shape_reads hrest) (hnumber.reads hrest))))

/-! ## Enums -/

/-- A visibility is read. -/
theorem VisibilityTrees.reads (hvisibility : VisibilityTrees ts) :
    ∃ visible, Reads visibility? (ts ++ .ident "enum" :: rest) visible (.ident "enum" :: rest) := by
  cases hvisibility with
  | default => exact ⟨false, .bind (.keyword?_of_not rfl) (.ite_false Bool.false_ne_true (.pure _))⟩
  | everyone => exact ⟨true, .bind (.keyword?_of_at _) (.ite_true rfl (.ahead_bind (.pure _)))⟩
  | place hword =>
    exact ⟨true, .bind (.keyword?_of_at _) (.ite_true rfl (.ahead_bind
      (.ite_true hword (.bind (Reads.anyGroup _ _).discard (.pure _)))))⟩
  | @path path ts hpath =>
    have hread : Reads plainPath (ts ++ []) path [] := plainPath_reads hpath ⟨rfl, rfl⟩
    obtain ⟨t, more, rfl⟩ := List.exists_cons_of_ne_nil hpath.ne_nil
    rw [List.append_nil] at hread
    exact ⟨true, .bind (.keyword?_of_at _) (.ite_true rfl (.ahead_bind (.bind
      (.within (.bind (.keyword _) hread.discard)) (.pure _))))⟩

/-- What follows the name of an enum is read. -/
theorem enumTail_reads {g : Grammar} {content : List Tree} {vs : List Variant}
    (hread : Reads (commaSeparated g.variant) content vs []) :
    Reads g.enumTail [.group .brace content] vs [] := by
  have hparameters : Reads g.parameters? [.group .brace content] () [.group .brace content] :=
    .get_bind fun mark => .bind (.punct?_of_not rfl) (.ite_false Bool.false_ne_true (.pure _))
  have hwhere : Reads g.whereClause? [.group .brace content] false [.group .brace content] :=
    .get_bind fun mark => .bind (.keyword?_of_not rfl) (.ite_false Bool.false_ne_true (.pure _))
  exact .bind hparameters (.bind hwhere.discard (.within hread))

/-- An enum is read as an item. -/
theorem item_reads {ν : Type} {own : Option String} {variant : ν → List Tree → Prop}
    {means : ν → Variant → Prop} {ident : String} {variants : List ν}
    (henum : EnumTrees own variant ident gs variants ts) (hown : ∀ name ∈ own, IsFree name)
    (hfields : ∀ given ∈ gs, IsFree given.field)
    (hvariants : ∀ v ts, variant v ts →
      ∃ read, means v read ∧ ReadsPart (Grammar.nested (n + 4)).variant ts read) :
    ∃ as ss vs, List.Forall₂ (fun given s => given.MeantBy s) gs ss ∧ Gathers own as ss ∧
      List.Forall₂ means variants vs ∧
      Reads (Grammar.nested (n + 4)).item ts
        { attributes := as, ident, variants := some vs } [] := by
  cases henum with
  | @enum attributes visibility content hattributes hvisibility hident hcontent =>
    obtain ⟨as, ss, hss, hgathers, hread⟩ :=
      attributes_reads (n := n + 2) hattributes hown hfields
    obtain ⟨vs, hvs, hbody⟩ := commaSeparated_reads (fun v _ => hvariants v) hcontent
    obtain ⟨visible, hvisible⟩ : ∃ visible, Reads visibility?
        (visibility ++ .ident "enum" :: [.ident ident, .group .brace content]) visible
        (.ident "enum" :: [.ident ident, .group .brace content]) := hvisibility.reads
    have hhash : atPunct "#" (visibility ++
        [.ident "enum", .ident ident, .group .brace content]) = false := by
      cases hvisibility <;> rfl
    exact ⟨as, ss, vs, hss, hgathers, hvs, .bind (hread _ hhash) (.bind hvisible.discard
      (.bind (.keyword?_of_at _) (.ite_true rfl (.bind (.name hident)
        (.bind (enumTail_reads hbody) (.pure _))))))⟩

end StateMachines.Source
