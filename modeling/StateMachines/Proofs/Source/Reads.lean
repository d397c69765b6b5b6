import StateMachines.Source.Reader

/-!
# What a reader takes

`Reads r ts a rest` says that a reader takes trees from the front of `ts`, leaves `rest`, answers
`a`, and neither fails nor leaves anything unread between delimiters. What has been written down
before does not matter, and neither does what is written down. There is one rule for each way in
which readers are put together.

## Main results

* `Reads.bind`, `Reads.within`: sequences and groups.
* `Reads.repeating`, `Reads.collect`, `Reads.separated`: repetition.
* `Reads.readAll`: a reader that takes everything.
-/

namespace StateMachines.Source

open Reader

variable {α β σ : Type} {ts mid rest : List Tree} {a : α} {b : β}

/-- A reader takes trees from the front, leaves the rest and answers something. -/
def Reads (r : Reader α) (ts : List Tree) (a : α) (rest : List Tree) : Prop :=
  ∀ written, ∃ after,
    r.run { rest := ts, written } = .ok (a, { rest, written := after })

namespace Reads

variable {r : Reader α}

/-! ## Sequences -/

theorem pure (a : α) : Reads (Pure.pure a) ts a ts := fun written => ⟨written, rfl⟩

theorem bind {f : α → Reader β} (hr : Reads r ts a mid) (hf : Reads (f a) mid b rest) :
    Reads (r >>= f) ts b rest := by
  intro written
  obtain ⟨between, hfirst⟩ := hr written
  obtain ⟨after, hsecond⟩ := hf between
  refine ⟨after, ?_⟩
  rw [StateT.run_bind, hfirst]
  exact hsecond

theorem map (f : α → β) (hr : Reads r ts a rest) : Reads (f <$> r) ts (f a) rest := by
  intro written
  obtain ⟨after, hrun⟩ := hr written
  refine ⟨after, ?_⟩
  rw [StateT.run_map, hrun]
  rfl

theorem discard (hr : Reads r ts a rest) : Reads (Functor.discard r) ts () rest :=
  hr.map fun _ => ()

/-- What is ahead can be looked at. -/
theorem ahead_bind {f : List Tree → Reader β} (hf : Reads (f ts) ts b rest) :
    Reads (ahead >>= f) ts b rest := hf

/-- Where the reading has come to can be looked at. -/
theorem get_bind {f : Input → Reader β} (hf : ∀ mark, Reads (f mark) ts b rest) :
    Reads (get >>= f) ts b rest := fun written => hf _ written

/-- A choice that is made. -/
theorem ite_true {c : Prop} [Decidable c] {other : Reader α} (hc : c) (hr : Reads r ts a rest) :
    Reads (if c then r else other) ts a rest := by
  rwa [if_pos hc]

/-- A choice that is not made. -/
theorem ite_false {c : Prop} [Decidable c] {other : Reader α} (hc : ¬ c)
    (hr : Reads r ts a rest) : Reads (if c then other else r) ts a rest := by
  rwa [if_neg hc]

/-- What is written down can be kept apart. -/
theorem discard_capture (hr : Reads r ts a rest) :
    Reads (Functor.discard (capture r)) ts () rest := by
  intro written
  obtain ⟨after, hrun⟩ := hr []
  refine ⟨written, ?_⟩
  have hcapture : (capture r).run { rest := ts, written } =
      .ok ((a, after.reverse), { rest, written }) := by
    simp only [capture, StateT.run_bind, StateT.run_get, StateT.run_modify, pure_bind, hrun]
    rfl
  change StateT.run (_ <$> capture r) _ = _
  rw [StateT.run_map, hcapture]
  rfl

/-! ## Tokens -/

theorem skipTo (trees : List Tree) : Reads (skipTo rest trees) ts () rest :=
  fun written => ⟨trees.reverse ++ written, rfl⟩

theorem punct {token : String} (hat : atPunct token ts = true)
    (hrest : ts.drop token.length = rest) : Reads (Reader.punct token) ts () rest :=
  ahead_bind (ite_true hat (hrest ▸ skipTo _))

theorem punct?_of_at {token : String} (hat : atPunct token ts = true)
    (hrest : ts.drop token.length = rest) : Reads (Reader.punct? token) ts true rest :=
  ahead_bind (ite_true hat (bind (punct hat hrest) (pure true)))

theorem punct?_of_not {token : String} (hat : atPunct token ts = false) :
    Reads (Reader.punct? token) ts false ts :=
  ahead_bind (ite_false (by simp [hat]) (pure false))

theorem word (s : String) : Reads Reader.word (.ident s :: rest) s rest :=
  ahead_bind (bind (skipTo _) (pure s))

theorem name {s : String} (hs : isName s = true) : Reads Reader.name (.ident s :: rest) s rest :=
  ahead_bind (ite_true hs (word s))

theorem keyword (s : String) : Reads (Reader.keyword s) (.ident s :: rest) () rest :=
  ahead_bind (ite_true (by simp [atKeyword]) (word s).discard)

theorem keyword?_of_at (s : String) : Reads (Reader.keyword? s) (.ident s :: rest) true rest :=
  ahead_bind (ite_true (by simp [atKeyword]) (bind (keyword s) (pure true)))

theorem keyword?_of_not {s : String} (hat : atKeyword s ts = false) :
    Reads (Reader.keyword? s) ts false ts :=
  ahead_bind (ite_false (by simp [hat]) (pure false))

theorem literal {value : Literal} {spelling : String}
    (hvalue : literal? ts = some (value, spelling, rest)) :
    Reads Reader.literal ts value rest := by
  refine ahead_bind ?_
  rw [hvalue]
  exact bind (skipTo _) (pure value)

/-! ## Groups -/

theorem within {d : Delimiter} {content : List Tree} (hr : Reads r content a []) :
    Reads (Reader.within d r) (.group d content :: rest) a rest := by
  intro written
  obtain ⟨after, hrun⟩ := hr []
  refine ⟨.group d after.reverse :: written, ?_⟩
  change (if d = d then _ else _ : Reader α).run _ = _
  rw [if_pos rfl]
  change StateT.run (liftM (r.run { rest := content }) >>= fun p => _) _ = _
  rw [hrun]
  rfl

theorem anyGroup (d : Delimiter) (content : List Tree) :
    Reads Reader.anyGroup (.group d content :: rest) d rest :=
  ahead_bind (bind (skipTo _) (pure d))

/-! ## Repetition -/

/-- A step that asks for another one takes something. -/
inductive Steps (step : σ → Reader (σ × Bool)) : σ → List Tree → σ → List Tree → Prop where
  | stop {state after : σ} {ts rest : List Tree}
      (hstep : Reads (step state) ts (after, false) rest) : Steps step state ts after rest
  | more {state between after : σ} {ts mid rest : List Tree}
      (hstep : Reads (step state) ts (between, true) mid) (hlt : mid.length < ts.length)
      (hrest : Steps step between mid after rest) : Steps step state ts after rest

theorem repeatAlong {step : σ → Reader (σ × Bool)} {start state : σ}
    (hsteps : Steps step start ts state rest) :
    ∀ bound : List Tree, ts.length ≤ bound.length →
      Reads (Reader.repeatAlong step bound start) ts state rest := by
  induction hsteps with
  | stop hstep =>
    intro bound _
    cases bound with
    | nil => exact hstep.map Prod.fst
    | cons _ bound => exact bind hstep (pure _)
  | more hstep hlt _ ih =>
    intro bound hle
    cases bound with
    | nil => exact absurd (Nat.lt_of_lt_of_le hlt hle) (Nat.not_lt_zero _)
    | cons _ bound => exact bind hstep (ih bound (by simp only [List.length_cons] at hle; omega))

theorem repeating {step : σ → Reader (σ × Bool)} {start state : σ}
    (hsteps : Steps step start ts state rest) : Reads (repeating step start) ts state rest :=
  ahead_bind (repeatAlong hsteps ts (Nat.le_refl _))

/-- Items are read one by one, as long as there are some. -/
inductive Collects (item? : Reader (Option α)) : List Tree → List α → List Tree → Prop where
  | stop {ts rest : List Tree} (hitem : Reads item? ts none rest) : Collects item? ts [] rest
  | more {ts mid rest : List Tree} {a : α} {as : List α} (hitem : Reads item? ts (some a) mid)
      (hlt : mid.length < ts.length) (hrest : Collects item? mid as rest) :
      Collects item? ts (a :: as) rest

/-- Items are gathered in reverse behind those that were read before. -/
theorem Collects.steps {item? : Reader (Option α)} {as : List α}
    {step : List α → Reader (List α × Bool)} (hitems : Collects item? ts as rest)
    (hmore : ∀ items {ts rest a}, Reads item? ts (some a) rest →
      Reads (step items) ts (a :: items, true) rest)
    (hstop : ∀ items {ts rest}, Reads item? ts none rest →
      Reads (step items) ts (items, false) rest)
    (before : List α) : Steps step before ts (as.reverse ++ before) rest := by
  induction hitems generalizing before with
  | stop hitem => exact .stop (hstop before hitem)
  | @more ts mid rest a as hitem hlt hrest ih =>
    rw [List.reverse_cons, List.append_assoc]
    exact .more (hmore before hitem) hlt (ih (a :: before))

theorem collect {item? : Reader (Option α)} {as : List α} (hitems : Collects item? ts as rest) :
    Reads (collect item?) ts as rest := by
  refine bind (repeating (hitems.steps ?more ?stop [])) ?_
  case more => exact fun items _ _ a hitem => bind hitem (pure (a :: items, true))
  case stop => exact fun items _ _ hitem => bind hitem (pure (items, false))
  rw [List.append_nil, List.reverse_reverse]
  exact pure as

/-! ## The end of the input -/

theorem readAll (hr : Reads r ts a []) : Reader.readAll r ts = .ok a := by
  obtain ⟨after, hrun⟩ := hr []
  rw [Reader.readAll, hrun]
  rfl

end Reads

end StateMachines.Source
