import StateMachines.Proofs.Log.Names
import StateMachines.Proofs.Termination.Endings

/-!
# What is published about instances

Some log records are tagged with the display name of an instance. This module takes these records
apart from everything else in the journal, and the names, states and marks of the instances apart
from everything else they hold, and lists in `Execution.LogStep` what a step does to the two.

## Main definitions

* `Execution.chronicle`: the tagged records that were published.
* `Engine.sheet?`: the name, the class, the state and the mark of an instance.
* `Execution.LogStep`: the steps, as far as records and sheets are concerned.

## Main results

* `Execution.Transition.logStep`: the list of steps is complete.
-/

namespace StateMachines

/-! ## Records -/

namespace Record

/-- The display name that a record is tagged with. -/
def tag? (r : Record) : Option String := r.fields.lookup "fsm"

/-- Whether a record tells that an instance was allocated. -/
def announcesBirth : Record → Bool
  | .remark _ _ _ .allocated => true
  | _ => false

/-- Whether a record tells that the termination of an instance begins. -/
def announcesEnd : Record → Bool
  | .remark _ _ _ (.terminating _) => true
  | _ => false

/-- Whether a record tells that an instance is released. -/
def announcesRelease : Record → Bool
  | .remark _ _ _ .released => true
  | _ => false

/-- The name of the state that a record tells that an instance has changed to. -/
def state? : Record → Option String
  | .remark _ _ _ (.stateChanged state) => some state
  | _ => none

/-- A record tells neither of the beginning of an instance nor of its end. -/
structure Passing (r : Record) : Prop where
  birth_eq : r.announcesBirth = false
  end_eq : r.announcesEnd = false
  release_eq : r.announcesRelease = false

/-- The record is tagged with the name of the instance and, if it is a remark, published at the
level of the instance. -/
structure IsAbout (r : Record) (inst : Instance) : Prop where
  tag_eq : r.tag? = some inst.name
  level_eq : ∀ level subsystem name what,
    r = .remark level subsystem name what → level = inst.level

/-- A remark is tagged with its name. -/
@[simp]
theorem tag?_remark (level : Level) (subsystem name : String) (what : Remark) :
    (remark level subsystem name what).tag? = some name := rfl

/-- A remark about an instance is tagged with its name. -/
theorem tag?_about (inst : Instance) (what : Remark) : (about inst what).tag? = some inst.name :=
  tag?_remark _ _ _ _

/-- A remark at the level of an instance is about the instance. -/
theorem isAbout_remark (inst : Instance) (subsystem : String) (what : Remark) :
    IsAbout (.remark inst.level subsystem inst.name what) inst := by
  refine ⟨tag?_remark _ _ _ _, ?_⟩
  intro level subsystem name what heq
  cases heq
  rfl

/-- What is tagged with the name of an instance and is no remark is about the instance. -/
theorem isAbout_of_tag {r : Record} {inst : Instance} (htag : r.tag? = some inst.name)
    (hr : ∀ level subsystem name what, r ≠ .remark level subsystem name what) :
    IsAbout r inst :=
  ⟨htag, fun level subsystem name what heq => absurd heq (hr level subsystem name what)⟩

end Record

variable {σ ν : Type}

/-- The tagged record that an entry of the journal is. -/
def Entry.tagged? : Entry ν → Option Record
  | .record r => if r.tag?.isSome then some r else none
  | .hook .. | .note _ => none

/-- The tagged records that were published, the latest first. -/
def World.chronicle (w : World σ ν) : List Record := w.journal.filterMap Entry.tagged?

namespace World

variable {w : World σ ν} {r : Record}

/-- A tagged record is added to the chronicle. -/
theorem chronicle_log {name : String} (htag : r.tag? = some name) :
    (w.log r).chronicle = r :: w.chronicle := by
  simp [chronicle, log, enter, Entry.tagged?, htag]

/-- A record that is not tagged is left out. -/
theorem chronicle_log_of_none (htag : r.tag? = none) : (w.log r).chronicle = w.chronicle := by
  simp [chronicle, log, enter, Entry.tagged?, htag]

end World

/-! ## Sheets -/

/-- What the log tells about an instance. -/
structure Sheet where
  name : String
  descriptor : Descriptor
  state : StateId
  /-- Whether the termination of the instance has begun. -/
  terminating : Bool

/-- The sheet of an instance. -/
def Instance.sheet (inst : Instance) : Sheet :=
  ⟨inst.name, inst.descriptor, inst.state, inst.terminating⟩

namespace Engine

variable {e e' : Engine} {h p : Handle} {inst : Instance} {f : Instance → Instance}
  {g : Sheet → Sheet} {d : Descriptor} {payload : Option Payload} {level : Option Level}
  {id : Option String}

/-- The sheet of the instance a handle refers to. -/
def sheet? (e : Engine) (h : Handle) : Option Sheet := (e.get? h).map Instance.sheet

/-- The sheet of a live instance. -/
theorem sheet?_eq_some_iff {s : Sheet} :
    e.sheet? h = some s ↔ ∃ inst, e.get? h = some inst ∧ inst.sheet = s :=
  Option.map_eq_some_iff

/-- A live instance has its sheet. -/
theorem sheet?_of_get? (hlive : e.get? h = some inst) : e.sheet? h = some inst.sheet := by
  rw [sheet?, hlive, Option.map_some]

/-- A handle without a sheet is dead. -/
theorem sheet?_eq_none_iff : e.sheet? h = none ↔ e.get? h = none := Option.map_eq_none_iff

/-- The sheets after a change of an instance. -/
theorem sheet?_modify (hf : ∀ a, (f a).sheet = g a.sheet) :
    (e.modify h f).sheet? = Function.update e.sheet? h ((e.sheet? h).map g) := by
  funext k
  by_cases hk : k = h
  · subst hk
    rw [Function.update_self, sheet?, sheet?, get?_modify_self, Option.map_map, Option.map_map]
    congr 1
    funext a
    exact hf a
  · rw [Function.update_of_ne hk, sheet?, sheet?, get?_modify_of_ne hk]

/-- A change that leaves the sheet of an instance alone leaves all sheets alone. -/
theorem sheet?_modify_eq (hf : ∀ a, (f a).sheet = a.sheet) : (e.modify h f).sheet? = e.sheet? := by
  rw [sheet?_modify (g := id) hf, Option.map_id, id, Function.update_eq_self]

/-- The sheets after a release. -/
theorem sheet?_free : (e.free h).sheet? = Function.update e.sheet? h none := by
  funext k
  by_cases hk : k = h
  · subst hk
    rw [Function.update_self, sheet?, get?_free_self, Option.map_none]
  · rw [Function.update_of_ne hk, sheet?, sheet?, get?_free_of_ne hk]

/-- The sheets after an allocation. -/
theorem sheet?_alloc (halloc : e.alloc d payload level id = .ok (h, inst, e')) :
    e'.sheet? = Function.update e.sheet? h (some inst.sheet) := by
  funext k
  by_cases hk : k = h
  · subst hk
    rw [Function.update_self, sheet?, get?_alloc_self halloc, Option.map_some]
  · rw [Function.update_of_ne hk, sheet?, sheet?, get?_alloc_of_ne halloc hk]

/-- Linking an instance to a parent leaves the sheets alone. -/
theorem sheet?_link (event : EventId) : (e.link h p event).sheet? = e.sheet? := by
  have hchild : (e.modify h ({ · with parent := some p, parentEvent := event })).sheet? =
      e.sheet? := sheet?_modify_eq fun _ => rfl
  exact (sheet?_modify_eq (f := fun inst => { inst with children := inst.children ++ [h] })
    fun _ => rfl).trans hchild

end Engine

namespace Execution

/-- The sheets of instances at a moment. -/
abbrev sheet? (x : Execution σ ν) : Handle → Option Sheet := x.world.engine.sheet?

/-- The tagged records that were published up to a moment, the latest first. -/
abbrev chronicle (x : Execution σ ν) : List Record := x.world.chronicle

/-- What a step does to the tagged records, to the sheets and to the ends in progress while names
carry numbers and nothing is released by a direct call. -/
inductive LogStep (x x' : Execution σ ν) : Prop where
  /-- Something is told about live instances, or nothing at all. -/
  | tells (entries : List Record) (hlog : x'.chronicle = entries ++ x.chronicle)
      (hentries : ∀ r ∈ entries, r.Passing ∧ r.state? = none ∧
        ∃ h inst, x.world.engine.get? h = some inst ∧ r.IsAbout inst)
      (hsheets : x'.sheet? = x.sheet?)
      (haddr : x'.world.engine.lastAddr = x.world.engine.lastAddr)
      (htargets : x'.targets = x.targets)
  /-- An instance is allocated. -/
  | allocates (h : Handle) (inst b : Instance) (entries : List Record) (hnew : x.sheet? h = none)
      (hname : ∃ d id, inst.name =
        Engine.displayName d id (some (x.world.engine.lastAddr + 1)))
      (hstate : inst.state = 0) (hactive : inst.terminating = false)
      (hlive : x'.world.engine.get? h = some b) (hborn : b.name = inst.name ∧ b.level = inst.level)
      (hlog : x'.chronicle = entries ++ .about inst .allocated :: x.chronicle)
      (hentries : ∀ r ∈ entries, r.Passing ∧ r.state? = none ∧ r.IsAbout inst)
      (hsheets : x'.sheet? = Function.update x.sheet? h (some inst.sheet))
      (haddr : x'.world.engine.lastAddr = x.world.engine.lastAddr + 1)
      (htargets : x'.targets = x.targets)
  /-- The state of an instance is written. -/
  | moves (write : StateWrite) (inst : Instance) (hwrite : x.stateWrite? = some write)
      (hlive : x.world.engine.get? write.target = some inst)
      (hlog : x'.chronicle = .remark inst.level write.checked.subsystem inst.name
        (.stateChanged (write.checked.stateName write.new)) :: x.chronicle)
      (hsheets : x'.sheet? =
        Function.update x.sheet? write.target (some { inst.sheet with state := write.new }))
      (haddr : x'.world.engine.lastAddr = x.world.engine.lastAddr)
      (htargets : x'.targets = x.targets)
  /-- The end of an instance begins. -/
  | begins (h : Handle) (inst : Instance) (cause : Cause)
      (hlive : x.world.engine.get? h = some inst) (hactive : inst.terminating = false)
      (hlog : x'.chronicle = .about inst (.terminating cause) :: x.chronicle)
      (hsheets : x'.sheet? =
        Function.update x.sheet? h (some { inst.sheet with terminating := true }))
      (haddr : x'.world.engine.lastAddr = x.world.engine.lastAddr)
      (htargets : x'.targets = h :: x.targets)
  /-- The end of an instance is completed by its release. -/
  | releases (h : Handle) (inst : Instance) (subsystem : String)
      (hlive : x.world.engine.get? h = some inst) (hmarked : inst.terminating = true)
      (hlog : x'.chronicle = .remark inst.level subsystem inst.name .released :: x.chronicle)
      (hsheets : x'.sheet? = Function.update x.sheet? h none)
      (haddr : x'.world.engine.lastAddr = x.world.engine.lastAddr)
      (htargets : x.targets = h :: x'.targets)

variable {host : Host σ ν} {x x' : Execution σ ν} {w w' : World σ ν} {call : Call}
  {answer reply : Reply} {stack : List (Frame σ ν)} {frame : Frame σ ν} {inst : Instance}
  {target : Handle} {r : Record}

namespace LogStep

/-- Nothing is told, and the sheets are left alone. -/
theorem silent (hlog : x'.chronicle = x.chronicle) (hsheets : x'.sheet? = x.sheet?)
    (haddr : x'.world.engine.lastAddr = x.world.engine.lastAddr)
    (htargets : x'.targets = x.targets) : LogStep x x' :=
  .tells [] hlog (fun r hr => by cases hr) hsheets haddr htargets

/-- One record about a live instance is published. -/
theorem speaks (hlive : x.world.engine.get? target = some inst) (hpassing : r.Passing)
    (hstate : r.state? = none) (habout : r.IsAbout inst)
    (hlog : x'.chronicle = r :: x.chronicle) (hsheets : x'.sheet? = x.sheet?)
    (haddr : x'.world.engine.lastAddr = x.world.engine.lastAddr)
    (htargets : x'.targets = x.targets) : LogStep x x' := by
  refine .tells [r] hlog ?_ hsheets haddr htargets
  intro r' hr'
  obtain rfl := List.mem_singleton.1 hr'
  exact ⟨hpassing, hstate, target, inst, hlive, habout⟩

end LogStep

/-- What a call that is answered at once does to records and sheets. -/
theorem logStep_of_answers (ht : w.engine.store.Tidy) (hon : w.engine.config.logAddr = true)
    (hfree : ∀ h, call ≠ .free h) (ha : w.Answers call w' reply) :
    LogStep (⟨w, .perform call, stack⟩ : Execution σ ν) ⟨w', .give reply, stack⟩ := by
  cases ha with
  | register | unregister | setLogAddr | trySend | shutdown | unmoved =>
    exact .silent rfl rfl rfl rfl
  | setLevel | setPayload | takePayload =>
    exact .silent rfl (Engine.sheet?_modify_eq fun _ => rfl) rfl rfl
  | free target => exact absurd rfl (hfree target)
  | orphan | endless => exact .silent (World.chronicle_log_of_none rfl) rfl rfl rfl
  | unheard =>
    refine .silent ?_ rfl rfl rfl
    exact (World.chronicle_log_of_none rfl).trans (World.chronicle_log_of_none rfl)
  | changeRefused => exact .silent (World.chronicle_log_of_none rfl) rfl rfl rfl
  | @eventRefused target event data inst why hlive =>
    refine .speaks (r := .about inst (.received (inst.descriptor.eventName event))) hlive
      ⟨rfl, rfl, rfl⟩ rfl
      (Record.isAbout_remark _ _ _) ?_ rfl rfl rfl
    exact (World.chronicle_log_of_none rfl).trans (World.chronicle_log (Record.tag?_remark _ _ _ _))
  | ending data hlive =>
    exact .speaks (r := .about _ (.alreadyTerminating _)) hlive ⟨rfl, rfl, rfl⟩ rfl
      (Record.isAbout_remark _ _ _) (World.chronicle_log (Record.tag?_remark _ _ _ _)) rfl rfl rfl
  | @alloc d payload level id handle inst engine halloc =>
    obtain ⟨hname, haddr⟩ := Engine.alloc_numbered hon halloc
    obtain ⟨-, -, -, hstate, -, -, hactive⟩ := Engine.alloc_cases halloc
    exact .allocates handle inst inst [] (Engine.sheet?_eq_none_iff.2 (Engine.get?_alloc ht halloc))
      ⟨d, id, hname⟩ hstate hactive (Engine.get?_alloc_self halloc) ⟨rfl, rfl⟩
      (World.chronicle_log (Record.tag?_remark _ _ _ _)) (fun r hr => by cases hr)
      (Engine.sheet?_alloc halloc) haddr rfl
  | @child d parent event p handle inst engine hlive hactive halloc =>
    obtain ⟨hname, haddr⟩ := Engine.alloc_numbered hon halloc
    obtain ⟨-, -, -, hstate, -, -, hactive'⟩ := Engine.alloc_cases halloc
    have hdead := Engine.get?_alloc ht halloc
    have hne : handle ≠ parent := by
      rintro rfl
      cases hdead.symm.trans hlive
    refine .allocates handle inst _ [.about inst (.childOf p.name)]
      (Engine.sheet?_eq_none_iff.2 hdead) ⟨d, p.id, hname⟩ hstate hactive'
      (Engine.get?_link_child (Engine.get?_alloc_self halloc) hne) ⟨rfl, rfl⟩ ?_ ?_
      ((Engine.sheet?_link event).trans (Engine.sheet?_alloc halloc)) haddr rfl
    · have hborn : (w.log (.about inst .allocated)).chronicle =
          .about inst .allocated :: w.chronicle := World.chronicle_log (Record.tag?_remark _ _ _ _)
      exact (World.chronicle_log (Record.tag?_remark _ _ _ _)).trans (congrArg (_ :: ·) hborn)
    · intro r hr
      obtain rfl := List.mem_singleton.1 hr
      exact ⟨⟨rfl, rfl, rfl⟩, rfl, Record.isAbout_remark _ _ _⟩

/-- The release of an instance at its end is published. -/
theorem logStep_of_released {ending : Ending}
    (ho : Orderly (⟨w, .give answer, .cleaning ending :: stack⟩ : Execution σ ν))
    (hworld : x'.world = w.released ending)
    (htargets : x'.targets = targets (⟨w, .give answer, stack⟩ : Execution σ ν)) :
    LogStep ⟨w, .give answer, .cleaning ending :: stack⟩ x' := by
  have hending : ending ∈ endings (⟨w, .give answer, .cleaning ending :: stack⟩ : Execution σ ν) :=
    List.mem_cons_self
  obtain ⟨inst, hlive, hmarked⟩ := ho.marked_of_ending hending
  refine .releases ending.target inst ending.descriptor.subsystem hlive hmarked ?_ ?_ ?_ ?_
  · have hreleased : w.released ending =
        { w.log (.remark inst.level ending.descriptor.subsystem inst.name .released) with
          engine := w.engine.free ending.target } := by
      simp only [World.released, hlive]
      rfl
    rw [chronicle, hworld, hreleased]
    exact World.chronicle_log (Record.tag?_remark _ _ _ _)
  · rw [sheet?, hworld, World.engine_released]
    exact Engine.sheet?_free
  · rw [hworld, World.engine_released]
    rfl
  · rw [htargets]
    rfl

/-- What an operation that ends at once does to records and sheets. -/
theorem logStep_of_closes (ho : Orderly (⟨w, .give answer, frame :: stack⟩ : Execution σ ν))
    (hc : w.Closes frame w' reply) :
    LogStep (⟨w, .give answer, frame :: stack⟩ : Execution σ ν) ⟨w', .give reply, stack⟩ := by
  cases hc with
  | answer | leaving | entering | unarmed | fired => exact .silent rfl rfl rfl rfl
  | @armed target inst d timeout label hlive htimeout =>
    have hsheets : (w.armed target d inst.name timeout label).engine.sheet? = w.engine.sheet? :=
      (congrArg Engine.sheet? (w.engine_armed target d inst.name timeout label)).trans
        (Engine.sheet?_modify_eq fun _ => rfl)
    have haddr : (w.armed target d inst.name timeout label).engine.lastAddr =
        w.engine.lastAddr := by
      rw [World.engine_armed]
      rfl
    cases hcallback : d.timerCallback with
    | true =>
      refine .silent ?_ hsheets haddr rfl
      simp only [chronicle, World.armed, hcallback]
      rfl
    | false =>
      -- The class does not react to timers, and that is published.
      refine .speaks (r := .noTimerCallback d.subsystem inst.name label) hlive ⟨rfl, rfl, rfl⟩ rfl
        (Record.isAbout_of_tag rfl fun _ _ _ _ heq => by cases heq) ?_ hsheets haddr rfl
      simp only [chronicle, World.armed, hcallback]
      exact World.chronicle_log rfl
  | released => exact logStep_of_released ho rfl rfl

/-- Taking an instance out of the children of its parent leaves the sheets alone. -/
theorem sheet?_detached (w : World σ ν) (ending : Ending) :
    (w.detached ending).engine.sheet? = w.engine.sheet? ∧
      (w.detached ending).engine.lastAddr = w.engine.lastAddr := by
  unfold World.detached
  cases ending.parent with
  | none => exact ⟨rfl, rfl⟩
  | some p => exact ⟨Engine.sheet?_modify_eq fun _ => rfl, rfl⟩

/-- The list of steps is complete. -/
theorem Transition.logStep (ht : Transition host x x') (htidy : x.world.engine.store.Tidy)
    (hon : x.world.engine.config.logAddr = true) (hfree : ∀ h, x.control ≠ .perform (.free h))
    (ho : x.Orderly) : LogStep x x' := by
  cases ht with
  | answered hanswers =>
    exact logStep_of_answers htidy hon (fun h heq => hfree h (congrArg Control.perform heq))
      hanswers
  | closes hcloses => exact logStep_of_closes ho hcloses
  | childRefused hlive =>
    exact .speaks (r := .parentEnding _ _ _) hlive ⟨rfl, rfl, rfl⟩ rfl
      (Record.isAbout_of_tag rfl fun _ _ _ _ heq => by cases heq) (World.chronicle_log rfl)
      rfl rfl rfl
  | leaves | fires | calls => exact .silent rfl rfl rfl rfl
  | scriptDone | scriptNote | scriptCall | resumes | skipsTimer => exact .silent rfl rfl rfl rfl
  | endsChild | skipsChild => exact .silent rfl rfl rfl rfl
  | deliversAll hlive | delivers hlive =>
    exact .speaks (r := .about _ (.received _)) hlive ⟨rfl, rfl, rfl⟩ rfl
      (Record.isAbout_remark _ _ _) (World.chronicle_log (Record.tag?_remark _ _ _ _)) rfl rfl rfl
  | expires hpop hlive =>
    exact .speaks (r := .about _ (.timeout _)) hlive ⟨rfl, rfl, rfl⟩ rfl
      (Record.isAbout_remark _ _ _) (World.chronicle_log (Record.tag?_remark _ _ _ _)) rfl rfl rfl
  | @enters w target d source state timeout label inst answer stack hlive =>
    have hwrite : stateWrite?
        (⟨w, .give answer, .leaving target d source state timeout label :: stack⟩ :
          Execution σ ν) = some ⟨target, d, inst.descriptor, inst.state, state, source⟩ :=
      stateWrite?_eq_some_iff.2
        ⟨answer, timeout, label, stack, inst, rfl, rfl, hlive, rfl, rfl⟩
    refine .moves _ inst hwrite hlive
      (World.chronicle_log (Record.tag?_remark _ _ _ _)) ?_ rfl rfl
    refine (Engine.sheet?_modify (g := ({ · with state })) fun _ => rfl).trans ?_
    rw [Engine.sheet?_of_get? hlive]
    rfl
  | @ends w target cause data inst stack hlive hactive =>
    refine .begins target inst cause hlive hactive
      (World.chronicle_log (Record.tag?_remark _ _ _ _)) ?_ rfl rfl
    refine (Engine.sheet?_modify (g := ({ · with terminating := true })) fun _ => rfl).trans ?_
    rw [Engine.sheet?_of_get? hlive]
    rfl
  | @cleans w ending answer stack =>
    obtain ⟨hsheets, haddr⟩ := sheet?_detached w ending
    exact .silent rfl hsheets haddr rfl
  | tells hparent hcause => exact logStep_of_released ho rfl rfl

end Execution

end StateMachines
