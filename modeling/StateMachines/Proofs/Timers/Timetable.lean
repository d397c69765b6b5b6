import Mathlib.Data.Set.Card
import StateMachines.Proofs.Timers.Order
import StateMachines.Timers.Clocked

/-!
# Timetables

A `Timetable` is what a timer queue stands for: a plain map that holds at most one deadline for each
handle, and a count of how often one was set. It has no agenda. What expires next is said by a
property of the map, that the deadline is the first of those that are due, and not by how it is
found.

A queue with a clock answers every sequence of commands as the timetable does. The commands are
related to their answers by `Timetable.Performs`, which leaves no choice, so to agree with it is to
give the only answers that it allows.

## Main definitions

* `Timetable.Performs`, `Timetable.Runs`: what commands on a timetable answer.
* `ClockedTimers.timetable`: the timetable that a queue with a clock stands for.
* `TimerQueue.InStep`: what keeps the two halves of a queue together.

## Main results

* `ClockedTimers.performs_perform`: a command on a queue does what it does on its timetable.
* `ClockedTimers.deadline?_after`: a pending deadline is the one that was set last.
* `ClockedTimers.refines_timetable`: the same for every sequence of commands on an empty queue.
-/

namespace StateMachines

/-- Deadlines of handles, at most one for each, and a clock. -/
structure Timetable where
  /-- The deadline of each handle that has one. -/
  pending : Handle → Option Deadline := fun _ => none
  /-- How many deadlines have been set so far. -/
  armings : Nat := 0
  /-- The present time. -/
  now : Time := 0

namespace Timetable

variable {t t₁ t₂ : Timetable} {time : Time} {h k : Handle} {c d : Deadline}
  {command : TimerCommand} {commands : List TimerCommand} {a b : TimerAnswer}
  {answers₁ answers₂ : List TimerAnswer}

/-- The time a handle has left, `0` once its deadline has passed. -/
def left? (t : Timetable) (h : Handle) : Option Duration := (t.pending h).map (·.time - t.now)

/-- The timetable with another deadline of a handle, or with none. -/
def put (t : Timetable) (h : Handle) (deadline : Option Deadline) : Timetable :=
  { t with pending := Function.update t.pending h deadline }

/-- The deadline of the handle is the first of those that are due at the given time: no other one is
earlier, and those at the same time were set later. -/
def First (t : Timetable) (time : Time) (h : Handle) (d : Deadline) : Prop :=
  t.pending h = some d ∧ d.time ≤ time ∧ ∀ k c, t.pending k = some c → c.time ≤ time → k ≠ h →
    d.time < c.time ∨ d.time = c.time ∧ d.serial < c.serial

/-- What it means to take the first deadline that is due at the given time. -/
inductive Pops (t : Timetable) (time : Time) : TimerAnswer → Timetable → Prop where
  /-- The first deadline is taken. -/
  | first {h : Handle} {d : Deadline} (hfirst : t.First time h d) :
      Pops t time (.popped (some h)) (t.put h none)
  /-- Nothing is due. -/
  | idle (hlate : ∀ h d, t.pending h = some d → time < d.time) : Pops t time (.popped none) t

/-- What a command answers, and the timetable after it. -/
inductive Performs (t : Timetable) : TimerCommand → TimerAnswer → Timetable → Prop where
  | schedule (h : Handle) (delay : Duration) :
      Performs t (.schedule h delay) .scheduled
        { t.put h (some ⟨t.now + min delay (.ofSeconds (86400 * 365 * 30)), t.armings⟩) with
          armings := t.armings + 1 }
  | cancel (h : Handle) : Performs t (.cancel h) (.flag (t.pending h).isSome) (t.put h none)
  | isArmed (h : Handle) : Performs t (.isArmed h) (.flag (t.pending h).isSome) t
  | remaining (h : Handle) : Performs t (.remaining h) (.left (t.left? h)) t
  | next {h : Handle} {d : Deadline} (hpending : t.pending h = some d)
      (hleast : ∀ k c, t.pending k = some c → d.time ≤ c.time) :
      Performs t .next (.time (some d.time)) t
  | nextNone (hnone : ∀ h, t.pending h = none) : Performs t .next (.time none) t
  | pop {answer : TimerAnswer} {t' : Timetable} (hpops : t.Pops t.now answer t') :
      Performs t .pop answer t'
  | popAt {time : Time} {answer : TimerAnswer} {t' : Timetable} (hpops : t.Pops time answer t') :
      Performs t (.popAt time) answer t'
  | advance (duration : Duration) :
      Performs t (.advance duration) (.time (some (t.now + duration)))
        { t with now := t.now + duration }
  | size {count : Nat} (hcount : {h | (t.pending h).isSome}.encard = count) :
      Performs t .size (.size count (count == 0)) t
  | remainingAll (handles : List Handle) :
      Performs t (.remainingAll handles) (.leftAll (handles.map t.left?)) t

/-- What commands answer that are carried out one after the other, and the timetable after them. -/
inductive Runs : Timetable → List TimerCommand → List TimerAnswer → Timetable → Prop where
  | nil (t : Timetable) : Runs t [] [] t
  | cons {t t₁ t₂ : Timetable} {command : TimerCommand} {answer : TimerAnswer}
      {commands : List TimerCommand} {answers : List TimerAnswer}
      (hperforms : t.Performs command answer t₁) (hruns : Runs t₁ commands answers t₂) :
      Runs t (command :: commands) (answer :: answers) t₂

/-- There is one first deadline. -/
theorem First.unique (hh : t.First time h d) (hk : t.First time k c) : h = k := by
  by_contra hne
  obtain ⟨hd, hdue, hbefore⟩ := hh
  obtain ⟨hc, hcdue, hafter⟩ := hk
  rcases hbefore k c hc hcdue (Ne.symm hne) with hdc | ⟨hdc, hserial⟩ <;>
    rcases hafter h d hd hdue hne with hcd | ⟨hcd, hserial'⟩
  · exact Nat.lt_asymm hdc hcd
  · exact Nat.ne_of_lt hdc hcd.symm
  · exact Nat.ne_of_lt hcd hdc.symm
  · exact Nat.lt_asymm hserial hserial'

/-- There is one way to take the first deadline. -/
theorem Pops.unique (hpops : t.Pops time a t₁) (hpops' : t.Pops time b t₂) : a = b ∧ t₁ = t₂ := by
  cases hpops with
  | first hfirst =>
    cases hpops' with
    | first hfirst' =>
      obtain rfl := hfirst.unique hfirst'
      exact ⟨rfl, rfl⟩
    | idle hlate => exact absurd hfirst.2.1 (Nat.not_le_of_lt (hlate _ _ hfirst.1))
  | idle hlate =>
    cases hpops' with
    | first hfirst => exact absurd hfirst.2.1 (Nat.not_le_of_lt (hlate _ _ hfirst.1))
    | idle => exact ⟨rfl, rfl⟩

/-- A command has one answer and one effect. -/
theorem Performs.unique (hperforms : t.Performs command a t₁)
    (hperforms' : t.Performs command b t₂) : a = b ∧ t₁ = t₂ := by
  cases hperforms with
  | next hd hleast =>
    cases hperforms' with
    | next hc hleast' => exact ⟨by rw [Nat.le_antisymm (hleast _ _ hc) (hleast' _ _ hd)], rfl⟩
    | nextNone hnone => cases (hnone _).symm.trans hd
  | nextNone hnone =>
    cases hperforms' with
    | next hd => cases (hnone _).symm.trans hd
    | nextNone => exact ⟨rfl, rfl⟩
  | pop hpops =>
    cases hperforms' with
    | pop hpops' => exact hpops.unique hpops'
  | popAt hpops =>
    cases hperforms' with
    | popAt hpops' => exact hpops.unique hpops'
  | size hcount =>
    cases hperforms' with
    | size hcount' =>
      obtain rfl := Nat.cast_injective (hcount.symm.trans hcount')
      exact ⟨rfl, rfl⟩
  | _ =>
    cases hperforms'
    exact ⟨rfl, rfl⟩

/-- Commands have one list of answers and one effect. -/
theorem Runs.unique (hruns : t.Runs commands answers₁ t₁) (hruns' : t.Runs commands answers₂ t₂) :
    answers₁ = answers₂ ∧ t₁ = t₂ := by
  induction hruns generalizing answers₂ with
  | nil =>
    cases hruns'
    exact ⟨rfl, rfl⟩
  | cons hperforms hruns ih =>
    cases hruns' with
    | cons hperforms' hruns' =>
      obtain ⟨rfl, rfl⟩ := hperforms.unique hperforms'
      obtain ⟨rfl, rfl⟩ := ih hruns'
      exact ⟨rfl, rfl⟩

end Timetable

/-! ## The table of armed handles -/

namespace TimerQueue

variable {q q' : TimerQueue} {h : Handle} {d : Deadline} {now time : Time} {delay : Duration}

/-- The two halves of the queue agree, the agenda is in order, and no handle is armed twice. -/
structure InStep (q : TimerQueue) : Prop where
  coherent : q.Coherent
  ascending : q.Ascending
  /-- No handle is armed twice. -/
  nodup_armed : (q.armed.map (·.1)).Nodup

/-- Disarming a handle leaves no handle twice. -/
theorem nodup_disarm {armed : List (Handle × Deadline)} (hnodup : (armed.map (·.1)).Nodup) :
    ((disarm armed h).map (·.1)).Nodup :=
  (List.filter_sublist.map _).nodup hnodup

/-- A table without repetitions finds exactly its entries. -/
theorem lookup_eq_some_iff {armed : List (Handle × Deadline)}
    (hnodup : (armed.map (·.1)).Nodup) : armed.lookup h = some d ↔ (h, d) ∈ armed := by
  induction armed with
  | nil => simp
  | cons entry rest ih =>
    obtain ⟨g, c⟩ := entry
    rw [List.map_cons, List.nodup_cons] at hnodup
    by_cases hg : h = g
    · subst hg
      have hnew : (h, d) ∉ rest := fun hmem => hnodup.1 (List.mem_map.2 ⟨(h, d), hmem, rfl⟩)
      simp [hnew, eq_comm]
    · rw [List.lookup_cons, beq_false_of_ne hg, ih hnodup.2]
      simp [hg]

namespace InStep

/-- The empty queue is in step. -/
theorem empty : InStep {} := ⟨coherent_empty, ascending_empty, List.nodup_nil⟩

/-- Cancelling keeps a queue in step. -/
theorem cancel (hq : q.InStep) : (q.cancel h).InStep := by
  refine ⟨hq.coherent.cancel, hq.ascending.cancel, ?_⟩
  unfold TimerQueue.cancel
  split
  · exact nodup_disarm hq.nodup_armed
  · exact hq.nodup_armed

/-- Scheduling keeps a queue in step. -/
theorem schedule (hq : q.InStep) : (q.schedule now h delay).InStep := by
  refine ⟨hq.coherent.schedule, hq.ascending.schedule hq.coherent, ?_⟩
  -- The handle was disarmed before.
  have hcleared : (q.cancel h).armed.lookup h = none := by
    simpa [deadline?] using deadline?_cancel (q := q) (h := h) (k := h)
  have hnew : h ∉ (q.cancel h).armed.map (·.1) := by
    intro hmem
    obtain ⟨⟨g, c⟩, hentry, rfl⟩ := List.mem_map.1 hmem
    rw [← lookup_eq_some_iff hq.cancel.nodup_armed, hcleared] at hentry
    cases hentry
  exact List.nodup_cons.2 ⟨hnew, hq.cancel.nodup_armed⟩

/-- Popping keeps a queue in step. -/
theorem popExpired (hq : q.InStep) (hpop : q.popExpired time = some (h, q')) : q'.InStep := by
  refine ⟨(hq.coherent.popExpired hpop).1, hq.ascending.popExpired hpop, ?_⟩
  obtain ⟨d, rest, -, -, rfl⟩ := popExpired_cases hpop
  exact nodup_disarm hq.nodup_armed

/-- The agenda and the table of armed handles have the same entries. -/
theorem mem_agenda_iff (hq : q.InStep) : (d, h) ∈ q.agenda ↔ (h, d) ∈ q.armed := by
  rw [hq.coherent.mem_agenda_iff, deadline?, lookup_eq_some_iff hq.nodup_armed]

/-- The size of a queue is the number of handles with a deadline. -/
theorem encard_pending (hq : q.InStep) : {h | (q.deadline? h).isSome}.encard = q.size := by
  have harmed : {h | (q.deadline? h).isSome} = (q.armed.map (·.1)).toFinset := by
    ext h
    simp [Option.isSome_iff_exists, deadline?, lookup_eq_some_iff hq.nodup_armed]
  rw [harmed, Set.encard_coe_eq_coe_finsetCard, List.toFinset_card_of_nodup hq.nodup_armed,
    List.length_map, size]

/-- The next time at which something expires is the least of all deadlines. -/
theorem next?_eq_some (hq : q.InStep) (hnext : q.next? = some time) :
    ∃ h d, q.deadline? h = some d ∧ d.time = time ∧
      ∀ k c, q.deadline? k = some c → d.time ≤ c.time := by
  obtain ⟨⟨d, h⟩, hhead, rfl⟩ := Option.map_eq_some_iff.1 hnext
  obtain ⟨rest, hagenda⟩ := List.head?_eq_some_iff.1 hhead
  have hmem := hq.coherent.mem_agenda_iff
  have hascending := hq.ascending
  rw [Ascending, hagenda, List.pairwise_cons] at hascending
  rw [hagenda] at hmem
  refine ⟨h, d, (hmem d h).1 List.mem_cons_self, rfl, fun k c hc => ?_⟩
  rcases List.mem_cons.1 ((hmem c k).2 hc) with heq | hrest
  · cases heq
    exact Nat.le_refl _
  · exact Deadline.time_le_of_before (hascending.1 _ hrest)

/-- Nothing is pending if there is no next time at which something expires. -/
theorem deadline?_of_next?_eq_none (hq : q.InStep) (hnext : q.next? = none) :
    q.deadline? h = none := by
  have hagenda : q.agenda = [] := by simpa [next?] using hnext
  rw [Option.eq_none_iff_forall_ne_some]
  intro d hd
  rw [← hq.coherent.mem_agenda_iff, hagenda] at hd
  cases hd

end InStep

end TimerQueue

/-! ## Queues as timetables -/

namespace ClockedTimers

variable {t : ClockedTimers} {time : Time} {h k : Handle} {c d : Deadline}
  {command : TimerCommand} {commands commands' : List TimerCommand}

/-- The timetable that a queue with a clock stands for. -/
def timetable (t : ClockedTimers) : Timetable := ⟨t.queue.deadline?, t.queue.serial, t.now⟩

/-- Taking the first deadline keeps a queue in step. -/
theorem inStep_pop (hq : t.queue.InStep) : (t.pop time).2.queue.InStep := by
  unfold pop
  split
  next h q' hpop => exact hq.popExpired hpop
  next => exact hq

/-- A command keeps a queue in step. -/
theorem inStep_perform (hq : t.queue.InStep) (command : TimerCommand) :
    (t.perform command).2.queue.InStep := by
  cases command with
  | schedule h delay => exact hq.schedule
  | cancel h => exact hq.cancel
  | pop => exact inStep_pop hq
  | popAt time => exact inStep_pop hq
  | _ => exact hq

/-- To take the first deadline off a queue is to take it off its timetable. -/
theorem pops_pop (hq : t.queue.InStep) :
    t.timetable.Pops time (t.pop time).1 (t.pop time).2.timetable := by
  unfold pop
  split
  next h q' hpop =>
    obtain ⟨-, ⟨d, hd, hdue⟩, hafter⟩ := hq.coherent.popExpired hpop
    have htable : timetable { t with queue := q' } = t.timetable.put h none := by
      have hserial : q'.serial = t.queue.serial := by
        obtain ⟨-, -, -, -, rfl⟩ := TimerQueue.popExpired_cases hpop
        rfl
      have hpending : q'.deadline? = Function.update t.queue.deadline? h none := by
        funext k
        rw [hafter, Function.update_apply]
      rw [timetable, Timetable.put, hserial, hpending]
      rfl
    rw [htable]
    -- What remains pending comes after what was popped.
    refine .first ⟨hd, hdue, fun k c hc _ hne => ?_⟩
    have hremains : q'.deadline? k = some c := by rwa [hafter, if_neg hne]
    exact Deadline.before_iff.1
      (hq.ascending.before_of_popExpired hq.coherent hpop hd hremains)
  next hpop =>
    exact .idle fun h d hd => hq.ascending.lt_of_popExpired_eq_none hq.coherent hpop hd

/-- A command on a queue does what it does on the timetable. -/
theorem performs_perform (hq : t.queue.InStep) (command : TimerCommand) :
    t.timetable.Performs command (t.perform command).1 (t.perform command).2.timetable := by
  cases command with
  | schedule h delay =>
    have hpending : (t.queue.schedule t.now h delay).deadline? = Function.update t.queue.deadline? h
        (some ⟨t.now + min delay TimerQueue.farthest, t.queue.serial⟩) := by
      funext k
      rw [TimerQueue.deadline?_schedule, Function.update_apply]
    have htable : (t.perform (.schedule h delay)).2.timetable =
        { t.timetable.put h (some ⟨t.now + min delay TimerQueue.farthest, t.queue.serial⟩) with
          armings := t.queue.serial + 1 } := by
      rw [perform, timetable, hpending]
      rfl
    rw [htable]
    exact .schedule h delay
  | cancel h =>
    have hpending : (t.queue.cancel h).deadline? = Function.update t.queue.deadline? h none := by
      funext k
      rw [TimerQueue.deadline?_cancel, Function.update_apply]
    have htable : (t.perform (.cancel h)).2.timetable = t.timetable.put h none := by
      rw [perform, timetable, hpending, TimerQueue.serial_cancel]
      rfl
    rw [htable]
    exact .cancel h
  | isArmed h => exact .isArmed h
  | remaining h => exact .remaining h
  | next =>
    show t.timetable.Performs .next (.time t.queue.next?) t.timetable
    cases hnext : t.queue.next? with
    | none => exact .nextNone fun h => hq.deadline?_of_next?_eq_none hnext
    | some time =>
      obtain ⟨h, d, hd, rfl, hleast⟩ := hq.next?_eq_some hnext
      exact .next hd hleast
  | pop => exact .pop (pops_pop hq)
  | popAt time => exact .popAt (pops_pop hq)
  | advance duration => exact .advance duration
  | size =>
    have hempty : t.queue.isEmpty = (t.queue.size == 0) := by
      rw [TimerQueue.isEmpty, TimerQueue.size]
      cases t.queue.armed <;> rfl
    show t.timetable.Performs .size (.size t.queue.size t.queue.isEmpty) t.timetable
    rw [hempty]
    exact .size hq.encard_pending
  | remainingAll handles => exact .remainingAll handles

/-- Commands on a queue do what they do on the timetable, and keep the queue in step. -/
theorem runs_run (hq : t.queue.InStep) (commands : List TimerCommand) :
    t.timetable.Runs commands (t.run commands).1 (t.run commands).2.timetable ∧
      (t.run commands).2.queue.InStep := by
  induction commands generalizing t with
  | nil => exact ⟨.nil _, hq⟩
  | cons command commands ih =>
    obtain ⟨hruns, hstep⟩ := ih (inStep_perform hq command)
    exact ⟨.cons (performs_perform hq command) hruns, hstep⟩

/-! ## The last arming -/

/-- An empty queue at time `0` after the given commands. -/
def after (commands : List TimerCommand) : ClockedTimers := (run {} commands).2

/-- Commands are carried out one after the other. -/
theorem run_append : (t.run (commands ++ commands')).2 = ((t.run commands).2.run commands').2 := by
  induction commands generalizing t with
  | nil => rfl
  | cons command commands ih => exact ih

/-- A further command is carried out after those before. -/
theorem after_concat : after (commands ++ [command]) = ((after commands).perform command).2 :=
  run_append

/-- After any commands the queue is in step. -/
theorem inStep_after (commands : List TimerCommand) : (after commands).queue.InStep :=
  (runs_run .empty commands).2

/-- Taking the first deadline sets none. -/
theorem deadline?_pop (hq : t.queue.InStep) (hd : (t.pop time).2.queue.deadline? h = some d) :
    t.queue.deadline? h = some d := by
  unfold pop at hd
  split at hd
  next k q' hpop =>
    rw [(hq.coherent.popExpired hpop).2.2] at hd
    split at hd
    next => cases hd
    next => exact hd
  next => exact hd

/-- A deadline that is pending after a command was set by it, or was pending before. -/
theorem deadline?_perform (hq : t.queue.InStep)
    (hd : (t.perform command).2.queue.deadline? h = some d) :
    (∃ delay, command = .schedule h delay ∧
      d = ⟨t.now + min delay TimerQueue.farthest, t.queue.serial⟩) ∨
    (∀ delay, command ≠ .schedule h delay) ∧ t.queue.deadline? h = some d := by
  cases command with
  | schedule k delay =>
    rw [perform, TimerQueue.deadline?_schedule] at hd
    split at hd
    next heq =>
      cases hd
      exact .inl ⟨delay, by rw [heq], rfl⟩
    next hne => exact .inr ⟨fun delay' heq => hne (by cases heq; rfl), hd⟩
  | cancel k =>
    rw [perform, TimerQueue.deadline?_cancel] at hd
    split at hd
    next => cases hd
    next => exact .inr ⟨nofun, hd⟩
  | pop => exact .inr ⟨nofun, deadline?_pop hq hd⟩
  | popAt time => exact .inr ⟨nofun, deadline?_pop hq hd⟩
  | _ => exact .inr ⟨nofun, hd⟩

/-- A pending deadline is the one that was set last for its handle: at the time of its arming, and
with the number of armings before. -/
theorem deadline?_after (hd : (after commands).queue.deadline? h = some d) :
    ∃ before delay later, commands = before ++ .schedule h delay :: later ∧
      (∀ delay', .schedule h delay' ∉ later) ∧
      d = ⟨(after before).now + min delay TimerQueue.farthest, (after before).queue.serial⟩ := by
  induction commands using List.reverseRecOn with
  | nil => simp [after, run, TimerQueue.deadline?] at hd
  | append_singleton commands command ih =>
    rw [after_concat] at hd
    rcases deadline?_perform (inStep_after commands) hd with ⟨delay, rfl, rfl⟩ | ⟨hother, hbefore⟩
    · exact ⟨commands, delay, [], rfl, fun delay' => List.not_mem_nil, rfl⟩
    · obtain ⟨before, delay, later, rfl, hlast, heq⟩ := ih hbefore
      refine ⟨before, delay, later ++ [command], by simp, fun delay' hmem => ?_, heq⟩
      rcases List.mem_append.1 hmem with hmem | hmem
      · exact hlast delay' hmem
      · exact hother delay' (List.mem_singleton.1 hmem).symm

/-- No command takes an arming back. -/
theorem serial_le_perform : t.queue.serial ≤ (t.perform command).2.queue.serial := by
  have hpop : ∀ time, t.queue.serial ≤ (t.pop time).2.queue.serial := by
    intro time
    unfold pop
    split
    next h q' heq =>
      obtain ⟨-, -, -, -, rfl⟩ := TimerQueue.popExpired_cases heq
      exact Nat.le_refl _
    next => exact Nat.le_refl _
  cases command with
  | schedule h delay => exact Nat.le_succ _
  | cancel h => exact Nat.le_of_eq TimerQueue.serial_cancel.symm
  | pop => exact hpop t.now
  | popAt time => exact hpop time
  | _ => exact Nat.le_refl _

/-- There have been no fewer armings after further commands. -/
theorem serial_le_run : t.queue.serial ≤ (t.run commands).2.queue.serial := by
  induction commands generalizing t with
  | nil => exact Nat.le_refl _
  | cons command commands ih => exact Nat.le_trans serial_le_perform ih

/-- The place of the last command that arms the handle. -/
def LastArming (h : Handle) (commands : List TimerCommand) (n : Nat) : Prop :=
  ∃ before delay later, commands = before ++ .schedule h delay :: later ∧ before.length = n ∧
    ∀ delay', .schedule h delay' ∉ later

/-- Of two pending deadlines, the one with the lower serial number was set earlier. -/
theorem lastArming_lt (hd : (after commands).queue.deadline? h = some d)
    (hc : (after commands).queue.deadline? k = some c) (hlt : d.serial < c.serial) :
    ∃ m n, LastArming h commands m ∧ LastArming k commands n ∧ m < n := by
  obtain ⟨before, delay, later, hcommands, hlast, rfl⟩ := deadline?_after hd
  obtain ⟨before', delay', later', hcommands', hlast', rfl⟩ := deadline?_after hc
  refine ⟨before.length, before'.length, ⟨before, delay, later, hcommands, rfl, hlast⟩,
    ⟨before', delay', later', hcommands', rfl, hlast'⟩, ?_⟩
  by_contra hle
  -- Otherwise there had been no fewer armings before the first of the two.
  have hprefix : before' <+: before :=
    List.prefix_of_prefix_length_le ⟨_, hcommands'.symm⟩ ⟨_, hcommands.symm⟩ (Nat.le_of_not_lt hle)
  obtain ⟨between, rfl⟩ := hprefix
  have hserial : (after before').queue.serial ≤ (after (before' ++ between)).queue.serial := by
    rw [after, after, run_append]
    exact serial_le_run
  exact absurd hlt (Nat.not_lt_of_le hserial)

/-- A timer queue with a clock answers every sequence of commands as the timetable does that was
empty at the beginning, and in no other way; and it stands for that timetable at the end. Its agenda
and its table of armed handles hold the same entries, none of them twice, and no handle has two. A
pending deadline is the one that was set last for its handle, and of those that fall together the
one that was set first is taken first. -/
theorem refines_timetable (commands : List TimerCommand) :
    (∀ answers table, Timetable.Runs {} commands answers table ↔
      answers = (run {} commands).1 ∧ table = (after commands).timetable) ∧
    (∀ h d, (d, h) ∈ (after commands).queue.agenda ↔ (h, d) ∈ (after commands).queue.armed) ∧
    (after commands).queue.agenda.Nodup ∧
    ((after commands).queue.armed.map (·.1)).Nodup ∧
    (∀ h d, (after commands).queue.deadline? h = some d →
      ∃ before delay later, commands = before ++ .schedule h delay :: later ∧
        (∀ delay', .schedule h delay' ∉ later) ∧
        d = ⟨(after before).now + min delay TimerQueue.farthest,
          (after before).queue.serial⟩) ∧
    ∀ time h q' k c d, (after commands).queue.popExpired time = some (h, q') →
      (after commands).queue.deadline? h = some d →
      (after commands).queue.deadline? k = some c → k ≠ h → d.time = c.time →
      ∃ m n, LastArming h commands m ∧ LastArming k commands n ∧ m < n := by
  have hq := inStep_after commands
  obtain ⟨hruns, -⟩ := runs_run (t := {}) .empty commands
  refine ⟨fun answers table => ⟨fun hruns' => hruns'.unique hruns, ?_⟩,
    fun h d => hq.mem_agenda_iff, hq.coherent.agenda_nodup, hq.nodup_armed,
    fun h d => deadline?_after, ?_⟩
  · rintro ⟨rfl, rfl⟩
    exact hruns
  · intro time h q' k c d hpop hd hc hne htime
    have hremains : q'.deadline? k = some c := by
      rwa [(hq.coherent.popExpired hpop).2.2, if_neg hne]
    rcases Deadline.before_iff.1
      (hq.ascending.before_of_popExpired hq.coherent hpop hd hremains) with hlt | ⟨-, hlt⟩
    · exact absurd htime (Nat.ne_of_lt hlt)
    · exact lastArming_lt hd hc hlt

/-- The first handle is armed again, so of two that fall together the second one is taken first. -/
example : (run {} [.schedule ⟨0, 0⟩ 5, .schedule ⟨1, 0⟩ 5, .schedule ⟨0, 0⟩ 5, .advance 5,
      .pop]).1 =
    [.scheduled, .scheduled, .scheduled, .time (some 5), .popped (some ⟨1, 0⟩)] := by
  decide

end ClockedTimers

end StateMachines
