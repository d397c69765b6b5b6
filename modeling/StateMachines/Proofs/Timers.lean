import StateMachines.Timers

/-!
# The two halves of a timer queue

The agenda and the table of armed handles of a timer queue hold the same deadlines, and no two
handles share one: `TimerQueue.Coherent`. Every operation keeps this, so that `deadline?` alone
tells what a queue holds.

## Main results

* `TimerQueue.deadline?_cancel`, `TimerQueue.deadline?_schedule`: the deadlines after an
  operation.
* `TimerQueue.Coherent.popExpired`: what is popped is a pending deadline that is due.
-/

namespace StateMachines.TimerQueue

variable {q q' : TimerQueue} {h k : Handle} {now : Time} {delay : Duration}

/-- The agenda and the armed handles are inverse to each other. -/
structure Coherent (q : TimerQueue) : Prop where
  /-- The agenda has no entry twice. -/
  agenda_nodup : q.agenda.Nodup
  /-- The agenda lists exactly the pending deadlines. -/
  mem_agenda_iff : ∀ d h, (d, h) ∈ q.agenda ↔ q.deadline? h = some d
  /-- The serial numbers of pending deadlines have been drawn. -/
  serial_lt : ∀ h d, q.deadline? h = some d → d.serial < q.serial
  /-- A serial number belongs to one handle. -/
  serial_inj : ∀ h k c d, q.deadline? h = some c → q.deadline? k = some d →
    c.serial = d.serial → h = k

/-- The empty queue is coherent. -/
theorem coherent_empty : Coherent {} :=
  ⟨List.nodup_nil, fun d h => by simp [deadline?], fun h d => by simp [deadline?],
    fun h k c d => by simp [deadline?]⟩

/-- A disarmed handle is not found, and every other one is found as before. -/
theorem lookup_disarm (armed : List (Handle × Deadline)) :
    (disarm armed h).lookup k = if k = h then none else armed.lookup k := by
  induction armed with
  | nil => simp [disarm]
  | cons entry rest ih =>
    obtain ⟨g, d⟩ := entry
    unfold disarm at ih ⊢
    by_cases hg : g = h
    · subst hg
      rw [List.filter_cons_of_neg (by simp), ih]
      by_cases hk : k = g
      · simp [hk]
      · rw [List.lookup_cons, beq_false_of_ne hk]
    · rw [List.filter_cons_of_pos (by simpa using hg)]
      by_cases hk : k = g
      · simp [hk, hg]
      · rw [List.lookup_cons, List.lookup_cons, beq_false_of_ne hk, ih]

/-- Cancelling removes the deadline of its handle only. -/
theorem deadline?_cancel : (q.cancel h).deadline? k = if k = h then none else q.deadline? k := by
  unfold cancel
  split
  next => exact lookup_disarm q.armed
  next hnone =>
    split
    next hk => rw [hk, hnone]
    next => rfl

/-- Cancelling draws no serial number. -/
@[simp]
theorem serial_cancel : (q.cancel h).serial = q.serial := by
  unfold cancel
  split <;> rfl

/-- What is popped heads the agenda and is due, and it is taken out of both halves of the queue. -/
theorem popExpired_cases (hpop : q.popExpired now = some (h, q')) :
    ∃ d rest, q.agenda = (d, h) :: rest ∧ d.time ≤ now ∧
      q' = { q with agenda := rest, armed := disarm q.armed h } := by
  unfold popExpired at hpop
  split at hpop
  next d k rest hagenda =>
    split at hpop
    next hdue =>
      cases hpop
      exact ⟨d, rest, hagenda, hdue, rfl⟩
    next => cases hpop
  next => cases hpop

/-- Scheduling gives its handle a new deadline and leaves the others alone. -/
theorem deadline?_schedule : (q.schedule now h delay).deadline? k =
    if k = h then some ⟨now + min delay farthest, q.serial⟩ else q.deadline? k := by
  by_cases hk : k = h
  · simp [schedule, deadline?, hk]
  · have hcancel := deadline?_cancel (q := q) (h := h) (k := k)
    simp only [deadline?, hk, ↓reduceIte] at hcancel ⊢
    rw [schedule, List.lookup_cons, beq_false_of_ne hk, hcancel]

/-- Inserting into the agenda adds an entry. -/
theorem insertSorted_perm (entry : Deadline × Handle) (agenda : List (Deadline × Handle)) :
    (insertSorted entry agenda).Perm (entry :: agenda) := by
  induction agenda with
  | nil => exact .refl _
  | cons head rest ih =>
    unfold insertSorted
    split
    · exact .refl _
    · exact (ih.cons head).trans (.swap entry head rest)

namespace Coherent

/-- A pending deadline belongs to one handle. -/
theorem handle_eq (hq : q.Coherent) {d : Deadline} (hh : q.deadline? h = some d)
    (hk : q.deadline? k = some d) : h = k :=
  hq.serial_inj h k d d hh hk rfl

/-- Cancelling keeps a queue coherent. -/
theorem cancel (hq : q.Coherent) : (q.cancel h).Coherent := by
  refine ⟨?_, fun d k => ?_, fun k d hk => ?_, fun g k c d hg hk => ?_⟩
  · unfold TimerQueue.cancel
    split
    next => exact hq.agenda_nodup.filter _
    next => exact hq.agenda_nodup
  · rw [deadline?_cancel]
    unfold TimerQueue.cancel
    split
    next c hc =>
      -- The deadline taken off the agenda is the one of `h` and of no other handle.
      have hiff := hq.mem_agenda_iff d k
      simp only [List.mem_filter, hiff, decide_eq_true_eq]
      split
      next hkh =>
        subst hkh
        rw [hc]
        simp +contextual
      next hkh =>
        refine and_iff_left_of_imp fun hk hdc => hkh ?_
        exact hq.handle_eq (hdc ▸ hk) hc
    next hnone =>
      rw [hq.mem_agenda_iff]
      split
      next hkh => rw [hkh, hnone]
      next => rfl
  · rw [deadline?_cancel] at hk
    split at hk
    next => cases hk
    next => simpa using hq.serial_lt k d hk
  · rw [deadline?_cancel] at hg hk
    split at hg
    next => cases hg
    next =>
      split at hk
      next => cases hk
      next => exact hq.serial_inj g k c d hg hk

/-- Scheduling keeps a queue coherent. -/
theorem schedule (hq : q.Coherent) : (q.schedule now h delay).Coherent := by
  have hcancel := hq.cancel (h := h)
  have hserial : (q.schedule now h delay).serial = q.serial + 1 := rfl
  have hagenda : (q.schedule now h delay).agenda.Perm
      ((⟨now + min delay farthest, q.serial⟩, h) :: (q.cancel h).agenda) :=
    insertSorted_perm _ _
  refine ⟨?_, fun d k => ?_, fun k d hk => ?_, fun g k c d hg hk hcd => ?_⟩
  · refine hagenda.nodup_iff.2 (List.nodup_cons.2 ⟨fun hmem => ?_, hcancel.agenda_nodup⟩)
    -- The new serial number is above all that have been drawn.
    exact absurd (hcancel.serial_lt _ _ ((hcancel.mem_agenda_iff _ _).1 hmem)) (by simp)
  · rw [deadline?_schedule, hagenda.mem_iff, List.mem_cons, hcancel.mem_agenda_iff,
      deadline?_cancel]
    by_cases hk : k = h
    · simp [hk, eq_comm]
    · simp [hk]
  · rw [deadline?_schedule] at hk
    rw [hserial]
    split at hk
    next =>
      cases hk
      exact Nat.lt_succ_self _
    next => exact Nat.lt_succ_of_lt (hq.serial_lt k d hk)
  · rw [deadline?_schedule] at hg hk
    split at hg <;> split at hk
    next hgh hkh => rw [hgh, hkh]
    next =>
      cases hg
      exact absurd hcd (Nat.ne_of_gt (hq.serial_lt k d hk))
    next =>
      cases hk
      exact absurd hcd (Nat.ne_of_lt (hq.serial_lt g c hg))
    next => exact hq.serial_inj g k c d hg hk hcd

/-- What is popped is a pending deadline that is due, and it is pending no longer. -/
theorem popExpired (hq : q.Coherent) (hpop : q.popExpired now = some (h, q')) :
    q'.Coherent ∧ (∃ d, q.deadline? h = some d ∧ d.time ≤ now) ∧
      ∀ k, q'.deadline? k = if k = h then none else q.deadline? k := by
  obtain ⟨d, rest, hagenda, hdue, rfl⟩ := popExpired_cases hpop
  have hd : q.deadline? h = some d := (hq.mem_agenda_iff d h).1 (by simp [hagenda])
  have hafter : ∀ k, ({ q with agenda := rest, armed := disarm q.armed h } :
      TimerQueue).deadline? k = if k = h then none else q.deadline? k :=
    fun k => lookup_disarm q.armed
  have hnodup := hagenda ▸ hq.agenda_nodup
  rw [List.nodup_cons] at hnodup
  refine ⟨⟨hnodup.2, ?_, ?_, ?_⟩, ⟨d, hd, hdue⟩, hafter⟩
  · intro c k
    have hiff := hq.mem_agenda_iff c k
    rw [hagenda, List.mem_cons] at hiff
    rw [hafter]
    split
    next hk =>
      -- A second entry for the handle would be the first one once more.
      subst hk
      refine iff_of_false ?_ (by simp)
      intro hmem
      have hc := hiff.1 (.inr hmem)
      rw [hd] at hc
      cases hc
      exact hnodup.1 hmem
    next hk => rwa [or_iff_right (by simp [hk])] at hiff
  · intro k c hk
    rw [hafter] at hk
    split at hk
    next => cases hk
    next => exact hq.serial_lt k c hk
  · intro g k c d hg hk
    rw [hafter] at hg hk
    split at hg
    next => cases hg
    next =>
      split at hk
      next => cases hk
      next => exact hq.serial_inj g k c d hg hk

end Coherent

end StateMachines.TimerQueue
