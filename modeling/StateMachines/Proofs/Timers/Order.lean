import StateMachines.Proofs.Timers

/-!
# The order of expiry

Deadlines are ordered by their time, and those that fall together by the order of their arming.
The agenda of a queue is strictly ascending in this order: `TimerQueue.Ascending`. So what is popped
comes before everything that remains pending, and if nothing is popped then nothing is due.

## Main results

* `TimerQueue.Ascending.before_of_popExpired`: what is popped comes first.
* `TimerQueue.Ascending.lt_of_popExpired_eq_none`: if nothing is popped, nothing is due.
-/

namespace StateMachines

namespace Deadline

variable {a b c : Deadline}

/-- The order of deadlines is lexicographic. -/
theorem before_iff :
    a.before b = true ↔ a.time < b.time ∨ a.time = b.time ∧ a.serial < b.serial := by
  simp [before]

/-- No deadline comes before itself. -/
theorem before_irrefl (a : Deadline) : ¬ a.before a = true := by
  rw [before_iff]
  grind

/-- The order of deadlines is transitive. -/
theorem before_trans (hab : a.before b = true) (hbc : b.before c = true) : a.before c = true := by
  rw [before_iff] at hab hbc ⊢
  grind

/-- Of two deadlines with different serial numbers one comes first. -/
theorem before_of_not_before (hab : ¬ a.before b = true) (hne : a.serial ≠ b.serial) :
    b.before a = true := by
  rw [before_iff] at hab ⊢
  grind

/-- What comes before a deadline is not later. -/
theorem time_le_of_before (hab : a.before b = true) : a.time ≤ b.time := by
  rcases before_iff.1 hab with hlt | ⟨heq, -⟩
  · exact Nat.le_of_lt hlt
  · exact Nat.le_of_eq heq

end Deadline

namespace TimerQueue

variable {q q' : TimerQueue} {h k : Handle} {now : Time} {delay : Duration} {c d : Deadline}

/-- The agenda is strictly ascending. -/
def Ascending (q : TimerQueue) : Prop := q.agenda.Pairwise fun a b => a.1.before b.1 = true

/-- The empty queue is ascending. -/
theorem ascending_empty : Ascending {} := List.Pairwise.nil

/-- An entry with a new serial number is inserted in its place. -/
theorem pairwise_insertSorted {entry : Deadline × Handle} {agenda : List (Deadline × Handle)}
    (hagenda : agenda.Pairwise fun a b => a.1.before b.1 = true)
    (hnew : ∀ other ∈ agenda, entry.1.serial ≠ other.1.serial) :
    (insertSorted entry agenda).Pairwise fun a b => a.1.before b.1 = true := by
  induction agenda with
  | nil => exact List.pairwise_singleton _ _
  | cons head rest ih =>
    obtain ⟨hhead, hrest⟩ := List.pairwise_cons.1 hagenda
    unfold insertSorted
    split
    next hbefore =>
      refine List.pairwise_cons.2 ⟨?_, hagenda⟩
      intro other hother
      rcases List.mem_cons.1 hother with rfl | hother
      · exact hbefore
      · exact Deadline.before_trans hbefore (hhead other hother)
    next hbefore =>
      have hne := hnew head List.mem_cons_self
      refine List.pairwise_cons.2 ⟨?_, ih hrest fun other hother =>
        hnew other (List.mem_cons_of_mem head hother)⟩
      -- The inserted entry comes after the head, and so does the rest.
      intro other hother
      rcases List.mem_cons.1 ((insertSorted_perm entry rest).mem_iff.1 hother) with rfl | hother
      · exact Deadline.before_of_not_before hbefore hne
      · exact hhead other hother

namespace Ascending

/-- Cancelling keeps a queue ascending. -/
theorem cancel (ha : q.Ascending) : (q.cancel h).Ascending := by
  unfold TimerQueue.cancel
  split
  next => exact List.Pairwise.filter _ ha
  next => exact ha

/-- Scheduling keeps a queue ascending. -/
theorem schedule (ha : q.Ascending) (hq : q.Coherent) : (q.schedule now h delay).Ascending := by
  apply pairwise_insertSorted ha.cancel
  -- The new serial number is above all that have been drawn.
  intro other hother
  have hpending := (hq.cancel.mem_agenda_iff other.1 other.2).1 hother
  have hlt := hq.cancel.serial_lt other.2 other.1 hpending
  rw [serial_cancel] at hlt
  exact Nat.ne_of_gt hlt

/-- Popping keeps a queue ascending. -/
theorem popExpired (ha : q.Ascending) (hpop : q.popExpired now = some (h, q')) :
    q'.Ascending := by
  obtain ⟨d, rest, hagenda, -, rfl⟩ := popExpired_cases hpop
  unfold Ascending at ha
  rw [hagenda] at ha
  exact (List.pairwise_cons.1 ha).2

/-- What is popped comes before everything that remains pending. -/
theorem before_of_popExpired (ha : q.Ascending) (hq : q.Coherent)
    (hpop : q.popExpired now = some (h, q')) (hd : q.deadline? h = some d)
    (hc : q'.deadline? k = some c) : d.before c = true := by
  have hremains := ((hq.popExpired hpop).1.mem_agenda_iff c k).2 hc
  -- What is popped is the head of the agenda, and the agenda is ascending.
  obtain ⟨b, rest, hagenda, -, rfl⟩ := popExpired_cases hpop
  have hhead : q.deadline? h = some b := (hq.mem_agenda_iff b h).1 (by simp [hagenda])
  cases hd.symm.trans hhead
  unfold Ascending at ha
  rw [hagenda] at ha
  exact (List.pairwise_cons.1 ha).1 (c, k) hremains

/-- If nothing is popped, nothing is due. -/
theorem lt_of_popExpired_eq_none (ha : q.Ascending) (hq : q.Coherent)
    (hpop : q.popExpired now = none) (hd : q.deadline? h = some d) : now < d.time := by
  have hmem := (hq.mem_agenda_iff d h).2 hd
  unfold TimerQueue.popExpired at hpop
  split at hpop
  next c k rest hagenda =>
    split at hpop
    next => cases hpop
    next hlate =>
      -- The head of the agenda is not due, and everything else comes later.
      unfold Ascending at ha
      rw [hagenda] at ha hmem
      rcases List.mem_cons.1 hmem with heq | hmem
      · cases heq
        exact Nat.lt_of_not_le hlate
      · have hle := Deadline.time_le_of_before ((List.pairwise_cons.1 ha).1 (d, h) hmem)
        exact Nat.lt_of_lt_of_le (Nat.lt_of_not_le hlate) hle
  next hagenda =>
    rw [hagenda] at hmem
    cases hmem

end Ascending

end TimerQueue

end StateMachines
