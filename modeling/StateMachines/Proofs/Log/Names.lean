import StateMachines.Proofs.Engine

/-!
# Numbers in display names

A display name ends in its number, in hexadecimal. Class names and correlation identifiers are any
text, also one that looks like a number in brackets, but what stands behind the last `x` of a name
is its own number all the same, since `x` is no digit. So names with different numbers are
different.

## Main definitions

* `Numbered`: a name carries a number up to a bound.

## Main results

* `Engine.addr_eq_of_displayName_eq`: a name tells its number.
* `Engine.alloc_numbered`: while names carry numbers, an allocation draws the next one.
-/

namespace StateMachines

/-! ## Hexadecimal numbers -/

/-- The hexadecimal digits are told apart. -/
theorem digitChar_inj {m n : Nat} (hm : m < 16) (hn : n < 16)
    (h : Nat.digitChar m = Nat.digitChar n) : m = n := by
  have hall : ∀ i j : Fin 16, Nat.digitChar i.val = Nat.digitChar j.val → i = j := by decide
  exact congrArg Fin.val (hall ⟨m, hm⟩ ⟨n, hn⟩ h)

/-- Numbers with the same digits are the same. -/
theorem toDigits_inj {m n : Nat} (h : Nat.toDigits 16 m = Nat.toDigits 16 n) : m = n := by
  have hbase : 1 < 16 := by decide
  induction m using Nat.strongRecOn generalizing n with
  | ind m ih =>
    rw [Nat.toDigits_eq_if (n := m) hbase, Nat.toDigits_eq_if (n := n) hbase] at h
    by_cases hm : m < 16
    · by_cases hn : n < 16
      · rw [if_pos hm, if_pos hn] at h
        exact digitChar_inj hm hn (List.cons.inj h).1
      · rw [if_pos hm, if_neg hn] at h
        have hnil : [] ++ [Nat.digitChar m] =
            Nat.toDigits 16 (n / 16) ++ [Nat.digitChar (n % 16)] := h
        exact absurd (List.append_inj' hnil rfl).1.symm Nat.toDigits_ne_nil
    · by_cases hn : n < 16
      · rw [if_neg hm, if_pos hn] at h
        have hnil : Nat.toDigits 16 (m / 16) ++ [Nat.digitChar (m % 16)] =
            [] ++ [Nat.digitChar n] := h
        exact absurd (List.append_inj' hnil rfl).1 Nat.toDigits_ne_nil
      · rw [if_neg hm, if_neg hn] at h
        obtain ⟨hhigh, hlow⟩ := List.append_inj' h rfl
        have hdiv : m / 16 = n / 16 := ih (m / 16) (by omega) hhigh
        have hmod : m % 16 = n % 16 :=
          digitChar_inj (Nat.mod_lt m (by decide)) (Nat.mod_lt n (by decide))
            (List.cons.inj hlow).1
        omega

/-- The letter `x` is no hexadecimal digit. -/
theorem x_not_mem_toDigits (n : Nat) : 'x' ∉ Nat.toDigits 16 n := by
  have hdigit : ∀ k : Nat, Nat.digitChar k ≠ 'x' := fun k => Nat.digitChar_ne 'x' (by decide)
  induction n using Nat.strongRecOn with
  | ind n ih =>
    rw [Nat.toDigits_eq_if (by decide)]
    split
    next => simp [(hdigit n).symm]
    next =>
      rw [List.mem_append, List.mem_singleton]
      rintro (h | h)
      · exact ih (n / 16) (by omega) h
      · exact hdigit _ h.symm

/-- What stands behind the last of a letter is determined. -/
theorem eq_of_append_cons_eq {α : Type} {c : α} {u v front front' : List α} (hu : c ∉ u)
    (hv : c ∉ v) (h : front ++ c :: u = front' ++ c :: v) : u = v := by
  rcases List.append_eq_append_iff.1 h with ⟨more, -, heq⟩ | ⟨more, -, heq⟩
  · cases more with
    | nil => exact (List.cons.inj heq).2
    | cons d more =>
      have hmem : c ∈ u := by
        rw [(List.cons.inj heq).2]
        simp
      exact absurd hmem hu
  · cases more with
    | nil => exact (List.cons.inj heq).2.symm
    | cons d more =>
      have hmem : c ∈ v := by
        rw [(List.cons.inj heq).2]
        simp
      exact absurd hmem hv

namespace Engine

/-! ## Names -/

/-- The letters of a display name with a number. -/
theorem toList_displayName (d : Descriptor) (id : Option String) (n : Nat) :
    ∃ front : List Char, (displayName d id (some n)).toList =
      front ++ 'x' :: (Nat.toDigits 16 n ++ [']']) := by
  obtain ⟨named, hnamed⟩ : ∃ named : String,
      displayName d id (some n) = named ++ "[0x" ++ hexText n ++ "]" := by
    cases id <;> exact ⟨_, rfl⟩
  refine ⟨named.toList ++ ['[', '0'], ?_⟩
  rw [hnamed]
  simp [hexText, String.toList_append, String.toList_ofList]

/-- A display name tells its number. -/
theorem addr_eq_of_displayName_eq {d d' : Descriptor} {id id' : Option String} {m n : Nat}
    (h : displayName d id (some m) = displayName d' id' (some n)) : m = n := by
  obtain ⟨front, hm⟩ := toList_displayName d id m
  obtain ⟨front', hn⟩ := toList_displayName d' id' n
  rw [h, hn] at hm
  have hno : ∀ k, 'x' ∉ Nat.toDigits 16 k ++ [']'] := by
    intro k
    simp [x_not_mem_toDigits]
  have hdigits := eq_of_append_cons_eq (hno n) (hno m) hm
  exact (toDigits_inj (List.append_inj' hdigits rfl).1).symm

end Engine

/-- The name was made with a number that is at most `n`. -/
def Numbered (n : Nat) (name : String) : Prop :=
  ∃ d id m, m ≤ n ∧ name = Engine.displayName d id (some m)

/-- What carries a number up to a bound does so up to a greater one. -/
theorem Numbered.mono {m n : Nat} {name : String} (h : Numbered m name) (hmn : m ≤ n) :
    Numbered n name := by
  obtain ⟨d, id, k, hk, rfl⟩ := h
  exact ⟨d, id, k, Nat.le_trans hk hmn, rfl⟩

/-- The name with the next number is new. -/
theorem Numbered.ne_next {n : Nat} {name : String} (h : Numbered n name) (d : Descriptor)
    (id : Option String) : name ≠ Engine.displayName d id (some (n + 1)) := by
  rintro rfl
  obtain ⟨d', id', m, hm, heq⟩ := h
  have hlt : n + 1 = m := Engine.addr_eq_of_displayName_eq heq
  omega

/-- An allocation draws the number for the name of its instance. -/
theorem Engine.alloc_name {e e' : Engine} {d : Descriptor} {payload : Option Payload}
    {level : Option Level} {id : Option String} {h : Handle} {inst : Instance}
    (halloc : e.alloc d payload level id = .ok (h, inst, e')) :
    inst.name = displayName d id e.drawAddr.1 ∧ e'.lastAddr = e.drawAddr.2.lastAddr := by
  unfold alloc at halloc
  dsimp only at halloc
  split at halloc
  next handle store hins =>
    cases halloc
    exact ⟨rfl, rfl⟩
  next => cases halloc

/-- While names carry numbers, the next number is drawn. -/
theorem Engine.drawAddr_of_logAddr {e : Engine} (hon : e.config.logAddr = true) :
    e.drawAddr = (some (e.lastAddr + 1), { e with lastAddr := e.lastAddr + 1 }) := by
  rw [drawAddr, if_pos hon]

/-- While names carry no numbers, none is drawn. -/
theorem Engine.drawAddr_of_not_logAddr {e : Engine} (hoff : e.config.logAddr = false) :
    e.drawAddr = (none, e) := by
  rw [drawAddr, if_neg (by simp [hoff])]

/-- While names carry numbers, an allocation draws the next number for the name of its instance. -/
theorem Engine.alloc_numbered {e e' : Engine} {d : Descriptor} {payload : Option Payload}
    {level : Option Level} {id : Option String} {h : Handle} {inst : Instance}
    (hon : e.config.logAddr = true) (halloc : e.alloc d payload level id = .ok (h, inst, e')) :
    inst.name = displayName d id (some (e.lastAddr + 1)) ∧ e'.lastAddr = e.lastAddr + 1 := by
  simpa only [drawAddr_of_logAddr hon] using alloc_name halloc

end StateMachines
