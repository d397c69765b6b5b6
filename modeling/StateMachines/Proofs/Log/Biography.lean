import StateMachines.Proofs.Log.Chronicle

/-!
# What the records about an instance are like

The records about a live instance begin with its allocation, tell at most once that its termination
begins, and tell of no release. Those about a released instance end with its release. The beginnings
and the ends of the terminations of all instances are nested if each release is that of the
termination that has begun last.

## Main definitions

* `Record.Life`, `Record.Past`: the records about a live and about a released instance.
* `Record.Biography`: what the records about an instance are like.
* `Record.Nested`: the beginnings and the ends of terminations are nested like brackets.
* `Record.latestState?`: the state that was told last.
-/

namespace StateMachines

namespace Record

variable {r : Record} {rs later earlier cs entries : List Record} {name other : String}
  {opened : List String} {t : Bool}

/-! ## The records about one instance -/

/-- The records that are tagged with a name. -/
def taggedWith (name : String) (rs : List Record) : List Record :=
  rs.filter (·.tag? = some name)

/-- What is tagged with the name is all there. -/
theorem taggedWith_eq_self (htag : ∀ r ∈ rs, r.tag? = some name) : taggedWith name rs = rs := by
  rw [taggedWith, List.filter_eq_self]
  intro r hr
  exact decide_eq_true (htag r hr)

/-- What is tagged with another name is left out. -/
theorem taggedWith_eq_nil (htag : ∀ r ∈ rs, r.tag? = some other) (hne : other ≠ name) :
    taggedWith name rs = [] := by
  rw [taggedWith, List.filter_eq_nil_iff]
  intro r hr
  simp [htag r hr, hne]

/-- The records with a name of two stretches. -/
theorem taggedWith_append :
    taggedWith name (later ++ earlier) = taggedWith name later ++ taggedWith name earlier :=
  List.filter_append _ _

/-- A record that is tagged with the name is added. -/
theorem taggedWith_cons (htag : r.tag? = some name) :
    taggedWith name (r :: cs) = r :: taggedWith name cs := by
  simp [taggedWith, htag]

/-- A record that is tagged with another name is left out. -/
theorem taggedWith_cons_of_ne (htag : r.tag? = some other) (hne : other ≠ name) :
    taggedWith name (r :: cs) = taggedWith name cs := by
  simp [taggedWith, htag, hne]

/-- The records about a live instance, the latest first: it was allocated, and the flag tells
whether its termination has begun. -/
inductive Life : List Record → Bool → Prop where
  | born {r : Record} (hr : r.announcesBirth = true) : Life [r] false
  | goes {r : Record} {rs : List Record} {t : Bool} (hr : r.Passing) (hlife : Life rs t) :
      Life (r :: rs) t
  | ends {r : Record} {rs : List Record} (hr : r.announcesEnd = true) (hlife : Life rs false) :
      Life (r :: rs) true

/-- The records about a released instance. -/
def Past (rs : List Record) : Prop :=
  ∃ r rest, rs = r :: rest ∧ r.announcesRelease = true ∧ Life rest true

/-- What the records about an instance are like, the latest first. -/
structure Biography (rs : List Record) (alive : Prop) : Prop where
  /-- The first one tells of the allocation. -/
  first : ∃ r, rs.getLast? = some r ∧ r.announcesBirth = true
  /-- The allocation is told once. -/
  born_once : rs.countP announcesBirth = 1
  /-- The beginning of the termination is told at most once. -/
  ends_once : rs.countP announcesEnd ≤ 1
  /-- The release is told at most once. -/
  released_once : rs.countP announcesRelease ≤ 1
  /-- The instance is dead exactly if its release was told. -/
  dead_iff : ¬ alive ↔ ∃ r ∈ rs, r.announcesRelease = true
  /-- Nothing is told after the release. -/
  last : ∀ later r earlier, rs = later ++ r :: earlier → r.announcesRelease = true → later = []

/-- The three announcements exclude each other. -/
theorem announces_cases (r : Record) :
    r.Passing ∨
      r.announcesBirth = true ∧ r.announcesEnd = false ∧ r.announcesRelease = false ∨
      r.announcesBirth = false ∧ r.announcesEnd = true ∧ r.announcesRelease = false ∨
      r.announcesBirth = false ∧ r.announcesEnd = false ∧ r.announcesRelease = true := by
  cases r with
  | remark level subsystem name what =>
    cases what with
    | allocated => exact .inr (.inl ⟨rfl, rfl, rfl⟩)
    | terminating => exact .inr (.inr (.inl ⟨rfl, rfl, rfl⟩))
    | released => exact .inr (.inr (.inr ⟨rfl, rfl, rfl⟩))
    | _ => exact .inl ⟨rfl, rfl, rfl⟩
  | _ => exact .inl ⟨rfl, rfl, rfl⟩

namespace Life

/-- There is a record about every instance. -/
theorem ne_nil (hlife : Life rs t) : rs ≠ [] := by
  cases hlife <;> exact List.cons_ne_nil _ _

/-- Passing records may follow. -/
theorem append (hlife : Life rs t) (hpassing : ∀ r ∈ entries, r.Passing) :
    Life (entries ++ rs) t := by
  induction entries with
  | nil => exact hlife
  | cons r entries ih =>
    exact .goes (hpassing r List.mem_cons_self)
      (ih fun r hr => hpassing r (List.mem_cons_of_mem _ hr))

/-- The first record tells of the allocation. -/
theorem first (hlife : Life rs t) : ∃ r, rs.getLast? = some r ∧ r.announcesBirth = true := by
  induction hlife with
  | @born r hr => exact ⟨r, rfl, hr⟩
  | goes hr hlife ih | ends hr hlife ih =>
    obtain ⟨first, hlast, hbirth⟩ := ih
    exact ⟨first, by rw [List.getLast?_cons, hlast]; rfl, hbirth⟩

/-- The allocation is told once, the beginning of the termination once if it has begun, and no
release is told. -/
theorem counts (hlife : Life rs t) :
    rs.countP announcesBirth = 1 ∧ rs.countP announcesEnd = t.toNat ∧
      rs.countP announcesRelease = 0 := by
  induction hlife with
  | @born r hr =>
    rcases announces_cases r with hp | ⟨-, hend, hrelease⟩ | ⟨hbirth, -⟩ | ⟨hbirth, -⟩
    · cases hr.symm.trans hp.birth_eq
    · simp [hr, hend, hrelease]
    · cases hr.symm.trans hbirth
    · cases hr.symm.trans hbirth
  | goes hr hlife ih => simp [ih, hr.birth_eq, hr.end_eq, hr.release_eq]
  | @ends r rs hr hlife ih =>
    rcases announces_cases r with hp | ⟨-, hend, -⟩ | ⟨hbirth, -, hrelease⟩ | ⟨-, hend, -⟩
    · cases hr.symm.trans hp.end_eq
    · cases hr.symm.trans hend
    · simp [ih, hr, hbirth, hrelease]
    · cases hr.symm.trans hend

/-- No release is told of a live instance. -/
theorem not_released (hlife : Life rs t) : ∀ r ∈ rs, ¬ r.announcesRelease = true :=
  List.countP_eq_zero.1 hlife.counts.2.2

/-- The records about a live instance are a biography. -/
theorem biography (hlife : Life rs t) {alive : Prop} (halive : alive) : Biography rs alive where
  first := hlife.first
  born_once := hlife.counts.1
  ends_once := by
    rw [hlife.counts.2.1]
    exact Bool.toNat_le t
  released_once := by
    rw [hlife.counts.2.2]
    exact Nat.zero_le 1
  dead_iff := by
    refine iff_of_false (not_not_intro halive) ?_
    rintro ⟨r, hr, hrelease⟩
    exact hlife.not_released r hr hrelease
  last later r earlier heq hrelease := by
    refine absurd hrelease (hlife.not_released r ?_)
    simp [heq]

end Life

/-- The records about a released instance are a biography. -/
theorem Past.biography (hpast : Past rs) {alive : Prop} (hdead : ¬ alive) :
    Biography rs alive := by
  obtain ⟨r, rest, rfl, hrelease, hlife⟩ := hpast
  obtain ⟨hbirths, hends, hreleases⟩ := hlife.counts
  obtain ⟨hbirth, hend⟩ : r.announcesBirth = false ∧ r.announcesEnd = false := by
    rcases announces_cases r with hp | ⟨-, -, hno⟩ | ⟨-, -, hno⟩ | ⟨hbirth, hend, -⟩
    · exact ⟨hp.birth_eq, hp.end_eq⟩
    · cases hrelease.symm.trans hno
    · cases hrelease.symm.trans hno
    · exact ⟨hbirth, hend⟩
  refine ⟨?_, ?_, ?_, ?_, iff_of_true hdead ⟨r, List.mem_cons_self, hrelease⟩, ?_⟩
  · obtain ⟨first, hlast, hbirth⟩ := hlife.first
    exact ⟨first, by rw [List.getLast?_cons, hlast]; rfl, hbirth⟩
  · simp [hbirth, hbirths]
  · simp [hend, hends]
  · simp [hrelease, hreleases]
  · intro later r' earlier heq hrelease'
    -- A later record would be about a live instance.
    cases later with
    | nil => rfl
    | cons r'' later =>
      have hmem : r' ∈ rest := by
        rw [(List.cons.inj heq).2]
        simp
      exact absurd hrelease' (hlife.not_released r' hmem)

/-! ## Brackets -/

/-- The beginnings and the ends of terminations are nested like brackets: each release is that of
the instance whose termination has begun last among those that are not released yet. The second list
names these, the latest first. -/
inductive Nested : List Record → List String → Prop where
  | nil : Nested [] []
  | passes {r : Record} {rs : List Record} {opened : List String}
      (hend : r.announcesEnd = false) (hrelease : r.announcesRelease = false)
      (hrest : Nested rs opened) : Nested (r :: rs) opened
  | opens {r : Record} {rs : List Record} {opened : List String} {name : String}
      (hr : r.announcesEnd = true) (htag : r.tag? = some name) (hrest : Nested rs opened) :
      Nested (r :: rs) (name :: opened)
  | closes {r : Record} {rs : List Record} {opened : List String} {name : String}
      (hr : r.announcesRelease = true) (htag : r.tag? = some name)
      (hrest : Nested rs (name :: opened)) : Nested (r :: rs) opened

/-- Passing records may follow. -/
theorem Nested.append (hnested : Nested rs opened) (hpassing : ∀ r ∈ entries, r.Passing) :
    Nested (entries ++ rs) opened := by
  induction entries with
  | nil => exact hnested
  | cons r entries ih =>
    have hr := hpassing r List.mem_cons_self
    exact .passes hr.end_eq hr.release_eq
      (ih fun r hr => hpassing r (List.mem_cons_of_mem _ hr))

/-! ## States -/

/-- The name of the state that was told last. -/
def latestState? (rs : List Record) : Option String := rs.findSome? state?

/-- Records that tell of no change of state may follow. -/
theorem latestState?_append (hentries : ∀ r ∈ entries, r.state? = none) :
    latestState? (entries ++ rs) = latestState? rs := by
  have hnone : entries.findSome? state? = none := List.findSome?_eq_none_iff.2 hentries
  rw [latestState?, List.findSome?_append, hnone]
  rfl

end Record

end StateMachines
