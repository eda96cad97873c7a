import Mathlib.Data.List.Forall2

set_option autoImplicit false

namespace BuildGate

variable {ε α β : Type}

theorem Except.bind_eq_ok {first : Except ε α} {next : α → Except ε β} {value : β} :
    (first >>= next) = .ok value ↔ ∃ middle, first = .ok middle ∧ next middle = .ok value := by
  cases first <;> simp [bind, Except.bind]

theorem Except.bind_eq_error {first : Except ε α} {next : α → Except ε β} {error : ε} :
    (first >>= next) = .error error ↔
      first = .error error ∨ ∃ middle, first = .ok middle ∧ next middle = .error error := by
  cases first <;> simp [bind, Except.bind]

theorem Except.map_eq_ok {next : α → β} {first : Except ε α} {value : β} :
    first.map next = .ok value ↔ ∃ middle, first = .ok middle ∧ next middle = value := by
  cases first <;> simp [Except.map]

theorem Except.map_eq_error {next : α → β} {first : Except ε α} {error : ε} :
    first.map next = .error error ↔ first = .error error := by
  cases first <;> simp [Except.map]

theorem Except.isOk_iff {result : Except ε α} :
    result.isOk = true ↔ ∃ value, result = .ok value := by
  cases result <;> simp [Except.isOk, Except.toBool]

theorem Except.mapM_eq_ok {step : α → Except ε β} {items : List α} {values : List β} :
    items.mapM step = .ok values ↔
      List.Forall₂ (fun item value => step item = .ok value) items values := by
  induction items generalizing values with
  | nil =>
    rw [List.mapM_nil, List.forall₂_nil_left_iff]
    constructor
    · rintro ⟨⟩
      rfl
    · rintro rfl
      rfl
  | cons item items ih =>
    rw [List.mapM_cons, List.forall₂_cons_left_iff]
    simp only [Except.bind_eq_ok, ih]
    constructor
    · rintro ⟨value, first, others, rest, ⟨⟩⟩
      exact ⟨value, others, first, rest, rfl⟩
    · rintro ⟨value, others, first, rest, rfl⟩
      exact ⟨value, first, others, rest, rfl⟩

theorem Except.mem_of_mapM {step : α → Except ε β} {items : List α} {values : List β}
    (all : items.mapM step = .ok values) {value : β} :
    value ∈ values ↔ ∃ item ∈ items, step item = .ok value := by
  induction Except.mapM_eq_ok.1 all with
  | nil => simp
  | cons first rest ih =>
    rename_i item held items values
    have same : held = value ↔ step item = .ok value := by
      rw [first, Except.ok.injEq]
    simp only [List.mem_cons, exists_eq_or_imp, ih (Except.mapM_eq_ok.2 rest), ← same,
      eq_comm (a := value)]

theorem Except.exists_mapM {step : α → Except ε β} {items : List α} :
    (∃ values, items.mapM step = .ok values) ↔ ∀ item ∈ items, ∃ value, step item = .ok value := by
  induction items with
  | nil => simp [pure, Except.pure]
  | cons item items ih =>
    rw [List.forall_mem_cons, ← ih]
    simp only [Except.mapM_eq_ok, List.forall₂_cons_left_iff]
    constructor
    · rintro ⟨_, value, values, first, rest, rfl⟩
      exact ⟨⟨value, first⟩, values, rest⟩
    · rintro ⟨⟨value, first⟩, values, rest⟩
      exact ⟨_, value, values, first, rest, rfl⟩

theorem Except.mapM_eq_error {step : α → Except ε β} {items : List α} {error : ε}
    (failed : items.mapM step = .error error) : ∃ item ∈ items, step item = .error error := by
  induction items with
  | nil => cases failed
  | cons item items ih =>
    rw [List.mapM_cons] at failed
    rcases Except.bind_eq_error.1 failed with refused | ⟨value, -, failed⟩
    · exact ⟨item, List.mem_cons_self, refused⟩
    rcases Except.bind_eq_error.1 failed with refused | ⟨others, -, failed⟩
    · obtain ⟨later, member, refused⟩ := ih refused
      exact ⟨later, List.mem_cons_of_mem item member, refused⟩
    · cases failed

theorem Option.mapM_eq_some {step : α → Option β} {items : List α} {values : List β} :
    items.mapM step = some values ↔
      List.Forall₂ (fun item value => step item = some value) items values := by
  induction items generalizing values with
  | nil =>
    rw [List.mapM_nil, List.forall₂_nil_left_iff]
    constructor
    · rintro ⟨⟩
      rfl
    · rintro rfl
      rfl
  | cons item items ih =>
    rw [List.mapM_cons, List.forall₂_cons_left_iff]
    simp only [Option.bind_eq_bind, Option.bind_eq_some_iff, ih]
    constructor
    · rintro ⟨value, first, others, rest, ⟨⟩⟩
      exact ⟨value, others, first, rest, rfl⟩
    · rintro ⟨value, others, first, rest, rfl⟩
      exact ⟨value, first, others, rest, rfl⟩

theorem Option.mapM_eq_none {step : α → Option β} {items : List α} {item : α}
    (inside : item ∈ items) (failed : step item = none) : items.mapM step = none := by
  induction items with
  | nil => cases inside
  | cons first items ih =>
    rw [List.mapM_cons]
    rcases List.mem_cons.1 inside with rfl | later
    · rw [failed]
      rfl
    · rw [ih later]
      cases step first <;> rfl

end BuildGate
