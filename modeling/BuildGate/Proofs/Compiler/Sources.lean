import BuildGate.Proofs.Compiler.Build
import BuildGate.Proofs.Lookup
import Mathlib.Data.List.Basic

set_option autoImplicit false

namespace BuildGate

/-- Wherever a path has the same time on both disks, reading it gives the same. -/
def Disk.Faithful (a b : Disk) : Prop :=
  ∀ path time, a.modified? path = some time → b.modified? path = some time →
    a.readText path = b.readText path

theorem Disk.find_mem {disk : Disk} {path : Path} {entry : Entry}
    (found : disk.find path = .ok entry) :
    entry ∈ Entry.directory 0 :: disk.entries.map (·.2) := by
  unfold find at found
  split at found
  next => cases found
  next place resolved =>
    cases place with
    | nil =>
      cases found
      simp
    | cons name names =>
      cases held : disk.entries.lookup (name :: names) with
      | none => simp [Disk.entry?, held] at found
      | some inner =>
        obtain ⟨before, after, split, -⟩ := List.lookup_eq_some_iff.1 held
        simp only [Disk.entry?, held, Except.ok.injEq] at found
        subst found
        simp [split]

theorem Disk.faithful_of_entries {a b : Disk}
    (distinct : ∀ x ∈ Entry.directory 0 :: a.entries.map (·.2),
      ∀ y ∈ Entry.directory 0 :: b.entries.map (·.2), x.modified = y.modified → x = y) :
    a.Faithful b := by
  intro path time early late
  cases foundA : a.find path with
  | error cause => simp [modified?, foundA, Except.toOption] at early
  | ok x =>
    cases foundB : b.find path with
    | error cause => simp [modified?, foundB, Except.toOption] at late
    | ok y =>
      simp only [modified?, foundA, foundB, Except.toOption, Option.map_some,
        Option.some.injEq] at early late
      have same : x = y := distinct x (find_mem foundA) y (find_mem foundB) (early.trans late.symm)
      simp only [readText, foundA, foundB, same]

theorem lookup_put {α : Type} (key other : String) (value : α) (members : List (String × α)) :
    (Json.put key value members).lookup other =
      if other = key then some value else members.lookup other := by
  induction members with
  | nil => simp only [Json.put, lookup_pair]
  | cons member members ih =>
    obtain ⟨name, held⟩ := member
    by_cases here : name = key
    · subst here
      by_cases same : other = name <;> simp [Json.put, lookup_pair, same]
    · simp only [Json.put, here, if_false, lookup_pair, ih]
      by_cases found : other = name
      · simp [found, here]
      · simp [found]

namespace Compiler

def Traced (disks : List Disk) (base : Path) (sources : Sources) : Prop :=
  ∀ file source time, sources.lookup file = some source → source.modified = some time →
    ∃ disk ∈ disks, disk.modified? (base.join file) = some time ∧
      disk.readText (base.join file) = .ok source.text

theorem traced_nil (disks : List Disk) (base : Path) : Traced disks base [] := by
  intro file source time held
  simp at held

theorem Traced.drop {disks : List Disk} {base : Path} {sources : Sources}
    (traced : Traced disks base sources) (file : String) :
    Traced disks base (sources.filter (·.1 ≠ file)) := by
  intro other source time held known
  rw [lookup_drop] at held
  split at held
  · cases held
  · exact traced other source time held known

theorem loadSource_fresh_eq_ok {disk : Disk} {base : Path} {file : String} {source : Source}
    (loaded : loadSource disk base none file = .ok source) :
    disk.readText (base.join file) = .ok source.text ∧
      source.modified = disk.modified? (base.join file) := by
  simp only [loadSource] at loaded
  split at loaded
  next text read =>
    cases loaded
    exact ⟨read, rfl⟩
  next => cases loaded

-- A time that is not known never stands for a text, so only known times have to be traced.
theorem loadSource_eq_fresh {disks : List Disk} {disk : Disk} {base : Path} {sources : Sources}
    (traced : Traced disks base sources) (faithful : ∀ past ∈ disks, past.Faithful disk)
    (file : String) :
    loadSource disk base (sources.lookup file) file = loadSource disk base none file := by
  cases held : sources.lookup file with
  | none => rfl
  | some source =>
    simp only [loadSource]
    by_cases current : isCurrent source (disk.modified? (base.join file)) = true
    · simp only [isCurrent, Bool.and_eq_true, beq_iff_eq] at current
      obtain ⟨known, same⟩ := current
      obtain ⟨time, now⟩ := Option.isSome_iff_exists.1 known
      obtain ⟨past, member, then_, read⟩ := traced file source time held (same.trans now)
      have unchanged := faithful past member (base.join file) time then_ now
      simp only [isCurrent, known, same, BEq.rfl, Bool.and_self, if_true]
      rw [← unchanged, read, ← same]
    · simp only [current]
      rfl

theorem loadSources_eq_fresh {disks : List Disk} {disk : Disk} {base : Path} {sources : Sources}
    (traced : Traced disks base sources) (faithful : ∀ past ∈ disks, past.Faithful disk)
    (loaded : Sources) (files : List String) :
    loadSources disk base sources loaded files = loadSources disk base [] loaded files := by
  induction files generalizing sources loaded with
  | nil => rfl
  | cons file files ih =>
    simp only [loadSources, loadSource_eq_fresh traced faithful file, List.lookup_nil,
      List.filter_nil]
    cases loadSource disk base none file with
    | error error => rfl
    | ok source => exact ih (traced.drop file) _

theorem Traced.put {disk : Disk} {base : Path} {file : String} {source : Source}
    {sources : Sources} (traced : Traced [disk] base sources)
    (loaded : loadSource disk base none file = .ok source) :
    Traced [disk] base (Json.put file source sources) := by
  obtain ⟨read, time⟩ := loadSource_fresh_eq_ok loaded
  intro other held now found known
  rw [lookup_put] at found
  split at found
  next same =>
    cases found
    subst same
    exact ⟨disk, by simp, time.symm.trans known, read⟩
  next => exact traced other held now found known

theorem loadSources_traced {disk : Disk} {base : Path} {loaded sources : Sources}
    {files : List String} (traced : Traced [disk] base loaded)
    (ended : loadSources disk base [] loaded files = .ok sources) :
    Traced [disk] base sources := by
  induction files generalizing loaded with
  | nil =>
    cases ended
    exact traced
  | cons file files ih =>
    simp only [loadSources, List.lookup_nil, List.filter_nil] at ended
    split at ended
    next => cases ended
    next source read => exact ih (traced.put read) ended

theorem loadSources_lookup_isSome {disk : Disk} {base : Path} {old loaded sources : Sources}
    {files : List String} (ended : loadSources disk base old loaded files = .ok sources)
    (file : String) :
    (sources.lookup file).isSome ↔ file ∈ files ∨ (loaded.lookup file).isSome := by
  induction files generalizing old loaded with
  | nil =>
    cases ended
    simp
  | cons first files ih =>
    simp only [loadSources] at ended
    split at ended
    next => cases ended
    next source read =>
      rw [ih ended, lookup_put, List.mem_cons]
      by_cases same : file = first <;> simp [same]

theorem text?_isSome_of_build {command : List String} {project : Project} {seed : Option Program}
    {before after : Host} {program : Program}
    (built : build command project seed before = (.ok program, after)) (file : String) :
    (program.text? file).isSome ↔ file ∈ program.files := by
  have same := files_of_build built
  obtain ⟨sources, loaded, ⟨-, rfl, -⟩ | ⟨-, call, response, -, rfl⟩⟩ := build_eq_ok built
  all_goals
    have listed := loadSources_lookup_isSome loaded file
    rw [same]
    simpa [Program.text?, programOf] using listed

end Compiler

end BuildGate
