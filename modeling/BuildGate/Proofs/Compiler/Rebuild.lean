import BuildGate.Proofs.Compiler.Build
import BuildGate.Proofs.Compiler.Sources

set_option autoImplicit false

namespace BuildGate.Compiler

theorem build_eq_fresh {disks : List Disk} {command : List String} {project : Project}
    {seed : Option Program} {host : Host}
    (traced : Traced disks project.basePath (sourcesOf seed))
    (faithful : ∀ past ∈ disks, past.Faithful host.disk) :
    build command project seed host = build command project none host := by
  have same := loadSources_eq_fresh traced faithful [] project.files
  have fresh : sourcesOf none = [] := rfl
  rw [build_apply, build_apply, same, fresh]

theorem build_traced {command : List String} {project : Project} {before after : Host}
    {program : Program} (built : build command project none before = (.ok program, after)) :
    Traced [before.disk] project.basePath program.sources := by
  obtain ⟨sources, loaded, ⟨-, rfl, -⟩ | ⟨-, call, response, -, rfl⟩⟩ := build_eq_ok built
  all_goals exact loadSources_traced (traced_nil _ _) loaded

structure Turn where
  change : Host → Host
  files : List String
  options : Json

structure Built where
  project : Project
  seed : Option Program
  before : Host
  outcome : Except EngineError Program × Host

/-- Builds turn after turn over one base path. The program of a turn seeds the next one; after a
turn that fails there is no seed. -/
def rebuilds (command : List String) (base : Path) :
    Option Program → Host → List Turn → List Built
  | _, _, [] => []
  | seed, host, turn :: turns =>
    let project : Project := ⟨turn.files, turn.options, base⟩
    let before := turn.change host
    let outcome := build command project seed before
    ⟨project, seed, before, outcome⟩ ::
      rebuilds command base outcome.1.toOption outcome.2 turns

theorem traced_next {command : List String} {project : Project} {seed : Option Program}
    {host : Host} (fresh : build command project seed host = build command project none host) :
    Traced [host.disk] project.basePath
      (sourcesOf (build command project seed host).1.toOption) := by
  cases built : build command project none host with
  | mk result after =>
    rw [fresh, built]
    cases result with
    | error error => exact traced_nil _ _
    | ok program => exact build_traced built

theorem rebuilds_eq_fresh_from {disks : List Disk} {command : List String} {base : Path}
    {seed : Option Program} {host : Host} {turns : List Turn}
    (traced : Traced disks base (sourcesOf seed))
    (past : ∀ disk ∈ disks, ∀ step ∈ rebuilds command base seed host turns,
      disk.Faithful step.before.disk)
    (faithful : ∀ earlier ∈ rebuilds command base seed host turns,
      ∀ later ∈ rebuilds command base seed host turns,
        earlier.before.disk.Faithful later.before.disk) :
    ∀ step ∈ rebuilds command base seed host turns,
      step.outcome = build command step.project none step.before := by
  induction turns generalizing disks seed host with
  | nil => simp [rebuilds]
  | cons turn turns ih =>
    simp only [rebuilds, List.forall_mem_cons] at past faithful ⊢
    have fresh : build command ⟨turn.files, turn.options, base⟩ seed (turn.change host) =
        build command ⟨turn.files, turn.options, base⟩ none (turn.change host) :=
      build_eq_fresh traced fun disk member => (past disk member).1
    refine ⟨fresh, ih (traced_next fresh) ?_ fun earlier member => (faithful.2 earlier member).2⟩
    intro disk member
    obtain rfl := List.mem_singleton.1 member
    exact faithful.1.2

/-- A seed changes nothing: every build of a run gives the program or the error, and leaves the
host with the log of processes, of a build without a seed. -/
theorem rebuilds_eq_fresh {command : List String} {base : Path} {host : Host} {turns : List Turn}
    (faithful : ∀ earlier ∈ rebuilds command base none host turns,
      ∀ later ∈ rebuilds command base none host turns,
        earlier.before.disk.Faithful later.before.disk) :
    ∀ step ∈ rebuilds command base none host turns,
      step.outcome = build command step.project none step.before :=
  rebuilds_eq_fresh_from (traced_nil [] base) (by simp) faithful

def silentHost : Host := ⟨⟨[], [], 0⟩, fun _ => none, fun _ _ => .silent, []⟩

def Turn.onFile (content : Text.Bytes) (modified : Int) (files : List String) : Turn where
  change host := { host with disk := ⟨[(["a.ts"], .file content modified)], [], modified⟩ }
  files := files
  options := .emptyObject

def edits : List Turn :=
  [.onFile [120] 1 ["a.ts"], .onFile [120] 1 ["a.ts", "a.ts"], .onFile [121] 2 ["a.ts"],
    .onFile [121] 2 ["b.ts"], .onFile [121] 2 ["a.ts"]]

theorem edits_faithful :
    ∀ earlier ∈ rebuilds ["tsc"] ⟨"."⟩ none silentHost edits,
      ∀ later ∈ rebuilds ["tsc"] ⟨"."⟩ none silentHost edits,
        earlier.before.disk.Faithful later.before.disk := by
  have trees : ∀ step ∈ rebuilds ["tsc"] ⟨"."⟩ none silentHost edits,
      step.before.disk.entries.map (·.2) ∈ [[Entry.file [120] 1], [Entry.file [121] 2]] := by
    simp [rebuilds, edits, Turn.onFile]
  have distinct : ∀ early ∈ [[Entry.file [120] 1], [Entry.file [121] 2]],
      ∀ late ∈ [[Entry.file [120] 1], [Entry.file [121] 2]],
        ∀ x ∈ Entry.directory 0 :: early, ∀ y ∈ Entry.directory 0 :: late,
          x.modified = y.modified → x = y := by decide
  intro earlier early later late
  exact Disk.faithful_of_entries (distinct _ (trees earlier early) _ (trees later late))

theorem rebuilds_edits_eq_fresh :
    (∀ earlier ∈ rebuilds ["tsc"] ⟨"."⟩ none silentHost edits,
      ∀ later ∈ rebuilds ["tsc"] ⟨"."⟩ none silentHost edits,
        earlier.before.disk.Faithful later.before.disk) ∧
      ∀ step ∈ rebuilds ["tsc"] ⟨"."⟩ none silentHost edits,
        step.outcome = build ["tsc"] step.project none step.before :=
  ⟨edits_faithful, rebuilds_eq_fresh edits_faithful⟩

end BuildGate.Compiler
