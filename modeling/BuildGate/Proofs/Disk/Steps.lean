import BuildGate.Proofs.Disk.Spelling
import BuildGate.Proofs.Disk.Tree
import BuildGate.Proofs.Except
import Mathlib.Data.List.DropRight

set_option autoImplicit false

namespace BuildGate

def Place.toward (place : Place) (step : String) : Place :=
  if step = ".." then place.dropLast else place ++ [step]

theorem Place.foldl_toward {steps : List String} (level : ".." ∉ steps) (place : Place) :
    steps.foldl Place.toward place = place ++ steps := by
  induction steps generalizing place with
  | nil => simp
  | cons step steps ih =>
    rw [List.mem_cons, not_or] at level
    rw [List.foldl_cons, ih level.2, Place.toward, if_neg (Ne.symm level.1), List.append_assoc]
    rfl

namespace Path

def stepsOf (pieces : List String) : List String := pieces.filter fun piece => !isIdle piece

def steps (path : Path) : List String := stepsOf path.pieces

theorem isIdle_iff {piece : String} : isIdle piece = true ↔ piece = "" ∨ piece = "." := by
  simp [isIdle]

@[simp] theorem stepsOf_nil : stepsOf [] = [] := rfl

theorem stepsOf_cons_idle {piece : String} (idle : isIdle piece = true) (pieces : List String) :
    stepsOf (piece :: pieces) = stepsOf pieces :=
  List.filter_cons_of_neg (by simp [idle])

theorem stepsOf_cons {piece : String} (counts : isIdle piece = false) (pieces : List String) :
    stepsOf (piece :: pieces) = piece :: stepsOf pieces :=
  List.filter_cons_of_pos (by simp [counts])

theorem stepsOf_append (front back : List String) :
    stepsOf (front ++ back) = stepsOf front ++ stepsOf back :=
  List.filter_append ..

theorem stepsOf_eq_nil {pieces : List String} (idle : ∀ piece ∈ pieces, isIdle piece = true) :
    stepsOf pieces = [] :=
  List.filter_eq_nil_iff.2 fun piece member => by simp [idle piece member]

theorem dropIdleEnd_eq (pieces : List String) : dropIdleEnd pieces = pieces.rdropWhile isIdle := rfl

theorem stepsOf_dropIdleEnd (pieces : List String) :
    stepsOf (dropIdleEnd pieces) = stepsOf pieces := by
  have split : dropIdleEnd pieces ++ pieces.rtakeWhile isIdle = pieces :=
    List.rdropWhile_append_rtakeWhile
  have idle : stepsOf (pieces.rtakeWhile isIdle) = [] :=
    stepsOf_eq_nil fun piece member => List.mem_rtakeWhile_imp member
  calc stepsOf (dropIdleEnd pieces)
      = stepsOf (dropIdleEnd pieces ++ pieces.rtakeWhile isIdle) := by
        rw [stepsOf_append, idle, List.append_nil]
    _ = stepsOf pieces := by rw [split]

end Path

namespace Disk

variable {disk : Disk} {place reached : Place} {pieces : List String}

theorem walk_cons_eq_ok {piece : String} :
    disk.walk place (piece :: pieces) = .ok reached ↔
      ∃ next, disk.walk place [piece] = .ok next ∧ disk.walk next pieces = .ok reached := by
  rw [← List.singleton_append, walk_append]
  exact Except.bind_eq_ok

theorem walk_singleton {piece : String} (walked : disk.walk place [piece] = .ok reached) :
    disk.kindAt? place = some true ∧ reached = (Path.stepsOf [piece]).foldl Place.toward place := by
  rw [walk_cons] at walked
  split at walked
  next => cases walked
  next => cases walked
  next directory =>
    refine ⟨directory, ?_⟩
    by_cases idle : piece = "" ∨ piece = "."
    · rw [if_pos idle] at walked
      rw [Path.stepsOf_cons_idle (Path.isIdle_iff.2 idle)]
      exact (Except.ok.inj walked).symm
    · rw [if_neg idle] at walked
      have counts : Path.isIdle piece = false := by
        rwa [← Path.isIdle_iff, Bool.not_eq_true] at idle
      rw [Path.stepsOf_cons counts, List.foldl_cons, Place.toward]
      split_ifs at walked ⊢
      · exact (Except.ok.inj walked).symm
      · exact (Except.ok.inj walked).symm

theorem eq_of_walk (walked : disk.walk place pieces = .ok reached) :
    reached = (Path.stepsOf pieces).foldl Place.toward place := by
  induction pieces generalizing place with
  | nil =>
    cases walked
    rfl
  | cons piece pieces ih =>
    obtain ⟨next, step, rest⟩ := walk_cons_eq_ok.1 walked
    rw [ih rest, (walk_singleton step).2, ← List.foldl_append, ← Path.stepsOf_append,
      List.singleton_append]

theorem walk_stepsOf (walked : disk.walk place pieces = .ok reached) :
    disk.walk place (Path.stepsOf pieces) = .ok reached := by
  induction pieces generalizing place with
  | nil => exact walked
  | cons piece pieces ih =>
    obtain ⟨next, step, rest⟩ := walk_cons_eq_ok.1 walked
    cases idle : Path.isIdle piece with
    | true =>
      obtain ⟨-, rfl⟩ := walk_singleton step
      rw [Path.stepsOf_cons_idle idle] at rest ⊢
      exact ih rest
    | false =>
      rw [Path.stepsOf_cons idle]
      exact walk_cons_eq_ok.2 ⟨next, step, ih rest⟩

-- A piece that is idle at the end asks for a directory there; elsewhere the next step does.
theorem walk_of_stepsOf (walked : disk.walk place (Path.stepsOf pieces) = .ok reached)
    (ends : ∀ piece, pieces.getLast? = some piece → Path.isIdle piece = true →
      disk.kindAt? reached = some true) :
    disk.walk place pieces = .ok reached := by
  induction pieces generalizing place with
  | nil => exact walked
  | cons piece pieces ih =>
    have later (last : String) (ending : pieces.getLast? = some last)
        (idle : Path.isIdle last = true) : disk.kindAt? reached = some true := by
      have present : pieces ≠ [] := by
        rintro rfl
        cases ending
      exact ends last (by rw [List.getLast?_cons_of_ne_nil present, ending]) idle
    cases idle : Path.isIdle piece with
    | false =>
      rw [Path.stepsOf_cons idle] at walked
      obtain ⟨next, step, rest⟩ := walk_cons_eq_ok.1 walked
      exact walk_cons_eq_ok.2 ⟨next, step, ih rest later⟩
    | true =>
      rw [Path.stepsOf_cons_idle idle] at walked
      by_cases present : pieces = []
      · subst present
        obtain rfl : place = reached := Except.ok.inj walked
        rw [walk_cons, ends piece rfl idle, if_pos (Path.isIdle_iff.1 idle)]
        rfl
      · rw [walk_idle_piece disk place (Path.isIdle_iff.1 idle) present]
        exact ih walked later

theorem directoryAt_iff_steps {path : Path} :
    disk.directoryAt path = .ok place ↔ path.text ≠ "" ∧ holdsNul path.text = false ∧
      disk.walk (disk.startOf path) path.steps = .ok place ∧ disk.kindAt? place = some true := by
  have kind : (∃ modified, disk.entry? place = some (.directory modified)) ↔
      disk.kindAt? place = some true := by
    unfold kindAt?
    cases disk.entry? place with
    | none => simp
    | some entry => cases entry <;> simp [Entry.isDirectory]
  rw [directoryAt_eq_ok, resolve_eq_ok, kind, and_assoc, and_assoc]
  refine and_congr_right fun _ => and_congr_right fun _ => and_congr_left fun directory => ?_
  exact ⟨walk_stepsOf, fun walked => walk_of_stepsOf walked fun _ _ _ => directory⟩

theorem eq_of_directoryAt {path : Path} (there : disk.directoryAt path = .ok place) :
    place = path.steps.foldl Place.toward (disk.startOf path) :=
  eq_of_walk (resolve_eq_ok.1 (directoryAt_eq_ok.1 there).1).2.2

end Disk

end BuildGate
