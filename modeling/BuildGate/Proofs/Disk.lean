import BuildGate.Disk
import Mathlib.Data.List.Basic
import Mathlib.Tactic.SplitIfs

set_option autoImplicit false

namespace BuildGate

theorem holdsNul_append (a b : String) : holdsNul (a ++ b) = (holdsNul a || holdsNul b) := by
  simp [holdsNul]

namespace Path

theorem pieces_ne_nil (path : Path) : path.pieces ≠ [] := by
  simp [pieces, List.splitOn_ne_nil]

theorem pieces_below (outer inner : String) :
    (⟨outer ++ "/" ++ inner⟩ : Path).pieces = (⟨outer⟩ : Path).pieces ++ (⟨inner⟩ : Path).pieces := by
  simp only [pieces, String.toList_append, List.append_assoc, ← List.map_append]
  exact congrArg _ (List.splitOnP_append_cons outer.toList inner.toList (by decide))

theorem pieces_slash (front : String) :
    (⟨front ++ "/"⟩ : Path).pieces = (⟨front⟩ : Path).pieces ++ [""] := by
  have below := pieces_below front ""
  rwa [String.append_empty] at below

variable {inner : String}

theorem join_of_isAbsolute (absolute : (⟨inner⟩ : Path).isAbsolute = true) (outer : Path) :
    outer.join inner = ⟨inner⟩ := by
  rw [join, if_pos absolute]

theorem join_cases (relative : (⟨inner⟩ : Path).isAbsolute = false) (outer : Path) :
    (outer = ⟨""⟩ ∧ outer.join inner = ⟨inner⟩) ∨
      (∃ front, outer = ⟨front ++ "/"⟩ ∧ outer.join inner = ⟨front ++ "/" ++ inner⟩) ∨
      (outer.text ≠ "" ∧ outer.join inner = ⟨outer.text ++ "/" ++ inner⟩) := by
  obtain ⟨text⟩ := outer
  rw [join, if_neg (by simp [relative])]
  by_cases none_ : text = ""
  · exact .inl ⟨by rw [none_], by simp [none_]⟩
  by_cases slashed : text.toList.getLast? = some '/'
  · obtain ⟨front, split⟩ := List.getLast?_eq_some_iff.1 slashed
    have same : text = String.ofList front ++ "/" := by
      apply String.toList_injective
      simp [split]
    refine .inr (.inl ⟨String.ofList front, by rw [same], ?_⟩)
    rw [if_pos (.inr slashed), same]
  · exact .inr (.inr ⟨none_, by rw [if_neg (by simp [none_, slashed])]⟩)

theorem isAbsolute_append {front : String} (some_ : front ≠ "") (back : String) :
    (⟨front ++ back⟩ : Path).isAbsolute = (⟨front⟩ : Path).isAbsolute := by
  have present : front.toList ≠ [] := by simpa using some_
  simp [isAbsolute, List.head?_append_of_ne_nil _ present]

theorem isAbsolute_join (relative : (⟨inner⟩ : Path).isAbsolute = false) (outer : Path) :
    (outer.join inner).isAbsolute = outer.isAbsolute := by
  rcases join_cases relative outer with ⟨rfl, joined⟩ | ⟨front, rfl, joined⟩ | ⟨some_, joined⟩
  · rw [joined, relative]
    rfl
  · rw [joined, isAbsolute_append (by simp)]
  · rw [joined, String.append_assoc, isAbsolute_append some_]

theorem holdsNul_join (relative : (⟨inner⟩ : Path).isAbsolute = false) (outer : Path) :
    holdsNul (outer.join inner).text = (holdsNul outer.text || holdsNul inner) := by
  have slash : holdsNul "/" = false := by decide
  rcases join_cases relative outer with ⟨rfl, joined⟩ | ⟨front, rfl, joined⟩ | ⟨some_, joined⟩
  · rw [joined]
    rfl
  · simp only [joined, holdsNul_append]
  · simp only [joined, holdsNul_append, slash, Bool.or_false]

theorem join_text_ne_empty {outer : Path} (some_ : outer.text ≠ "") (inner : String) :
    (outer.join inner).text ≠ "" := by
  cases form : (⟨inner⟩ : Path).isAbsolute with
  | true =>
    rw [join_of_isAbsolute form]
    rintro rfl
    revert form
    decide
  | false =>
    rcases join_cases form outer with ⟨rfl, joined⟩ | ⟨front, rfl, joined⟩ | ⟨-, joined⟩
    · exact absurd rfl some_
    · simp [joined]
    · simp [joined]

end Path

namespace Disk

def standingAt (disk : Disk) (place : Place) : Disk := { disk with current := place }

theorem walk_standingAt (disk : Disk) (current place : Place) (pieces : List String) :
    (disk.standingAt current).walk place pieces = disk.walk place pieces := by
  induction pieces generalizing place with
  | nil => rfl
  | cons piece pieces ih =>
    simp only [walk, ih]
    rfl

theorem walk_append (disk : Disk) (place : Place) (front back : List String) :
    disk.walk place (front ++ back) =
      (disk.walk place front).bind fun between => disk.walk between back := by
  induction front generalizing place with
  | nil => rfl
  | cons piece front ih =>
    simp only [List.cons_append, walk, ih]
    split
    · rfl
    · rfl
    · split_ifs <;> rfl

theorem walk_idle_piece (disk : Disk) (place : Place) {idle : String}
    (idles : idle = "" ∨ idle = ".") {pieces : List String} (present : pieces ≠ []) :
    disk.walk place (idle :: pieces) = disk.walk place pieces := by
  cases pieces with
  | nil => exact absurd rfl present
  | cons piece pieces =>
    rw [walk]
    cases entry : disk.entry? place with
    | none => simp [walk, entry]
    | some found =>
      cases found with
      | file content modified => simp [walk, entry]
      | directory modified => simp [idles]

theorem walk_join (disk : Disk) (place : Place) (outer : Path) {inner : String}
    (relative : (⟨inner⟩ : Path).isAbsolute = false) :
    disk.walk place (outer.join inner).pieces =
      (disk.walk place outer.pieces).bind fun between =>
        disk.walk between (⟨inner⟩ : Path).pieces := by
  have present := Path.pieces_ne_nil ⟨inner⟩
  rw [← walk_append]
  rcases Path.join_cases relative outer with ⟨rfl, joined⟩ | ⟨front, rfl, joined⟩ | ⟨some_, joined⟩
  · rw [joined]
    exact (walk_idle_piece disk place (.inl rfl) present).symm
  · rw [joined, Path.pieces_slash, Path.pieces_below, List.append_assoc, walk_append, walk_append]
    congr 1
    funext between
    exact (walk_idle_piece disk between (.inl rfl) present).symm
  · rw [joined, Path.pieces_below]

theorem walk_down {disk : Disk} {pieces : List String} (level : ".." ∉ pieces)
    {place reached : Place} (walked : disk.walk place pieces = .ok reached) :
    reached = place ++ pieces.filter fun piece => !Path.isIdle piece := by
  induction pieces generalizing place with
  | nil =>
    cases walked
    simp
  | cons piece pieces ih =>
    obtain ⟨here, below⟩ := not_or.1 (mt List.mem_cons.2 level)
    rw [walk] at walked
    split at walked
    next => cases walked
    next => cases walked
    next =>
      by_cases idle : piece = "" ∨ piece = "."
      · rw [if_pos idle] at walked
        have counts : Path.isIdle piece = true := by simpa [Path.isIdle] using idle
        rw [ih below walked, List.filter_cons_of_neg (by simp [counts])]
      · rw [if_neg idle, if_neg (Ne.symm here)] at walked
        have counts : Path.isIdle piece = false := by simpa [Path.isIdle] using idle
        split at walked
        · rw [ih below walked, List.filter_cons_of_pos (by simp [counts]), List.append_assoc,
            List.singleton_append]
        · cases walked

theorem directoryAt_eq_ok {disk : Disk} {path : Path} {place : Place} :
    disk.directoryAt path = .ok place ↔
      disk.resolve path = .ok place ∧ ∃ modified, disk.entry? place = some (.directory modified) := by
  unfold directoryAt
  constructor
  · intro found
    split at found
    next => cases found
    next resolved =>
      split at found
      next entry =>
        cases found
        exact ⟨resolved, _, entry⟩
      next => cases found
      next => cases found
  · rintro ⟨resolved, modified, entry⟩
    simp only [resolved, entry]

theorem resolve_eq_ok {disk : Disk} {path : Path} {place : Place} :
    disk.resolve path = .ok place ↔ path.text ≠ "" ∧ holdsNul path.text = false ∧
      disk.walk (disk.startOf path) path.pieces = .ok place := by
  unfold resolve
  split_ifs with empty nul
  · simp [empty]
  · simp [nul]
  · simp [empty, nul]

theorem resolve_join {disk : Disk} {outer : Path} {place : Place}
    (there : disk.directoryAt outer = .ok place) {inner : String} (named : inner ≠ "") :
    disk.resolve (outer.join inner) = (disk.standingAt place).resolve ⟨inner⟩ := by
  obtain ⟨some_, clean, walked⟩ := resolve_eq_ok.1 (directoryAt_eq_ok.1 there).1
  cases form : (⟨inner⟩ : Path).isAbsolute with
  | true =>
    rw [Path.join_of_isAbsolute form]
    simp only [resolve, startOf, form, if_true, walk_standingAt]
  | false =>
    have start : disk.startOf (outer.join inner) = disk.startOf outer := by
      rw [startOf, startOf, Path.isAbsolute_join form]
    simp only [resolve, Path.join_text_ne_empty some_ inner, named, if_false, Path.holdsNul_join form,
      clean, Bool.false_or, walk_join _ _ _ form, start, walked, walk_standingAt]
    simp only [startOf, form, Except.bind]
    rfl

theorem resolve_standingAt {disk : Disk} {path : Path} {place : Place}
    (alike : path.isAbsolute = true ∨ place = disk.current) :
    (disk.standingAt place).resolve path = disk.resolve path := by
  rcases alike with absolute | rfl
  · simp only [resolve, startOf, absolute, if_true, walk_standingAt]
  · rfl

theorem eq_current_of_resolve {disk : Disk} {path : Path} {place reached : Place}
    (level : ".." ∉ path.pieces) (relative : path.isAbsolute = false)
    (here : disk.resolve path = .ok reached)
    (there : (disk.standingAt place).resolve path = .ok reached) : place = disk.current := by
  have walked := (resolve_eq_ok.1 here).2.2
  have moved := (resolve_eq_ok.1 there).2.2
  simp only [startOf, relative, Bool.false_eq_true, if_false, walk_standingAt] at walked moved
  have same := (walk_down level moved).symm.trans (walk_down level walked)
  exact List.append_cancel_right same

theorem isFile_iff {disk : Disk} {path : Path} :
    disk.isFile path = true ↔ ∃ place content modified, disk.resolve path = .ok place ∧
      disk.entry? place = some (.file content modified) := by
  unfold isFile find
  constructor
  · intro file
    split at file
    next content modified found =>
      split at found
      next => cases found
      next place resolved =>
        split at found
        next entry =>
          cases found
          exact ⟨place, content, modified, resolved, entry⟩
        next => cases found
    next => cases file
  · rintro ⟨place, content, modified, resolved, entry⟩
    simp only [resolved, entry]

theorem name_ne_empty {disk : Disk} {outer : Path} {place : Place} {inner : String}
    (there : disk.directoryAt outer = .ok place) (file : disk.isFile (outer.join inner) = true) :
    inner ≠ "" := by
  rintro rfl
  obtain ⟨resolved, modified, entry⟩ := directoryAt_eq_ok.1 there
  obtain ⟨reached, content, written, joined, found⟩ := isFile_iff.1 file
  have relative : (⟨""⟩ : Path).isAbsolute = false := by decide
  have walked := (resolve_eq_ok.1 joined).2.2
  rw [startOf, Path.isAbsolute_join relative, ← startOf, walk_join _ _ _ relative,
    (resolve_eq_ok.1 resolved).2.2] at walked
  have stays : disk.walk place (⟨""⟩ : Path).pieces = .ok place := by
    change disk.walk place [""] = .ok place
    simp [walk, entry]
  obtain rfl : place = reached := Except.ok.inj (stays.symm.trans walked)
  rw [entry] at found
  cases found

end Disk

end BuildGate
