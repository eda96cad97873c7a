import BuildGate.Proofs.Disk.Tree

set_option autoImplicit false

namespace BuildGate

namespace Path

variable {one other : String}

/-- Paths that lead the same way down from two directories in the current one. -/
inductive Twin (one other : String) : Path → Path → Prop
  | top : Twin one other ⟨one⟩ ⟨other⟩
  | inner (text : String) (level : ".." ∉ (⟨text⟩ : Path).pieces) :
      Twin one other ⟨one ++ "/" ++ text⟩ ⟨other ++ "/" ++ text⟩

theorem pieces_of_flat {name : String} (flat : '/' ∉ name.toList) :
    (⟨name⟩ : Path).pieces = [name] := by
  simp [pieces, List.splitOn_eq_singleton flat]

theorem isAbsolute_of_flat {name : String} (flat : '/' ∉ name.toList) :
    (⟨name⟩ : Path).isAbsolute = false := by
  rw [isAbsolute, beq_eq_false_iff_ne]
  exact fun first => flat (List.mem_of_mem_head? first)

theorem pieces_join {name : String} (flat : '/' ∉ name.toList) (outer : Path) :
    ∃ front, (outer.pieces = front ∨ outer.pieces = front ++ [""]) ∧
      (outer.text ≠ "" → front ≠ []) ∧ (outer.join name).pieces = front ++ [name] := by
  rcases join_cases (isAbsolute_of_flat flat) outer with
    ⟨rfl, joined⟩ | ⟨front, rfl, joined⟩ | ⟨-, joined⟩
  · exact ⟨[], .inr rfl, fun some_ => absurd rfl some_, by rw [joined, pieces_of_flat flat]; rfl⟩
  · exact ⟨(⟨front⟩ : Path).pieces, .inr (pieces_slash front), fun _ => pieces_ne_nil _,
      by rw [joined, pieces_below, pieces_of_flat flat]⟩
  · exact ⟨outer.pieces, .inl rfl, fun _ => pieces_ne_nil _,
      by rw [joined, pieces_below, pieces_of_flat flat]⟩

theorem ofPiece_of_legal {name : String} (legal : LegalName name) :
    Part.ofPiece name = some (.name name) := by
  rw [Part.ofPiece, if_neg (not_or.2 ⟨legal.some_, legal.here⟩), if_neg legal.up]

theorem parts_join {name : String} (legal : LegalName name) {outer : Path}
    (some_ : outer.text ≠ "") : (outer.join name).parts = outer.parts ++ [.name name] := by
  obtain ⟨front, own, filled, split⟩ := pieces_join legal.flat outer
  have absolute := isAbsolute_join (isAbsolute_of_flat legal.flat) outer
  have idle : Part.ofPiece "" = none := rfl
  obtain ⟨first, rest, rfl⟩ := List.exists_cons_of_ne_nil (filled some_)
  rw [parts, parts, split, absolute]
  rcases own with own | own <;> simp [own, idle, ofPiece_of_legal legal]

theorem length_parts_join {name : String} (legal : LegalName name) {outer : Path}
    (some_ : outer.text ≠ "") : (outer.join name).parts.length = outer.parts.length + 1 := by
  rw [parts_join legal some_, List.length_append, List.length_singleton]

theorem fileName?_join {name : String} (legal : LegalName name) {outer : Path}
    (some_ : outer.text ≠ "") : (outer.join name).fileName? = some name := by
  rw [fileName?, parts_join legal some_, List.getLast?_concat]

theorem level_join {name : String} (flat : '/' ∉ name.toList) (up : name ≠ "..") {outer : Path}
    (level : ".." ∉ outer.pieces) : ".." ∉ (outer.join name).pieces := by
  obtain ⟨front, own, -, split⟩ := pieces_join flat outer
  have kept : front ⊆ outer.pieces := by
    rcases own with own | own <;> simp [own]
  rw [split, List.mem_append, List.mem_singleton, not_or]
  exact ⟨fun climbing => level (kept climbing), Ne.symm up⟩

theorem join_top {top inner : String} (legal : LegalName top)
    (relative : (⟨inner⟩ : Path).isAbsolute = false) :
    (⟨top⟩ : Path).join inner = ⟨top ++ "/" ++ inner⟩ := by
  have unslashed : top.toList.getLast? ≠ some '/' := fun last =>
    legal.flat (List.mem_of_getLast? last)
  rw [join, if_neg (by simp [relative]), if_neg (not_or.2 ⟨legal.some_, unslashed⟩)]

theorem join_inner (top text : String) {name : String} (flat : '/' ∉ name.toList) :
    (⟨top ++ "/" ++ text⟩ : Path).join name = ⟨top ++ "/" ++ ((⟨text⟩ : Path).join name).text⟩ := by
  have relative : ¬ (⟨name⟩ : Path).isAbsolute = true := by simp [isAbsolute_of_flat flat]
  rw [join, join, if_neg relative, if_neg relative]
  by_cases empty : text = ""
  · subst empty
    simp
  · have ending : (top ++ "/" ++ text).toList.getLast? = text.toList.getLast? := by
      rw [String.toList_append, List.getLast?_append_of_ne_nil _ (by simpa using empty)]
    have some_ : top ++ "/" ++ text ≠ "" := by simp
    simp only [ending, some_, empty, false_or]
    split_ifs <;> simp [String.append_assoc]

namespace Twin

variable {p q : Path}

theorem join (one_ : LegalName one) (other_ : LegalName other) (twin : Twin one other p q)
    {name : String} (flat : '/' ∉ name.toList) (up : name ≠ "..") :
    Twin one other (p.join name) (q.join name) := by
  cases twin with
  | top =>
    have relative := isAbsolute_of_flat flat
    rw [join_top one_ relative, join_top other_ relative]
    exact .inner name (by simpa [pieces_of_flat flat] using Ne.symm up)
  | inner text level =>
    rw [join_inner one text flat, join_inner other text flat]
    exact .inner _ (level_join flat up level)

theorem pieces (one_ : LegalName one) (other_ : LegalName other) (twin : Twin one other p q) :
    ∃ rest, ".." ∉ rest ∧ p.pieces = one :: rest ∧ q.pieces = other :: rest := by
  cases twin with
  | top => exact ⟨[], by simp, pieces_of_flat one_.flat, pieces_of_flat other_.flat⟩
  | inner text level =>
    refine ⟨(⟨text⟩ : Path).pieces, level, ?_, ?_⟩
    · rw [pieces_below, pieces_of_flat one_.flat, List.singleton_append]
    · rw [pieces_below, pieces_of_flat other_.flat, List.singleton_append]

theorem symm (twin : Twin one other p q) : Twin other one q p := by
  cases twin with
  | top => exact .top
  | inner text level => exact .inner text level

theorem text_ne_empty (one_ : LegalName one) (twin : Twin one other p q) : p.text ≠ "" := by
  cases twin with
  | top => exact one_.some_
  | inner text level => simp

theorem isAbsolute_eq (one_ : LegalName one) (twin : Twin one other p q) :
    p.isAbsolute = false := by
  cases twin with
  | top => exact isAbsolute_of_flat one_.flat
  | inner text level =>
    rw [String.append_assoc, isAbsolute_append one_.some_, isAbsolute_of_flat one_.flat]

theorem holdsNul_eq (one_ : LegalName one) (other_ : LegalName other)
    (twin : Twin one other p q) : holdsNul p.text = holdsNul q.text := by
  cases twin with
  | top => rw [one_.clean, other_.clean]
  | inner text level =>
    simp only [holdsNul_append, one_.clean, other_.clean]

end Twin

theorem parts_of_level {first : String} {rest : List String} (legal : LegalName first)
    (level : ".." ∉ rest) {path : Path} (relative : path.isAbsolute = false)
    (split : path.pieces = first :: rest) :
    path.parts = .name first :: (rest.filter fun piece => !isIdle piece).map .name := by
  have below : rest.filterMap Part.ofPiece =
      (rest.filter fun piece => !isIdle piece).map .name := by
    rw [← List.filterMap_eq_map, List.filterMap_filter]
    refine List.filterMap_congr fun piece member => ?_
    have up : piece ≠ ".." := fun climbing => level (climbing ▸ member)
    have idles : isIdle piece = decide (piece = "" ∨ piece = ".") := (Bool.decide_or _ _).symm
    by_cases idle : piece = "" ∨ piece = "." <;> simp [Part.ofPiece, idles, idle, up]
  rw [parts, split]
  simp [relative, legal.here, ofPiece_of_legal legal, below]

end Path

namespace Disk.Holds

open BuildGate.Path (Twin)

variable {a b : Disk} {one other : String} {tree : Tree} {p q : Path}

theorem walk_top (held : a.Holds one tree) (pieces : List String) :
    a.walk a.current (one :: pieces) = a.walk (a.under one []) pieces := by
  have there : (a.kindAt? (a.current ++ [one])).isSome = true := by
    have top := held.kindAt?_under []
    rw [tree.top] at top
    exact Option.isSome_of_mem top
  rw [walk_cons, held.current]
  simp only [there, held.legal.some_, held.legal.here, held.legal.up, or_self, if_true, if_false]
  rfl

theorem kind?_top (held : a.Holds one tree) : a.kind? ⟨one⟩ = some true := by
  have relative := Path.isAbsolute_of_flat held.legal.flat
  have walked : a.walk (a.startOf ⟨one⟩) (⟨one⟩ : Path).pieces = .ok (a.under one []) := by
    rw [startOf, relative, Path.pieces_of_flat held.legal.flat]
    exact held.walk_top []
  have resolved := resolve_eq_ok.2 ⟨held.legal.some_, held.legal.clean, walked⟩
  rw [kind?_eq, resolved]
  exact (held.kindAt?_under []).trans tree.top

theorem has_top (held : a.Holds one tree) : a.has ⟨one⟩ = true := by
  rw [has_eq, held.kind?_top]
  rfl

section

variable (held : a.Holds one tree) (again : b.Holds other tree) (twin : Twin one other p q)

include held again twin

theorem resolve_agrees :
    ∃ reached : Except IoError Place,
      a.resolve p = reached.map (a.under one) ∧ b.resolve q = reached.map (b.under other) := by
  obtain ⟨rest, level, left, right⟩ := twin.pieces held.legal again.legal
  have relative := twin.isAbsolute_eq held.legal
  have relative_ := twin.symm.isAbsolute_eq again.legal
  simp only [resolve, startOf, twin.text_ne_empty held.legal, twin.symm.text_ne_empty again.legal,
    relative, relative_, twin.holdsNul_eq held.legal again.legal, left, right, held.walk_top,
    again.walk_top, Bool.false_eq_true, if_false]
  split_ifs
  · exact ⟨.error .nulInPath, rfl, rfl⟩
  · exact held.walk_agrees again level []

theorem kind?_agrees : a.kind? p = b.kind? q := by
  obtain ⟨reached, left, right⟩ := held.resolve_agrees again twin
  rw [kind?_eq, kind?_eq, left, right]
  cases reached with
  | error cause => rfl
  | ok inner =>
    change a.kindAt? (a.under one inner) = b.kindAt? (b.under other inner)
    rw [held.kindAt?_under, again.kindAt?_under]

theorem has_agrees : a.has p = b.has q := by
  rw [has_eq, has_eq, held.kind?_agrees again twin]

theorem isFile_agrees : a.isFile p = b.isFile q := by
  rw [isFile_eq, isFile_eq, held.kind?_agrees again twin]

theorem isDirectory_agrees : a.isDirectory p = b.isDirectory q := by
  rw [isDirectory_eq, isDirectory_eq, held.kind?_agrees again twin]

theorem parts_eq :
    ∃ names : List String, p.parts = .name one :: names.map .name ∧
      q.parts = .name other :: names.map .name ∧
      ∀ place, a.resolve p = .ok place → place = a.under one names := by
  obtain ⟨rest, level, left, right⟩ := twin.pieces held.legal again.legal
  have relative := twin.isAbsolute_eq held.legal
  refine ⟨rest.filter fun piece => !Path.isIdle piece,
    Path.parts_of_level held.legal level relative left,
    Path.parts_of_level again.legal level (twin.symm.isAbsolute_eq again.legal) right, ?_⟩
  intro place resolved
  have walked := (resolve_eq_ok.1 resolved).2.2
  rw [startOf, relative, left] at walked
  have counts : Path.isIdle one = false := by
    simp [Path.isIdle, held.legal.some_, held.legal.here]
  have climbs : ".." ∉ one :: rest := by simp [held.legal.up.symm, level]
  rw [walk_down climbs walked, List.filter_cons_of_pos (by simp [counts])]
  rfl

-- The directory itself has a name that depends on the disk, but it is no file.
theorem fileName?_agrees (file : a.isFile p = true) : p.fileName? = q.fileName? := by
  obtain ⟨names, left, right, placed⟩ := held.parts_eq again twin
  cases names with
  | nil =>
    obtain ⟨place, content, modified, resolved, entry⟩ := isFile_iff.1 file
    have top := held.kindAt?_under []
    rw [← placed place resolved, kindAt?, entry, tree.top] at top
    cases top
  | cons name names =>
    rw [Path.fileName?, Path.fileName?, left, right, List.map_cons, List.getLast?_cons_cons,
      List.getLast?_cons_cons]

theorem relativeTo?_agrees :
    ∃ relative, p.relativeTo? ⟨one⟩ = some relative ∧ q.relativeTo? ⟨other⟩ = some relative := by
  obtain ⟨names, left, right, -⟩ := held.parts_eq again twin
  have base (name : String) (legal : LegalName name) : (⟨name⟩ : Path).parts = [.name name] :=
    Path.parts_of_level legal (by simp) (Path.isAbsolute_of_flat legal.flat)
      (Path.pieces_of_flat legal.flat)
  have strip (name : String) :
      Path.diffParts (.name name :: names.map .name) [.name name] = some (names.map .name) := by
    rw [Path.diffParts, if_pos rfl]
    cases names <;> rfl
  refine ⟨Path.ofParts (names.map .name), ?_, ?_⟩
  · simp [Path.relativeTo?, twin.isAbsolute_eq held.legal, Path.isAbsolute_of_flat held.legal.flat,
      base one held.legal, left, strip]
  · simp [Path.relativeTo?, twin.symm.isAbsolute_eq again.legal,
      Path.isAbsolute_of_flat again.legal.flat, base other again.legal, right, strip]

end

end Disk.Holds

end BuildGate
