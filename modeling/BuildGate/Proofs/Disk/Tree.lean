import BuildGate.Proofs.Disk
import Mathlib.Data.List.Forall2
import Mathlib.Data.List.Infix

set_option autoImplicit false

namespace BuildGate

def Entry.isDirectory : Entry → Bool
  | file .. => false
  | directory _ => true

structure LegalName (name : String) : Prop where
  some_ : name ≠ ""
  here : name ≠ "."
  up : name ≠ ".."
  flat : '/' ∉ name.toList
  clean : holdsNul name = false

instance (name : String) : Decidable (LegalName name) :=
  decidable_of_iff
    (name ≠ "" ∧ name ≠ "." ∧ name ≠ ".." ∧ '/' ∉ name.toList ∧ holdsNul name = false)
    ⟨fun ⟨some_, here, up, flat, clean⟩ => ⟨some_, here, up, flat, clean⟩,
      fun legal => ⟨legal.some_, legal.here, legal.up, legal.flat, legal.clean⟩⟩

structure Tree where
  entries : List (Place × Bool)
  top : entries.lookup [] = some true
  legal : ∀ entry ∈ entries, ∀ name ∈ entry.1, LegalName name

def Tree.names (tree : Tree) (place : Place) : List String :=
  tree.entries.filterMap fun (inner, _) =>
    if inner.dropLast = place then inner.getLast? else none

theorem Tree.legal_of_mem_names {tree : Tree} {place : Place} {name : String}
    (listed : name ∈ tree.names place) : LegalName name := by
  obtain ⟨⟨inner, directory⟩, member, last⟩ := List.mem_filterMap.1 listed
  obtain ⟨-, last⟩ := Option.ite_none_right_eq_some.1 last
  exact tree.legal _ member name (List.mem_of_getLast? last)

namespace Disk

def kindAt? (disk : Disk) (place : Place) : Option Bool :=
  (disk.entry? place).map Entry.isDirectory

def kind? (disk : Disk) (path : Path) : Option Bool :=
  (disk.find path).toOption.map Entry.isDirectory

def entriesFrom (disk : Disk) (place : Place) : List (Place × Bool) :=
  disk.entries.filterMap fun (inner, entry) =>
    if place <+: inner then some (inner.drop place.length, entry.isDirectory) else none

def under (disk : Disk) (name : String) (inner : Place) : Place := disk.current ++ name :: inner

/-- A tree stands under a name in the current directory. What stands elsewhere is left open. -/
structure Holds (disk : Disk) (name : String) (tree : Tree) : Prop where
  legal : LegalName name
  current : disk.kindAt? disk.current = some true
  entries : disk.entriesFrom (disk.under name []) = tree.entries

theorem lookup_entriesFrom (disk : Disk) {place : Place} (below : place ≠ []) (inner : Place) :
    (disk.entriesFrom place).lookup inner = disk.kindAt? (place ++ inner) := by
  have listed : disk.entry? (place ++ inner) = disk.entries.lookup (place ++ inner) := by
    cases place with
    | nil => exact absurd rfl below
    | cons name names => rfl
  rw [kindAt?, listed, entriesFrom]
  induction disk.entries with
  | nil => rfl
  | cons first entries ih =>
    obtain ⟨other, entry⟩ := first
    by_cases apart : place <+: other
    · obtain ⟨rest, rfl⟩ := apart
      by_cases same : inner = rest
      · subst same
        simp
      · have unlike : (place ++ inner == place ++ rest) = false := by simpa using same
        have differs : (inner == rest) = false := by simpa using same
        simpa [List.lookup_cons, unlike, differs] using ih
    · have unlike : (place ++ inner == other) = false := by
        rw [beq_eq_false_iff_ne]
        rintro rfl
        exact apart (List.prefix_append place inner)
      simpa [List.lookup_cons, unlike, apart] using ih

theorem names_entriesFrom (disk : Disk) {place : Place} (below : place ≠ []) (inner : Place) :
    disk.names (place ++ inner) = (disk.entriesFrom place).filterMap fun (rest, _) =>
      if rest.dropLast = inner then rest.getLast? else none := by
  rw [names, entriesFrom, List.filterMap_filterMap]
  refine List.filterMap_congr fun (other, entry) _ => ?_
  by_cases inside : place <+: other
  · obtain ⟨rest, rfl⟩ := inside
    cases rest using List.reverseRec with
    | nil =>
      have apart : place.dropLast ≠ place ++ inner := fun same => by
        have lengths := congrArg List.length same
        have some_ := List.length_pos_of_ne_nil below
        simp only [List.length_dropLast, List.length_append] at lengths
        omega
      simp [apart]
    | append_singleton rest last => simp
  · have apart : other.dropLast ≠ place ++ inner := fun same =>
      inside ((same ▸ List.prefix_append place inner).trans other.dropLast_prefix)
    simp [inside, apart]

theorem isSome_kindAt? (disk : Disk) (place : Place) :
    (disk.kindAt? place).isSome = (disk.entry? place).isSome :=
  Option.isSome_map

theorem has_eq (disk : Disk) (path : Path) : disk.has path = (disk.kind? path).isSome := by
  unfold has kind?
  cases disk.find path <;> rfl

theorem isFile_eq (disk : Disk) (path : Path) :
    disk.isFile path = decide (disk.kind? path = some false) := by
  unfold isFile kind?
  cases disk.find path with
  | error cause => rfl
  | ok entry => cases entry <;> rfl

theorem isDirectory_eq (disk : Disk) (path : Path) :
    disk.isDirectory path = decide (disk.kind? path = some true) := by
  unfold isDirectory kind?
  cases disk.find path with
  | error cause => rfl
  | ok entry => cases entry <;> rfl

theorem kind?_eq (disk : Disk) (path : Path) :
    disk.kind? path = (disk.resolve path).toOption.bind disk.kindAt? := by
  unfold kind? find kindAt?
  cases disk.resolve path with
  | error cause => rfl
  | ok place =>
    simp only [Except.toOption, Option.bind_some]
    cases disk.entry? place <;> rfl

theorem walk_cons (disk : Disk) (place : Place) (piece : String) (pieces : List String) :
    disk.walk place (piece :: pieces) =
      match disk.kindAt? place with
      | none => .error .missing
      | some false => .error .notDirectory
      | some true =>
        if piece = "" ∨ piece = "." then disk.walk place pieces
        else if piece = ".." then disk.walk place.dropLast pieces
        else if (disk.kindAt? (place ++ [piece])).isSome then disk.walk (place ++ [piece]) pieces
        else .error .missing := by
  rw [walk, isSome_kindAt?, kindAt?]
  cases disk.entry? place with
  | none => rfl
  | some entry => cases entry <;> rfl

namespace Holds

variable {a b : Disk} {one other : String} {tree : Tree}

theorem kindAt?_under (held : a.Holds one tree) (inner : Place) :
    a.kindAt? (a.under one inner) = tree.entries.lookup inner := by
  have below : a.under one [] ≠ [] := by simp [under]
  have split : a.under one inner = a.under one [] ++ inner := by simp [under]
  rw [split, ← lookup_entriesFrom a below, held.entries]

theorem names_under (held : a.Holds one tree) (inner : Place) :
    a.names (a.under one inner) = tree.names inner := by
  have below : a.under one [] ≠ [] := by simp [under]
  have split : a.under one inner = a.under one [] ++ inner := by simp [under]
  rw [split, names_entriesFrom a below, held.entries, Tree.names]

theorem walk_agrees (held : a.Holds one tree) (again : b.Holds other tree) {pieces : List String}
    (level : ".." ∉ pieces) (inner : Place) :
    ∃ reached : Except IoError Place,
      a.walk (a.under one inner) pieces = reached.map (a.under one) ∧
        b.walk (b.under other inner) pieces = reached.map (b.under other) := by
  induction pieces generalizing inner with
  | nil => exact ⟨.ok inner, rfl, rfl⟩
  | cons piece pieces ih =>
    rw [List.mem_cons, not_or] at level
    have next (disk : Disk) (name : String) :
        disk.under name inner ++ [piece] = disk.under name (inner ++ [piece]) := by
      simp [under]
    rw [walk_cons, walk_cons, next, next, held.kindAt?_under, again.kindAt?_under,
      held.kindAt?_under, again.kindAt?_under]
    split
    next => exact ⟨.error .missing, rfl, rfl⟩
    next => exact ⟨.error .notDirectory, rfl, rfl⟩
    next =>
      rw [if_neg (Ne.symm level.1), if_neg (Ne.symm level.1)]
      split_ifs with idle there
      · exact ih level.2 inner
      · exact ih level.2 (inner ++ [piece])
      · exact ⟨.error .missing, rfl, rfl⟩

end Holds

end Disk

end BuildGate
