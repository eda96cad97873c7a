import BuildGate.Proofs.Disk
import Mathlib.Algebra.BigOperators.Group.List.Basic
import Mathlib.Algebra.GroupWithZero.Nat
import Mathlib.Data.List.Nodup
import Mathlib.Logic.Function.Basic

set_option autoImplicit false

namespace BuildGate

namespace Path

def dropHere : List String → List String
  | [] => []
  | piece :: pieces =>
    if piece = "." ∧ pieces ≠ [] then dropHere pieces else piece :: dropHere pieces

theorem dropHere_insert (front : List String) {back : List String} (present : back ≠ []) :
    dropHere (front ++ "." :: back) = dropHere (front ++ back) := by
  induction front with
  | nil => simp [dropHere, present]
  | cons piece front ih => simp [dropHere, ih, present]

structure Spelling where
  empty : Bool
  absolute : Bool
  pieces : List String
deriving DecidableEq, Repr

def spelling (text : String) : Spelling :=
  ⟨text = "", (⟨text⟩ : Path).isAbsolute, dropHere (⟨text⟩ : Path).pieces⟩

/-- Two texts that spell one path with or without dots for the place already reached. -/
def Respelled (a b : String) : Prop := spelling a = spelling b

instance (a b : String) : Decidable (Respelled a b) := inferInstanceAs (Decidable (_ = _))

namespace Respelled

variable {a b : String}

theorem empty_iff (respelled : Respelled a b) : a = "" ↔ b = "" := by
  have same := congrArg Spelling.empty respelled
  simpa [spelling] using same

theorem isAbsolute_eq (respelled : Respelled a b) :
    (⟨a⟩ : Path).isAbsolute = (⟨b⟩ : Path).isAbsolute :=
  congrArg Spelling.absolute respelled

theorem pieces_eq (respelled : Respelled a b) :
    dropHere (⟨a⟩ : Path).pieces = dropHere (⟨b⟩ : Path).pieces :=
  congrArg Spelling.pieces respelled

end Respelled

theorem respelled_lead {text : String} (named : text ≠ "")
    (relative : (⟨text⟩ : Path).isAbsolute = false) : Respelled ("./" ++ text) text := by
  have absolute : (⟨"./" ++ text⟩ : Path).isAbsolute = false := by
    rw [isAbsolute_append (by decide)]
    decide
  have pieces : (⟨"./" ++ text⟩ : Path).pieces = "." :: (⟨text⟩ : Path).pieces :=
    pieces_below "." text
  have dropped := dropHere_insert [] (pieces_ne_nil ⟨text⟩)
  rw [List.nil_append, List.nil_append] at dropped
  rw [Respelled, spelling, spelling, absolute, relative, pieces, dropped]
  simp [named]

theorem respelled_inner (front back : String) :
    Respelled (front ++ "/./" ++ back) (front ++ "/" ++ back) := by
  have pieces : (⟨front ++ "/./" ++ back⟩ : Path).pieces =
      (⟨front⟩ : Path).pieces ++ "." :: (⟨back⟩ : Path).pieces := by
    have split : front ++ "/./" ++ back = front ++ "/" ++ ("./" ++ back) := by
      apply String.toList_injective
      simp
    have dotted : (⟨"./" ++ back⟩ : Path).pieces = "." :: (⟨back⟩ : Path).pieces :=
      pieces_below "." back
    rw [split, pieces_below, dotted]
  have absolute : (⟨front ++ "/./" ++ back⟩ : Path).isAbsolute =
      (⟨front ++ "/" ++ back⟩ : Path).isAbsolute := by
    simp [isAbsolute, List.head?_append]
  rw [Respelled, spelling, spelling, absolute, pieces, pieces_below,
    dropHere_insert _ (pieces_ne_nil ⟨back⟩)]
  simp

end Path

theorem mem_iff_splitOn {c sep : Char} (other : c ≠ sep) {cs : List Char} :
    c ∈ cs ↔ ∃ piece ∈ cs.splitOn sep, c ∈ piece := by
  induction cs with
  | nil => simp
  | cons d ds ih =>
    rw [List.splitOn_cons_eq_if_modifyHead, List.mem_cons, ih]
    by_cases same : d = sep
    · subst same
      simp [other]
    · rw [if_neg (by simp [same])]
      cases pieces : ds.splitOn sep with
      | nil => exact absurd pieces (List.splitOn_ne_nil sep ds)
      | cons first rest => simp [or_assoc]

namespace Path

theorem holdsNul_eq_any (path : Path) : holdsNul path.text = path.pieces.any holdsNul := by
  have other : '\x00' ≠ '/' := by decide
  rw [Bool.eq_iff_iff, holdsNul, List.contains_iff_mem, mem_iff_splitOn other]
  simp [holdsNul, pieces]

theorem any_dropHere (pieces : List String) :
    (dropHere pieces).any holdsNul = pieces.any holdsNul := by
  induction pieces with
  | nil => rfl
  | cons piece pieces ih =>
    rw [dropHere]
    split_ifs with here
    · have clean : holdsNul "." = false := by decide
      rw [ih, List.any_cons, here.1, clean, Bool.false_or]
    · rw [List.any_cons, List.any_cons, ih]

theorem Respelled.holdsNul_eq {a b : String} (respelled : Respelled a b) :
    holdsNul a = holdsNul b := by
  have left := holdsNul_eq_any ⟨a⟩
  have right := holdsNul_eq_any ⟨b⟩
  rw [← any_dropHere] at left right
  rw [left, right, respelled.pieces_eq]

end Path

namespace Disk

theorem walk_dropHere (disk : Disk) (place : Place) (pieces : List String) :
    disk.walk place (Path.dropHere pieces) = disk.walk place pieces := by
  induction pieces generalizing place with
  | nil => rfl
  | cons piece pieces ih =>
    rw [Path.dropHere]
    split_ifs with here
    · obtain ⟨rfl, present⟩ := here
      rw [ih, walk_idle_piece disk place (.inr rfl) present]
    · simp only [walk, ih]

variable {a b : String}

theorem resolve_respelled (respelled : Path.Respelled a b) (disk : Disk) (base : Path) :
    disk.resolve (base.join a) = disk.resolve (base.join b) := by
  have walked (place : Place) : disk.walk place (⟨a⟩ : Path).pieces =
      disk.walk place (⟨b⟩ : Path).pieces := by
    rw [← walk_dropHere, respelled.pieces_eq, walk_dropHere]
  have absolute := respelled.isAbsolute_eq
  cases form : (⟨b⟩ : Path).isAbsolute with
  | true =>
    rw [form] at absolute
    rw [Path.join_of_isAbsolute absolute, Path.join_of_isAbsolute form]
    simp only [resolve, startOf, absolute, form, respelled.holdsNul_eq, walked]
    simp [respelled.empty_iff]
  | false =>
    rw [form] at absolute
    have empty : (base.join a).text = "" ↔ (base.join b).text = "" := by
      simp only [Path.join, absolute, form, Bool.false_eq_true, if_false]
      split_ifs <;> simp [respelled.empty_iff]
    simp only [resolve, startOf, empty, Path.isAbsolute_join absolute, Path.isAbsolute_join form,
      Path.holdsNul_join absolute, Path.holdsNul_join form, respelled.holdsNul_eq,
      walk_join _ _ _ absolute, walk_join _ _ _ form, walked]

theorem find_respelled (respelled : Path.Respelled a b) (disk : Disk) (base : Path) :
    disk.find (base.join a) = disk.find (base.join b) := by
  simp only [find, resolve_respelled respelled]

theorem readText_respelled (respelled : Path.Respelled a b) (disk : Disk) (base : Path) :
    disk.readText (base.join a) = disk.readText (base.join b) := by
  simp only [readText, find_respelled respelled]

end Disk

namespace Path

def Alike (names others : List String) : Prop :=
  ∀ one, one ∈ names.map spelling ↔ one ∈ others.map spelling

def Once (names : List String) : Prop := (names.map spelling).Nodup

namespace Alike

variable {names others : List String}

theorem refl (names : List String) : Alike names names := fun _ => Iff.rfl

theorem symm (alike : Alike names others) : Alike others names := fun one => (alike one).symm

theorem exists_respelled (alike : Alike names others) {name : String} (listed : name ∈ names) :
    ∃ other ∈ others, Respelled name other := by
  obtain ⟨other, member, same⟩ := List.mem_map.1 ((alike _).1 (List.mem_map_of_mem listed))
  exact ⟨other, member, same.symm⟩

theorem eq_nil_iff (alike : Alike names others) : names = [] ↔ others = [] := by
  constructor
  · rintro rfl
    rw [List.eq_nil_iff_forall_not_mem]
    intro other member
    obtain ⟨name, listed, -⟩ := alike.symm.exists_respelled member
    cases listed
  · rintro rfl
    rw [List.eq_nil_iff_forall_not_mem]
    intro name listed
    obtain ⟨other, member, -⟩ := alike.exists_respelled listed
    cases member

theorem append (alike : Alike names others) (rest : List String) :
    Alike (names ++ rest) (others ++ rest) := by
  intro one
  simp only [List.map_append, List.mem_append, alike one]

theorem any_holdsNul_eq (alike : Alike names others) :
    names.any holdsNul = others.any holdsNul := by
  have moves {names others : List String} (alike : Alike names others)
      (held : names.any holdsNul = true) : others.any holdsNul = true := by
    obtain ⟨name, listed, nul⟩ := List.any_eq_true.1 held
    obtain ⟨other, member, respelled⟩ := alike.exists_respelled listed
    exact List.any_eq_true.2 ⟨other, member, respelled.holdsNul_eq ▸ nul⟩
  exact Bool.eq_iff_iff.2 ⟨moves alike, moves alike.symm⟩

theorem sum_eq {weight : String → Nat}
    (respects : ∀ name other, Respelled name other → weight name = weight other)
    (alike : Alike names others) (once : Once names) (again : Once others) :
    (names.map weight).sum = (others.map weight).sum := by
  have factors : weight.FactorsThrough spelling := fun name other same => respects name other same
  have through : weight = Function.extend spelling weight (fun _ => 0) ∘ spelling :=
    (factors.extend_comp fun _ => 0).symm
  have perm : (names.map spelling).Perm (others.map spelling) :=
    (List.perm_ext_iff_of_nodup once again).2 alike
  rw [through, ← List.map_map, ← List.map_map]
  exact (perm.map _).sum_eq

end Alike

end Path

end BuildGate
