import BuildGate.Word

set_option autoImplicit false

namespace BuildGate

inductive Category
  | options
  | global
  | syntactic
  | semantic
deriving DecidableEq, Repr

def Category.all : List Category := [.options, .global, .syntactic, .semantic]

inductive Kind
  | options
  | global
  | syntactic
  | semantic
  | lint
deriving DecidableEq, Repr

namespace Kind

def all : List Kind := [.options, .global, .syntactic, .semantic, .lint]

def label : Kind → String
  | options => "Options"
  | global => "Global"
  | syntactic => "Syntactic"
  | semantic => "Semantic"
  | lint => "TsLint"

def ofCategory : Category → Kind
  | .options => options
  | .global => global
  | .syntactic => syntactic
  | .semantic => semantic

theorem ofCategory_inj {category other : Category} :
    ofCategory category = ofCategory other ↔ category = other := by
  cases category <;> cases other <;> simp [ofCategory]

theorem ofCategory_ne_lint (category : Category) : ofCategory category ≠ lint := by
  cases category <;> simp [ofCategory]

end Kind

structure ByKind (α : Type) where
  options : α
  global : α
  syntactic : α
  semantic : α
  lint : α
deriving DecidableEq, Repr

namespace ByKind

def const {α : Type} (value : α) : ByKind α := ⟨value, value, value, value, value⟩

def get {α : Type} (values : ByKind α) : Kind → α
  | .options => values.options
  | .global => values.global
  | .syntactic => values.syntactic
  | .semantic => values.semantic
  | .lint => values.lint

@[simp] theorem get_const {α : Type} (value : α) (kind : Kind) : (const value).get kind = value := by
  cases kind <;> rfl

end ByKind

abbrev Flags := ByKind Bool

def Flags.none : Flags := ByKind.const false

abbrev Totals := ByKind Nat

namespace Totals

def zero : Totals := ByKind.const 0

def total (totals : Totals) : Nat := Word.sum (Kind.all.map totals.get)

end Totals

end BuildGate
