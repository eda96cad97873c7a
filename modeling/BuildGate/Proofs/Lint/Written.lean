import BuildGate.Proofs.Lint.Listing
import BuildGate.Proofs.Report.Place

set_option autoImplicit false

namespace BuildGate.Lint

open Compiler (Decimal Position)
open Json (Form)

def Writes (form : Form) (n : Nat) : Prop :=
  ∃ digits, form = .number ⟨false, digits, none, none⟩ ∧ Decimal digits n

inductive Spots : Form → Nat → Nat → Prop
  | keyed {members : List (Option String × Form)} {first second : Form} {line character : Nat}
      (first_ : Once "line" first members) (second_ : Once "character" second members)
      (lines : Writes first line) (characters : Writes second character) :
      Spots (.object members) line character
  | listed {first second : Form} {line character : Nat} (lines : Writes first line)
      (characters : Writes second character) : Spots (.array [first, second]) line character

inductive Marks : Form → Nat → Nat → Prop
  | keyed {members : List (Option String × Form)} {position : Form} {line character : Nat}
      (once : Once "startPosition" position members) (spots : Spots position line character) :
      Marks (.object members) line character
  | listed {message rule severity position : Form} {line character : Nat}
      (spots : Spots position line character) :
      Marks (.array [message, rule, severity, position]) line character

def Holds (output : String) (records : List Form) : Prop :=
  Form.Element (.array records) output.toList ∨
    (records = [] ∧ ∀ c ∈ output.toList, Text.isBlank c = true)

theorem once_of_required? {key : String} {form : Form} {members : List (Option String × Form)}
    (found : required? key members = some form) : Once key form members := by
  unfold required? single? at found
  split at found
  next => cases found
  next name value only =>
    cases found
    obtain ⟨front, back, rfl, before, here, rest⟩ := List.filter_eq_cons_iff.1 only
    rw [List.filter_eq_nil_iff] at rest
    obtain rfl : name = some key := by simpa using here
    exact ⟨front, back, rfl, by simpa [Absent] using before, by simpa [Absent] using rest⟩
  next => cases found

theorem readBelow_eq_some {limit n : Nat} {digits : List Char}
    (read : Text.readBelow limit digits = some n) : Decimal digits n ∧ n < limit := by
  unfold Text.readBelow at read
  split at read
  next valid =>
    cases read
    exact ⟨⟨valid.1, List.all_eq_true.1 valid.2.1, rfl⟩, valid.2.2⟩
  next => cases read

theorem word?_eq_some {form : Form} {n : Nat} (read : word? form = some n) :
    Writes form n ∧ n < Word.size := by
  cases form with
  | number form =>
    obtain ⟨negative, whole, fraction, exponent⟩ := form
    simp only [word?, Json.NumberForm.word?] at read
    split at read
    next => cases read
    next plain =>
      simp only [Bool.or_eq_true, not_or, Bool.not_eq_true, Option.isSome_eq_false_iff,
        Option.isNone_iff_eq_none] at plain
      obtain ⟨⟨rfl, rfl⟩, rfl⟩ := plain
      obtain ⟨decimal, bounded⟩ := readBelow_eq_some read
      exact ⟨⟨whole, rfl, decimal⟩, bounded⟩
  | null => cases read
  | bool value => cases read
  | text content => cases read
  | array items => cases read
  | object members => cases read

theorem position?_eq_some {form : Form} {line character : Nat}
    (read : position? form = some (line, character)) :
    Spots form line character ∧ line < Word.size ∧ character < Word.size := by
  unfold position? at read
  split at read
  next members =>
    simp only [Option.bind_eq_bind, Option.bind_eq_some_iff] at read
    obtain ⟨-, -, first, found, line_, lines, second, other, character_, characters, same⟩ := read
    cases same
    obtain ⟨writes, bounded⟩ := word?_eq_some lines
    obtain ⟨rewrites, rebounded⟩ := word?_eq_some characters
    exact ⟨.keyed (once_of_required? found) (once_of_required? other) writes rewrites, bounded,
      rebounded⟩
  next first second =>
    simp only [Option.bind_eq_bind, Option.bind_eq_some_iff] at read
    obtain ⟨line_, lines, character_, characters, same⟩ := read
    cases same
    obtain ⟨writes, bounded⟩ := word?_eq_some lines
    obtain ⟨rewrites, rebounded⟩ := word?_eq_some characters
    exact ⟨.listed writes rewrites, bounded, rebounded⟩
  next => cases read

theorem failureOf?_eq_some {file : String} {message rule severity position : Form} {failure : Failure}
    (read : failureOf? file message rule severity position = some failure) :
    failure.file = file ∧ position? position = some (failure.line, failure.character) := by
  simp only [failureOf?, Option.bind_eq_bind, Option.bind_eq_some_iff, Prod.exists] at read
  obtain ⟨_, -, _, -, _, -, line, character, placed, made⟩ := read
  cases made
  exact ⟨rfl, placed⟩

theorem failure?_eq_some {file : String} {form : Form} {failure : Failure}
    (read : failure? file form = some failure) :
    Fits file failure ∧ Marks form failure.line failure.character := by
  unfold failure? at read
  split at read
  next members =>
    simp only [Option.bind_eq_bind, Option.bind_eq_some_iff] at read
    obtain ⟨-, -, message, -, rule, -, severity, -, position, found, made⟩ := read
    obtain ⟨named, placed⟩ := failureOf?_eq_some made
    obtain ⟨spots, line, character⟩ := position?_eq_some placed
    exact ⟨⟨named, line, character⟩, .keyed (once_of_required? found) spots⟩
  next message rule severity position =>
    obtain ⟨named, placed⟩ := failureOf?_eq_some read
    obtain ⟨spots, line, character⟩ := position?_eq_some placed
    exact ⟨⟨named, line, character⟩, .listed spots⟩
  next => cases read

theorem parseFailures_eq_some {file output : String} {failures : List Failure}
    (read : parseFailures file output = some failures) :
    ∃ records, Holds output records ∧
      List.Forall₂ (fun record failure =>
        Fits file failure ∧ Marks record failure.line failure.character) records failures := by
  unfold parseFailures at read
  split at read
  next silent =>
    cases read
    rw [List.isEmpty_iff, Text.trim_eq_nil_iff] at silent
    exact ⟨[], .inr ⟨rfl, silent⟩, .nil⟩
  next =>
    split at read
    next records listed =>
      refine ⟨records, .inl (Form.read_eq_some_iff.1 listed), ?_⟩
      exact (Option.mapM_eq_some.1 read).imp fun record failure => failure?_eq_some
    next => cases read

end BuildGate.Lint
