import BuildGate.Proofs.Compiler.Failure
import Mathlib.Data.List.Forall2

set_option autoImplicit false

namespace BuildGate.Compiler

def HasForm : Json → Prop
  | .null | .object _ => False
  | _ => True

def Reserves (key : String) : Prop := ∃ name ∈ reserved, asciiLower key = asciiLower name

/-- A token that a compiler takes for a reserved option. -/
def Overrides (token : String) : Prop :=
  ∃ name ∈ reserved, asciiLower token = asciiLower ("--" ++ name)

/-- What an option adds to the arguments: its name and at most one value, or nothing. -/
inductive Adds : String × Json → List String → Prop
  | nothing {key : String} {value : Json} (skipped : key ∈ reserved ∨ ¬ HasForm value) :
      Adds (key, value) []
  | named {key : String} {value : Json} {values : List String} (free : key ∉ reserved)
      (form : HasForm value) (single : values.length ≤ 1) :
      Adds (key, value) (("--" ++ key) :: values)

structure Checks (command : List String) (project : Project) (disk : Disk) (call : Call) : Prop where
  directory : disk.directoryAt project.basePath = .ok call.directory
  told : ∃ own, command = call.program :: own ∧
    call.arguments =
      own ++ ["--noEmit", "--pretty", "false"] ++ arguments project.options ++ project.files

theorem optionArguments_cases (key : String) (value : Json) :
    (¬ HasForm value ∧ optionArguments key value = []) ∨
      (HasForm value ∧ ∃ values, values.length ≤ 1 ∧
        optionArguments key value = ("--" ++ key) :: values) := by
  cases value with
  | null => exact .inl ⟨id, rfl⟩
  | object members => exact .inl ⟨id, rfl⟩
  | bool value => cases value <;> exact .inr ⟨trivial, _, by simp, rfl⟩
  | number value => exact .inr ⟨trivial, _, by simp, rfl⟩
  | text value => exact .inr ⟨trivial, _, by simp, rfl⟩
  | array items => exact .inr ⟨trivial, _, by simp, rfl⟩

theorem asciiLower_append (a b : String) : asciiLower (a ++ b) = asciiLower a ++ asciiLower b := by
  simp [asciiLower]

theorem overrides_name_iff (key : String) : Overrides ("--" ++ key) ↔ Reserves key := by
  simp [Overrides, Reserves, asciiLower_append]

def contribution (member : String × Json) : List String :=
  if member.1 ∈ reserved then [] else optionArguments member.1 member.2

theorem arguments_eq (members : List (String × Json)) :
    arguments (.object members) = (members.map contribution).flatten := by
  induction members with
  | nil => rfl
  | cons member members ih =>
    simp only [arguments] at ih ⊢
    by_cases listed : member.1 ∈ reserved
    · simpa [contribution, listed] using ih
    · simpa [contribution, listed] using ih

theorem adds_contribution (member : String × Json) : Adds member (contribution member) := by
  obtain ⟨key, value⟩ := member
  by_cases listed : key ∈ reserved
  · rw [contribution, if_pos listed]
    exact .nothing (.inl listed)
  · rw [contribution, if_neg listed]
    rcases optionArguments_cases key value with ⟨shapeless, none_⟩ | ⟨form, values, single, some_⟩
    · rw [none_]
      exact .nothing (.inr shapeless)
    · rw [some_]
      exact .named listed form single

theorem Adds.head?_eq_some_iff {key name : String} {value : Json} {tokens : List String}
    (adds : Adds (key, value) tokens) :
    tokens.head? = some name ↔ key ∉ reserved ∧ HasForm value ∧ "--" ++ key = name := by
  cases adds with
  | nothing skipped =>
    rcases skipped with listed | shapeless
    · simp [listed]
    · simp [shapeless]
  | named free form single => simp [free, form]

theorem build_starts (command : List String) (project : Project) (seed : Option Program) :
    (build command project seed).Leads (Host.Started (Checks command project)) := by
  refine .bind (.same fun _ => rfl) fun disk => .bind (.ofExcept _) fun sources => ?_
  split
  next => exact .pure _
  next =>
    refine .bind ?_ fun output => .pure _
    cases command with
    | nil => exact .fail _
    | cons program own =>
      refine .bind (.mapError _ ?_) fun response => .ofExcept _
      exact Host.start_starts fun disk place there => ⟨there, own, rfl, rfl⟩

theorem checked_of_build {command : List String} {project : Project} {seed : Option Program}
    {before after : Host} {program : Program}
    (built : build command project seed before = (.ok program, after))
    (present : project.files ≠ []) :
    ∃ call response, before.Ran after call response ∧
      Checks command project before.disk call := by
  obtain ⟨-, -, ⟨empty, -, -⟩ | ⟨-, call, response, ran, -⟩⟩ := build_eq_ok built
  · exact absurd empty present
  · obtain ⟨calls, logged, checks⟩ := build_starts command project seed before
    rw [built, ← ran.logged] at logged
    obtain rfl : calls = [call] := List.append_cancel_left (congrArg Host.calls logged)
    exact ⟨call, response, ran, checks call List.mem_cons_self⟩

/-- Options add their names in order, each followed by at most one value. No name among them is taken for a
reserved option exactly if none of the options that have a form is a reserved one in other letters. Every
process is started with these tokens between the arguments that are always given and the files, and no
program is made of files without one. -/
theorem reserved_options_kept_iff (members : List (String × Json)) :
    (∃ added : List (List String), arguments (.object members) = added.flatten ∧
      List.Forall₂ Adds members added ∧
      ((∀ tokens ∈ added, ∀ name, tokens.head? = some name → ¬ Overrides name) ↔
        ∀ key value, (key, value) ∈ members → HasForm value → Reserves key → key ∈ reserved)) ∧
    ∀ command files base seed,
      let project : Project := ⟨files, .object members, base⟩
      (build command project seed).Leads (Host.Started (Checks command project)) ∧
      ∀ before program after, files ≠ [] →
        build command project seed before = (.ok program, after) →
          ∃ call response, before.Ran after call response ∧
            Checks command project before.disk call := by
  refine ⟨⟨members.map contribution, arguments_eq members, ?_, ?_⟩, ?_⟩
  · exact List.forall₂_map_right_iff.2 (List.forall₂_same.2 fun member _ => adds_contribution member)
  · rw [List.forall_mem_map]
    constructor
    · intro kept key value inside form reserves
      by_contra free
      have named := (adds_contribution (key, value)).head?_eq_some_iff.2 ⟨free, form, rfl⟩
      exact kept (key, value) inside _ named ((overrides_name_iff key).2 reserves)
    · rintro spelled ⟨key, value⟩ inside name named overrides
      obtain ⟨free, form, rfl⟩ := (adds_contribution (key, value)).head?_eq_some_iff.1 named
      exact free (spelled key value inside form ((overrides_name_iff key).1 overrides))
  · intro command files base seed project
    refine ⟨build_starts command project seed, ?_⟩
    intro before program after present built
    exact checked_of_build built present

def checkCall (tokens : List String) : Call :=
  ⟨[], "tsc", "--noEmit" :: "--pretty" :: "false" :: tokens ++ ["a.ts"]⟩

theorem silent_built {options : Json} (clean : (arguments options).any holdsNul = false) :
    build ["tsc"] ⟨["a.ts"], options, ⟨"."⟩⟩ none (answeringHost .silent) =
      (.ok (programOf ["a.ts"] [("a.ts", ⟨"", some 1⟩)] Response.silent.output),
        { answeringHost .silent with calls := [checkCall (arguments options)] }) := by
  have read : (answeringHost .silent).disk.readText (Path.join ⟨"."⟩ "a.ts") = .ok "" := by
    have found : (answeringHost .silent).disk.find (Path.join ⟨"."⟩ "a.ts") = .ok (.file [] 1) := rfl
    simp only [Disk.readText, found, Text.decode?, Text.decode]
    rfl
  have placed : (answeringHost .silent).place "tsc" (checkCall (arguments options)).arguments ⟨"."⟩ =
      .ok [] := by
    have whole : ("tsc" :: "." :: (checkCall (arguments options)).arguments).any holdsNul = false := by
      simp only [checkCall, List.any_cons, List.any_append, List.any_nil, clean]
      decide
    simp only [Host.place, whole]
    rfl
  have started : Host.start "tsc" (checkCall (arguments options)).arguments ⟨"."⟩
      (answeringHost .silent) =
        (.ok .silent, { answeringHost .silent with calls := [checkCall (arguments options)] }) := by
    simp only [Host.start, placed]
    rfl
  have ran : runCompiler ["tsc"] ⟨["a.ts"], options, ⟨"."⟩⟩ (answeringHost .silent) =
      (.ok Response.silent.output,
        { answeringHost .silent with calls := [checkCall (arguments options)] }) :=
    Action.bind_of_ok (Action.mapError_eq_ok.2 started)
  exact build_of_runCompiler (loadSources_singleton read) (List.cons_ne_nil _ _) ran

def mixedOptions : List (String × Json) :=
  [("strict", .bool true), ("noEmit", .bool false), ("lib", .array [.text "es5", .null, .text "dom"]),
    ("paths", .object []), ("target", .text "es5"), ("types", .null), ("allowJs", .bool false)]

def mixedProject : Project := ⟨["a.ts"], .object mixedOptions, ⟨"."⟩⟩

theorem mixed_options_passed_on :
    (∃ added : List (List String), arguments (.object mixedOptions) = added.flatten ∧
      ∀ tokens ∈ added, ∀ name, tokens.head? = some name → ¬ Overrides name) ∧
    (build ["tsc"] mixedProject none (answeringHost .silent)).2.calls =
      [checkCall ["--strict", "--lib", "es5,dom", "--target", "es5", "--allowJs", "false"]] ∧
    ∃ call response, (answeringHost .silent).Ran
        (build ["tsc"] mixedProject none (answeringHost .silent)).2 call response ∧
      Checks ["tsc"] mixedProject (answeringHost .silent).disk call := by
  obtain ⟨⟨added, flat, -, kept⟩, run⟩ := reserved_options_kept_iff mixedOptions
  have built : build ["tsc"] mixedProject none (answeringHost .silent) = _ :=
    silent_built (by decide)
  rw [built]
  refine ⟨⟨added, flat, kept.2 ?_⟩, rfl, ?_⟩
  · intro key value inside form reserves
    have spelled : ∀ member ∈ mixedOptions, Reserves member.1 → member.1 ∈ reserved := by
      unfold Reserves
      decide
    exact spelled (key, value) inside reserves
  · exact (run ["tsc"] ["a.ts"] ⟨"."⟩ none).2 _ _ _ (List.cons_ne_nil _ _) built

theorem respelled_option_passed_on :
    Overrides "--noemit" ∧ arguments (.object [("noemit", .bool false)]) = ["--noemit", "false"] ∧
      (build ["tsc"] ⟨["a.ts"], .object [("noemit", .bool false)], ⟨"."⟩⟩ none
        (answeringHost .silent)).2.calls = [checkCall ["--noemit", "false"]] ∧
      Overrides "--pretty" ∧
      arguments (.object [("strict", .text "--pretty")]) = ["--strict", "--pretty"] := by
  refine ⟨⟨"noEmit", by decide, by decide⟩, by decide, ?_, ⟨"pretty", by decide, by decide⟩,
    by decide⟩
  rw [silent_built (by decide)]
  rfl

end BuildGate.Compiler
