import BuildGate.Proofs.Disk.Spelling
import BuildGate.Proofs.Project

set_option autoImplicit false

namespace BuildGate

namespace Project

structure Respelled (members others : List (String × Json)) : Prop where
  files : ∃ names named, members.lookup "files" = some (.ofTexts names) ∧
    others.lookup "files" = some (.ofTexts named) ∧ Path.Alike names named
  rest : ∀ key, key ≠ "files" → others.lookup key = members.lookup key

variable {members others : List (String × Json)}

theorem Respelled.optionsOf_eq (respelled : Respelled members others) :
    optionsOf others = optionsOf members := by
  rw [optionsOf, optionsOf, respelled.rest "compilerOptions" (by decide)]

theorem strings?_congr {key : String} (same : others.lookup key = members.lookup key) :
    strings? others key = strings? members key := by
  rw [strings?, strings?, same]

theorem selection?_of_files {names : List String}
    (given : members.lookup "files" = some (.ofTexts names)) {selection : Selection} :
    selection? members = .ok selection ↔ ∃ patterns excluded,
      strings? members "include" = .ok patterns ∧ strings? members "exclude" = .ok excluded ∧
        selection = ⟨names, patterns.getD [], excluded.getD ["node_modules"]⟩ := by
  have listed : strings? members "files" = .ok (some names) := strings?_eq_ok.2 given
  unfold selection?
  rw [listed, given]
  constructor
  · intro said
    obtain ⟨_, ⟨⟩, rest⟩ := Except.bind_eq_ok.1 said
    obtain ⟨patterns, first, rest⟩ := Except.bind_eq_ok.1 rest
    obtain ⟨excluded, second, made⟩ := Except.bind_eq_ok.1 rest
    exact ⟨patterns, excluded, first, second, (Except.ok.inj made).symm⟩
  · rintro ⟨patterns, excluded, first, second, rfl⟩
    exact Except.bind_eq_ok.2 ⟨_, rfl,
      Except.bind_eq_ok.2 ⟨patterns, first, Except.bind_eq_ok.2 ⟨excluded, second, rfl⟩⟩⟩

theorem Respelled.selection?_eq (respelled : Respelled members others) {selection : Selection}
    (said : selection? members = .ok selection) :
    ∃ named, selection? others = .ok { selection with files := named } ∧
      Path.Alike selection.files named := by
  obtain ⟨names, named, given, regiven, alike⟩ := respelled.files
  obtain ⟨patterns, excluded, first, second, rfl⟩ := (selection?_of_files given).1 said
  rw [← strings?_congr (respelled.rest "include" (by decide))] at first
  rw [← strings?_congr (respelled.rest "exclude" (by decide))] at second
  exact ⟨named, (selection?_of_files regiven).2 ⟨patterns, excluded, first, second, rfl⟩, alike⟩

theorem alike_sortNames (names : List String) : Path.Alike (sortNames names) names :=
  fun one => by simp only [List.mem_map, mem_sortNames]

theorem Respelled.resolve_eq (respelled : Respelled members others) {disk : Disk} {base : Path}
    {project : Project} (resolved : resolve disk (.object members) base = .ok project) :
    ∃ named, resolve disk (.object others) base = .ok { project with files := named } ∧
      Path.Alike project.files named := by
  obtain ⟨_, selection, excluded, found, ⟨⟩, said, compiled, searched, rfl⟩ :=
    resolve_eq_ok.1 resolved
  obtain ⟨named, resaid, alike⟩ := respelled.selection?_eq said
  refine ⟨sortNames (named ++ found.flatten), resolve_eq_ok.2
    ⟨others, _, excluded, found, rfl, resaid, compiled, searched, ?_⟩, ?_⟩
  · rw [respelled.optionsOf_eq]
  · intro one
    rw [alike_sortNames, alike_sortNames]
    exact alike.append _ one

end Project

end BuildGate
