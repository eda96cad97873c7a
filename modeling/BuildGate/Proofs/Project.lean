import BuildGate.Project
import BuildGate.Proofs.Except
import Mathlib.Data.String.Basic
import Mathlib.Tactic.SplitIfs

set_option autoImplicit false

namespace BuildGate

namespace Json

def ofTexts (texts : List String) : Json := .array (texts.map .text)

theorem map_text_inj {a b : List String} : a.map Json.text = b.map .text ↔ a = b :=
  (List.map_injective_iff.2 fun _ _ => Json.text.inj).eq_iff

theorem text?_eq_some {item : Json} {text : String} : item.text? = some text ↔ item = .text text := by
  cases item <;> simp [text?]

theorem mapM_text?_eq_some {items : List Json} {texts : List String} :
    items.mapM text? = some texts ↔ items = texts.map .text := by
  rw [Option.mapM_eq_some, ← List.forall₂_eq_eq_eq, List.forall₂_map_right_iff]
  simp only [text?_eq_some]

end Json

namespace Project

theorem mem_insertName {name other : String} {names : List String} :
    other ∈ insertName name names ↔ other = name ∨ other ∈ names := by
  induction names with
  | nil => simp [insertName]
  | cons first names ih =>
    rw [insertName]
    split_ifs with less same
    · exact List.mem_cons
    · subst same
      rw [List.mem_cons, or_self_left]
    · rw [List.mem_cons, ih, List.mem_cons, or_left_comm]

theorem insertName_sorted {name : String} {names : List String}
    (sorted : names.Pairwise (· < ·)) : (insertName name names).Pairwise (· < ·) := by
  induction names with
  | nil => simp [insertName]
  | cons first names ih =>
    obtain ⟨least, rest⟩ := List.pairwise_cons.1 sorted
    rw [insertName]
    split_ifs with less same
    · refine List.pairwise_cons.2 ⟨?_, sorted⟩
      rw [List.forall_mem_cons]
      exact ⟨less, fun other member => less.trans (least other member)⟩
    · exact sorted
    · refine List.pairwise_cons.2 ⟨fun other member => ?_, ih rest⟩
      rcases mem_insertName.1 member with rfl | member
      · exact lt_of_le_of_ne (not_lt.1 less) (Ne.symm same)
      · exact least other member

theorem mem_sortNames {name : String} {names : List String} :
    name ∈ sortNames names ↔ name ∈ names := by
  induction names with
  | nil => rfl
  | cons first names ih =>
    rw [sortNames, List.foldr_cons, mem_insertName, ← sortNames, ih, List.mem_cons]

theorem sortNames_sorted (names : List String) : (sortNames names).Pairwise (· < ·) := by
  induction names with
  | nil => exact .nil
  | cons first names ih => exact insertName_sorted ih

theorem strings?_eq_ok {members : List (String × Json)} {key : String}
    {texts : Option (List String)} :
    strings? members key = .ok texts ↔ members.lookup key = texts.map .ofTexts := by
  unfold strings?
  split
  next absent =>
    rw [absent]
    cases texts <;> simp
  next items present =>
    rw [present]
    cases all : items.mapM Json.text? with
    | none =>
      cases texts with
      | none => simp
      | some texts =>
        have other : items ≠ texts.map .text := fun same => by
          rw [Json.mapM_text?_eq_some.2 same] at all
          cases all
        simpa [Json.ofTexts] using other
    | some found =>
      obtain rfl := Json.mapM_text?_eq_some.1 all
      cases texts <;> simp [Json.ofTexts, Json.map_text_inj]
  next other unlike present =>
    rw [present]
    cases texts with
    | none => simp
    | some texts =>
      simp only [reduceCtorEq, Option.map_some, Option.some.injEq, false_iff]
      rintro rfl
      exact unlike _ rfl

theorem included_eq_ok {disk : Disk} {base : Path} {excluded : List Glob.Pattern} {entry : String}
    {names : List String} :
    included disk base excluded entry = .ok names ↔
      ∃ paths, Glob.search disk (base.join (expandDirectory entry)).text = .ok paths ∧
        names = ((paths.filter fun path => disk.isFile path && isSource path).map
          (nameOf base)).filter fun name => !excluded.any (·.matches name) := by
  unfold included
  split
  next failed => simp [failed]
  next paths found =>
    simp only [found, Except.ok.injEq, exists_eq_left']
    exact eq_comm

theorem resolve_eq_ok {disk : Disk} {object : Json} {base : Path} {project : Project} :
    resolve disk object base = .ok project ↔
      ∃ members selection excluded found, object = .object members ∧
        selection? members = .ok selection ∧ exclusions selection.excluded = .ok excluded ∧
        selection.patterns.mapM (included disk base excluded) = .ok found ∧
        project = ⟨sortNames (selection.files ++ found.flatten), optionsOf members, base⟩ := by
  constructor
  · intro resolved
    unfold resolve at resolved
    split at resolved
    next members =>
      unfold resolveMembers at resolved
      split at resolved
      next => cases resolved
      next selection said =>
        obtain ⟨excluded, compiled, rest⟩ := Except.bind_eq_ok.1 resolved
        obtain ⟨found, searched, made⟩ := Except.bind_eq_ok.1 rest
        exact ⟨members, selection, excluded, found, rfl, said, compiled, searched,
          (Except.ok.inj made).symm⟩
    next => cases resolved
  · rintro ⟨members, selection, excluded, found, rfl, said, compiled, searched, rfl⟩
    simp only [resolve, resolveMembers, said]
    exact Except.bind_eq_ok.2 ⟨excluded, compiled, Except.bind_eq_ok.2 ⟨found, searched, rfl⟩⟩

theorem resolve_form {disk : Disk} {members : List (String × Json)} {base : Path} {project : Project}
    (resolved : resolve disk (.object members) base = .ok project) :
    project = ⟨project.files, optionsOf members, base⟩ := by
  obtain ⟨_, _, _, _, ⟨⟩, -, -, -, rfl⟩ := resolve_eq_ok.1 resolved
  rfl

theorem resolved_of_files {disk : Disk} {object : Json} {base : Path} {files : List String}
    (found : (resolve disk object base).toOption.map (·.files) = some files) :
    ∃ project, resolve disk object base = .ok project ∧ project.files = files := by
  cases resolved : resolve disk object base with
  | error error =>
    rw [resolved] at found
    cases found
  | ok project =>
    rw [resolved] at found
    exact ⟨project, rfl, Option.some.inj found⟩

theorem strings?_error {members : List (String × Json)} {key : String} {fault : ProjectFault}
    (failed : strings? members key = .error fault) :
    fault = .notArray key ∨ fault = .notStrings key := by
  unfold strings? at failed
  split at failed
  next => cases failed
  next items _ =>
    cases texts : items.mapM Json.text? with
    | some texts =>
      rw [texts] at failed
      cases failed
    | none =>
      rw [texts] at failed
      cases failed
      exact .inr rfl
  next =>
    cases failed
    exact .inl rfl

theorem selection?_error {members : List (String × Json)} {fault : ProjectFault}
    (failed : selection? members = .error fault) :
    ∃ key, fault = .notArray key ∨ fault = .notStrings key := by
  rcases Except.bind_eq_error.1 failed with refused | ⟨files, -, failed⟩
  · exact ⟨_, strings?_error refused⟩
  rcases Except.bind_eq_error.1 failed with refused | ⟨patterns, -, failed⟩
  · exact ⟨_, strings?_error refused⟩
  rcases Except.bind_eq_error.1 failed with refused | ⟨excluded, -, failed⟩
  · exact ⟨_, strings?_error refused⟩
  · cases failed

theorem parsePattern_error {text : String} {error : EngineError}
    (failed : parsePattern text = .error error) : ∃ fault, error = .glob text fault := by
  unfold parsePattern at failed
  split at failed
  next => cases failed
  next fault _ =>
    cases failed
    exact ⟨fault, rfl⟩

theorem included_error {disk : Disk} {base : Path} {excluded : List Glob.Pattern} {pattern : String}
    {error : EngineError} (failed : included disk base excluded pattern = .error error) :
    ∃ fault, error = .glob pattern fault := by
  unfold included at failed
  split at failed
  next fault _ =>
    cases failed
    exact ⟨fault, rfl⟩
  next => cases failed

theorem resolve_error {disk : Disk} {project : Json} {base : Path} {error : EngineError}
    (failed : resolve disk project base = .error error) :
    error = .project .notObject ∨
      (∃ key, error = .project (.notArray key) ∨ error = .project (.notStrings key)) ∨
      ∃ text fault, error = .glob text fault := by
  unfold resolve at failed
  split at failed
  next members =>
    unfold resolveMembers at failed
    split at failed
    next fault refused =>
      obtain ⟨key, kind⟩ := selection?_error refused
      cases failed
      exact .inr (.inl ⟨key, kind.imp (congrArg _) (congrArg _)⟩)
    next selection _ =>
      right; right
      rcases Except.bind_eq_error.1 failed with refused | ⟨excluded, -, failed⟩
      · obtain ⟨text, -, unread⟩ := Except.mapM_eq_error refused
        exact ⟨text, parsePattern_error unread⟩
      rcases Except.bind_eq_error.1 failed with refused | ⟨found, -, failed⟩
      · obtain ⟨pattern, -, unfound⟩ := Except.mapM_eq_error refused
        exact ⟨pattern, included_error unfound⟩
      · cases failed
  next =>
    cases failed
    exact .inl rfl

end Project

end BuildGate
