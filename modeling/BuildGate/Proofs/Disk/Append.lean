import BuildGate.Proofs.Disk
import BuildGate.Proofs.Lookup

set_option autoImplicit false

namespace BuildGate

theorem getLast?_splitOn_slash {cs : List Char}
    (last : (cs.splitOn '/').getLast? = some []) : cs = [] ∨ cs.getLast? = some '/' := by
  induction cs with
  | nil => exact .inl rfl
  | cons c cs ih =>
    refine .inr ?_
    cases pieces : cs.splitOn '/' with
    | nil => exact absurd pieces (List.splitOn_ne_nil '/' cs)
    | cons piece pieces_ =>
      rw [List.splitOn_cons_eq_if_modifyHead, pieces] at last
      rw [pieces] at ih
      by_cases slash : c = '/'
      · subst slash
        have later : (piece :: pieces_).getLast? = some [] := by simpa using last
        rcases ih later with rfl | ending
        · rfl
        · rw [List.getLast?_cons, ending]
          rfl
      · have passed : (c == '/') = false := by simpa using slash
        simp only [passed, Bool.false_eq_true, if_false, List.modifyHead_cons] at last
        cases pieces_ with
        | nil => simp at last
        | cons next rest =>
          rw [List.getLast?_cons_cons] at last
          rcases ih (by rwa [List.getLast?_cons_cons]) with rfl | ending
          · simp at pieces
          · rw [List.getLast?_cons, ending]
            rfl

theorem Path.last_piece {path : Path} (some_ : path.text ≠ "")
    (unslashed : path.text.toList.getLast? ≠ some '/') :
    ∃ front last, path.pieces = front ++ [last] ∧ last ≠ "" := by
  obtain ⟨front, last, split⟩ := path.pieces.eq_nil_or_concat.resolve_left path.pieces_ne_nil
  rw [List.concat_eq_append] at split
  refine ⟨front, last, split, ?_⟩
  rintro rfl
  have ending : ((path.text.toList.splitOn '/').map String.ofList).getLast? = some "" := by
    rw [← pieces, split, List.getLast?_concat]
  rw [List.getLast?_map, Option.map_eq_some_iff] at ending
  obtain ⟨cs, last, none_⟩ := ending
  obtain rfl : cs = [] := by simpa using congrArg String.toList none_
  rcases getLast?_splitOn_slash last with empty | slashed
  · exact some_ (by simpa using empty)
  · exact unslashed slashed

namespace Disk

open Text (Bytes)

def content (disk : Disk) (path : Path) : Bytes :=
  match disk.find path with
  | .ok (.file content _) => content
  | _ => []

theorem entry?_put (disk : Disk) {place : Place} (below : place ≠ []) (entry : Entry)
    (other : Place) :
    Disk.entry? (disk.put place entry) other =
      if other = place then some entry else disk.entry? other := by
  cases other with
  | nil => rw [if_neg (Ne.symm below), Disk.entry?, Disk.entry?]
  | cons name names =>
    simp only [Disk.entry?, put, List.lookup_append, lookup_drop, lookup_pair, List.lookup_nil]
    by_cases same : name :: names = place
    · simp only [same, if_true, Option.none_or]
    · simp only [same, if_false, Option.or_none]

theorem walk_mono {disk later : Disk}
    (directories : ∀ place modified, disk.entry? place = some (.directory modified) →
      later.entry? place = some (.directory modified))
    (entries : ∀ place, (disk.entry? place).isSome → (later.entry? place).isSome)
    {pieces : List String} {place reached : Place} (walked : disk.walk place pieces = .ok reached) :
    later.walk place pieces = .ok reached := by
  induction pieces generalizing place with
  | nil => exact walked
  | cons piece pieces ih =>
    rw [walk] at walked ⊢
    split at walked
    next => cases walked
    next => cases walked
    next modified entry =>
      simp only [directories _ _ entry]
      by_cases idle : piece = "" ∨ piece = "."
      · rw [if_pos idle] at walked ⊢
        exact ih walked
      by_cases up : piece = ".."
      · rw [if_neg idle, if_pos up] at walked ⊢
        exact ih walked
      · rw [if_neg idle, if_neg up] at walked ⊢
        split at walked
        next there =>
          rw [if_pos (entries _ there)]
          exact ih walked
        next => cases walked

theorem append_eq_ok {disk written : Disk} {path : Path} {added : Bytes}
    (appended : disk.append path added = .ok written) :
    path.text ≠ "" ∧ holdsNul path.text = false ∧ ∃ front last parent modified old,
      path.pieces = front ++ [last] ∧ last ≠ "" ∧ last ≠ "." ∧ last ≠ ".." ∧
      disk.walk (disk.startOf path) front = .ok parent ∧
      disk.entry? parent = some (.directory modified) ∧
      (disk.entry? (parent ++ [last]) = none ∧ old = [] ∨
        ∃ modified, disk.entry? (parent ++ [last]) = some (.file old modified)) ∧
      written = disk.writeNow (parent ++ [last]) (old ++ added) := by
  unfold append at appended
  split at appended
  next => cases appended
  next some_ =>
    split at appended
    next => cases appended
    next clean =>
      refine ⟨some_, by simpa using clean, ?_⟩
      split at appended
      next => cases appended
      next last before kept =>
        split at appended
        next => cases appended
        next parent walked =>
          split at appended
          next => cases appended
          next => cases appended
          next modified above =>
            split at appended
            next => cases appended
            next plain =>
              rw [not_or, not_or] at plain
              obtain ⟨here, up, unslashed⟩ := plain
              obtain ⟨front, final, split, named⟩ := Path.last_piece some_ unslashed
              have reversed : path.pieces.reverse = final :: front.reverse := by
                rw [split, List.reverse_concat]
              rw [reversed, List.dropWhile_cons_of_neg (by simpa using named)] at kept
              obtain ⟨rfl, rfl⟩ := List.cons.inj kept
              rw [List.reverse_reverse] at walked
              split at appended
              next => cases appended
              next old time entry =>
                refine ⟨front, final, parent, modified, old, split, named, here, up, walked, above,
                  .inr ⟨time, entry⟩, (Except.ok.inj appended).symm⟩
              next entry =>
                refine ⟨front, final, parent, modified, [], split, named, here, up, walked, above,
                  .inl ⟨entry, rfl⟩, (Except.ok.inj appended).symm⟩

theorem walk_last {disk : Disk} {place parent : Place} {front : List String} {last : String}
    {modified : Int} (walked : disk.walk place front = .ok parent)
    (above : disk.entry? parent = some (.directory modified)) (named : last ≠ "") (here : last ≠ ".")
    (up : last ≠ "..") :
    disk.walk place (front ++ [last]) =
      if (disk.entry? (parent ++ [last])).isSome then .ok (parent ++ [last]) else .error .missing := by
  rw [walk_append, walked]
  simp [Except.bind, walk, above, named, here, up]

theorem content_of_resolve {disk : Disk} {path : Path} {place : Place} {held : Bytes}
    {modified : Int} (resolved : disk.resolve path = .ok place)
    (entry : disk.entry? place = some (.file held modified)) : disk.content path = held := by
  simp only [content, find, resolved, entry]

theorem content_append {disk written : Disk} {path : Path} {added : Bytes}
    (appended : disk.append path added = .ok written) :
    written.content path = disk.content path ++ added := by
  obtain ⟨some_, clean, front, last, parent, modified, old, split, named, here, up, walked, above,
    before, rfl⟩ := append_eq_ok appended
  have held : disk.content path = old := by
    have reached := walk_last walked above named here up
    rw [← split] at reached
    rcases before with ⟨entry, rfl⟩ | ⟨time, entry⟩
    · rw [entry, Option.isSome_none, if_neg Bool.false_ne_true] at reached
      simp [content, find, resolve, some_, clean, reached]
    · rw [entry, Option.isSome_some, if_pos rfl] at reached
      exact content_of_resolve (resolve_eq_ok.2 ⟨some_, clean, reached⟩) entry
  let written := disk.writeNow (parent ++ [last]) (old ++ added)
  have entries (place : Place) : written.entry? place =
      if place = parent ++ [last] then some (.file (old ++ added) disk.clock)
      else disk.entry? place :=
    entry?_put disk (by simp) _ place
  have kept (place : Place) (modified : Int)
      (entry : disk.entry? place = some (.directory modified)) :
      written.entry? place = some (.directory modified) := by
    have apart : place ≠ parent ++ [last] := by
      rintro rfl
      rcases before with ⟨none_, -⟩ | ⟨time, file⟩
      · rw [none_] at entry
        cases entry
      · rw [file] at entry
        cases entry
    rw [entries, if_neg apart, entry]
  have target : written.entry? (parent ++ [last]) = some (.file (old ++ added) disk.clock) := by
    rw [entries, if_pos rfl]
  have again : written.walk (written.startOf path) front = .ok parent := by
    refine walk_mono kept ?_ walked
    intro place some_
    rw [entries]
    split
    · rfl
    · exact some_
  have reached := walk_last again (kept parent modified above) named here up
  rw [target, Option.isSome_some, if_pos rfl, ← split] at reached
  rw [held]
  exact content_of_resolve (resolve_eq_ok.2 ⟨some_, clean, reached⟩) target

end Disk

end BuildGate
