import BuildGate.Proofs.LineMap
import Mathlib.Data.Set.Card
import Mathlib.Order.Bounds.Basic

set_option autoImplicit false

namespace BuildGate

/-- What ends a line between two parts of a text. A carriage return and a line feed in this order end it
once. -/
inductive Marks (before after : List Char) : List Char → Prop
  | feed (alone : before.getLast? ≠ some '\r') : Marks before after ['\n']
  | pair : Marks before after ['\r', '\n']
  | ret (alone : after.head? ≠ some '\n') : Marks before after ['\r']

structure Terminator (cs : List Char) where
  before : List Char
  mark : List Char
  after : List Char
  whole : before ++ mark ++ after = cs
  marks : Marks before after mark

def LineEnds (front rest : List Char) : Prop :=
  front.getLast? = some '\n' ∨ front.getLast? = some '\r' ∧ rest.head? ≠ some '\n'

namespace Terminator

variable {cs : List Char}

def stop (terminator : Terminator cs) : Nat := width (terminator.before ++ terminator.mark)

theorem stop_le (terminator : Terminator cs) : terminator.stop ≤ width cs := by
  have total := congrArg width terminator.whole
  rw [width_append] at total
  rw [stop]
  omega

theorem lineEnds (terminator : Terminator cs) :
    LineEnds (terminator.before ++ terminator.mark) terminator.after := by
  obtain ⟨before, mark, after, -, marks⟩ := terminator
  cases marks with
  | feed alone => exact .inl (by simp)
  | pair => exact .inl (by simp)
  | ret alone => exact .inr ⟨by simp, alone⟩

theorem exists_of_lineEnds {front rest : List Char} (whole : front ++ rest = cs)
    (ends : LineEnds front rest) : ∃ terminator : Terminator cs, terminator.stop = width front := by
  rcases ends with last | ⟨last, apart⟩
  · obtain ⟨before, rfl⟩ := List.getLast?_eq_some_iff.1 last
    by_cases paired : before.getLast? = some '\r'
    · obtain ⟨before, rfl⟩ := List.getLast?_eq_some_iff.1 paired
      exact ⟨⟨before, _, rest, by simpa using whole, .pair⟩, by simp [stop]⟩
    · exact ⟨⟨before, _, rest, whole, .feed paired⟩, rfl⟩
  · obtain ⟨before, rfl⟩ := List.getLast?_eq_some_iff.1 last
    exact ⟨⟨before, _, rest, whole, .ret apart⟩, rfl⟩

end Terminator

theorem front_eq_of_width {front rest front' rest' : List Char}
    (same : front ++ rest = front' ++ rest') (width_eq : width front = width front') :
    front = front' := by
  induction front generalizing front' with
  | nil =>
    cases front' with
    | nil => rfl
    | cons c front' =>
      have unit := units_pos c
      simp only [width_nil, width_cons] at width_eq
      omega
  | cons c front ih =>
    cases front' with
    | nil =>
      have unit := units_pos c
      simp only [width_nil, width_cons] at width_eq
      omega
    | cons c' front' =>
      rw [List.cons_append, List.cons_append, List.cons.injEq] at same
      obtain ⟨rfl, same⟩ := same
      simp only [width_cons, Nat.add_left_cancel_iff] at width_eq
      rw [ih same width_eq]

theorem Marks.eq_of_append {before before' after after' mark mark' : List Char}
    (marks : Marks before after mark) (marks' : Marks before' after' mark')
    (same : before ++ mark = before' ++ mark') : mark = mark' := by
  have last := congrArg List.getLast? same
  cases marks with
  | feed alone =>
    cases marks' with
    | feed alone' => rfl
    | pair =>
      have earlier : before = before' ++ ['\r'] := by
        apply (List.append_left_inj ['\n']).1
        simpa using same
      simp [earlier] at alone
    | ret alone' => simp at last
  | pair =>
    cases marks' with
    | feed alone' =>
      have earlier : before ++ ['\r'] = before' := by
        apply (List.append_left_inj ['\n']).1
        simpa using same
      simp [← earlier] at alone'
    | pair => rfl
    | ret alone' => simp at last
  | ret alone =>
    cases marks' with
    | feed alone' => simp at last
    | pair => simp at last
    | ret alone' => rfl

theorem Terminator.stop_injective (cs : List Char) :
    Function.Injective (@Terminator.stop cs) := by
  rintro ⟨before, mark, after, whole, marks⟩ ⟨before', mark', after', whole', marks'⟩ same
  have front : before ++ mark = before' ++ mark' :=
    front_eq_of_width (whole.trans whole'.symm) same
  obtain rfl := marks.eq_of_append marks' front
  obtain rfl := List.append_cancel_right front
  obtain rfl := List.append_cancel_left (whole.trans whole'.symm)
  rfl

def EndsAt (cs : List Char) (offset : Nat) : Prop :=
  ∃ front rest, front ++ rest = cs ∧ LineEnds front rest ∧ width front = offset

theorem endsAt_iff {cs : List Char} {offset : Nat} :
    EndsAt cs offset ↔ ∃ terminator : Terminator cs, terminator.stop = offset := by
  constructor
  · rintro ⟨front, rest, whole, ends, rfl⟩
    exact Terminator.exists_of_lineEnds whole ends
  · rintro ⟨terminator, rfl⟩
    exact ⟨_, _, terminator.whole, terminator.lineEnds, rfl⟩

theorem not_endsAt_nil (offset : Nat) : ¬ EndsAt [] offset := by
  rintro ⟨front, rest, whole, ends, -⟩
  obtain ⟨rfl, -⟩ := List.append_eq_nil_iff.1 whole
  rcases ends with last | ⟨last, -⟩ <;> cases last

theorem endsAt_cons {c : Char} {cs : List Char} {offset : Nat} :
    EndsAt (c :: cs) offset ↔
      (c = '\n' ∨ c = '\r' ∧ cs.head? ≠ some '\n') ∧ offset = units c ∨
        ∃ inner, EndsAt cs inner ∧ offset = units c + inner := by
  constructor
  · rintro ⟨front, rest, whole, ends, rfl⟩
    cases front with
    | nil => rcases ends with last | ⟨last, -⟩ <;> cases last
    | cons first front =>
      obtain ⟨rfl, rfl⟩ := List.cons.inj whole
      cases front with
      | nil => exact .inl ⟨by simpa [LineEnds] using ends, by simp⟩
      | cons second front =>
        rw [LineEnds, List.getLast?_cons_cons] at ends
        exact .inr ⟨_, ⟨_, _, rfl, ends, rfl⟩, by simp⟩
  · rintro (⟨ends, rfl⟩ | ⟨inner, ⟨front, rest, rfl, ends, rfl⟩, rfl⟩)
    · exact ⟨[c], cs, rfl, by simpa [LineEnds] using ends, by simp⟩
    · have some_ : front ≠ [] := by
        rintro rfl
        rcases ends with last | ⟨last, -⟩ <;> cases last
      refine ⟨c :: front, rest, rfl, ?_, by simp⟩
      rw [LineEnds, List.getLast?_cons_of_ne_nil some_]
      exact ends

theorem endsAt_pair {cs : List Char} {offset : Nat} :
    EndsAt ('\r' :: '\n' :: cs) offset ↔
      offset = 2 ∨ ∃ inner, EndsAt cs inner ∧ offset = 2 + inner := by
  have ret : units '\r' = 1 := by decide
  have feed : units '\n' = 1 := by decide
  rw [endsAt_cons, ret]
  constructor
  · rintro (⟨wrong | ⟨-, apart⟩, -⟩ | ⟨inner, ends, rfl⟩)
    · exact absurd wrong (by decide)
    · exact absurd rfl apart
    · rw [endsAt_cons, feed] at ends
      rcases ends with ⟨-, rfl⟩ | ⟨inside, ends, rfl⟩
      · exact .inl rfl
      · exact .inr ⟨inside, ends, by omega⟩
  · rintro (rfl | ⟨inside, ends, rfl⟩)
    · exact .inr ⟨1, endsAt_cons.2 (.inl ⟨.inl rfl, feed.symm⟩), rfl⟩
    · exact .inr ⟨1 + inside, endsAt_cons.2 (.inr ⟨inside, ends, by rw [feed]⟩), by omega⟩

theorem endsAt_shift {cs rest : List Char} {here : Prop} {step : Nat}
    (steps : ∀ inner, EndsAt cs inner ↔
      here ∧ inner = step ∨ ∃ behind, EndsAt rest behind ∧ inner = step + behind)
    (base offset : Nat) :
    (∃ inner, EndsAt cs inner ∧ offset = base + inner) ↔ here ∧ offset = base + step ∨
      ∃ behind, EndsAt rest behind ∧ offset = base + step + behind := by
  simp only [steps]
  constructor
  · rintro ⟨inner, ⟨ends, rfl⟩ | ⟨behind, ends, rfl⟩, rfl⟩
    · exact .inl ⟨ends, rfl⟩
    · exact .inr ⟨behind, ends, by omega⟩
  · rintro (⟨ends, rfl⟩ | ⟨behind, ends, rfl⟩)
    · exact ⟨step, .inl ⟨ends, rfl⟩, rfl⟩
    · exact ⟨step + behind, .inr ⟨behind, ends, rfl⟩, by omega⟩

theorem mem_terminatorEnds {base offset : Nat} {cs : List Char} :
    offset ∈ terminatorEnds base cs ↔ ∃ inner, EndsAt cs inner ∧ offset = base + inner := by
  fun_induction terminatorEnds base cs with
  | case1 base => simp [not_endsAt_nil]
  | case2 base cs ih =>
    have steps (inner : Nat) : EndsAt ('\r' :: '\n' :: cs) inner ↔
        True ∧ inner = 2 ∨ ∃ behind, EndsAt cs behind ∧ inner = 2 + behind := by
      rw [true_and, endsAt_pair]
    rw [List.mem_cons, ih, endsAt_shift steps, true_and]
  | case3 base c cs whole ends ih =>
    have one : units c = 1 := by rcases ends with rfl | rfl <;> decide
    have apart : c = '\n' ∨ c = '\r' ∧ cs.head? ≠ some '\n' := by
      rcases ends with rfl | rfl
      · refine .inr ⟨rfl, fun first => ?_⟩
        obtain ⟨rest, rfl⟩ := List.head?_eq_some_iff.1 first
        exact whole rest rfl rfl
      · exact .inl rfl
    rw [List.mem_cons, ih, endsAt_shift fun _ => endsAt_cons, one, and_iff_right apart]
  | case4 base c cs whole inside ih =>
    have none_ : ¬ (c = '\n' ∨ c = '\r' ∧ cs.head? ≠ some '\n') := by
      rintro (feed | ⟨ret, -⟩)
      · exact inside (.inr feed)
      · exact inside (.inl ret)
    rw [ih, endsAt_shift fun _ => endsAt_cons, or_iff_right fun ends => none_ ends.1]

theorem mem_terminatorEnds_zero {cs : List Char} {offset : Nat} :
    offset ∈ terminatorEnds 0 cs ↔ ∃ terminator : Terminator cs, terminator.stop = offset := by
  simp only [mem_terminatorEnds, Nat.zero_add, exists_eq_right', endsAt_iff]

theorem starts_sorted (base : Nat) (cs : List Char) :
    (base :: terminatorEnds base cs).Pairwise (· < ·) := by
  have shift {near far : Nat} {ends : List Nat} (le : near < far)
      (sorted : (far :: ends).Pairwise (· < ·)) : ∀ stop ∈ far :: ends, near < stop := by
    intro stop listed
    rcases List.mem_cons.1 listed with rfl | later
    · exact le
    · exact le.trans (List.rel_of_pairwise_cons sorted later)
  fun_induction terminatorEnds base cs with
  | case1 base => exact List.pairwise_singleton _ _
  | case2 base cs ih => exact List.pairwise_cons.2 ⟨shift (by omega) ih, ih⟩
  | case3 base c cs whole ends ih => exact List.pairwise_cons.2 ⟨shift (by omega) ih, ih⟩
  | case4 base c cs whole inside ih =>
    have unit := units_pos c
    refine List.pairwise_cons.2 ⟨fun stop later => ?_, (List.pairwise_cons.1 ih).2⟩
    exact shift (by omega) ih stop (List.mem_cons_of_mem _ later)

theorem getElem?_le_iff {starts : List Nat} (sorted : starts.Pairwise (· < ·)) {index start : Nat}
    (here : starts[index]? = some start) (value : Nat) :
    start ≤ value ↔ index < starts.countP (· ≤ value) := by
  induction starts generalizing index with
  | nil => simp at here
  | cons first starts ih =>
    obtain ⟨below, sorted⟩ := List.pairwise_cons.1 sorted
    by_cases low : first ≤ value
    · rw [List.countP_cons_of_pos (by simpa using low)]
      cases index with
      | zero =>
        obtain rfl : first = start := by simpa using here
        simp [low]
      | succ index =>
        rw [ih sorted (by simpa using here), Nat.add_lt_add_iff_right]
    · have none_ : (first :: starts).countP (· ≤ value) = 0 := by
        rw [List.countP_eq_zero]
        intro other listed
        rcases List.mem_cons.1 listed with rfl | later
        · simpa using low
        · have above := below other later
          simp only [decide_eq_true_eq]
          omega
      have above : first ≤ start := by
        rcases List.mem_cons.1 (List.mem_of_getElem? here) with rfl | later
        · exact Nat.le_refl _
        · exact Nat.le_of_lt (below start later)
      rw [none_]
      omega

inductive Slot
  | found (index : Nat)
  | gap (index : Nat)

namespace Slot

inductive Fits (starts : List Nat) (value : Nat) : Slot → Prop
  | found {index : Nat} (here : starts[index]? = some value) : Fits starts value (.found index)
  | gap {index : Nat} (within : index ≤ starts.length)
      (below : ∀ place start, starts[place]? = some start → place < index → start < value)
      (above : ∀ place start, starts[place]? = some start → index ≤ place → value < start) :
      Fits starts value (.gap index)

def line? : Slot → Option Nat
  | found index => some index
  | gap 0 => none
  | gap (index + 1) => some index

theorem exists_fits {starts : List Nat} (sorted : starts.Pairwise (· < ·)) (value : Nat) :
    ∃ slot : Slot, slot.Fits starts value := by
  by_cases listed : value ∈ starts
  · obtain ⟨index, here⟩ := List.mem_iff_getElem?.1 listed
    exact ⟨_, .found here⟩
  · refine ⟨.gap (starts.countP (· ≤ value)), .gap List.countP_le_length ?_ ?_⟩
    · intro place start here before
      have low := (getElem?_le_iff sorted here value).2 before
      have other : start ≠ value := fun same => listed (same ▸ List.mem_of_getElem? here)
      omega
    · intro place start here behind
      have high := mt (getElem?_le_iff sorted here value).1 (Nat.not_lt.2 behind)
      omega

theorem line?_of_fits {starts : List Nat} {slot : Slot} {value : Nat}
    (sorted : starts.Pairwise (· < ·)) (first : starts[0]? = some 0)
    (fits : slot.Fits starts value) : slot.line? = some (starts.countP (· ≤ value) - 1) := by
  have within := List.countP_le_length (p := (· ≤ value)) (l := starts)
  have listed {place : Nat} (inside : place < starts.countP (· ≤ value)) :
      ∃ start, starts[place]? = some start ∧ start ≤ value := by
    have here := List.getElem?_eq_getElem (Nat.lt_of_lt_of_le inside within)
    exact ⟨_, here, (getElem?_le_iff sorted here value).2 inside⟩
  cases fits with
  | @found index here =>
    have low := (getElem?_le_iff sorted here value).1 (Nat.le_refl _)
    have last : ¬ index + 1 < starts.countP (· ≤ value) := by
      intro inside
      obtain ⟨start, next, low⟩ := listed inside
      obtain ⟨bound, rfl⟩ := List.getElem?_eq_some_iff.1 here
      obtain ⟨bound', rfl⟩ := List.getElem?_eq_some_iff.1 next
      have rising := List.pairwise_iff_getElem.1 sorted index (index + 1) bound bound' (by omega)
      omega
    rw [line?, Option.some.injEq]
    omega
  | @gap index bound below above =>
    have least : index ≤ starts.countP (· ≤ value) := by
      by_contra beyond
      have here := List.getElem?_eq_getElem
        (show starts.countP (· ≤ value) < starts.length by omega)
      have low := below _ _ here (by omega)
      have counted := (getElem?_le_iff sorted here value).1 (Nat.le_of_lt low)
      omega
    have most : starts.countP (· ≤ value) ≤ index := by
      by_contra short
      obtain ⟨start, here, low⟩ := listed (Nat.lt_of_not_le short)
      have high := above _ _ here (Nat.le_refl _)
      omega
    cases index with
    | zero => exact absurd (above 0 0 first (Nat.le_refl _)) (Nat.not_lt_zero _)
    | succ index =>
      rw [line?, Option.some.injEq]
      omega

end Slot

namespace LineMap

theorem ncard_terminators (cs : List Char) (limit : Nat) :
    {terminator : Terminator cs | terminator.stop ≤ limit}.ncard =
      (terminatorEnds 0 cs).countP (· ≤ limit) := by
  have distinct := ((List.pairwise_cons.1 (starts_sorted 0 cs)).2.filter (· ≤ limit)).imp Nat.ne_of_lt
  rw [← Set.ncard_image_of_injective _ (Terminator.stop_injective cs), List.countP_eq_length_filter,
    ← List.toFinset_card_of_nodup distinct, ← Set.ncard_coe_finset]
  congr 1
  ext offset
  simp only [Set.mem_image, Set.mem_ofPred_eq, List.coe_toFinset, List.mem_filter,
    mem_terminatorEnds_zero, decide_eq_true_eq]
  constructor
  · rintro ⟨terminator, within, rfl⟩
    exact ⟨⟨terminator, rfl⟩, within⟩
  · rintro ⟨⟨terminator, rfl⟩, within⟩
    exact ⟨terminator, within, rfl⟩

theorem card_terminators (cs : List Char) :
    Nat.card (Terminator cs) = (terminatorEnds 0 cs).length := by
  have all : {terminator : Terminator cs | terminator.stop ≤ width cs} = Set.univ :=
    Set.eq_univ_of_forall Terminator.stop_le
  rw [← Set.ncard_univ, ← all, ncard_terminators, List.countP_eq_length]
  intro stop listed
  obtain ⟨terminator, rfl⟩ := mem_terminatorEnds_zero.1 listed
  simpa using terminator.stop_le

theorem lineAt_ofChars (cs : List Char) (offset : Nat) :
    (ofChars cs).lineAt offset = (terminatorEnds 0 cs).countP (· ≤ offset) := by
  rw [lineAt, ofChars, List.countP_cons_of_pos (by simp), Nat.add_sub_cancel]

theorem exists_start (cs : List Char) (offset : Nat) :
    ∃ start, (ofChars cs).starts[(ofChars cs).lineAt offset]? = some start ∧ start ≤ offset ∧
      ∀ other ∈ (ofChars cs).starts, other ≤ offset → other ≤ start := by
  have sorted : (ofChars cs).starts.Pairwise (· < ·) := starts_sorted 0 cs
  have zero : (ofChars cs).starts[0]? = some 0 := rfl
  have first := (getElem?_le_iff sorted zero offset).1 (Nat.zero_le _)
  have line : (ofChars cs).lineAt offset < (ofChars cs).starts.countP (· ≤ offset) :=
    Nat.sub_one_lt_of_lt first
  have here := List.getElem?_eq_getElem (Nat.lt_of_lt_of_le line List.countP_le_length)
  refine ⟨_, here, (getElem?_le_iff sorted here offset).2 line, ?_⟩
  intro other listed low
  obtain ⟨index, bound, rfl⟩ := List.mem_iff_getElem.1 listed
  have counted := (getElem?_le_iff sorted (List.getElem?_eq_getElem bound) offset).1 low
  rcases Nat.lt_or_eq_of_le (show index ≤ (ofChars cs).lineAt offset from Nat.le_sub_one_of_lt counted)
    with earlier | same
  · exact Nat.le_of_lt (List.pairwise_iff_getElem.1 sorted _ _ _ _ earlier)
  · simp only [same, Nat.le_refl]

/-- The line of an offset is the number of terminators that end at or before it, and the character what
is left behind the last of them. A line has a start exactly if there are that many terminators. The
starts rise from zero up to the length, so whatever the search among them comes to, there is a line
before it and its start is not behind the offset. -/
theorem lineAndCharacter_counts_terminators (text : String) (offset : Nat) :
    let cs := text.toList
    let map := LineMap.ofString text
    let inside := min offset (width cs)
    let passed := {terminator : Terminator cs | terminator.stop ≤ inside}
    (∃ last, IsGreatest (insert 0 (Terminator.stop '' passed)) last ∧
      map.lineAndCharacter offset = (passed.ncard, inside - last)) ∧
    (∀ line, (map.offset? line 0).isSome ↔ line ≤ Nat.card (Terminator cs)) ∧
    (map.starts.head? = some 0 ∧ map.starts.Pairwise (· < ·) ∧
      ∀ start ∈ map.starts, start ≤ width cs) ∧
    (∃ slot : Slot, slot.Fits map.starts inside) ∧
      ∀ slot : Slot, slot.Fits map.starts inside → ∃ line start, slot.line? = some line ∧
        map.starts[line]? = some start ∧ start ≤ inside ∧
          map.lineAndCharacter offset = (line, inside - start) := by
  intro cs map inside passed
  -- The ends of terminators are the starts behind the first, which is zero.
  have sorted : map.starts.Pairwise (· < ·) := starts_sorted 0 cs
  obtain ⟨start, here, low, last⟩ := exists_start cs inside
  have position : map.lineAndCharacter offset = (map.lineAt inside, inside - start) := by
    have found : map.startOf (map.lineAt inside) = start := by
      change map.starts[map.lineAt inside]?.getD 0 = start
      rw [show map.starts[map.lineAt inside]? = some start from here, Option.getD_some]
    rw [lineAndCharacter, ← found]
    rfl
  have mem_starts (stop : Nat) :
      stop ∈ insert 0 (Terminator.stop '' passed) ↔ stop ∈ map.starts ∧ stop ≤ inside := by
    have starts : map.starts = 0 :: terminatorEnds 0 cs := rfl
    simp only [Set.mem_insert_iff, Set.mem_image, starts, List.mem_cons, mem_terminatorEnds_zero]
    constructor
    · rintro (rfl | ⟨terminator, within, rfl⟩)
      · exact ⟨.inl rfl, Nat.zero_le _⟩
      · exact ⟨.inr ⟨terminator, rfl⟩, within⟩
    · rintro ⟨rfl | ⟨terminator, rfl⟩, within⟩
      · exact .inl rfl
      · exact .inr ⟨terminator, within, rfl⟩
  refine ⟨⟨start, ⟨(mem_starts start).2 ⟨List.mem_of_getElem? here, low⟩, ?_⟩, ?_⟩, ?_,
    ⟨rfl, sorted, ?_⟩, Slot.exists_fits sorted inside, ?_⟩
  · intro stop listed
    obtain ⟨listed, within⟩ := (mem_starts stop).1 listed
    exact last stop listed within
  · rw [position, ncard_terminators, ← lineAt_ofChars]
    rfl
  · intro line
    have count : map.starts.length = Nat.card (Terminator cs) + 1 := by
      rw [card_terminators]
      rfl
    rw [offset?, Option.isSome_map, ← Option.ne_none_iff_isSome, ne_eq, List.getElem?_eq_none_iff, count]
    omega
  · intro start listed
    rcases List.mem_cons.1 listed with rfl | later
    · exact Nat.zero_le _
    · obtain ⟨terminator, rfl⟩ := mem_terminatorEnds_zero.1 later
      exact terminator.stop_le
  · intro slot fits
    exact ⟨_, start, Slot.line?_of_fits sorted rfl fits, here, low, position⟩

theorem halved_character_position :
    let map := ofString "\r\r\nx😀"
    (Slot.gap 3).Fits map.starts 5 ∧ ∃ line start, (Slot.gap 3).line? = some line ∧
      map.starts[line]? = some start ∧ start ≤ 5 ∧ map.lineAndCharacter 5 = (line, 5 - start) := by
  intro map
  have starts : map.starts = [0, 1, 3] := by decide
  have fits : (Slot.gap 3).Fits map.starts 5 := by
    rw [starts]
    refine .gap (Nat.le_refl 3) ?_ ?_
    · intro place start here _
      have listed := List.mem_of_getElem? here
      simp only [List.mem_cons, List.not_mem_nil, or_false] at listed
      omega
    · intro place start here behind
      rw [List.getElem?_eq_none behind] at here
      cases here
  obtain ⟨-, -, -, -, each⟩ := lineAndCharacter_counts_terminators "\r\r\nx😀" 5
  rw [show min 5 (width "\r\r\nx😀".toList) = 5 by decide] at each
  exact ⟨fits, each _ fits⟩

example : (ofString "\r\r\nx").lineAndCharacter 2 = (1, 1) := by decide

end LineMap

end BuildGate
