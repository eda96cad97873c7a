import BuildGate.Glob.Search
import BuildGate.Proofs.Disk.Tree
import BuildGate.Proofs.Except
import Mathlib.Data.List.Basic
import Mathlib.Data.List.Infix
import Mathlib.Data.List.TakeWhile
import Mathlib.Tactic.SplitIfs

set_option autoImplicit false

namespace BuildGate.Glob

def IsPlain (c : Char) : Prop := c ≠ '?' ∧ c ≠ '*' ∧ c ≠ '['

instance (c : Char) : Decidable (IsPlain c) := inferInstanceAs (Decidable (_ ∧ _))

def IsPlainText (text : String) : Prop := ∀ c ∈ text.toList, IsPlain c

instance (text : String) : Decidable (IsPlainText text) := List.decidableBAll _ text.toList

theorem parseFrom_plain {c : Char} (plain : IsPlain c) (fuel position : Nat)
    (before : Option Char) (tokens : List Token) (cs : List Char) :
    parseFrom (fuel + 1) position before tokens (c :: cs) =
      parseFrom fuel (position + 1) (some c) (.literal c :: tokens) cs := by
  obtain ⟨question, star, bracket⟩ := plain
  simp [parseFrom, question, star, bracket]

theorem parseFrom_nil (fuel position : Nat) (before : Option Char) (tokens : List Token) :
    parseFrom fuel position before tokens [] = .ok tokens.reverse := by
  cases fuel <;> rfl

theorem parseFrom_plain_text {cs : List Char} (plain : ∀ c ∈ cs, IsPlain c) (position : Nat)
    (before : Option Char) (tokens : List Token) :
    parseFrom cs.length position before tokens cs =
      .ok (tokens.reverse ++ cs.map .literal) := by
  induction cs generalizing position before tokens with
  | nil => simp [parseFrom]
  | cons c cs ih =>
    rw [List.forall_mem_cons] at plain
    rw [List.length_cons, parseFrom_plain plain.1, ih plain.2]
    simp

theorem parse_plain {text : String} (plain : IsPlainText text) :
    parse text = .ok (text.toList.map .literal) := by
  rw [parse, parseFrom_plain_text plain]
  rfl

theorem closeSet?_suffix {cs members rest : List Char}
    (closed : closeSet? cs = some (members, rest)) : rest <:+ cs := by
  cases cs with
  | nil => cases closed
  | cons c cs =>
    rw [closeSet?, List.span_eq_takeWhile_dropWhile] at closed
    split at closed
    next inside bracket _ split =>
      cases closed
      have tail := List.dropWhile_suffix (l := cs) (· != ']')
      rw [(Prod.mk.inj split).2] at tail
      exact ((List.suffix_cons bracket rest).trans tail).trans (List.suffix_cons c cs)
    next => cases closed

theorem set?_eq_some {cs rest : List Char} {token : Token} (read : set? cs = some (token, rest)) :
    rest <:+ cs ∧ ∀ c, token ≠ .literal c := by
  unfold set? at read
  split at read
  next cs =>
    obtain ⟨⟨members, after⟩, closed, same⟩ := Option.map_eq_some_iff.1 read
    cases same
    exact ⟨(closeSet?_suffix closed).trans (List.suffix_cons '!' cs), by simp⟩
  next =>
    obtain ⟨⟨members, after⟩, closed, same⟩ := Option.map_eq_some_iff.1 read
    cases same
    exact ⟨closeSet?_suffix closed, by simp⟩

def IsStart (before : Option Char) : Prop := before = none ∨ before = some '/'

theorem literal_mem_addDirectories {c : Char} {tokens : List Token}
    (added : .literal c ∈ addDirectories tokens) : .literal c ∈ tokens := by
  unfold addDirectories at added
  split_ifs at added
  · exact added
  · simpa using added

/-- What reading one token does: it refuses the text, or it goes on behind the token with one token
more. Of what has been read before, only whether it is a start counts. -/
inductive Reads (start : Prop) (c : Char) (cs : List Char) : Prop
  | refuses (all : ∀ fuel position before tokens, (IsStart before ↔ start) →
      ∃ fault, parseFrom (fuel + 1) position before tokens (c :: cs) = .error fault)
  | goes (next : Char) (rest : List Char) (add : List Token → List Token) (shorter : rest <:+ cs)
      (literal : ∀ d tokens, .literal d ∈ add tokens → d = c ∨ .literal d ∈ tokens)
      (all : ∀ fuel position before tokens, (IsStart before ↔ start) →
        ∃ moved, parseFrom (fuel + 1) position before tokens (c :: cs) =
          parseFrom fuel moved (some next) (add tokens) rest)

theorem literal_mem_of_cons {token : Token} (other : ∀ c, token ≠ .literal c) {c : Char}
    {tokens : List Token} (member : .literal c ∈ token :: tokens) : .literal c ∈ tokens :=
  (List.mem_cons.1 member).resolve_left (other c).symm

theorem reads_asterisk (start : Prop) (cs : List Char) : Reads start '*' cs := by
  by_cases many : 2 < 1 + (cs.takeWhile (· == '*')).length
  · refine .refuses fun fuel position before tokens _ => ⟨⟨position + 2, .wildcards⟩, ?_⟩
    rw [parseFrom, if_neg (by decide), if_pos rfl]
    exact if_pos many
  by_cases two : 1 + (cs.takeWhile (· == '*')).length = 2
  · by_cases starts : start
    · cases behind : cs.dropWhile (· == '*') with
      | nil =>
        refine .goes '*' [] addDirectories (List.nil_suffix)
          (fun d tokens member => .inr (literal_mem_addDirectories member)) ?_
        intro fuel position before tokens same
        refine ⟨position + 2, ?_⟩
        have first : before = none ∨ before = some '/' := same.2 starts
        simp [parseFrom, two, first, behind]
      | cons d rest =>
        have shorter : rest <:+ cs := (List.suffix_cons d rest).trans
          (behind ▸ List.dropWhile_suffix (l := cs) (· == '*'))
        by_cases slash : d = '/'
        · subst slash
          refine .goes '/' rest addDirectories shorter
            (fun d tokens member => .inr (literal_mem_addDirectories member)) ?_
          intro fuel position before tokens same
          refine ⟨position + 3, ?_⟩
          have first : before = none ∨ before = some '/' := same.2 starts
          simp [parseFrom, two, first, behind]
        · refine .refuses fun fuel position before tokens same =>
            ⟨⟨position + 2, .recursiveWildcards⟩, ?_⟩
          have first : before = none ∨ before = some '/' := same.2 starts
          simp [parseFrom, two, first, behind, slash]
    · refine .refuses fun fuel position before tokens same =>
        ⟨⟨position - 1, .recursiveWildcards⟩, ?_⟩
      have inner : ¬ (before = none ∨ before = some '/') := fun first => starts (same.1 first)
      simp [parseFrom, two, inner]
  · refine .goes '*' cs (.anySequence :: ·) (List.suffix_refl cs)
      (fun d tokens member => .inr (literal_mem_of_cons (by simp) member)) ?_
    intro fuel position before tokens _
    refine ⟨position + 1, ?_⟩
    rw [parseFrom, if_neg (by decide), if_pos rfl]
    simp only [many, two, if_false]

theorem reads (start : Prop) (c : Char) (cs : List Char) : Reads start c cs := by
  by_cases question : c = '?'
  · refine .goes c cs (.anyChar :: ·) (List.suffix_refl cs)
      (fun d tokens member => .inr (literal_mem_of_cons (by simp) member)) ?_
    intro fuel position before tokens _
    exact ⟨_, by rw [parseFrom, if_pos question]⟩
  by_cases star : c = '*'
  · subst star
    exact reads_asterisk start cs
  by_cases bracket : c = '['
  · subst bracket
    cases read : set? cs with
    | none =>
      refine .refuses fun fuel position before tokens _ => ⟨⟨position, .invalidRange⟩, ?_⟩
      simp [parseFrom, read]
    | some found =>
      obtain ⟨token, rest⟩ := found
      obtain ⟨shorter, other⟩ := set?_eq_some read
      refine .goes ']' rest (token :: ·) shorter
        (fun d tokens member => .inr (literal_mem_of_cons other member)) ?_
      intro fuel position before tokens _
      exact ⟨position + 1 + (cs.length - rest.length), by simp [parseFrom, read]⟩
  · refine .goes c cs (.literal c :: ·) (List.suffix_refl cs) (by simp) ?_
    intro fuel position before tokens _
    exact ⟨_, parseFrom_plain ⟨question, star, bracket⟩ fuel position before tokens cs⟩

theorem isOk_parseFrom {fuel more : Nat} {before other : Option Char} {cs : List Char}
    (enough : cs.length ≤ fuel) (enough_ : cs.length ≤ more) (same : IsStart before ↔ IsStart other)
    (position elsewhere : Nat) (tokens others : List Token) :
    (parseFrom fuel position before tokens cs).isOk =
      (parseFrom more elsewhere other others cs).isOk := by
  induction fuel generalizing more before other cs position elsewhere tokens others with
  | zero =>
    obtain rfl := List.eq_nil_of_length_eq_zero (Nat.le_zero.1 enough)
    rw [parseFrom_nil, parseFrom_nil]
    rfl
  | succ fuel ih =>
    cases cs with
    | nil =>
      rw [parseFrom_nil, parseFrom_nil]
      rfl
    | cons c cs =>
      cases more with
      | zero => cases enough_
      | succ more =>
        rw [List.length_cons, Nat.succ_le_succ_iff] at enough enough_
        -- Both readers take the same step; behind it they differ no more in what counts.
        cases reads (IsStart other) c cs with
        | refuses all =>
          obtain ⟨fault, left⟩ := all fuel position before tokens same
          obtain ⟨fault_, right⟩ := all more elsewhere other others Iff.rfl
          rw [left, right]
          rfl
        | goes next rest add shorter _ all =>
          obtain ⟨moved, left⟩ := all fuel position before tokens same
          obtain ⟨moved_, right⟩ := all more elsewhere other others Iff.rfl
          rw [left, right]
          exact ih (shorter.length_le.trans enough) (shorter.length_le.trans enough_) Iff.rfl ..

theorem literal_mem_parseFrom {fuel position : Nat} {before : Option Char} {tokens : List Token}
    {cs : List Char} {pattern : Pattern}
    (read : parseFrom fuel position before tokens cs = .ok pattern) {c : Char}
    (member : .literal c ∈ pattern) : c ∈ cs ∨ .literal c ∈ tokens := by
  induction fuel generalizing position before tokens cs with
  | zero =>
    cases read
    exact .inr (List.mem_reverse.1 member)
  | succ fuel ih =>
    cases cs with
    | nil =>
      cases read
      exact .inr (List.mem_reverse.1 member)
    | cons d cs =>
      cases reads (IsStart before) d cs with
      | refuses all =>
        obtain ⟨fault, refused⟩ := all fuel position before tokens Iff.rfl
        rw [refused] at read
        cases read
      | goes next rest add shorter literal all =>
        obtain ⟨moved, same⟩ := all fuel position before tokens Iff.rfl
        rw [same] at read
        rcases ih read with inside | added
        · exact .inl (List.mem_cons_of_mem d (shorter.subset inside))
        · rcases literal c tokens added with rfl | known
          · exact .inl List.mem_cons_self
          · exact .inr known

theorem literal_mem_parse {text : String} {pattern : Pattern} (read : parse text = .ok pattern)
    {c : Char} (member : .literal c ∈ pattern) : c ∈ text.toList := by
  rcases literal_mem_parseFrom read member with inside | added
  · exact inside
  · cases added

theorem isOk_parseFrom_below {front : List Char} (plain : ∀ c ∈ front, IsPlain c)
    (position : Nat) (before : Option Char) (tokens : List Token) (back : List Char) :
    (parseFrom (front ++ '/' :: back).length position before tokens (front ++ '/' :: back)).isOk =
      (parseFrom back.length 0 none [] back).isOk := by
  induction front generalizing position before tokens with
  | nil =>
    rw [List.nil_append, List.length_cons, parseFrom_plain (by decide)]
    exact isOk_parseFrom le_rfl le_rfl (iff_of_true (.inr rfl) (.inl rfl)) ..
  | cons c front ih =>
    rw [List.forall_mem_cons] at plain
    rw [List.cons_append, List.length_cons, parseFrom_plain plain.1]
    exact ih plain.2 ..

theorem isOk_parse_below {top : String} (plain : IsPlainText top) (inner : String) :
    (parse (top ++ "/" ++ inner)).isOk = (parse inner).isOk := by
  have split : (top ++ "/" ++ inner).toList = top.toList ++ '/' :: inner.toList := by simp
  rw [parse, parse, split, isOk_parseFrom_below plain]

theorem componentTexts_below {front : List Char} (flat : '/' ∉ front) (back : List Char) :
    componentTexts (front ++ '/' :: back) = front :: componentTexts back := by
  have some_ := List.splitOn_ne_nil '/' back
  simp only [componentTexts, List.splitOn_append_cons_self_of_not_mem flat]
  cases pieces : back.splitOn '/' with
  | nil => exact absurd pieces some_
  | cons piece more =>
    simp only [List.getLast?_cons_cons, List.dropLast_cons_cons]
    split <;> rfl

theorem squash_cons {pattern : Pattern} (single : isRecursive pattern = false)
    (patterns : List Pattern) : squash (pattern :: patterns) = pattern :: squash patterns := by
  cases patterns with
  | nil => rfl
  | cons next patterns => rw [squash, single, Bool.false_and, if_neg Bool.false_ne_true]

theorem mem_of_mem_squash {pattern : Pattern} {patterns : List Pattern}
    (kept : pattern ∈ squash patterns) : pattern ∈ patterns := by
  fun_induction squash patterns with
  | case1 p q rest both ih => exact List.mem_cons_of_mem p (ih kept)
  | case2 p q rest _ ih =>
    rcases List.mem_cons.1 kept with rfl | later
    · exact List.mem_cons_self
    · exact List.mem_cons_of_mem p (ih later)
  | case3 => exact kept

theorem isRecursive_literals (cs : List Char) : isRecursive (cs.map .literal) = false := by
  simp [isRecursive]

theorem literalText?_literals (cs : List Char) :
    literalText? (cs.map .literal) = some cs := by
  induction cs with
  | nil => rfl
  | cons c cs ih =>
    rw [literalText?] at ih ⊢
    simp [ih]

variable {disk : Disk} {top : String}

theorem expand_top (legal : LegalName top) (there : disk.has ⟨top⟩ = true)
    (patterns : List Pattern) :
    expand disk (top.toList.map .literal :: patterns) ⟨"."⟩ = expand disk patterns ⟨top⟩ := by
  have here : (⟨"."⟩ : Path).parts = [.here] := by decide
  rw [expand.eq_def]
  simp [isRecursive_literals, literalText?_literals, literalStep, childOf, here, legal.here,
    legal.up, there]

theorem search_below (legal : LegalName top) (plain : IsPlainText top)
    (there : disk.has ⟨top⟩ = true) (inner : String) {paths : List Path} :
    search disk (top ++ "/" ++ inner) = .ok paths ↔ (∃ tokens, parse inner = .ok tokens) ∧
      ∃ patterns, (componentTexts inner.toList).mapM (fun text => parse (String.ofList text)) =
        .ok patterns ∧
      paths = if ('/' :: inner.toList).getLast? = some '/' then
        (expand disk (squash patterns) ⟨top⟩).filter disk.isDirectory
        else expand disk (squash patterns) ⟨top⟩ := by
  have split : (top ++ "/" ++ inner).toList = top.toList ++ '/' :: inner.toList := by simp
  have some_ : top.toList ≠ [] := by simpa using legal.some_
  have first : (top.toList ++ '/' :: inner.toList).head? ≠ some '/' := by
    rw [List.head?_append_of_ne_nil _ some_]
    exact fun slash => legal.flat (List.mem_of_head? slash)
  have last : (top.toList ++ '/' :: inner.toList).getLast? = ('/' :: inner.toList).getLast? :=
    List.getLast?_append_of_ne_nil _ (by simp)
  have read : parse (String.ofList top.toList) = .ok (top.toList.map .literal) := by
    rw [String.ofList_toList, parse_plain plain]
  have whole : (∃ tokens, parse (top ++ "/" ++ inner) = .ok tokens) ↔
      ∃ tokens, parse inner = .ok tokens := by
    rw [← Except.isOk_iff, ← Except.isOk_iff, isOk_parse_below plain]
  have each (patterns : List Pattern) :
      (top.toList :: componentTexts inner.toList).mapM (fun text => parse (String.ofList text)) =
        .ok patterns ↔
      ∃ rest, (componentTexts inner.toList).mapM (fun text => parse (String.ofList text)) = .ok rest ∧
        patterns = top.toList.map .literal :: rest := by
    rw [List.mapM_cons, read]
    simp only [Except.bind_eq_ok, Except.ok.injEq, exists_eq_left']
    exact exists_congr fun rest => and_congr_right fun _ => eq_comm.trans (Except.ok.injEq ..).to_iff
  have present : top.toList ++ '/' :: inner.toList ≠ [] := by simp
  unfold search
  simp only [split, first, last, present, if_false, Except.bind_eq_ok, each,
    componentTexts_below legal.flat]
  constructor
  · rintro ⟨tokens, compiled, _, ⟨patterns, single, rfl⟩, found⟩
    refine ⟨whole.1 ⟨tokens, compiled⟩, patterns, single, ?_⟩
    rw [squash_cons (isRecursive_literals _), expand_top legal there] at found
    exact (Except.ok.inj found).symm
  · rintro ⟨compiles, patterns, single, rfl⟩
    obtain ⟨tokens, compiled⟩ := whole.2 compiles
    refine ⟨tokens, compiled, _, ⟨patterns, single, rfl⟩, ?_⟩
    rw [squash_cons (isRecursive_literals _), expand_top legal there]
    rfl

end BuildGate.Glob
