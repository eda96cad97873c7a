import BuildGate.Proofs.Glob.Trail

set_option autoImplicit false

namespace BuildGate.Glob

theorem span_append {p : Char → Bool} {cs ds rest : List Char} {d : Char}
    (split : cs.span p = (ds, d :: rest)) (back : List Char) :
    (cs ++ back).span p = (ds, d :: (rest ++ back)) := by
  rw [List.span_eq_takeWhile_dropWhile] at split ⊢
  obtain ⟨taken, dropped⟩ := Prod.mk.inj split
  have short : (cs.takeWhile p).length ≠ cs.length := by
    have lengths := congrArg List.length (List.takeWhile_append_dropWhile (p := p) (l := cs))
    rw [List.length_append, dropped, List.length_cons] at lengths
    omega
  rw [List.takeWhile_append, if_neg short, taken, List.dropWhile_append, dropped]
  rfl

theorem closeSet?_append {cs members rest : List Char} (closed : closeSet? cs = some (members, rest))
    (back : List Char) : closeSet? (cs ++ back) = some (members, rest ++ back) := by
  cases cs with
  | nil => cases closed
  | cons c cs =>
    rw [closeSet?] at closed
    split at closed
    next inside bracket after split =>
      cases closed
      rw [List.cons_append, closeSet?, span_append split]
    next => cases closed

theorem set?_append {cs rest : List Char} {token : Token} (read : set? cs = some (token, rest))
    (back : List Char) : set? (cs ++ back) = some (token, rest ++ back) := by
  unfold set? at read
  split at read
  next cs =>
    obtain ⟨⟨members, after⟩, closed, same⟩ := Option.map_eq_some_iff.1 read
    cases same
    rw [List.cons_append, set?, closeSet?_append closed]
    rfl
  next plain =>
    obtain ⟨⟨members, after⟩, closed, same⟩ := Option.map_eq_some_iff.1 read
    cases same
    cases cs with
    | nil => cases closed
    | cons c cs =>
      have apart : ∀ rest, c :: cs ++ back = '!' :: rest → False := fun rest same =>
        plain cs (by rw [(List.cons.inj same).1])
      rw [set?.eq_2 _ apart, closeSet?_append closed]
      rfl

theorem set?_ne_anyDirectories {cs rest : List Char} {token : Token}
    (read : set? cs = some (token, rest)) : token ≠ .anyDirectories := by
  unfold set? at read
  split at read
  all_goals
    obtain ⟨⟨members, after⟩, -, same⟩ := Option.map_eq_some_iff.1 read
    cases same
    simp

theorem parseFrom_question (fuel position : Nat) (before : Option Char) (tokens : List Token)
    (cs : List Char) : parseFrom (fuel + 1) position before tokens ('?' :: cs) =
      parseFrom fuel (position + 1) (some '?') (.anyChar :: tokens) cs := by
  rw [parseFrom, if_pos rfl]

theorem parseFrom_asterisk {cs : List Char} (single : cs.head? ≠ some '*') (fuel position : Nat)
    (before : Option Char) (tokens : List Token) :
    parseFrom (fuel + 1) position before tokens ('*' :: cs) =
      parseFrom fuel (position + 1) (some '*') (.anySequence :: tokens) cs := by
  have alone : cs.takeWhile (· == '*') = [] := by
    cases cs with
    | nil => rfl
    | cons c cs => exact List.takeWhile_cons_of_neg (by simpa using single)
  simp [parseFrom, alone]

theorem parseFrom_set {cs rest : List Char} {token : Token} (read : set? cs = some (token, rest))
    (fuel position : Nat) (before : Option Char) (tokens : List Token) :
    parseFrom (fuel + 1) position before tokens ('[' :: cs) =
      parseFrom fuel (position + 1 + (cs.length - rest.length)) (some ']') (token :: tokens) rest := by
  simp [parseFrom, read]

theorem of_parseFrom_asterisks {fuel position : Nat} {before : Option Char} {tokens : List Token}
    {rest : List Char} {pattern : Pattern}
    (read : parseFrom (fuel + 1) position before tokens ('*' :: '*' :: rest) = .ok pattern) :
    IsStart before ∧ ∀ c ∈ rest.head?, c = '/' := by
  rw [parseFrom, if_neg (by decide), if_pos rfl] at read
  dsimp only at read
  split_ifs at read with many two starts
  · refine ⟨starts, ?_⟩
    cases rest with
    | nil => simp
    | cons c rest =>
      have other : c ≠ '*' := by
        rintro rfl
        simp only [List.takeWhile_cons, beq_self_eq_true, if_true, List.length_cons] at two
        omega
      simp only [List.dropWhile_cons, beq_self_eq_true, if_true, beq_iff_eq, other, if_false] at read
      split at read
      next same => cases same
      next same =>
        cases same
        simp
      next => cases read
  · simp only [List.takeWhile_cons, beq_self_eq_true, if_true, List.length_cons] at many two
    omega

theorem parseFrom_directories {before : Option Char} (starts : IsStart before) (fuel position : Nat)
    (tokens : List Token) : parseFrom (fuel + 1) position before tokens ['*', '*'] =
      .ok (addDirectories tokens).reverse := by
  have first : before = none ∨ before = some '/' := starts
  simp [parseFrom, first, parseFrom_nil]

theorem parseFrom_directories_slash {before : Option Char} (starts : IsStart before)
    (fuel position : Nat) (tokens : List Token) (back : List Char) :
    parseFrom (fuel + 1) position before tokens ('*' :: '*' :: '/' :: back) =
      parseFrom fuel (position + 3) (some '/') (addDirectories tokens) back := by
  have first : before = none ∨ before = some '/' := starts
  simp [parseFrom, first]

inductive Spells : List Char → List Token → Prop
  | nil : Spells [] []
  | anyChar {cs : List Char} {tokens : List Token} (rest : Spells cs tokens) :
      Spells ('?' :: cs) (.anyChar :: tokens)
  | anySequence {cs : List Char} {tokens : List Token} (single : cs.head? ≠ some '*')
      (rest : Spells cs tokens) : Spells ('*' :: cs) (.anySequence :: tokens)
  | set {cs after : List Char} {token : Token} {tokens : List Token}
      (read : set? cs = some (token, after)) (rest : Spells after tokens) :
      Spells ('[' :: cs) (token :: tokens)
  | literal {c : Char} {cs : List Char} {tokens : List Token} (plain : IsPlain c)
      (rest : Spells cs tokens) : Spells (c :: cs) (.literal c :: tokens)

namespace Spells

variable {cs back : List Char} {own : List Token}

theorem anyDirectories_notMem (spells : Spells cs own) : .anyDirectories ∉ own := by
  induction spells with
  | nil => simp
  | anyChar rest ih | anySequence single rest ih | literal plain rest ih => simpa using ih
  | set read rest ih => simpa [(set?_ne_anyDirectories read).symm] using ih

theorem isRecursive_eq (spells : Spells cs own) : isRecursive own = false := by
  simpa [isRecursive] using spells.anyDirectories_notMem

theorem goes (spells : Spells cs own) (stops : back = [] ∨ ∃ rest, back = '/' :: rest)
    {fuel : Nat} (enough : (cs ++ back).length ≤ fuel) (position : Nat) (before : Option Char)
    (tokens : List Token) :
    ∃ less moved next, back.length ≤ less ∧ parseFrom fuel position before tokens (cs ++ back) =
      parseFrom less moved next (own.reverse ++ tokens) back := by
  -- The reader takes a token off a text that begins with it, and then goes on by the hypothesis.
  have after {fuel position : Nat} {before : Option Char} {tokens rest : List Token} {token : Token}
      {text : List Char}
      (goes : ∃ less moved next, back.length ≤ less ∧
        parseFrom fuel position before (token :: tokens) text =
          parseFrom less moved next (rest.reverse ++ token :: tokens) back) :
      ∃ less moved next, back.length ≤ less ∧
        parseFrom fuel position before (token :: tokens) text =
          parseFrom less moved next ((token :: rest).reverse ++ tokens) back := by
    rwa [List.reverse_cons, List.append_assoc]
  induction spells generalizing fuel position before tokens with
  | nil => exact ⟨fuel, position, before, enough, rfl⟩
  | anyChar rest ih =>
    rw [List.cons_append] at enough ⊢
    obtain ⟨fuel, rfl⟩ := Nat.exists_eq_add_of_le' (Nat.one_le_of_lt enough)
    rw [parseFrom_question]
    exact after (ih (Nat.le_of_succ_le_succ enough) ..)
  | @anySequence cs own single rest ih =>
    have single : (cs ++ back).head? ≠ some '*' := by
      cases cs with
      | nil => rcases stops with rfl | ⟨rest, rfl⟩ <;> simp
      | cons c cs => exact single
    rw [List.cons_append] at enough ⊢
    obtain ⟨fuel, rfl⟩ := Nat.exists_eq_add_of_le' (Nat.one_le_of_lt enough)
    rw [parseFrom_asterisk single]
    exact after (ih (Nat.le_of_succ_le_succ enough) ..)
  | @set cs left token own read rest ih =>
    have shorter := (set?_eq_some (set?_append read back)).1.length_le
    rw [List.cons_append] at enough ⊢
    obtain ⟨fuel, rfl⟩ := Nat.exists_eq_add_of_le' (Nat.one_le_of_lt enough)
    rw [parseFrom_set (set?_append read back)]
    exact after (ih (shorter.trans (Nat.le_of_succ_le_succ enough)) ..)
  | literal plain rest ih =>
    rw [List.cons_append] at enough ⊢
    obtain ⟨fuel, rfl⟩ := Nat.exists_eq_add_of_le' (Nat.one_le_of_lt enough)
    rw [parseFrom_plain plain]
    exact after (ih (Nat.le_of_succ_le_succ enough) ..)

end Spells

-- Two asterisks are refused except where a component begins, and there they must be all of it.
theorem spells_of_parseFrom {fuel position : Nat} {before : Option Char} {tokens : List Token}
    {cs : List Char} {pattern : Pattern} (flat : '/' ∉ cs) (enough : cs.length ≤ fuel)
    (inner : ['*', '*'] <+: cs → ¬ IsStart before)
    (read : parseFrom fuel position before tokens cs = .ok pattern) :
    ∃ own, Spells cs own ∧ pattern = tokens.reverse ++ own := by
  induction fuel generalizing position before tokens cs with
  | zero =>
    obtain rfl := List.eq_nil_of_length_eq_zero (Nat.le_zero.1 enough)
    cases read
    exact ⟨[], .nil, (List.append_nil _).symm⟩
  | succ fuel ih =>
    cases cs with
    | nil =>
      cases read
      exact ⟨[], .nil, (List.append_nil _).symm⟩
    | cons c cs =>
      rw [List.mem_cons, not_or] at flat
      have shorter : cs.length ≤ fuel := Nat.le_of_succ_le_succ enough
      have inside {d : Char} (other : d ≠ '/') {text : List Char} :
          ['*', '*'] <+: text → ¬ IsStart (some d) := by
        simp [IsStart, other]
      by_cases question : c = '?'
      · subst question
        rw [parseFrom_question] at read
        obtain ⟨own, spells, rfl⟩ := ih flat.2 shorter (inside (by decide)) read
        exact ⟨_, .anyChar spells, by simp⟩
      by_cases star : c = '*'
      · subst star
        by_cases single : cs.head? = some '*'
        · obtain ⟨rest, rfl⟩ := List.head?_eq_some_iff.1 single
          exact absurd (of_parseFrom_asterisks read).1 (inner (by simp))
        rw [parseFrom_asterisk single] at read
        obtain ⟨own, spells, rfl⟩ := ih flat.2 shorter (inside (by decide)) read
        exact ⟨_, .anySequence single spells, by simp⟩
      by_cases bracket : c = '['
      · subst bracket
        cases set : set? cs with
        | none => simp [parseFrom, set] at read
        | some found =>
          obtain ⟨token, rest⟩ := found
          have left := (set?_eq_some set).1
          rw [parseFrom_set set] at read
          obtain ⟨own, spells, rfl⟩ := ih (fun slash => flat.2 (left.subset slash))
            (left.length_le.trans shorter) (inside (by decide)) read
          exact ⟨_, .set set spells, by simp⟩
      · have plain : IsPlain c := ⟨question, star, bracket⟩
        rw [parseFrom_plain plain] at read
        obtain ⟨own, spells, rfl⟩ := ih flat.2 shorter (inside (Ne.symm flat.1)) read
        exact ⟨_, .literal plain spells, by simp⟩

/-- How a component is read: `**` stands for directories, and no other has two asterisks in a row. -/
inductive Component : List Char → Pattern → Prop
  | directories : Component ['*', '*'] [.anyDirectories]
  | spelt {cs : List Char} {own : Pattern} (spells : Spells cs own) : Component cs own

theorem component_of_parse {text : String} {pattern : Pattern} (flat : '/' ∉ text.toList)
    (read : parse text = .ok pattern) : Component text.toList pattern := by
  rw [parse] at read
  by_cases inner : ['*', '*'] <+: text.toList
  · obtain ⟨rest, chars⟩ := inner
    rw [← chars] at read flat ⊢
    obtain ⟨-, ending⟩ := of_parseFrom_asterisks read
    cases rest with
    | nil =>
      rw [List.append_nil] at read ⊢
      obtain rfl := Except.ok.inj ((parseFrom_directories (.inl rfl) ..).symm.trans read)
      exact .directories
    | cons c rest =>
      obtain rfl := ending c rfl
      exact absurd (by simp) flat
  · obtain ⟨own, spells, rfl⟩ := spells_of_parseFrom flat le_rfl (fun two => absurd two inner) read
    exact .spelt spells

theorem Component.eq_of_isRecursive {cs : List Char} {pattern : Pattern} (component : Component cs pattern)
    (recursive : isRecursive pattern = true) : pattern = [.anyDirectories] := by
  cases component with
  | directories => rfl
  | spelt spells =>
    rw [spells.isRecursive_eq] at recursive
    cases recursive

def glue : List Pattern → Pattern
  | [] => []
  | [pattern] => pattern
  | pattern :: next :: patterns =>
    pattern ++ (if isRecursive pattern then [] else [.literal '/']) ++ glue (next :: patterns)

theorem glue_cons {patterns : List Pattern} (present : patterns ≠ []) (pattern : Pattern) :
    glue (pattern :: patterns) =
      pattern ++ (if isRecursive pattern then [] else [.literal '/']) ++ glue patterns := by
  obtain ⟨next, rest, rfl⟩ := List.exists_cons_of_ne_nil present
  rfl

theorem addDirectories_of_ne {tokens : List Token} (apart : tokens.head? ≠ some .anyDirectories) :
    addDirectories tokens = .anyDirectories :: tokens := if_neg apart

theorem intercalate_cons {texts : List (List Char)} (present : texts ≠ []) (text : List Char) :
    ['/'].intercalate (text :: texts) = text ++ '/' :: ['/'].intercalate texts := by
  obtain ⟨next, rest, rfl⟩ := List.exists_cons_of_ne_nil present
  rw [List.intercalate_cons_cons, List.append_assoc]
  rfl

section Reading

variable {texts : List (List Char)} {before : Option Char} {tokens : List Token} {fuel : Nat}

theorem parseFrom_directories_cons (present : texts ≠ []) (starts : IsStart before)
    (enough : (['/'].intercalate (['*', '*'] :: texts)).length ≤ fuel) (position : Nat) :
    ∃ less moved, (['/'].intercalate texts).length ≤ less ∧ ∀ tokens,
      parseFrom fuel position before tokens (['/'].intercalate (['*', '*'] :: texts)) =
        parseFrom less moved (some '/') (addDirectories tokens) (['/'].intercalate texts) := by
  rw [intercalate_cons present] at enough ⊢
  obtain ⟨fuel, rfl⟩ := Nat.exists_eq_add_of_le' (Nat.one_le_of_lt enough)
  refine ⟨fuel, position + 3, ?_, fun tokens => parseFrom_directories_slash starts ..⟩
  simp only [List.length_append, List.length_cons, List.length_nil] at enough
  omega

theorem parseFrom_again (starts : IsStart before) (apart : tokens.head? ≠ some .anyDirectories)
    (enough : (['/'].intercalate (['*', '*'] :: texts)).length ≤ fuel) (position : Nat) :
    parseFrom fuel position before (.anyDirectories :: tokens)
        (['/'].intercalate (['*', '*'] :: texts)) =
      parseFrom fuel position before tokens (['/'].intercalate (['*', '*'] :: texts)) := by
  have same : addDirectories (.anyDirectories :: tokens) = addDirectories tokens := by
    rw [addDirectories_of_ne apart]
    rfl
  by_cases last : texts = []
  · subst last
    rw [List.intercalate_singleton] at enough ⊢
    obtain ⟨fuel, rfl⟩ := Nat.exists_eq_add_of_le' (Nat.one_le_of_lt enough)
    rw [parseFrom_directories starts, parseFrom_directories starts, same]
  · obtain ⟨less, moved, -, goes⟩ := parseFrom_directories_cons last starts enough position
    rw [goes, goes, same]

theorem Spells.parseFrom_cons {cs : List Char} {own : List Token} (spells : Spells cs own)
    (present : texts ≠ []) (enough : (['/'].intercalate (cs :: texts)).length ≤ fuel)
    (position : Nat) (before : Option Char) (tokens : List Token) :
    ∃ less moved, (['/'].intercalate texts).length ≤ less ∧
      parseFrom fuel position before tokens (['/'].intercalate (cs :: texts)) =
        parseFrom less moved (some '/') (.literal '/' :: (own.reverse ++ tokens))
          (['/'].intercalate texts) := by
  rw [intercalate_cons present] at enough ⊢
  obtain ⟨less, moved, next, left, reads⟩ :=
    spells.goes (.inr ⟨_, rfl⟩) enough position before tokens
  obtain ⟨less, rfl⟩ := Nat.exists_eq_add_of_le' (Nat.one_le_of_lt left)
  refine ⟨less, moved + 1, Nat.le_of_succ_le_succ left, ?_⟩
  rw [reads, parseFrom_plain (by decide)]

theorem parseFrom_glue {patterns : List Pattern} (each : List.Forall₂ Component texts patterns)
    (present : patterns ≠ []) (starts : IsStart before)
    (apart : patterns.head?.any isRecursive = true → tokens.head? ≠ some .anyDirectories)
    (enough : (['/'].intercalate texts).length ≤ fuel) (position : Nat) :
    parseFrom fuel position before tokens (['/'].intercalate texts) =
      .ok (tokens.reverse ++ glue (squash patterns)) := by
  induction each generalizing before tokens fuel position with
  | nil => exact absurd rfl present
  | @cons text pattern texts patterns first rest ih =>
    cases first with
    | directories =>
      have new : tokens.head? ≠ some .anyDirectories := apart rfl
      cases rest with
      | nil =>
        rw [List.intercalate_singleton] at enough ⊢
        obtain ⟨fuel, rfl⟩ := Nat.exists_eq_add_of_le' (Nat.one_le_of_lt enough)
        rw [parseFrom_directories starts, addDirectories_of_ne new, List.reverse_cons]
        rfl
      | @cons next other texts patterns second rest =>
        have more : other :: patterns ≠ [] := List.cons_ne_nil _ _
        obtain ⟨less, moved, left, goes⟩ :=
          parseFrom_directories_cons (List.cons_ne_nil next texts) starts enough position
        rw [goes, addDirectories_of_ne new]
        -- Only directories behind them make a difference to what has been read.
        cases second with
        | directories =>
          rw [parseFrom_again (.inr rfl) new left, ih more (.inr rfl) (fun _ => new) left]
          rfl
        | spelt spells =>
          have single : isRecursive other = false := spells.isRecursive_eq
          rw [ih more (.inr rfl) (by simp [single]) left, squash, single, Bool.and_false,
            if_neg Bool.false_ne_true, glue_cons (squash_ne_nil more)]
          simp [isRecursive]
    | spelt spells =>
      have single : isRecursive pattern = false := spells.isRecursive_eq
      cases rest with
      | nil =>
        rw [List.intercalate_singleton, ← List.append_nil text] at enough ⊢
        obtain ⟨less, moved, next, -, reads⟩ := spells.goes (.inl rfl) enough position before tokens
        rw [reads, parseFrom_nil, List.reverse_append, List.reverse_reverse]
        rfl
      | @cons next other texts patterns second rest =>
        have more : other :: patterns ≠ [] := List.cons_ne_nil _ _
        obtain ⟨less, moved, left, goes⟩ :=
          spells.parseFrom_cons (List.cons_ne_nil next texts) enough position before tokens
        rw [goes, ih more (.inr rfl) (by simp) left, squash_cons single,
          glue_cons (squash_ne_nil more), single]
        simp

end Reading

theorem parse_of_components {pattern : String} {texts : List (List Char)} {components : List Pattern}
    (each : List.Forall₂ Component texts components) (present : components ≠ [])
    (whole : ['/'].intercalate texts = pattern.toList) :
    parse pattern = .ok (glue (squash components)) := by
  rw [parse, ← whole, parseFrom_glue each present (.inl rfl) (by simp) le_rfl]
  rfl

theorem parse_of_segments {pattern : String} {components : List Pattern}
    (each : ReadAs (segments pattern) components) :
    parse pattern = .ok ((if (⟨pattern⟩ : Path).isAbsolute then [.literal '/'] else []) ++
      glue (squash components)) := by
  have read : List.Forall₂ Component ((segments pattern).map String.toList) components := by
    rw [List.forall₂_map_left_iff]
    refine ((List.forall₂_and_left _ _).2 ⟨fun text => flat_of_mem_segments, each⟩).imp ?_
    exact fun text component own => component_of_parse own.1 own.2
  have whole := Path.intercalate_pieces ⟨pattern⟩
  have present : components ≠ [] := by
    rintro rfl
    exact segments_ne_nil pattern (List.forall₂_nil_right_iff.1 each)
  rw [segments] at read
  split_ifs at read ⊢ with absolute
  · obtain ⟨rest, split⟩ := Path.pieces_of_isAbsolute absolute
    rw [split] at read whole
    rw [parse_of_components (.cons (.spelt .nil) read) (List.cons_ne_nil _ _) whole,
      squash_cons rfl, glue_cons (squash_ne_nil present)]
    rfl
  · exact parse_of_components read present whole

def Token.Leaves : Token → List Char → List Char → Prop
  | .anySequence, cs, rest => rest <:+ cs
  | .anyDirectories, cs, rest => rest = cs ∨ rest = [] ∨ '/' :: rest <:+ cs
  | token, cs, rest => ∃ c, cs = c :: rest ∧ token.accepts c = true

theorem mem_suffixes {cs rest : List Char} : rest ∈ suffixes cs ↔ rest <:+ cs := by
  induction cs with
  | nil => simp [suffixes]
  | cons c cs ih => rw [suffixes, List.mem_cons, ih, List.suffix_cons_iff]

theorem mem_afterSlashes {cs rest : List Char} : rest ∈ afterSlashes cs ↔ '/' :: rest <:+ cs := by
  induction cs with
  | nil => simp [afterSlashes]
  | cons c cs ih =>
    rw [afterSlashes, List.suffix_cons_iff, ← ih]
    split_ifs with slash
    · simp [slash]
    · simp [Ne.symm slash]

theorem matchesChars_cons {token : Token} {tokens : List Token} {cs : List Char} :
    matchesChars (token :: tokens) cs = true ↔
      ∃ rest, token.Leaves cs rest ∧ matchesChars tokens rest = true := by
  cases token with
  | anySequence => simp [matchesChars, Token.Leaves, mem_suffixes]
  | anyDirectories =>
    simp only [matchesChars, Token.Leaves, Bool.or_eq_true, List.any_eq_true, List.mem_cons,
      mem_afterSlashes]
    constructor
    · rintro (⟨rest, rfl | slash, hit⟩ | hit)
      · exact ⟨rest, .inl rfl, hit⟩
      · exact ⟨rest, .inr (.inr slash), hit⟩
      · exact ⟨[], .inr (.inl rfl), hit⟩
    · rintro ⟨rest, rfl | rfl | slash, hit⟩
      · exact .inl ⟨rest, .inl rfl, hit⟩
      · exact .inr hit
      · exact .inl ⟨rest, .inr slash, hit⟩
  | _ => cases cs <;> simp [matchesChars, Token.Leaves]

theorem Token.Leaves.append {token : Token} {cs rest : List Char} (leaves : token.Leaves cs rest)
    (single : token ≠ .anyDirectories) (back : List Char) :
    token.Leaves (cs ++ back) (rest ++ back) := by
  cases token with
  | anySequence =>
    obtain ⟨front, rfl⟩ := leaves
    exact ⟨front, (List.append_assoc ..).symm⟩
  | anyDirectories => exact absurd rfl single
  | _ =>
    obtain ⟨c, rfl, accepted⟩ := leaves
    exact ⟨c, rfl, accepted⟩

theorem Token.Leaves.map {token : Token} {cs rest : List Char} {change : Char → Char}
    (leaves : token.Leaves cs rest) (slash : change '/' = '/')
    (keeps : ∀ c, token.accepts c = true → token.accepts (change c) = true) :
    token.Leaves (cs.map change) (rest.map change) := by
  cases token with
  | anySequence => exact List.IsSuffix.map change leaves
  | anyDirectories =>
    rcases leaves with rfl | rfl | after
    · exact .inl rfl
    · exact .inr (.inl rfl)
    · refine .inr (.inr ?_)
      simpa [slash] using List.IsSuffix.map change after
  | _ =>
    obtain ⟨c, rfl, accepted⟩ := leaves
    exact ⟨change c, rfl, keeps c accepted⟩

theorem matchesChars_append {own tokens : List Token} {cs back : List Char}
    (single : .anyDirectories ∉ own) (hit : matchesChars own cs = true)
    (rest : matchesChars tokens back = true) : matchesChars (own ++ tokens) (cs ++ back) = true := by
  induction own generalizing cs with
  | nil =>
    obtain rfl : cs = [] := List.isEmpty_iff.1 hit
    exact rest
  | cons token own ih =>
    rw [List.mem_cons, not_or] at single
    obtain ⟨left, leaves, hit⟩ := matchesChars_cons.1 hit
    exact matchesChars_cons.2 ⟨left ++ back, leaves.append (Ne.symm single.1) back, ih single.2 hit⟩

theorem matchesChars_of_tail {front tokens others : List Token} {cs : List Char}
    (wider : ∀ cs, matchesChars tokens cs = true → matchesChars others cs = true)
    (hit : matchesChars (front ++ tokens) cs = true) : matchesChars (front ++ others) cs = true := by
  induction front generalizing cs with
  | nil => exact wider cs hit
  | cons token front ih =>
    obtain ⟨rest, leaves, hit⟩ := matchesChars_cons.1 hit
    exact matchesChars_cons.2 ⟨rest, leaves, ih hit⟩

theorem matchesChars_anyDirectories (cs : List Char) : matchesChars [.anyDirectories] cs = true :=
  matchesChars_cons.2 ⟨[], .inr (.inl rfl), rfl⟩

theorem matchesChars_map {pattern : Pattern} {cs : List Char} {change : Char → Char}
    (slash : change '/' = '/')
    (keeps : ∀ token ∈ pattern, ∀ c, token.accepts c = true → token.accepts (change c) = true)
    (hit : matchesChars pattern cs = true) : matchesChars pattern (cs.map change) = true := by
  induction pattern generalizing cs with
  | nil =>
    obtain rfl : cs = [] := List.isEmpty_iff.1 hit
    rfl
  | cons token pattern ih =>
    rw [List.forall_mem_cons] at keeps
    obtain ⟨rest, leaves, hit⟩ := matchesChars_cons.1 hit
    exact matchesChars_cons.2 ⟨_, leaves.map slash keeps.1, ih keeps.2 hit⟩

def spelling (names : List String) : List Char := ['/'].intercalate (names.map String.toList)

theorem spelling_cons {names : List String} (present : names ≠ []) (name : String) :
    spelling (name :: names) = name.toList ++ '/' :: spelling names :=
  intercalate_cons (by simpa using present) name.toList

theorem matches_glue_cons {pattern : Pattern} {patterns : List Pattern} {name : String}
    {names : List String} (single : isRecursive pattern = false) (hit : pattern.matches name = true)
    (ends : patterns = [] → names = [])
    (later : patterns ≠ [] → names ≠ [] ∧ matchesChars (glue patterns) (spelling names) = true) :
    matchesChars (glue (pattern :: patterns)) (spelling (name :: names)) = true := by
  by_cases last : patterns = []
  · rw [ends last, last, spelling, List.map_singleton, List.intercalate_singleton]
    exact hit
  · obtain ⟨more, rest⟩ := later last
    rw [glue_cons last, single, if_neg Bool.false_ne_true, List.append_assoc, spelling_cons more]
    refine matchesChars_append (by simpa [isRecursive] using single) hit ?_
    exact matchesChars_cons.2 ⟨_, ⟨_, rfl, rfl⟩, rest⟩

theorem matches_below {tokens : List Token} {cs : List Char}
    (hit : matchesChars (.anyDirectories :: tokens) cs = true) (front : List Char) :
    matchesChars (.anyDirectories :: tokens) (front ++ '/' :: cs) = true := by
  obtain ⟨rest, leaves, hit⟩ := matchesChars_cons.1 hit
  have behind : '/' :: cs <:+ front ++ '/' :: cs := List.suffix_append front ('/' :: cs)
  refine matchesChars_cons.2 ⟨rest, ?_, hit⟩
  rcases leaves with rfl | rfl | after
  · exact .inr (.inr behind)
  · exact .inr (.inl rfl)
  · exact .inr (.inr ((after.trans (List.suffix_cons '/' cs)).trans behind))

theorem matches_of_trail {disk : Disk} {patterns : List Pattern} {path found : Path}
    {names : List String} (trail : Trail disk patterns path names found) (present : patterns ≠ [])
    (recursive : ∀ pattern ∈ patterns, isRecursive pattern = true → pattern = [.anyDirectories])
    (other : disk.isDirectory found = false) :
    names ≠ [] ∧ matchesChars (glue patterns) (spelling names) = true := by
  induction trail with
  | done => exact absurd rfl present
  | child _ single hit _ _ rest ih | dot _ single _ _ hit _ rest ih =>
    refine ⟨List.cons_ne_nil _ _, matches_glue_cons single hit ?_ fun present => ?_⟩
    · rintro rfl
      cases rest
      rfl
    · exact ih present (List.forall_mem_cons.1 recursive).2 other
  | @deeper pattern patterns _ _ name names _ directories legal rest ih =>
    obtain ⟨more, hit⟩ := ih present recursive other
    obtain rfl := (List.forall_mem_cons.1 recursive).1 directories
    obtain ⟨tokens, same⟩ : ∃ tokens, glue ([.anyDirectories] :: patterns) = .anyDirectories :: tokens := by
      cases patterns <;> exact ⟨_, rfl⟩
    refine ⟨List.cons_ne_nil _ _, ?_⟩
    rw [same] at hit ⊢
    rw [spelling_cons more]
    exact matches_below hit name.toList
  | @level pattern patterns _ _ names inside directories rest ih =>
    by_cases last : patterns = []
    · subst last
      cases rest
      rw [inside] at other
      cases other
    · obtain ⟨more, hit⟩ := ih last (List.forall_mem_cons.1 recursive).2 other
      refine ⟨more, ?_⟩
      rw [glue_cons last, (List.forall_mem_cons.1 recursive).1 directories]
      exact matchesChars_cons.2 ⟨_, .inl rfl, hit⟩

theorem exists_glue_eq {pattern : Pattern} (single : isRecursive pattern = false)
    (front : List Pattern) : ∃ before,
      glue (squash (front ++ [[.anyDirectories]])) = before ++ [.anyDirectories] ∧
      glue (squash (front ++ [[.anyDirectories], pattern])) = before ++ .anyDirectories :: pattern := by
  have none_ : .anyDirectories ∉ pattern := by simpa [isRecursive] using single
  induction front with
  | nil => exact ⟨[], by simp [squash, glue, none_, isRecursive]⟩
  | cons first front ih =>
    obtain ⟨before, alone, further⟩ := ih
    -- Whether the first component is dropped does not depend on what stands at the end.
    have steps (back : List Pattern) : squash (first :: (front ++ [.anyDirectories] :: back)) =
        if isRecursive first && (front.head?.all isRecursive) then
          squash (front ++ [.anyDirectories] :: back)
        else first :: squash (front ++ [.anyDirectories] :: back) := by
      cases front <;> simp [squash, isRecursive]
    rw [List.cons_append, List.cons_append, steps, steps]
    split_ifs
    · exact ⟨before, alone, further⟩
    · rw [glue_cons (squash_ne_nil (by simp)), glue_cons (squash_ne_nil (by simp)), alone, further]
      exact ⟨_, (List.append_assoc ..).symm, (List.append_assoc ..).symm⟩

theorem matches_everything_below {front : List Pattern} {pattern : Pattern}
    (single : isRecursive pattern = false) {cs : List Char}
    (hit : matchesChars (glue (squash (front ++ [[.anyDirectories], pattern]))) cs = true) :
    matchesChars (glue (squash (front ++ [[.anyDirectories]]))) cs = true := by
  obtain ⟨before, alone, further⟩ := exists_glue_eq single front
  rw [further] at hit
  rw [alone]
  exact matchesChars_of_tail (fun cs _ => matchesChars_anyDirectories cs) hit

end BuildGate.Glob
