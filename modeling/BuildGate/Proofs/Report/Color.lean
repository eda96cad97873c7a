import BuildGate.Proofs.Text.Digit
import BuildGate.Report.Text
import Mathlib.Data.List.Forall2

set_option autoImplicit false

namespace BuildGate

namespace Paint

def Unescaped (text : String) : Prop := '\x1b' ∉ text.toList

instance (text : String) : Decidable (Unescaped text) :=
  inferInstanceAs (Decidable ('\x1b' ∉ text.toList))

theorem Unescaped.append {text more : String} (first : Unescaped text) (second : Unescaped more) :
    Unescaped (text ++ more) := by
  rw [Unescaped, String.toList_append, List.mem_append, not_or]
  exact ⟨first, second⟩

theorem unescaped_toString (n : Nat) : Unescaped (toString n) :=
  fun inside => absurd (Text.ascii_toString n _ inside) (by decide)

theorem skipSequence?_of_ne {c : Char} (plain : c ≠ '\x1b') (cs : List Char) :
    skipSequence? (c :: cs) = none := by
  unfold skipSequence?
  split
  next same => exact absurd (List.cons.inj same).1 plain
  next => rfl

theorem length_of_skipSequence? {cs rest : List Char} (skipped : skipSequence? cs = some rest) :
    rest.length < cs.length := by
  unfold skipSequence? at skipped
  split at skipped
  next inner =>
    split at skipped
    next after kept =>
      cases skipped
      have within := (List.dropWhile_suffix isParameter (l := inner)).length_le
      rw [kept, List.length_cons] at within
      simp only [List.length_cons]
      omega
    next => cases skipped
  next => cases skipped

theorem go_nil (fuel : Nat) : stripChars.go fuel [] = [] := by
  cases fuel <;> rfl

-- As long as there is fuel for every character, more of it changes nothing.
theorem go_eq_go {fuel more : Nat} {cs : List Char} (enough : cs.length ≤ fuel)
    (plenty : cs.length ≤ more) : stripChars.go fuel cs = stripChars.go more cs := by
  induction fuel generalizing more cs with
  | zero =>
    obtain rfl := List.eq_nil_of_length_eq_zero (Nat.le_zero.1 enough)
    rw [go_nil, go_nil]
  | succ fuel ih =>
    cases cs with
    | nil => rw [go_nil, go_nil]
    | cons c cs =>
      obtain ⟨more, rfl⟩ : ∃ less, more = less + 1 :=
        Nat.exists_eq_add_one.2 (Nat.lt_of_lt_of_le (Nat.succ_pos _) plenty)
      rw [List.length_cons] at enough plenty
      simp only [stripChars.go]
      cases skipped : skipSequence? (c :: cs) with
      | none => exact congrArg (c :: ·) (ih (by omega) (by omega))
      | some rest =>
        have shorter := length_of_skipSequence? skipped
        rw [List.length_cons] at shorter
        exact ih (by omega) (by omega)

theorem stripChars_cons {c : Char} (plain : c ≠ '\x1b') (cs : List Char) :
    stripChars (c :: cs) = c :: stripChars cs := by
  simp only [stripChars, List.length_cons, stripChars.go, skipSequence?_of_ne plain]

theorem stripChars_append {cs : List Char} (plain : '\x1b' ∉ cs) (rest : List Char) :
    stripChars (cs ++ rest) = cs ++ stripChars rest := by
  induction cs with
  | nil => rfl
  | cons c cs ih =>
    rw [List.mem_cons, not_or] at plain
    rw [List.cons_append, stripChars_cons (Ne.symm plain.1), ih plain.2, List.cons_append]

theorem stripChars_escape {parameters : String}
    (numbers : parameters.toList.all isParameter = true) (rest : List Char) :
    stripChars ((escape parameters).toList ++ rest) = stripChars rest := by
  have spelled : (escape parameters).toList ++ rest =
      '\x1b' :: '[' :: (parameters.toList ++ 'm' :: rest) := by
    simp [escape]
  have ended : (parameters.toList ++ 'm' :: rest).dropWhile isParameter = 'm' :: rest := by
    rw [List.dropWhile_append_of_pos (List.all_eq_true.1 numbers)]
    exact List.dropWhile_cons_of_neg (by decide)
  have skipped : skipSequence? ('\x1b' :: '[' :: (parameters.toList ++ 'm' :: rest)) =
      some rest := by
    simp only [skipSequence?, ended]
  rw [spelled, stripChars, List.length_cons]
  simp only [stripChars.go, skipped]
  exact go_eq_go (by simp only [List.length_cons, List.length_append]; omega) (Nat.le_refl _)

/-- A text that shows another: that is what is left without escape sequences, whatever follows. -/
def Shows (text shown : String) : Prop :=
  ∀ rest, stripChars (text.toList ++ rest) = shown.toList ++ stripChars rest

namespace Shows

theorem strip_eq {text shown : String} (shows_ : Shows text shown) : strip text = shown := by
  have whole := shows_ []
  rw [List.append_nil, stripChars, stripChars, go_nil, List.append_nil] at whole
  rw [strip, stripChars, whole, String.ofList_toList]

theorem of_unescaped {text : String} (plain : Unescaped text) : Shows text text :=
  stripChars_append plain

theorem append {text more shown rest : String} (first : Shows text shown)
    (second : Shows more rest) : Shows (text ++ more) (shown ++ rest) := by
  intro after
  rw [String.toList_append, String.toList_append, List.append_assoc, first, second,
    List.append_assoc]

theorem paint (color : Bool) (style : Style) {text : String} (plain : Unescaped text) :
    Shows (paint color style text) text := by
  cases color with
  | false => exact of_unescaped plain
  | true =>
    have opens : style.opening.toList.all isParameter = true := by
      cases style <;> decide
    have closes : style.closing.toList.all isParameter = true := by
      cases style <;> decide
    intro rest
    rw [BuildGate.paint, if_pos rfl, String.toList_append, String.toList_append, List.append_assoc,
      List.append_assoc, stripChars_escape opens, stripChars_append plain,
      stripChars_escape closes]

theorem join {texts shown : List String} (each : List.Forall₂ Shows texts shown) :
    Shows (String.join texts) (String.join shown) := by
  induction each with
  | nil => exact fun _ => rfl
  | cons first _ ih =>
    rw [String.join_cons, String.join_cons]
    exact first.append ih

end Shows

theorem strip_join {texts images : List String}
    (each : List.Forall₂ (fun text image => ∃ shown, Shows text shown ∧ Shows image shown) texts
      images) : strip (String.join texts) = strip (String.join images) := by
  have both : ∃ shown, Shows (String.join texts) shown ∧ Shows (String.join images) shown := by
    induction each with
    | nil => exact ⟨"", fun _ => rfl, fun _ => rfl⟩
    | cons first _ ih =>
      obtain ⟨shown, text, image⟩ := first
      obtain ⟨rest, texts, images⟩ := ih
      refine ⟨shown ++ rest, ?_, ?_⟩
      · rw [String.join_cons]
        exact text.append texts
      · rw [String.join_cons]
        exact image.append images
  obtain ⟨shown, text, image⟩ := both
  rw [text.strip_eq, image.strip_eq]

end Paint

open Paint

namespace ReportLine

structure Plain (line : ReportLine) : Prop where
  location : Unescaped (line.location.getD "")
  tag : Unescaped line.tag
  message : Unescaped line.message

theorem plain_iff {line : ReportLine} : line.Plain ↔
    Unescaped (line.location.getD "") ∧ Unescaped line.tag ∧ Unescaped line.message :=
  ⟨fun plain => ⟨plain.location, plain.tag, plain.message⟩,
    fun ⟨location, tag, message⟩ => ⟨location, tag, message⟩⟩

instance (line : ReportLine) : Decidable line.Plain := decidable_of_iff' _ plain_iff

def restyle (yellow : Flags) (line : ReportLine) : ReportLine :=
  { line with shown := shownAs yellow line.kind }

theorem all_restyle (yellow other : Flags) (diagnostics : List Diagnostic)
    (results : List FileFailures) :
    all other diagnostics results = (all yellow diagnostics results).map (restyle other) := by
  simp only [all, ofResults, List.map_append, List.map_map, List.map_flatMap]
  rfl

theorem Plain.restyle {line : ReportLine} (plain : line.Plain) (yellow : Flags) :
    (line.restyle yellow).Plain := ⟨plain.location, plain.tag, plain.message⟩

end ReportLine

namespace Report

theorem line_shows (color : Bool) {finding : ReportLine} (plain : finding.Plain) :
    Shows (line color finding) (line false finding) := by
  have branched : Shows (paint color .error branch) branch := .paint _ _ (by decide)
  unfold line
  refine .append (.append branched ?_) (.of_unescaped plain.message)
  cases placed : finding.location with
  | none => exact fun _ => rfl
  | some location =>
    have blank : Unescaped " " := by decide
    have place : Unescaped (location ++ " ") := by
      have named := plain.location
      rw [placed, Option.getD_some] at named
      exact named.append blank
    have tag : Unescaped ("(" ++ finding.tag ++ ")") :=
      .append (.append (by decide) plain.tag) (by decide)
    exact .append (.append (.paint _ _ place) (.paint _ _ tag)) (.of_unescaped blank)

theorem findings_shows (color : Bool) {lines : List ReportLine}
    (plain : ∀ finding ∈ lines, finding.Plain) :
    Shows (findings color lines) (findings false lines) := by
  unfold findings
  split
  · exact .of_unescaped (by decide)
  · have heading : Shows (paint color .heading "\nFile errors") "\nFile errors" :=
      .paint _ _ (by decide)
    have colon : Shows (paint color .neutral ":") ":" := .paint _ _ (by decide)
    refine .append (.append heading colon) (.join ?_)
    rw [List.forall₂_map_left_iff, List.forall₂_map_right_iff, List.forall₂_same]
    exact fun finding inside =>
      .append (.of_unescaped (by decide)) (line_shows color (plain finding inside))

theorem countLine_shows (color : Bool) (yellow : Flags) (totals : Totals) (kind : Kind) :
    Shows (countLine color yellow totals kind) (countLine false yellow totals kind) := by
  refine .paint _ _ ?_
  have label : Unescaped (branch ++ kind.label ++ ": ") := by cases kind <;> decide
  have ending : Unescaped (countEnd kind) := by cases kind <;> decide
  exact .append (.append label (unescaped_toString _)) ending

theorem summary_shows (color : Bool) (yellow : Flags) (totals : Totals) :
    Shows (summary color yellow totals) (summary false yellow totals) := by
  have heading : Shows (paint color .heading "\n\nErrors") "\n\nErrors" := .paint _ _ (by decide)
  have number : Unescaped (":" ++ toString totals.total ++ "\n") :=
    .append (.append (by decide) (unescaped_toString _)) (by decide)
  refine .append (.append heading (.paint _ _ number)) ?_
  split
  · exact .of_unescaped (by decide)
  · refine .join ?_
    rw [List.forall₂_map_left_iff, List.forall₂_map_right_iff, List.forall₂_same]
    exact fun kind _ => countLine_shows color yellow totals kind

theorem header_shows (color : Bool) {head : ReportHeader} (runType : Unescaped head.runType)
    (name : Unescaped head.name) (time : Unescaped head.time) :
    Shows (header color head) (header false head) := by
  have banner : Unescaped ("\nTypechecker plugin(" ++ head.runType ++ ") " ++ head.name) :=
    .append (.append (.append (by decide) runType) (by decide)) name
  have stamp : Unescaped ("Time:" ++ head.time ++ " \n") :=
    .append (.append (by decide) time) (by decide)
  exact .append (.append (.paint _ _ banner) (.paint _ _ (by decide))) (.paint _ _ stamp)

theorem footer_shows (color : Bool) (elapsed : Elapsed) :
    Shows (footer color elapsed) (footer false elapsed) := by
  refine .paint _ _ ?_
  exact .append (.append (by decide) (unescaped_toString _)) (by decide)

theorem compose_shows (color : Bool) {head : ReportHeader} (runType : Unescaped head.runType)
    (name : Unescaped head.name) (time : Unescaped head.time) {lines : List ReportLine}
    (plain : ∀ finding ∈ lines, finding.Plain) (totals : Totals) (yellow : Flags)
    (elapsed : Elapsed) :
    Shows (compose color head lines totals yellow elapsed)
      (compose false head lines totals yellow elapsed) :=
  .append (.append (.append (header_shows color runType name time) (findings_shows color plain))
    (summary_shows color yellow totals)) (footer_shows color elapsed)

theorem compose_restyle (head : ReportHeader) (lines : List ReportLine) (totals : Totals)
    (yellow other : Flags) (elapsed : Elapsed) :
    compose false head (lines.map (ReportLine.restyle other)) totals other elapsed =
      compose false head lines totals yellow elapsed := by
  have found : findings false (lines.map (ReportLine.restyle other)) = findings false lines := by
    simp only [findings, List.isEmpty_map, List.map_map]
    rfl
  rw [compose, compose, found]
  rfl

end Report

end BuildGate
