import OperatorRecovery.Proofs.FormatPlans
import OperatorRecovery.Proofs.Identifiers
import OperatorRecovery.SourceText

/-!
What a composite format means. Expanding reads it from the left: a doubled brace stands
for one, a hole for its argument in its format, and every other character for itself.
Where splitting meets no error, its tokens expand to the same text; and where a format
is planned, so do the pieces of the interpolated string, because every slot holds the
argument of its hole.
-/

namespace OperatorRecovery

namespace CompositeFormat

/-- The index and the format of the hole that opened just before the text. -/
def hole? (text : List Char) : Option (Nat × Option (List Char)) :=
  let inside := text.takeWhile (· ≠ '}')
  let digits := inside.takeWhile (· ≠ ':')
  if '}' ∈ text ∧ digits ≠ [] ∧ digits.all Char.isDigit then
    some (Nat.ofDigitChars 10 digits 0, (inside.dropWhile (· ≠ ':')).tail?)
  else none

/-- The text behind the closing brace. -/
def afterHole (text : List Char) : List Char := (text.dropWhile (· ≠ '}')).tail

theorem length_afterHole_le (text : List Char) : (afterHole text).length ≤ text.length := by
  have hdrop := (List.dropWhile_suffix (l := text) (· ≠ '}')).length_le
  rw [afterHole, List.length_tail]
  omega

/-- The text that a format stands for, where `render` gives the texts of its holes. -/
def expand (render : Nat → Option (List Char) → List Char) : List Char → List Char
  | [] => []
  | '{' :: '{' :: rest => '{' :: expand render rest
  | '}' :: '}' :: rest => '}' :: expand render rest
  | '{' :: rest =>
    match hole? rest with
    | some (index, spec) => render index spec ++ expand render (afterHole rest)
    | none => '{' :: expand render rest
  | c :: rest => c :: expand render rest
termination_by format => format.length
decreasing_by
  all_goals
    have := length_afterHole_le rest
    simp only [List.length_cons]
    omega

variable (render : Nat → Option (List Char) → List Char)

def Token.expansion : Token → List Char
  | .text cs => cs
  | .argument index => render index none
  | .argumentWithSpec index spec => render index (some spec)
  | .error => []

/-- What is still to come at a place, with the piece that was begun there. -/
def Place.expansion : Place → List Char → List Char
  | .text read, rest => read.reverse ++ expand render rest
  | .index read, rest => expand render ('{' :: (read.reverse ++ rest))
  | .spec digits read, rest =>
    expand render ('{' :: (digits.reverse ++ ':' :: (read.reverse ++ rest)))

theorem expansion_closeText (read : List Char) (tokens : List Token) :
    (closeText read tokens).flatMap (Token.expansion render) =
      read.reverse ++ tokens.flatMap (Token.expansion render) := by
  unfold closeText
  split
  · rename_i hempty
    rw [List.isEmpty_iff.mp hempty]
    rfl
  · rfl

theorem error_not_mem_of_closeText {read : List Char} {tokens : List Token}
    (h : .error ∉ closeText read tokens) : .error ∉ tokens := by
  unfold closeText at h
  split at h
  · exact h
  · exact fun hmem => h (List.mem_cons_of_mem _ hmem)

theorem index?_eq_some {digits : List Char} {index : Nat} (h : index? digits = some index) :
    digits ≠ [] ∧ digits.all Char.isDigit = true ∧ index = Nat.ofDigitChars 10 digits 0 := by
  unfold index? at h
  split at h
  · cases h
  · rename_i hdigits
    simp only [Option.ite_none_right_eq_some, Option.some.injEq] at h
    simp only [Bool.or_eq_true, List.isEmpty_iff, Bool.not_eq_true', not_or,
      Bool.not_eq_false] at hdigits
    exact ⟨hdigits.1, hdigits.2, h.2.symm⟩

/-- A hole as it is written between its braces. -/
def holeText (digits : List Char) (spec : Option (List Char)) : List Char :=
  digits ++ spec.elim [] (':' :: ·)

theorem ne_of_isDigit {c d : Char} (hc : c.isDigit = true) (hd : d.isDigit = false) : c ≠ d := by
  rintro rfl
  rw [hc] at hd
  cases hd

theorem hole?_holeText {digits : List Char} {spec : Option (List Char)} {index : Nat}
    (hindex : index? digits = some index) (hspec : ∀ cs, spec = some cs → '}' ∉ cs)
    (rest : List Char) :
    hole? (holeText digits spec ++ '}' :: rest) = some (index, spec) ∧
      afterHole (holeText digits spec ++ '}' :: rest) = rest := by
  obtain ⟨hnonempty, hdigits, rfl⟩ := index?_eq_some hindex
  have hdigit : ∀ c ∈ digits, c.isDigit = true := List.all_eq_true.mp hdigits
  have hinside : ∀ c ∈ holeText digits spec, decide (c ≠ '}') = true := by
    intro c hc
    rw [decide_eq_true_eq]
    rcases List.mem_append.mp hc with hc | hc
    · exact ne_of_isDigit (hdigit c hc) rfl
    · cases spec with
      | none => cases hc
      | some cs =>
        rcases List.mem_cons.mp hc with rfl | hc
        · decide
        · rintro rfl
          exact hspec cs rfl hc
  have hbefore : ∀ c ∈ digits, decide (c ≠ ':') = true :=
    fun c hc => decide_eq_true (ne_of_isDigit (hdigit c hc) rfl)
  have htake : (holeText digits spec ++ '}' :: rest).takeWhile (· ≠ '}') =
      holeText digits spec := by
    rw [List.takeWhile_append_of_pos hinside, List.takeWhile_cons_of_neg (by decide),
      List.append_nil]
  have hdrop : (holeText digits spec ++ '}' :: rest).dropWhile (· ≠ '}') = '}' :: rest := by
    rw [List.dropWhile_append_of_pos hinside, List.dropWhile_cons_of_neg (by decide)]
  have hindexText : (holeText digits spec).takeWhile (· ≠ ':') = digits := by
    rw [holeText, List.takeWhile_append_of_pos hbefore]
    cases spec <;> simp
  have hspecText : ((holeText digits spec).dropWhile (· ≠ ':')).tail? = spec := by
    rw [holeText, List.dropWhile_append_of_pos hbefore]
    cases spec <;> simp
  constructor
  · simp only [hole?, htake, hindexText, hspecText]
    exact if_pos ⟨List.mem_append_right _ List.mem_cons_self, hnonempty, hdigits⟩
  · rw [afterHole, hdrop, List.tail_cons]

/-- A hole expands to the text of its argument. -/
theorem expand_hole {digits : List Char} {spec : Option (List Char)} {index : Nat}
    (hindex : index? digits = some index) (hspec : ∀ cs, spec = some cs → '}' ∉ cs)
    (rest : List Char) :
    expand render ('{' :: (holeText digits spec ++ '}' :: rest)) =
      render index spec ++ expand render rest := by
  obtain ⟨hhole, hafter⟩ := hole?_holeText hindex hspec rest
  obtain ⟨hnonempty, hdigits, _⟩ := index?_eq_some hindex
  rw [expand]
  · rw [hhole, hafter]
  · intro rest' heq
    obtain ⟨d, ds, rfl⟩ := List.exists_cons_of_ne_nil hnonempty
    cases heq
    cases hdigits

theorem expansion_argumentToken? {digits : List Char} {spec : Option (List Char)} {token : Token}
    (h : argumentToken? digits spec = some token) (hspec : ∀ cs, spec = some cs → '}' ∉ cs)
    (rest : List Char) :
    token.expansion render ++ expand render rest =
      expand render ('{' :: (holeText digits spec ++ '}' :: rest)) := by
  obtain ⟨index, hindex, rfl⟩ := Option.map_eq_some_iff.mp h
  rw [expand_hole render hindex hspec]
  cases spec <;> rfl

/-- The format that is being read has met no closing brace. -/
def Place.IsOpen : Place → Prop
  | .spec _ read => '}' ∉ read
  | _ => True

/-- Splitting without an error keeps what the format expands to. -/
theorem expansion_scan (place : Place) (format : List Char) (hopen : place.IsOpen)
    (herror : .error ∉ scan place format) :
    (scan place format).flatMap (Token.expansion render) = place.expansion render format := by
  -- Until a hole closes, its opening brace and what was read behind it are still to come.
  fun_induction scan place format with
  | case1 read =>
    rw [expansion_closeText, Place.expansion, expand]
    rfl
  | case2 read rest ih | case3 read rest ih =>
    rw [ih trivial herror, Place.expansion, Place.expansion, expand, List.reverse_cons,
      List.append_assoc]
    rfl
  | case4 read rest hsingle ih =>
    rw [expansion_closeText, ih trivial (error_not_mem_of_closeText herror)]
    rfl
  | case6 read c rest _ _ hleft hright ih =>
    rw [ih trivial herror, Place.expansion, Place.expansion, List.reverse_cons, List.append_assoc,
      expand]
    · rfl
    · exact fun _ h => absurd h hleft
    · exact fun _ h => absurd h hright
    · exact hleft
  | case9 read rest ih =>
    rw [ih List.not_mem_nil herror]
    rfl
  | case10 read rest token htoken ih =>
    rw [List.flatMap_cons, ih trivial fun h => herror (List.mem_cons_of_mem _ h)]
    rw [Place.expansion, List.reverse_nil, List.nil_append,
      expansion_argumentToken? render htoken nofun rest, holeText, Option.elim_none,
      List.append_nil]
    rfl
  | case12 read c rest _ _ hright ih =>
    rw [ih trivial herror, Place.expansion, Place.expansion, List.reverse_cons, List.append_assoc]
    rfl
  | case15 digits read rest token htoken ih =>
    have hspec : ∀ cs, some read.reverse = some cs → '}' ∉ cs := by
      rintro _ ⟨⟩ hmem
      exact hopen (List.mem_reverse.mp hmem)
    rw [List.flatMap_cons, ih trivial fun h => herror (List.mem_cons_of_mem _ h)]
    rw [Place.expansion, List.reverse_nil, List.nil_append,
      expansion_argumentToken? render htoken hspec rest, holeText, Option.elim_some,
      List.append_assoc, List.cons_append]
    rfl
  | case17 digits read c rest _ hright ih =>
    have hstill : '}' ∉ c :: read := by
      rw [List.mem_cons, not_or]
      exact ⟨fun h => hright h.symm, hopen⟩
    rw [ih hstill herror, Place.expansion, Place.expansion, List.reverse_cons, List.append_assoc]
    rfl
  | _ => exact absurd List.mem_cons_self herror

theorem expansion_tokens {format : List Char} (herror : .error ∉ tokens format) :
    (tokens format).flatMap (Token.expansion render) = expand render format :=
  expansion_scan render (.text []) format trivial herror

end CompositeFormat

/-- The text of a piece, where `render` gives the texts of arguments in their formats. -/
def Piece.rendered (render : Expr → Option String → String) : Piece Expr → String
  | .text s => s
  | .interpolation e spec => render e spec

namespace FormatPlan

open CompositeFormat

/-- Parentheses do not change the text of an argument. -/
def KeepsParenthesized (render : Expr → Option String → String) : Prop :=
  ∀ e spec, render (.ofForm (.parenthesized e)) spec = render e spec

variable {render : Expr → Option String → String} {arguments : List Expr}

/-- The text of a hole that refers to one of the arguments. -/
def argumentText (render : Expr → Option String → String) (arguments : List Expr) (index : Nat)
    (spec : Option (List Char)) : List Char :=
  (arguments[index]?.elim "" fun e => render e (spec.map String.ofList)).toList

theorem rendered_shielded (keeps : KeepsParenthesized render) (e : Expr) (spec : Option String) :
    render (shielded e) spec = render e spec := by
  unfold shielded
  split
  · exact keeps e spec
  · rfl

/-- The piece of a segment is rendered as its token expands. -/
theorem rendered_piece? (keeps : KeepsParenthesized render) (segment : Segment) :
    (segment.piece? arguments).toList.flatMap (fun piece => (piece.rendered render).toList) =
      segment.token.expansion (argumentText render arguments) := by
  cases segment with
  | text cs => simp [Segment.piece?, Segment.token, Piece.rendered, Token.expansion]
  | argument index spec =>
    have htoken : (Segment.argument index spec).token.expansion (argumentText render arguments) =
        argumentText render arguments index spec := by
      cases spec <;> rfl
    rw [htoken, argumentText, Segment.piece?]
    cases arguments[index]? with
    | none => rfl
    | some e =>
      simp [Piece.rendered, rendered_shielded keeps]

/-- An interpolated string that is built from a planned format means what the format means,
and each argument stands in one slot, in order. -/
theorem rendered_build {format : List Char} {segments : List Segment}
    (planned : plan format arguments.length = .ok segments)
    (keeps : KeepsParenthesized render) :
    String.join ((build segments arguments).map (Piece.rendered render)) =
        String.ofList (expand (argumentText render arguments) format) ∧
      (build segments arguments).filterMap Piece.slot? = arguments.map shielded := by
  obtain ⟨htokens, horderly⟩ := plan_eq_ok_iff.mp planned
  have herror : .error ∉ tokens format := by
    rw [htokens, List.mem_map]
    rintro ⟨segment, _, herror⟩
    exact segment.token_ne_error herror
  constructor
  · rw [← String.toList_inj, String.toList_join, String.toList_ofList, List.flatMap_map,
      build_eq_filterMap horderly, List.filterMap_eq_flatMap_toList, List.flatMap_assoc,
      ← expansion_tokens _ herror, htokens, List.flatMap_map]
    exact List.flatMap_congr fun segment _ => rendered_piece? keeps segment
  · exact slots_build horderly.length_indices

/-- Renders an argument by its identifiers, with its format behind them. -/
def renderedNames (e : Expr) (spec : Option String) : String :=
  String.join e.identifiers ++ Piece.formatText spec

theorem rendered_build_choiceAndAmount :
    let choice : Expr := .ofForm (.conditional (.ofForm (.identifier "a"))
      (.ofForm (.identifier "b")) (.ofForm (.identifier "c")))
    let arguments := [choice, .ofForm (.identifier "d")]
    let format := "\x7b\x7b\x7b0\x7d\x7d\x7d: \x7b1:N2\x7d".toList
    plan format arguments.length = .ok [.text ['\x7b'], .argument 0 none, .text ['\x7d', ':', ' '],
        .argument 1 (some ['N', '2'])] ∧
      KeepsParenthesized renderedNames ∧
      String.ofList (expand (argumentText renderedNames arguments) format) = "\x7babc\x7d: d:N2" := by
  intro choice arguments format
  have planned : plan format arguments.length = .ok [.text ['\x7b'], .argument 0 none,
      .text ['\x7d', ':', ' '], .argument 1 (some ['N', '2'])] := rfl
  have keeps : KeepsParenthesized renderedNames := by
    intro e spec
    rw [renderedNames, renderedNames, Expr.identifiers, Expr.ofForm,
      Expr.identifiersSkipping_single _ _ rfl rfl]
  refine ⟨planned, keeps, ?_⟩
  rw [← (rendered_build planned keeps).1]
  rfl

end FormatPlan

end OperatorRecovery
