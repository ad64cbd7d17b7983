import OperatorRecovery.Proofs.JsonTexts
import OperatorRecovery.Proofs.LiteralReading
import OperatorRecovery.Proofs.WrittenNames
import OperatorRecovery.SourceText

/-!
The line terminators in the text of an expression. Escaping takes out control characters, among
them the line feed, the carriage return and the next line, but the line separator and the paragraph
separator are no control characters and stay. Names and formats are written as they are. So the
line terminators of a printed expression are those of its names and formats and the separators of
its literals, each where it stands, and printing adds none of its own.
-/

namespace OperatorRecovery

namespace Characters

/-- The characters that end a line of source code. -/
def isLineTerminator (c : Char) : Bool := ['\n', '\r', '\u0085', '\u2028', '\u2029'].contains c

/-- A line terminator that is no control character: the line and the paragraph separator. -/
def isSeparator (c : Char) : Bool := isLineTerminator c && !isControl c

theorem isLineTerminator_iff {c : Char} :
    isLineTerminator c = true ↔ c ∈ ['\n', '\r', '\u0085', '\u2028', '\u2029'] :=
  List.contains_iff_mem

end Characters

open Characters

def lineTerminators (s : String) : List Char := s.toList.filter isLineTerminator

def separators (s : String) : List Char := s.toList.filter isSeparator

/-- A text without line terminators. -/
def IsOnOneLine (s : String) : Prop := ∀ c ∈ s.toList, isLineTerminator c = false

instance (s : String) : Decidable (IsOnOneLine s) :=
  List.decidableBAll (fun c => isLineTerminator c = false) s.toList

theorem isOnOneLine_iff {s : String} : IsOnOneLine s ↔ lineTerminators s = [] := by
  simp [IsOnOneLine, lineTerminators, List.filter_eq_nil_iff]

theorem mem_lineTerminators_iff {s : String} {c : Char} (hc : isLineTerminator c = true) :
    c ∈ lineTerminators s ↔ c ∈ s.toList := by
  simp [lineTerminators, hc]

@[simp]
theorem lineTerminators_append (s t : String) :
    lineTerminators (s ++ t) = lineTerminators s ++ lineTerminators t := by
  simp [lineTerminators]

namespace LiteralText

theorem filter_fourHexDigits (n : Nat) : (fourHexDigits n).filter isLineTerminator = [] := by
  have hdigits : ∀ c ∈ fourHexDigits n, isLineTerminator c = false :=
    forall_mem_fourHexDigits (by decide) n
  exact List.filter_eq_nil_iff.mpr fun c hc => by simp [hdigits c hc]

/-- Of the line terminators only a separator is not escaped. -/
theorem filter_escapeChar (c : Char) :
    (escapeChar c).filter isLineTerminator = [c].filter isSeparator := by
  unfold escapeChar
  split
  case h_7 =>
    split
    next hcontrol =>
      have hescape : ('\\' :: 'u' :: fourHexDigits c.toNat).filter isLineTerminator = [] :=
        filter_fourHexDigits c.toNat
      rw [hescape, List.filter_singleton, isSeparator, hcontrol]
      simp
    next hcontrol =>
      rw [List.filter_singleton, List.filter_singleton, isSeparator,
        Bool.eq_false_iff.mpr hcontrol, Bool.not_false, Bool.and_true]
  all_goals rfl

/-- What is kept of every character is kept of the whole text. -/
theorem filter_flatMap_chars {write : Char → List Char} {p q : Char → Bool}
    (h : ∀ c, (write c).filter p = [c].filter q) (cs : List Char) :
    (cs.flatMap write).filter p = cs.filter q := by
  induction cs with
  | nil => rfl
  | cons c cs ih =>
    rw [List.flatMap_cons, List.filter_append, h, ih, ← List.filter_append, List.singleton_append]

theorem filter_escapeChars (cs : List Char) :
    (escapeChars cs).filter isLineTerminator = cs.filter isSeparator :=
  filter_flatMap_chars filter_escapeChar cs

/-- Doubled braces stand on the same line. -/
theorem filter_doubleBraces (cs : List Char) :
    (doubleBraces cs).filter isLineTerminator = cs.filter isLineTerminator := by
  refine filter_flatMap_chars (fun c => ?_) cs
  by_cases hc : c = '{' ∨ c = '}'
  · rcases hc with rfl | rfl <;> rfl
  · rw [doubleBrace, if_neg hc]

theorem lineTerminators_escape (s : String) : lineTerminators (escape s) = separators s := by
  rw [lineTerminators, escape, String.toList_ofList, filter_escapeChars, separators]

theorem lineTerminators_escapeInterpolated (s : String) :
    lineTerminators (escapeInterpolated s) = separators s := by
  rw [lineTerminators, escapeInterpolated, String.toList_ofList, filter_doubleBraces,
    filter_escapeChars, separators]

end LiteralText

namespace FloatText

theorem isLineTerminator_of_isNumeral {c : Char} (h : isNumeral c = true) :
    isLineTerminator c = false := by
  rw [Bool.eq_false_iff, ne_eq, isLineTerminator_iff]
  intro hc
  have hnone : ∀ c ∈ ['\n', '\r', '\u0085', '\u2028', '\u2029'], isNumeral c = false := by
    simp [isNumeral]
  rw [hnone c hc] at h
  cases h

theorem filter_numerals {cs : List Char} (h : ∀ c ∈ cs, isNumeral c = true) :
    cs.filter isLineTerminator = [] :=
  List.filter_eq_nil_iff.mpr fun c hc => by simp [isLineTerminator_of_isNumeral (h c hc)]

theorem lineTerminators_int (n : Int) : lineTerminators (toString n) = [] :=
  filter_numerals (isNumeral_of_mem_int n)

theorem lineTerminators_source (x : Float) : lineTerminators (source x) = [] := by
  have hsigned {text : List Char} (htext : ∀ c ∈ text, isNumeral c = true) :
      lineTerminators (String.ofList (signed x text)) = [] := by
    rw [lineTerminators, String.toList_ofList]
    apply filter_numerals
    rw [signed]
    split
    · exact List.forall_mem_cons.mpr ⟨rfl, htext⟩
    · exact htext
  rw [source]
  split
  · rfl
  · split
    · split <;> rfl
    · apply hsigned
      split
      · have hpoint : ∀ c ∈ ".0".toList, isNumeral c = true := List.all_eq_true.mp (by decide)
        exact List.forall_mem_append.mpr ⟨isNumeral_of_mem_toDigits, hpoint⟩
      · exact isNumeral_of_mem_positional _

end FloatText

/-- A text inside an expression. -/
inductive Content
  /-- An identifier, or the name of a member, of an argument or in a type. -/
  | name (text : String)
  /-- The format of a slot in an interpolated string. -/
  | format (text : String)
  /-- What a string, a character or a text part stands for, before it is escaped. -/
  | literal (text : String)

namespace Content

def lineTerminators : Content → List Char
  | .name text | .format text => OperatorRecovery.lineTerminators text
  | .literal text => separators text

@[simp]
theorem lineTerminators_name (text : String) :
    (name text).lineTerminators = OperatorRecovery.lineTerminators text := rfl

@[simp]
theorem lineTerminators_format (text : String) :
    (format text).lineTerminators = OperatorRecovery.lineTerminators text := rfl

@[simp]
theorem lineTerminators_literal (text : String) :
    (literal text).lineTerminators = separators text := rfl

end Content

section Contents

def Literal.contents : Literal → List Content
  | .char c => [.literal (String.ofList [c])]
  | .string s => [.literal s]
  | .null | .bool _ | .int _ | .decimal _ | .float _ => []

def TypeSyntax.contents (type : TypeSyntax) : List Content := type.names.map .name

def Piece.contents : Piece (List Content) → List Content
  | .text s => [.literal s]
  | .interpolation slot format => slot ++ format.toList.map .format

def Form.contents : Form (List Content) → List Content
  | .hole => []
  | .identifier name => [.name name]
  | .literal value => value.contents
  | .typeReference type | .typeOf type => type.contents
  | .refType e | .unary _ e | .parenthesized e | .directed _ e => e
  | .member target name typeArguments =>
    target ++ .name name :: typeArguments.flatMap TypeSyntax.contents
  | .call target arguments => target ++ arguments.flatten
  | .binary _ left right => left ++ right
  | .cast type operand => type.contents ++ operand
  | .creation type arguments => type.contents ++ arguments.flatten
  | .interpolated pieces => pieces.flatMap Piece.contents
  | .conditional condition whenTrue whenFalse => condition ++ whenTrue ++ whenFalse
  | .named name inner => .name name :: inner

/-- The texts in an expression, in the order in which they are printed. -/
def Expr.contents : Expr → List Content := Expr.fold fun form _ => form.contents

theorem Expr.contents_mk (form : Form Expr) (annotations : Annotations) :
    Expr.contents ⟨form, annotations⟩ = (form.map Expr.contents).contents := by
  simp only [contents, fold_mk]

end Contents

section Printing

section Fixed

variable {opening middle closing : String}

theorem lineTerminators_after (hopening : lineTerminators opening = []) (s : String) :
    lineTerminators (opening ++ s) = lineTerminators s := by
  rw [lineTerminators_append, hopening, List.nil_append]

theorem lineTerminators_between (hopening : lineTerminators opening = [])
    (hclosing : lineTerminators closing = []) (s : String) :
    lineTerminators (opening ++ s ++ closing) = lineTerminators s := by
  rw [lineTerminators_append, lineTerminators_after hopening, hclosing, List.append_nil]

theorem lineTerminators_around (hmiddle : lineTerminators middle = []) (s t : String) :
    lineTerminators (s ++ middle ++ t) = lineTerminators s ++ lineTerminators t := by
  rw [lineTerminators_append, lineTerminators_append, hmiddle, List.append_nil]

end Fixed

theorem Literal.lineTerminators_charBody (c : Char) :
    lineTerminators (charBody c) = separators (String.ofList [c]) := by
  rw [charBody]
  split
  next hc =>
    rw [hc]
    rfl
  next =>
    rw [lineTerminators, separators, String.toList_ofList, String.toList_ofList,
      LiteralText.filter_escapeChar]

theorem Literal.lineTerminators_text (value : Literal) :
    lineTerminators value.text = value.contents.flatMap Content.lineTerminators := by
  cases value with
  | null => rfl
  | bool b => cases b <;> rfl
  | int n => exact FloatText.lineTerminators_int n.toInt
  | decimal n =>
    rw [text, lineTerminators_append, FloatText.lineTerminators_int]
    rfl
  | float x => exact FloatText.lineTerminators_source x
  | char c =>
    rw [text, lineTerminators_between rfl rfl, lineTerminators_charBody, contents,
      List.flatMap_singleton, Content.lineTerminators_literal]
  | string s =>
    rw [text, lineTerminators_between rfl rfl, LiteralText.lineTerminators_escape, contents,
      List.flatMap_singleton, Content.lineTerminators_literal]

theorem TypeSyntax.isLineTerminator_of_mem_punctuation :
    ∀ c ∈ punctuation, isLineTerminator c = false := by
  simp [punctuation, isLineTerminator]

theorem TypeSyntax.lineTerminators_text (type : TypeSyntax) :
    lineTerminators type.text = type.contents.flatMap Content.lineTerminators := by
  rw [lineTerminators, filter_text isLineTerminator_of_mem_punctuation, contents, List.flatMap_map]
  rfl

theorem TypeSyntax.lineTerminators_argumentsText (types : List TypeSyntax) :
    lineTerminators (argumentsText types) =
      (types.flatMap contents).flatMap Content.lineTerminators := by
  rw [lineTerminators, filter_argumentsText isLineTerminator_of_mem_punctuation,
    namesOfList_eq_flatMap]
  simp only [contents, List.flatMap_assoc, List.flatMap_map]
  rfl

theorem BinaryOperator.lineTerminators_token (op : BinaryOperator) :
    lineTerminators op.token = [] := by
  cases op <;> rfl

theorem UnaryOperator.lineTerminators_token (op : UnaryOperator) :
    lineTerminators op.token = [] := by
  cases op <;> rfl

theorem Direction.lineTerminators_token (direction : Direction) :
    lineTerminators direction.token = [] := by
  cases direction <;> rfl

theorem lineTerminators_operand (least : Nat) (p : Printed) :
    lineTerminators (p.operand least) = lineTerminators p.text := by
  rw [Printed.operand]
  split
  · exact lineTerminators_between rfl rfl p.text
  · rfl

theorem lineTerminators_commaSeparated (texts : List String) :
    lineTerminators (commaSeparated texts) = texts.flatMap lineTerminators := by
  induction texts with
  | nil => rfl
  | cons s texts ih =>
    cases texts with
    | nil => simp [commaSeparated]
    | cons t texts =>
      rw [commaSeparated] at ih ⊢
      rw [String.intercalate_cons_cons, lineTerminators_around rfl, ih]
      rfl

variable {ε : Type} {print : ε → Printed} {contents : ε → List Content}

/-- A part is printed with the line terminators of its contents. -/
def Prints (print : ε → Printed) (contents : ε → List Content) (e : ε) : Prop :=
  lineTerminators (print e).text = (contents e).flatMap Content.lineTerminators

theorem lineTerminators_argumentList {arguments : List ε}
    (h : ∀ e ∈ arguments, Prints print contents e) :
    lineTerminators (argumentList (arguments.map print)) =
      (arguments.map contents).flatten.flatMap Content.lineTerminators := by
  rw [argumentList, lineTerminators_between rfl rfl, lineTerminators_commaSeparated, List.map_map,
    List.flatMap_map, ← List.flatMap_def, List.flatMap_assoc]
  exact List.flatMap_congr h

theorem Piece.lineTerminators_print {piece : Piece ε}
    (h : ∀ e ∈ piece.slot?, Prints print contents e) :
    lineTerminators (piece.map print).print =
      (piece.map contents).contents.flatMap Content.lineTerminators := by
  cases piece with
  | text s =>
    rw [map, map, Piece.print, LiteralText.lineTerminators_escapeInterpolated, Piece.contents,
      List.flatMap_singleton, Content.lineTerminators_literal]
  | interpolation e format =>
    have he : lineTerminators (print e).text = (contents e).flatMap Content.lineTerminators :=
      h e rfl
    have hformat : lineTerminators (formatText format) =
        (format.toList.map Content.format).flatMap Content.lineTerminators := by
      cases format with
      | none => rfl
      | some format =>
        rw [formatText, lineTerminators_after rfl, Option.toList_some, List.map_singleton,
          List.flatMap_singleton, Content.lineTerminators_format]
    have hclose : lineTerminators "\x7d" = [] := rfl
    rw [map, map, Piece.print, lineTerminators_append, lineTerminators_append,
      lineTerminators_after rfl, he, hformat, hclose, List.append_nil, Piece.contents,
      List.flatMap_append]

theorem lineTerminators_join (texts : List String) :
    lineTerminators (String.join texts) = texts.flatMap lineTerminators := by
  rw [lineTerminators, String.toList_join, List.filter_flatMap]
  rfl

theorem lineTerminators_pieces {pieces : List (Piece ε)}
    (h : ∀ e ∈ pieces.filterMap Piece.slot?, Prints print contents e) :
    lineTerminators (String.join ((pieces.map (Piece.map print)).map Piece.print)) =
      ((pieces.map (Piece.map contents)).flatMap Piece.contents).flatMap
        Content.lineTerminators := by
  rw [lineTerminators_join, List.map_map, List.flatMap_map, List.flatMap_map, List.flatMap_assoc]
  refine List.flatMap_congr fun piece hpiece => ?_
  exact Piece.lineTerminators_print fun e he => h e (List.mem_filterMap.mpr ⟨piece, hpiece, he⟩)

/-- One step of printing: what a form adds to its parts are the texts that are its own. -/
theorem Form.lineTerminators_text {form : Form ε} (h : ∀ e ∈ form.parts, Prints print contents e) :
    lineTerminators (form.map print).text =
      (form.map contents).contents.flatMap Content.lineTerminators := by
  cases form with
  | hole =>
    show lineTerminators "<null>" = []
    rfl
  | identifier name => exact (List.flatMap_singleton ..).symm
  | literal value => exact value.lineTerminators_text
  | typeReference type => exact type.lineTerminators_text
  | typeOf type => exact (lineTerminators_between rfl rfl _).trans type.lineTerminators_text
  | refType e =>
    have he : Prints print contents e := h e List.mem_cons_self
    exact (lineTerminators_between rfl rfl _).trans he
  | member target name typeArguments =>
    have htarget : Prints print contents target := h target List.mem_cons_self
    rw [map, map, text, Form.contents, lineTerminators_append, lineTerminators_around rfl,
      lineTerminators_operand, htarget, TypeSyntax.lineTerminators_argumentsText,
      List.flatMap_append, List.flatMap_cons, List.append_assoc]
    rfl
  | call target arguments =>
    have htarget : Prints print contents target := h target List.mem_cons_self
    have harguments : ∀ e ∈ arguments, Prints print contents e := by
      simpa [parts, slots] using fun e he => h e (by simp [parts, slots, he])
    rw [map, map, text, Form.contents, lineTerminators_append, lineTerminators_operand, htarget,
      lineTerminators_argumentList harguments, List.flatMap_append]
  | binary op left right =>
    have hleft : Prints print contents left := h left List.mem_cons_self
    have hright : Prints print contents right := h right (List.mem_cons_of_mem _ List.mem_cons_self)
    rw [map, map, text, Form.contents, lineTerminators_around rfl, lineTerminators_around rfl,
      op.lineTerminators_token, List.append_nil, lineTerminators_operand, hleft,
      lineTerminators_operand, hright, List.flatMap_append]
  | unary op operand =>
    have hoperand : Prints print contents operand := h operand List.mem_cons_self
    rw [map, map, text, Form.contents, lineTerminators_after op.lineTerminators_token,
      lineTerminators_operand, hoperand]
  | cast type operand =>
    have hoperand : Prints print contents operand := h operand List.mem_cons_self
    rw [map, map, text, Form.contents, lineTerminators_append, lineTerminators_between rfl rfl,
      type.lineTerminators_text, lineTerminators_operand, hoperand, List.flatMap_append]
  | creation type arguments =>
    have harguments : ∀ e ∈ arguments, Prints print contents e := by
      simpa [parts, slots] using h
    rw [map, map, text, Form.contents, lineTerminators_append, lineTerminators_after rfl,
      type.lineTerminators_text, lineTerminators_argumentList harguments, List.flatMap_append]
  | interpolated pieces =>
    have hslots : ∀ e ∈ pieces.filterMap Piece.slot?, Prints print contents e := by
      simpa [parts, slots] using h
    rw [map, map, text, Form.contents, lineTerminators_between rfl rfl,
      lineTerminators_pieces hslots]
  | conditional condition whenTrue whenFalse =>
    have hcondition : Prints print contents condition := h condition (by simp [parts, slots])
    have hwhenTrue : Prints print contents whenTrue := h whenTrue (by simp [parts, slots])
    have hwhenFalse : Prints print contents whenFalse := h whenFalse (by simp [parts, slots])
    rw [map, map, text, Form.contents, lineTerminators_around rfl, lineTerminators_around rfl,
      lineTerminators_operand, hcondition, lineTerminators_operand, hwhenTrue,
      lineTerminators_operand, hwhenFalse, List.flatMap_append, List.flatMap_append]
  | parenthesized e =>
    have he : Prints print contents e := h e List.mem_cons_self
    exact (lineTerminators_between rfl rfl _).trans he
  | directed direction e =>
    have he : Prints print contents e := h e List.mem_cons_self
    rw [map, map, text, Form.contents, lineTerminators_around rfl, direction.lineTerminators_token,
      List.nil_append, he]
  | named name e =>
    have he : Prints print contents e := h e List.mem_cons_self
    rw [map, map, text, lineTerminators_around rfl, he]
    rfl

/-- The line terminators of a printed expression are those of the texts in it. -/
theorem Expr.lineTerminators_text (e : Expr) :
    lineTerminators e.text = e.contents.flatMap Content.lineTerminators := by
  induction e using induction_on_parts with
  | step e ih =>
    obtain ⟨form, annotations⟩ := e
    rw [text, print_mk, contents_mk]
    exact Form.lineTerminators_text ih

end Printing

namespace Expr

/-- A line terminator is in the text exactly when it is a separator in a literal. -/
theorem mem_text_iff_of_isLineTerminator {e : Expr} {c : Char} (hc : isLineTerminator c = true)
    (hformats : ∀ format, .format format ∉ e.contents)
    (hnames : ∀ name, .name name ∈ e.contents → IsOnOneLine name) :
    c ∈ e.text.toList ↔
      isSeparator c = true ∧ ∃ literal, .literal literal ∈ e.contents ∧ c ∈ literal.toList := by
  rw [← mem_lineTerminators_iff hc, e.lineTerminators_text, List.mem_flatMap]
  constructor
  · rintro ⟨content, hcontent, hmem⟩
    cases content with
    | name name =>
      rw [Content.lineTerminators_name, isOnOneLine_iff.mp (hnames name hcontent)] at hmem
      cases hmem
    | format format => exact absurd hcontent (hformats format)
    | literal literal =>
      obtain ⟨hmem, hseparator⟩ := List.mem_filter.mp hmem
      exact ⟨hseparator, literal, hcontent, hmem⟩
  · rintro ⟨hseparator, literal, hcontent, hmem⟩
    exact ⟨.literal literal, hcontent, List.mem_filter.mpr ⟨hmem, hseparator⟩⟩

/-- Of an expression without formats, with names that stand on one line each, the text has no line
terminator that is a control character, and a separator exactly when a literal has it. -/
theorem lineTerminator_mem_text_iff {e : Expr} (hformats : ∀ format, .format format ∉ e.contents)
    (hnames : ∀ name, .name name ∈ e.contents → IsOnOneLine name) :
    (∀ c ∈ ['\n', '\r', '\u0085'], c ∉ e.text.toList) ∧
      ∀ c ∈ ['\u2028', '\u2029'],
        (c ∈ e.text.toList ↔ ∃ literal, .literal literal ∈ e.contents ∧ c ∈ literal.toList) := by
  constructor
  · intro c hc hmem
    have hterminators : ∀ c ∈ ['\n', '\r', '\u0085'],
        isLineTerminator c = true ∧ isSeparator c = false := by
      simp [isSeparator, isLineTerminator, isControl]
    obtain ⟨hterminator, hkept⟩ := hterminators c hc
    have hseparator :=
      ((mem_text_iff_of_isLineTerminator hterminator hformats hnames).mp hmem).1
    rw [hkept] at hseparator
    cases hseparator
  · intro c hc
    have hseparators : ∀ c ∈ ['\u2028', '\u2029'],
        isLineTerminator c = true ∧ isSeparator c = true := by
      simp [isSeparator, isLineTerminator, isControl]
    obtain ⟨hterminator, hseparator⟩ := hseparators c hc
    rw [mem_text_iff_of_isLineTerminator hterminator hformats hnames, and_iff_right hseparator]

/-- A call with a character, a string and an interpolated text over several lines. -/
def loggedLines : Expr :=
  .ofForm (.call (.ofForm (.member (.ofForm (.typeReference (.simple "Log" []))) "Write" []))
    [.ofForm (.named "level" (.ofForm (.literal (.char '\r')))),
     .ofForm (.interpolated
       [.text "a\n\u0085", .interpolation (.ofForm (.identifier "name")) none]),
     .ofForm (.literal (.string "b\r\n\u2029"))])

theorem contents_loggedLines :
    loggedLines.contents =
      [.name "Log", .name "Write", .name "level", .literal "\r", .literal "a\n\u0085",
        .name "name", .literal "b\r\n\u2029"] := rfl

theorem lineTerminator_mem_text_loggedLines :
    loggedLines.text =
        "Log.Write(level: '\\r', $\"a\\n\\u0085\x7bname\x7d\", \"b\\r\\n\u2029\")" ∧
      (∀ c ∈ ['\n', '\r', '\u0085'], c ∉ loggedLines.text.toList) ∧
      '\u2028' ∉ loggedLines.text.toList ∧ '\u2029' ∈ loggedLines.text.toList := by
  have hformats : ∀ format, .format format ∉ loggedLines.contents := by
    simp [contents_loggedLines]
  have hnames : ∀ name, .name name ∈ loggedLines.contents → IsOnOneLine name := by
    intro name hname
    simp only [contents_loggedLines, List.mem_cons, Content.name.injEq, reduceCtorEq, false_or,
      List.not_mem_nil, or_false] at hname
    rcases hname with rfl | rfl | rfl | rfl <;> decide
  obtain ⟨hcontrol, hseparator⟩ := lineTerminator_mem_text_iff hformats hnames
  refine ⟨by decide +kernel, hcontrol, ?_, ?_⟩
  · rw [hseparator '\u2028' (by decide)]
    simp [contents_loggedLines]
  · rw [hseparator '\u2029' (by decide)]
    exact ⟨"b\r\n\u2029", by simp [contents_loggedLines], by decide⟩

/-- A line separator in a string literal breaks the literal over two lines. -/
theorem not_isOnOneLine_text_separatedLines :
    (Expr.ofForm (.literal (.string "a\u2028b"))).contents = [.literal "a\u2028b"] ∧
      (Expr.ofForm (.literal (.string "a\u2028b"))).text = "\"a\u2028b\"" ∧
      ¬ IsOnOneLine (Expr.ofForm (.literal (.string "a\u2028b"))).text :=
  ⟨rfl, rfl, by decide +kernel⟩

end Expr

end OperatorRecovery
