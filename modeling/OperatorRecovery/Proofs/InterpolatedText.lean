import Mathlib.Data.List.Basic
import OperatorRecovery.Proofs.FormatPlans
import OperatorRecovery.Proofs.LiteralReading
import OperatorRecovery.SourceText

/-!
The text of an interpolated string that is built from a planned format over plain names.
Its text parts are escaped, and so the body reads as them with their braces doubled. A
format stands in its slot as it is: the body reads as the slots too exactly when no
format has a quote or a backslash.
-/

namespace OperatorRecovery.FormatPlan

open CompositeFormat LiteralText

/-- A slot over a name. -/
def slotText (name : List Char) (spec : Option (List Char)) : List Char :=
  '{' :: (name ++ (spec.elim [] (':' :: ·) ++ ['}']))

/-- What a segment should read as over names for the arguments. -/
def Segment.meant (names : List String) : Segment → List Char
  | .text cs => doubleBraces cs
  | .argument index spec => slotText (names.getD index "").toList spec

/-- What is printed for it. -/
def Segment.printed (names : List String) : Segment → List Char
  | .text cs => doubleBraces (escapeChars cs)
  | .argument index spec => slotText (names.getD index "").toList spec

/-- The format of a slot is free of quotes and backslashes. -/
def Segment.IsReadable : Segment → Prop
  | .argument _ (some spec) => IsUnescaped spec
  | _ => True

instance : DecidablePred Segment.IsReadable
  | .argument _ (some spec) => inferInstanceAs (Decidable (IsUnescaped spec))
  | .argument _ none | .text _ => inferInstanceAs (Decidable True)

section Printing

variable {names : List String} {segments : List Segment}

theorem toList_print_piece? (segment : Segment)
    (h : ∀ index ∈ segment.index?, index < names.length) :
    ((segment.piece? (names.map fun name => .ofForm (.identifier name))).toList.flatMap
      fun piece => (piece.map Expr.print).print.toList) = segment.printed names := by
  cases segment with
  | text cs => simp [Segment.piece?, Segment.printed, Piece.map, Piece.print, escapeInterpolated]
  | argument index spec =>
    have hindex : index < names.length := h index rfl
    have hshielded : shielded (.ofForm (.identifier names[index])) =
        .ofForm (.identifier names[index]) := rfl
    have hname : (Expr.print (.ofForm (.identifier names[index]))).text = names[index] := by
      rw [Expr.ofForm, Expr.print_mk]
      rfl
    rw [Segment.piece?, List.getElem?_map, List.getElem?_eq_getElem hindex, Segment.printed,
      List.getD_eq_getElem?_getD, List.getElem?_eq_getElem hindex]
    cases spec <;>
      simp [hshielded, hname, Piece.map, Piece.print, Piece.formatText, slotText]

/-- The text is a body between the quotes of an interpolated string. -/
theorem text_interpolated (h : Orderly names.length 0 segments) (annotations : Annotations) :
    Expr.text ⟨.interpolated (build segments (names.map fun name => .ofForm (.identifier name))),
        annotations⟩ =
      "$\"" ++ String.ofList (segments.flatMap (Segment.printed names)) ++ "\"" := by
  have hlength : Orderly (names.map fun name => Expr.ofForm (.identifier name)).length 0 segments := by
    rwa [List.length_map]
  have hbody : String.join (((build segments (names.map fun name =>
      .ofForm (.identifier name))).map (Piece.map Expr.print)).map Piece.print) =
        String.ofList (segments.flatMap (Segment.printed names)) := by
    rw [← String.toList_inj, String.toList_join, String.toList_ofList, List.map_map,
      List.flatMap_map, build_eq_filterMap hlength, List.filterMap_eq_flatMap_toList,
      List.flatMap_assoc]
    exact List.flatMap_congr fun segment hsegment =>
      toList_print_piece? segment (h.index_lt hsegment)
  rw [Expr.text, Expr.print_mk, Form.map, Form.print, Form.text, hbody]

end Printing

section Reading

variable {names : List String} {segments : List Segment} {segment : Segment}

theorem unescape_printed_text (cs : List Char) :
    unescape ((Segment.text cs).printed names) = some ((Segment.text cs).meant names) := by
  rw [Segment.printed, Segment.meant, doubleBraces_escapeChars, unescape_escapeChars]

/-- A segment is read on its own, whatever stands behind it. -/
theorem unescape_printed_append (segment : Segment) (rest : List Char) :
    unescape (segment.printed names ++ rest) =
      (unescape (segment.printed names)).bind fun text => (unescape rest).map (text ++ ·) := by
  cases segment with
  | text cs =>
    rw [unescape_printed_text, Option.bind_some, Segment.printed, Segment.meant,
      doubleBraces_escapeChars, unescape_escapeChars_append]
  | argument index spec =>
    have hslot : (Segment.argument index spec).printed names =
        '{' :: ((names.getD index "").toList ++ spec.elim [] (':' :: ·)) ++ ['}'] := by
      simp [Segment.printed, slotText]
    rw [hslot, List.append_assoc, List.singleton_append, unescape_append_brace]

/-- What a segment reads as is no longer than it should be, and shorter where its format
is not readable. -/
theorem length_unescape_printed {text : List Char}
    (h : unescape (segment.printed names) = some text) :
    text.length ≤ (segment.meant names).length ∧
      (text.length = (segment.meant names).length → segment.IsReadable) := by
  cases segment with
  | text cs =>
    rw [unescape_printed_text, Option.some.injEq] at h
    exact ⟨h ▸ Nat.le_refl _, fun _ => trivial⟩
  | argument index spec =>
    obtain ⟨hle, hunescaped⟩ := length_unescape h
    refine ⟨hle, fun hlength => ?_⟩
    cases spec with
    | none => trivial
    | some cs =>
      intro c hc
      apply hunescaped hlength c
      simp [Segment.printed, slotText, hc]

theorem unescape_printed_of_isReadable (hnames : ∀ name ∈ names, IsUnescaped name.toList)
    (h : segment.IsReadable) : unescape (segment.printed names) = some (segment.meant names) := by
  cases segment with
  | text cs => exact unescape_printed_text cs
  | argument index spec =>
    have hname : IsUnescaped (names.getD index "").toList := by
      rw [List.getD_eq_getElem?_getD]
      cases hindex : names[index]? with
      | none => exact List.forall_mem_nil _
      | some name => exact hnames name (List.mem_of_getElem? hindex)
    have hspec : IsUnescaped (spec.elim [] (':' :: ·)) := by
      cases spec with
      | none => exact List.forall_mem_nil _
      | some cs => exact List.forall_mem_cons.mpr ⟨by decide, h⟩
    have hslot : IsUnescaped (slotText (names.getD index "").toList spec) := by
      simp only [IsUnescaped, slotText, List.forall_mem_cons, List.forall_mem_append]
      exact ⟨by simp, hname, hspec, by simp⟩
    exact unescape_eq_self_iff.mpr hslot

theorem length_unescape_printed_flatMap {text : List Char}
    (h : unescape (segments.flatMap (Segment.printed names)) = some text) :
    text.length ≤ (segments.flatMap (Segment.meant names)).length ∧
      (text.length = (segments.flatMap (Segment.meant names)).length →
        ∀ segment ∈ segments, segment.IsReadable) := by
  induction segments generalizing text with
  | nil =>
    cases h
    exact ⟨Nat.le_refl 0, fun _ => List.forall_mem_nil _⟩
  | cons segment segments ih =>
    rw [List.flatMap_cons, unescape_printed_append] at h
    obtain ⟨first, hfirst, h⟩ := Option.bind_eq_some_iff.mp h
    obtain ⟨rest, hrest, rfl⟩ := Option.map_eq_some_iff.mp h
    obtain ⟨hfirstLe, hsegment⟩ := length_unescape_printed hfirst
    obtain ⟨hrestLe, hsegments⟩ := ih hrest
    rw [List.flatMap_cons, List.length_append, List.length_append]
    refine ⟨Nat.add_le_add hfirstLe hrestLe, fun hlength => List.forall_mem_cons.mpr ⟨?_, ?_⟩⟩
    · exact hsegment (by omega)
    · exact hsegments (by omega)

theorem unescape_printed_flatMap_iff (hnames : ∀ name ∈ names, IsUnescaped name.toList) :
    unescape (segments.flatMap (Segment.printed names)) =
        some (segments.flatMap (Segment.meant names)) ↔
      ∀ segment ∈ segments, segment.IsReadable := by
  constructor
  · intro h
    exact (length_unescape_printed_flatMap h).2 rfl
  · intro h
    induction segments with
    | nil => rfl
    | cons segment segments ih =>
      obtain ⟨hsegment, hsegments⟩ := List.forall_mem_cons.mp h
      rw [List.flatMap_cons, unescape_printed_append, unescape_printed_of_isReadable hnames hsegment,
        Option.bind_some, ih hsegments]
      rfl

end Reading

/-- The body of an interpolated string over plain names reads as its text with doubled braces
and its slots exactly when no planned format has a quote or a backslash. -/
theorem unescape_build_iff {format : List Char} {names : List String} {segments : List Segment}
    (planned : plan format names.length = .ok segments)
    (plain : ∀ name ∈ names, IsUnescaped name.toList) (annotations : Annotations) :
    ∃ body, Expr.text ⟨.interpolated (build segments (names.map fun name =>
        .ofForm (.identifier name))), annotations⟩ = "$\"" ++ String.ofList body ++ "\"" ∧
      (unescape body = some (segments.flatMap (Segment.meant names)) ↔
        ∀ segment ∈ segments, segment.IsReadable) :=
  ⟨segments.flatMap (Segment.printed names),
    text_interpolated (plan_eq_ok_iff.mp planned).2 annotations, unescape_printed_flatMap_iff plain⟩

/-- The text `say "` and a line break, `a`, a colon and `b` with two digits, all between braces. -/
theorem unescape_build_quotedText :
    let format := "\x7b\x7bsay \"\n\x7b0\x7d:\x7b1:N2\x7d\x7d\x7d".toList
    let segments : List Segment := [.text "\x7bsay \"\n".toList, .argument 0 none,
      .text [':'], .argument 1 (some ['N', '2']), .text ['\x7d']]
    plan format 2 = .ok segments ∧ (∀ name ∈ ["a", "b"], IsUnescaped name.toList) ∧
      ∃ body, Expr.text ⟨.interpolated (build segments
          [.ofForm (.identifier "a"), .ofForm (.identifier "b")]), []⟩ =
            "$\"" ++ String.ofList body ++ "\"" ∧
        unescape body = some "\x7b\x7bsay \"\n\x7ba\x7d:\x7bb:N2\x7d\x7d\x7d".toList := by
  intro format segments
  have planned : plan format ["a", "b"].length = .ok segments := rfl
  have plain : ∀ name ∈ ["a", "b"], IsUnescaped name.toList := by decide
  obtain ⟨body, htext, hread⟩ := unescape_build_iff planned plain []
  exact ⟨planned, plain, body, htext, hread.mpr (by decide)⟩

/-- A quote as the format of a slot ends the literal early. -/
theorem unescape_build_quotedFormat :
    plan "\x7b0:\"\x7d".toList 1 = .ok [.argument 0 (some ['"'])] ∧
      Expr.text ⟨.interpolated (build [.argument 0 (some ['"'])] [.ofForm (.identifier "x")]), []⟩ =
        "$\"" ++ "\x7bx:\"\x7d" ++ "\"" ∧
      unescape "\x7bx:\"\x7d".toList = none :=
  ⟨rfl, rfl, rfl⟩

end OperatorRecovery.FormatPlan
