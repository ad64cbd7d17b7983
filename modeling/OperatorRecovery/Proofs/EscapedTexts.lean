import OperatorRecovery.Proofs.LiteralReading

/-!
The bodies that escaping produces. They hold no control character, and a quote stands in them only
behind a backslash that escapes it, so a body ends no literal early and reads as what was escaped.
In an interpolated string every brace is doubled as well. Escapes have no braces and a doubled
brace is no escape: the one may be undone before the other.
-/

namespace OperatorRecovery.LiteralText

open Characters

/-- Whether the next character is escaped, from whether this one is. -/
def escapesNext (escaped : Bool) (c : Char) : Bool := !escaped && c == '\\'

def Reading.isEscape : Reading → Bool
  | .afterBackslash => true
  | _ => false

/-- The text ends in a backslash that is not escaped itself. -/
def EndsInEscape (cs : List Char) : Prop := cs.foldl escapesNext false = true

/-- Text that may stand between the quotes of a literal. -/
structure IsLiteralBody (body : List Char) : Prop where
  isControl_eq : ∀ c ∈ body, isControl c = false
  endsInEscape : ∀ before after, body = before ++ '"' :: after → EndsInEscape before

/-- The text with every brace once, if all its braces are doubled. -/
def halveBraces : List Char → Option (List Char)
  | [] => some []
  | c :: rest =>
    if c = '{' ∨ c = '}' then
      match rest with
      | [] => none
      | d :: more => if d = c then (halveBraces more).map (c :: ·) else none
    else (halveBraces rest).map (c :: ·)

section ControlCharacters

theorem isControl_digitChar : ∀ d < 16, isControl (Nat.digitChar d) = false := by decide

theorem isControl_of_mem_escapeChar (c : Char) : ∀ d ∈ escapeChar c, isControl d = false := by
  unfold escapeChar
  split
  case h_7 =>
    split
    next =>
      simp only [List.forall_mem_cons]
      exact ⟨by decide, by decide, forall_mem_fourHexDigits isControl_digitChar _⟩
    next hcontrol =>
      rw [List.forall_mem_singleton]
      exact Bool.eq_false_iff.mpr hcontrol
  all_goals
    rw [List.forall_mem_cons, List.forall_mem_singleton]
    exact ⟨by decide, by decide⟩

theorem isControl_of_mem_escapeChars (cs : List Char) :
    ∀ c ∈ escapeChars cs, isControl c = false := by
  intro c hc
  obtain ⟨d, -, hc⟩ := List.mem_flatMap.mp hc
  exact isControl_of_mem_escapeChar d c hc

theorem mem_doubleBraces_iff {c : Char} {cs : List Char} : c ∈ doubleBraces cs ↔ c ∈ cs := by
  have hdouble (d : Char) : c ∈ doubleBrace d ↔ c = d := by
    unfold doubleBrace
    split <;> simp
  rw [doubleBraces, List.mem_flatMap]
  constructor
  · rintro ⟨d, hd, hc⟩
    rwa [(hdouble d).mp hc]
  · intro hc
    exact ⟨c, hc, (hdouble c).mpr rfl⟩

end ControlCharacters

section Quotes

/-- Reading on, the next character is escaped or not as the one before says. -/
theorem exists_next_of_read {reading : Reading} {c : Char} {rest text : List Char}
    (h : read reading (c :: rest) = some text) :
    ∃ next text', read next rest = some text' ∧ next.isEscape = escapesNext reading.isEscape c := by
  -- Behind the last character of an escape, and behind a plain one, reading goes on outside.
  have hafter {d : Char} (hread : (read .outside rest).map (d :: ·) = some text)
      (hclosed : escapesNext reading.isEscape c = false) :
      ∃ next text', read next rest = some text' ∧
        next.isEscape = escapesNext reading.isEscape c := by
    obtain ⟨text', htext, -⟩ := Option.map_eq_some_iff.mp hread
    exact ⟨.outside, text', htext, hclosed.symm⟩
  cases reading with
  | outside =>
    rw [read] at h
    by_cases hbackslash : c = '\\'
    · rw [if_pos hbackslash] at h
      exact ⟨.afterBackslash, text, h, by simp [escapesNext, Reading.isEscape, hbackslash]⟩
    · rw [if_neg hbackslash] at h
      split at h
      · cases h
      · exact hafter h (by simp [escapesNext, hbackslash])
  | afterBackslash =>
    rw [read] at h
    split at h
    · exact ⟨.inCode 3 0, text, h, rfl⟩
    · obtain ⟨d, -, h⟩ := Option.bind_eq_some_iff.mp h
      exact hafter h rfl
  | inCode left value =>
    rw [read] at h
    obtain ⟨digit, hdigit, h⟩ := Option.bind_eq_some_iff.mp h
    have hbackslash : c ≠ '\\' := by
      rintro rfl
      cases hdigit
    have hclosed : escapesNext (Reading.isEscape (.inCode left value)) c = false := by
      simp [escapesNext, hbackslash]
    cases left with
    | zero =>
      obtain ⟨d, -, h⟩ := Option.bind_eq_some_iff.mp h
      exact hafter h hclosed
    | succ left => exact ⟨.inCode left (16 * value + digit), text, h, hclosed.symm⟩

/-- Reading gets past a quote only where a backslash escapes it. -/
theorem foldl_escapesNext_of_read {reading : Reading} {before after text : List Char}
    (h : read reading (before ++ '"' :: after) = some text) :
    before.foldl escapesNext reading.isEscape = true := by
  induction before generalizing reading text with
  | nil =>
    cases reading with
    | outside => cases h
    | afterBackslash => rfl
    | inCode left value => cases h
  | cons c before ih =>
    obtain ⟨next, text', hnext, hescape⟩ := exists_next_of_read h
    rw [List.foldl_cons, ← hescape]
    exact ih hnext

/-- So a body that has a reading and no control character may stand in a literal. -/
theorem isLiteralBody_of_unescape {body text : List Char} (hread : unescape body = some text)
    (hcontrol : ∀ c ∈ body, isControl c = false) : IsLiteralBody body where
  isControl_eq := hcontrol
  endsInEscape before after hbody := by
    subst hbody
    exact foldl_escapesNext_of_read hread

end Quotes

section Halving

theorem halveBraces_doubleBrace_append (c : Char) (rest : List Char) :
    halveBraces (doubleBrace c ++ rest) = (halveBraces rest).map (c :: ·) := by
  by_cases hbrace : c = '{' ∨ c = '}'
  · simp [doubleBrace, halveBraces, hbrace]
  · rw [doubleBrace, if_neg hbrace, List.singleton_append, halveBraces.eq_def]
    simp only [if_neg hbrace]

theorem halveBraces_doubleBraces (cs : List Char) : halveBraces (doubleBraces cs) = some cs := by
  induction cs with
  | nil => rfl
  | cons c cs ih =>
    have hcons : doubleBraces (c :: cs) = doubleBrace c ++ doubleBraces cs := List.flatMap_cons
    rw [hcons, halveBraces_doubleBrace_append, ih, Option.map_some]

end Halving

/-- An escaped text may stand in a literal and reads as the text. In an interpolated string it is
written with all its braces doubled, which may stand there too; reading that and then halving the
braces gives the text back. -/
theorem escape_lossless (s : String) :
    IsLiteralBody (escape s).toList ∧
    unescape (escape s).toList = some s.toList ∧
    IsLiteralBody (escapeInterpolated s).toList ∧
    halveBraces (escapeInterpolated s).toList = some (escape s).toList ∧
    (unescape (escapeInterpolated s).toList).bind halveBraces = some s.toList := by
  rw [escape, escapeInterpolated, String.toList_ofList, String.toList_ofList]
  have hread : unescape (escapeChars s.toList) = some s.toList := unescape_escapeChars s.toList
  have hdoubled : unescape (doubleBraces (escapeChars s.toList)) =
      some (doubleBraces s.toList) := by
    rw [doubleBraces_escapeChars, unescape_escapeChars]
  refine ⟨?_, hread, ?_, halveBraces_doubleBraces _, ?_⟩
  · exact isLiteralBody_of_unescape hread (isControl_of_mem_escapeChars s.toList)
  · apply isLiteralBody_of_unescape hdoubled
    intro c hc
    exact isControl_of_mem_escapeChars s.toList c (mem_doubleBraces_iff.mp hc)
  · rw [hdoubled, Option.bind_some, halveBraces_doubleBraces]

end OperatorRecovery.LiteralText
