import Mathlib.Data.List.Basic
import OperatorRecovery.JsonReader
import OperatorRecovery.LiteralText

/-!
Reading the body of a string literal. A backslash begins an escape, which is one
character or the letter `u` and four hexadecimal digits; a bare quote has no reading.
Escaping a text gives a body that reads as the text, whatever stands behind it. Any
other body reads as itself only where it has neither a quote nor a backslash.
-/

namespace OperatorRecovery.LiteralText

open JsonReader (hexValue)

/-- Where reading stands. Inside a code some digits are left, and the others give a value. -/
inductive Reading
  | outside
  | afterBackslash
  | inCode (left value : Nat)

def shortEscape? : Char → Option Char
  | '"' => some '"'
  | '\\' => some '\\'
  | 'n' => some '\n'
  | 'r' => some '\r'
  | 't' => some '\t'
  | '0' => some '\x00'
  | _ => none

/-- The character of a code; half of a surrogate pair is none. -/
def ofCode? (code : Nat) : Option Char :=
  if 0xd800 ≤ code ∧ code < 0xe000 then none else some (Char.ofNat code)

def read : Reading → List Char → Option (List Char)
  | .outside, [] => some []
  | .afterBackslash, [] | .inCode _ _, [] => none
  | .outside, c :: rest =>
    if c = '\\' then read .afterBackslash rest
    else if c = '"' then none
    else (read .outside rest).map (c :: ·)
  | .afterBackslash, c :: rest =>
    if c = 'u' then read (.inCode 3 0) rest
    else (shortEscape? c).bind fun d => (read .outside rest).map (d :: ·)
  | .inCode left value, c :: rest =>
    (hexValue c).bind fun digit =>
      match left with
      | 0 => (ofCode? (16 * value + digit)).bind fun d => (read .outside rest).map (d :: ·)
      | left + 1 => read (.inCode left (16 * value + digit)) rest

/-- The text that a body stands for, if its escapes are valid. -/
def unescape (body : List Char) : Option (List Char) := read .outside body

/-- Neither a quote nor a backslash. -/
def IsUnescaped (cs : List Char) : Prop := ∀ c ∈ cs, c ≠ '"' ∧ c ≠ '\\'

instance (cs : List Char) : Decidable (IsUnescaped cs) :=
  List.decidableBAll (fun c => c ≠ '"' ∧ c ≠ '\\') cs

theorem unescape_nil : unescape [] = some [] := rfl

theorem unescape_cons {c : Char} (hquote : c ≠ '"') (hbackslash : c ≠ '\\') (rest : List Char) :
    unescape (c :: rest) = (unescape rest).map (c :: ·) := by
  rw [unescape, read, if_neg hbackslash, if_neg hquote]
  rfl

theorem unescape_append_of_isUnescaped {cs : List Char} (h : IsUnescaped cs) (rest : List Char) :
    unescape (cs ++ rest) = (unescape rest).map (cs ++ ·) := by
  induction cs with
  | nil => simp
  | cons c cs ih =>
    obtain ⟨⟨hquote, hbackslash⟩, hcs⟩ := List.forall_mem_cons.mp h
    rw [List.cons_append, unescape_cons hquote hbackslash, ih hcs, Option.map_map]
    rfl

section Escapes

theorem hexValue_digitChar : ∀ d < 16, hexValue (Nat.digitChar d) = some d := by decide

/-- What holds of every hexadecimal digit holds of the four that are written. -/
theorem forall_mem_fourHexDigits {P : Char → Prop} (h : ∀ d < 16, P (Nat.digitChar d))
    (code : Nat) : ∀ c ∈ fourHexDigits code, P c := by
  have hdigit (d : Nat) : P (Nat.digitChar (d % 16)) := h _ (Nat.mod_lt _ (by decide))
  simp only [fourHexDigits, List.forall_mem_cons]
  exact ⟨hdigit _, hdigit _, hdigit _, hdigit _, List.forall_mem_nil _⟩

/-- Four digits read as the code that they spell. -/
theorem read_fourHexDigits {code : Nat} (hcode : code < 0xd800) (rest : List Char) :
    read (.inCode 3 0) (fourHexDigits code ++ rest) =
      (unescape rest).map (Char.ofNat code :: ·) := by
  have hdigit (d : Nat) : hexValue (Nat.digitChar (d % 16)) = some (d % 16) :=
    hexValue_digitChar _ (Nat.mod_lt _ (by decide))
  have hvalue : 16 * (16 * (16 * (16 * 0 + code / 4096 % 16) + code / 256 % 16) +
      code / 16 % 16) + code % 16 = code := by omega
  have hpair : ¬ (0xd800 ≤ code ∧ code < 0xe000) := by omega
  simp only [fourHexDigits, List.cons_append, List.nil_append, read, hdigit, Option.bind_some,
    hvalue, ofCode?, if_neg hpair]
  rfl

/-- A character stands for itself, has a short escape, or is escaped by its code. -/
theorem escapeChar_cases (c : Char) :
    (escapeChar c = [c] ∧ c ≠ '"' ∧ c ≠ '\\') ∨
      (∃ letter, escapeChar c = ['\\', letter] ∧ letter ≠ 'u' ∧ shortEscape? letter = some c) ∨
      (escapeChar c = '\\' :: 'u' :: fourHexDigits c.toNat ∧ c.toNat < 0xd800) := by
  unfold escapeChar
  split
  case h_7 hquote hbackslash _ _ _ _ =>
    split
    · rename_i hcontrol
      simp only [Characters.isControl, Bool.or_eq_true, Bool.and_eq_true, decide_eq_true_eq]
        at hcontrol
      exact Or.inr (Or.inr ⟨rfl, by omega⟩)
    · exact Or.inl ⟨rfl, hquote, hbackslash⟩
  all_goals exact Or.inr (Or.inl ⟨_, rfl, by decide, rfl⟩)

theorem unescape_escapeChar (c : Char) (rest : List Char) :
    unescape (escapeChar c ++ rest) = (unescape rest).map (c :: ·) := by
  rcases escapeChar_cases c with ⟨hescape, hquote, hbackslash⟩ | ⟨letter, hescape, hletter, hshort⟩ |
    ⟨hescape, hcode⟩
  · rw [hescape]
    exact unescape_cons hquote hbackslash rest
  · have hread : unescape ('\\' :: letter :: rest) = read .afterBackslash (letter :: rest) := rfl
    rw [hescape, List.cons_append, List.singleton_append, hread, read, if_neg hletter, hshort]
    rfl
  · have hread := read_fourHexDigits hcode rest
    rw [Char.ofNat_toNat] at hread
    rw [hescape]
    exact hread

/-- An escaped text reads as the text. -/
theorem unescape_escapeChars_append (cs rest : List Char) :
    unescape (escapeChars cs ++ rest) = (unescape rest).map (cs ++ ·) := by
  induction cs with
  | nil => simp [escapeChars]
  | cons c cs ih =>
    have hcons : escapeChars (c :: cs) = escapeChar c ++ escapeChars cs := List.flatMap_cons
    rw [hcons, List.append_assoc, unescape_escapeChar, ih, Option.map_map]
    rfl

theorem unescape_escapeChars (cs : List Char) : unescape (escapeChars cs) = some cs := by
  have happend := unescape_escapeChars_append cs []
  rwa [List.append_nil, unescape_nil, Option.map_some, List.append_nil] at happend

end Escapes

section Braces

theorem doubleBraces_eq_self {cs : List Char} (h : ∀ c ∈ cs, c ≠ '{' ∧ c ≠ '}') :
    doubleBraces cs = cs := by
  induction cs with
  | nil => rfl
  | cons c cs ih =>
    obtain ⟨hc, hcs⟩ := List.forall_mem_cons.mp h
    have hcons : doubleBraces (c :: cs) = doubleBrace c ++ doubleBraces cs := List.flatMap_cons
    rw [hcons, ih hcs, doubleBrace, if_neg (not_or.mpr hc)]
    rfl

theorem digitChar_ne_brace : ∀ d < 16, Nat.digitChar d ≠ '{' ∧ Nat.digitChar d ≠ '}' := by decide

theorem fourHexDigits_ne_brace (code : Nat) : ∀ c ∈ fourHexDigits code, c ≠ '{' ∧ c ≠ '}' :=
  forall_mem_fourHexDigits digitChar_ne_brace code

/-- Escapes have no braces, and braces are not escaped. -/
theorem doubleBraces_escapeChar (c : Char) :
    doubleBraces (escapeChar c) = escapeChars (doubleBrace c) := by
  by_cases hbrace : c = '{' ∨ c = '}'
  · rcases hbrace with rfl | rfl <;> rfl
  · have hescape : ∀ d ∈ escapeChar c, d ≠ '{' ∧ d ≠ '}' := by
      rcases escapeChar_cases c with ⟨hescape, _, _⟩ | ⟨letter, hescape, _, hshort⟩ | ⟨hescape, _⟩
      · rw [hescape, List.forall_mem_singleton]
        exact not_or.mp hbrace
      · rw [hescape, List.forall_mem_cons, List.forall_mem_singleton]
        refine ⟨by decide, ?_, ?_⟩
        · rintro rfl
          cases hshort
        · rintro rfl
          cases hshort
      · rw [hescape, List.forall_mem_cons, List.forall_mem_cons]
        exact ⟨by decide, by decide, fourHexDigits_ne_brace _⟩
    rw [doubleBraces_eq_self hescape, doubleBrace, if_neg hbrace, escapeChars,
      List.flatMap_singleton]

theorem doubleBraces_escapeChars (cs : List Char) :
    doubleBraces (escapeChars cs) = escapeChars (doubleBraces cs) := by
  rw [doubleBraces, escapeChars, List.flatMap_assoc, escapeChars, doubleBraces, List.flatMap_assoc]
  exact List.flatMap_congr fun c _ => doubleBraces_escapeChar c

/-- No escape reaches over a closing brace. -/
theorem read_append_brace (reading : Reading) (cs rest : List Char) :
    read reading (cs ++ '}' :: rest) =
      (read reading cs).bind fun text => (unescape rest).map (text ++ '}' :: ·) := by
  induction cs generalizing reading with
  | nil => cases reading <;> rfl
  | cons c cs ih =>
    -- Every reading that ends at the first character puts one before what is read next.
    have hafter (d : Char) : (read .outside (cs ++ '}' :: rest)).map (d :: ·) =
        ((read .outside cs).map (d :: ·)).bind fun text =>
          (unescape rest).map (text ++ '}' :: ·) := by
      rw [ih, Option.map_bind, Option.bind_map]
      simp only [Function.comp_def, Option.map_map, List.cons_append]
    cases reading with
    | outside =>
      rw [List.cons_append, read, read]
      split
      · exact ih .afterBackslash
      · split
        · rfl
        · exact hafter c
    | afterBackslash =>
      rw [List.cons_append, read, read]
      split
      · exact ih (.inCode 3 0)
      · simp only [Option.bind_assoc, hafter]
    | inCode left value =>
      rw [List.cons_append, read, read, Option.bind_assoc]
      congr 1
      funext digit
      cases left with
      | zero => simp only [Option.bind_assoc, hafter]
      | succ left => exact ih (.inCode left (16 * value + digit))

/-- So what stands behind the brace is read on its own. -/
theorem unescape_append_brace (cs rest : List Char) :
    unescape (cs ++ '}' :: rest) =
      (unescape (cs ++ ['}'])).bind fun text => (unescape rest).map (text ++ ·) := by
  rw [unescape, unescape, read_append_brace, read_append_brace, Option.bind_assoc]
  simp only [unescape_nil, Option.map_some, Option.bind_some, List.append_assoc,
    List.singleton_append]

end Braces

section Lengths

/-- Reading makes no text longer than its body. -/
theorem length_le_of_read {reading : Reading} {cs text : List Char}
    (h : read reading cs = some text) : text.length ≤ cs.length := by
  induction cs generalizing reading text with
  | nil =>
    cases reading with
    | outside =>
      cases h
      exact Nat.le_refl 0
    | afterBackslash => cases h
    | inCode => cases h
  | cons c cs ih =>
    have hafter {d : Char} (hread : (read .outside cs).map (d :: ·) = some text) :
        text.length ≤ (c :: cs).length := by
      obtain ⟨text', htext, rfl⟩ := Option.map_eq_some_iff.mp hread
      exact Nat.succ_le_succ (ih htext)
    cases reading with
    | outside =>
      rw [read] at h
      split at h
      · exact Nat.le_succ_of_le (ih h)
      · split at h
        · cases h
        · exact hafter h
    | afterBackslash =>
      rw [read] at h
      split at h
      · exact Nat.le_succ_of_le (ih h)
      · obtain ⟨d, _, hread⟩ := Option.bind_eq_some_iff.mp h
        exact hafter hread
    | inCode left value =>
      rw [read] at h
      obtain ⟨digit, _, h⟩ := Option.bind_eq_some_iff.mp h
      cases left with
      | zero =>
        obtain ⟨d, _, hread⟩ := Option.bind_eq_some_iff.mp h
        exact hafter hread
      | succ left => exact Nat.le_succ_of_le (ih h)

/-- Only a text without quotes and backslashes keeps its length. -/
theorem length_unescape {cs text : List Char} (h : unescape cs = some text) :
    text.length ≤ cs.length ∧ (text.length = cs.length → IsUnescaped cs) := by
  refine ⟨length_le_of_read h, ?_⟩
  induction cs generalizing text with
  | nil => exact fun _ => List.forall_mem_nil _
  | cons c cs ih =>
    intro hlength
    rw [unescape, read] at h
    split at h
    · have hshorter := length_le_of_read h
      rw [List.length_cons] at hlength
      omega
    · rename_i hbackslash
      split at h
      · cases h
      · rename_i hquote
        obtain ⟨text', htext, rfl⟩ := Option.map_eq_some_iff.mp h
        exact List.forall_mem_cons.mpr ⟨⟨hquote, hbackslash⟩, ih htext (Nat.succ.inj hlength)⟩

theorem unescape_eq_self_iff {cs : List Char} : unescape cs = some cs ↔ IsUnescaped cs := by
  constructor
  · intro h
    exact (length_unescape h).2 rfl
  · intro h
    have happend := unescape_append_of_isUnescaped h []
    rwa [List.append_nil, unescape_nil, Option.map_some, List.append_nil] at happend

end Lengths

end OperatorRecovery.LiteralText
