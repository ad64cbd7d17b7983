import Mathlib.Data.List.Basic
import Mathlib.Data.List.TakeWhile
import OperatorRecovery.JsonReader
import OperatorRecovery.JsonText

/-!
What the JSON reader makes of printed JSON. The text of a value splits into the tokens of
the value whatever the indentation is, and the tokens build the value again on top of
whatever is open. So a printed text reads as the value that it was printed from, as long
as that value can be written at all: its integers fit into 64 bits, its floating-point
numbers are finite, and their decimal texts read back.
-/

namespace OperatorRecovery

namespace FloatText

/-- The digits, signs and marks that decimal texts are made of. -/
def isNumeral (c : Char) : Bool := c.isDigit || ['-', '+', '.', 'e'].contains c

theorem isNumeral_of_isDigit {c : Char} (h : c.isDigit = true) : isNumeral c = true := by
  rw [isNumeral, h, Bool.true_or]

theorem isNumeral_of_mem_toDigits {n : Nat} : ∀ c ∈ Nat.toDigits 10 n, isNumeral c = true :=
  fun _ hc => isNumeral_of_isDigit (Nat.isDigit_of_mem_toDigits (by decide) (by decide) hc)

theorem isNumeral_of_mem_int (n : Int) : ∀ c ∈ (toString n).toList, isNumeral c = true := by
  have hdigits : ∀ n : Nat, ∀ c ∈ n.repr.toList, isNumeral c = true := by
    intro n
    rw [Nat.repr_eq_ofList_toDigits, String.toList_ofList]
    exact isNumeral_of_mem_toDigits
  show ∀ c ∈ n.repr.toList, _
  rw [Int.repr_eq_if]
  split
  · exact hdigits _
  · rw [String.toList_append]
    exact List.forall_mem_append.mpr ⟨List.all_eq_true.mp (by decide), hdigits _⟩

theorem isNumeral_of_mem_zeros {n : Nat} : ∀ c ∈ zeros n, isNumeral c = true := by
  intro c hc
  rw [List.eq_of_mem_replicate hc]
  rfl

theorem isNumeral_of_mem_positional (d : ShortestDecimal.Decimal) :
    ∀ c ∈ positional d, isNumeral c = true := by
  have hdigits := @isNumeral_of_mem_toDigits d.digits
  rw [positional]
  split
  · simp only [List.forall_mem_append]
    exact ⟨⟨hdigits, isNumeral_of_mem_zeros⟩, List.all_eq_true.mp (by decide)⟩
  · split
    · simp only [List.forall_mem_append, List.forall_mem_cons]
      exact ⟨fun c hc => hdigits c (List.mem_of_mem_take hc), rfl,
        fun c hc => hdigits c (List.mem_of_mem_drop hc)⟩
    · simp only [List.forall_mem_append]
      exact ⟨⟨List.all_eq_true.mp (by decide), isNumeral_of_mem_zeros⟩, hdigits⟩

theorem isNumeral_of_mem_scientific (d : ShortestDecimal.Decimal) :
    ∀ c ∈ scientific d, isNumeral c = true := by
  have htail : ∀ power, ∀ c ∈ exponentPart power, isNumeral c = true := by
    intro power
    rw [exponentPart]
    simp only [List.forall_mem_cons]
    exact ⟨rfl, by split <;> rfl, isNumeral_of_mem_toDigits⟩
  have hdigits := @isNumeral_of_mem_toDigits d.digits
  rw [scientific]
  split
  · exact htail _
  · rename_i c hd
    rw [hd] at hdigits
    exact List.forall_mem_cons.mpr ⟨hdigits c List.mem_cons_self, htail _⟩
  · rename_i c rest _ hd
    rw [hd] at hdigits
    simp only [List.cons_append, List.forall_mem_cons, List.forall_mem_append]
    exact ⟨hdigits c List.mem_cons_self, rfl,
      fun c' hc' => hdigits c' (List.mem_cons_of_mem c hc'), htail _⟩

theorem isNumeral_of_mem_json (x : Float) : ∀ c ∈ (json x).toList, isNumeral c = true := by
  have hsigned : ∀ text : List Char, (∀ c ∈ text, isNumeral c = true) →
      ∀ c ∈ signed x text, isNumeral c = true := by
    intro text htext
    rw [signed]
    split
    · exact List.forall_mem_cons.mpr ⟨rfl, htext⟩
    · exact htext
  rw [json, String.toList_ofList]
  apply hsigned
  split
  · exact List.all_eq_true.mp (by decide)
  · split
    · exact isNumeral_of_mem_positional _
    · exact isNumeral_of_mem_scientific _

end FloatText

namespace JsonReader

namespace Lexer

/-- The tokens up to a place where a word may end, in reverse. -/
def settle (lexer : Lexer) : Option (List Token) :=
  match lexer.place with
  | .outside => some lexer.tokens
  | .inWord text => closeWord lexer.tokens text
  | _ => none

theorem finish_eq (lexer : Lexer) : lexer.finish = lexer.settle.map List.reverse := by
  obtain ⟨place, tokens⟩ := lexer
  cases place <;> rfl

/-- A word ends where something else begins. -/
theorem step_of_endsWord {lexer : Lexer} {settled : List Token} (h : lexer.settle = some settled)
    {c : Char} (hc : endsWord c = true) : lexer.step c = some (outside settled c) := by
  obtain ⟨place, tokens⟩ := lexer
  cases place with
  | outside =>
    cases h
    rfl
  | inWord text =>
    have hclose : closeWord tokens text = some settled := h
    show (if endsWord c then (closeWord tokens text).map (outside · c) else _) = _
    rw [if_pos hc, hclose]
    rfl
  | _ => cases h

/-- Characters that end no word go into the word. -/
theorem foldlM_plain {text : List Char} (hne : text ≠ [])
    (hplain : ∀ c ∈ text, endsWord c = false) (tokens : List Token) :
    text.foldlM step ⟨.outside, tokens⟩ = some ⟨.inWord text.reverse, tokens⟩ := by
  have hinside : ∀ (rest begun : List Char), (∀ c ∈ rest, endsWord c = false) →
      rest.foldlM step ⟨.inWord begun, tokens⟩ = some ⟨.inWord (rest.reverse ++ begun), tokens⟩ := by
    intro rest
    induction rest with
    | nil => exact fun _ _ => rfl
    | cons c rest ih =>
      intro begun h
      have hc : step ⟨.inWord begun, tokens⟩ c = some ⟨.inWord (c :: begun), tokens⟩ := by
        show (if endsWord c then _ else _) = _
        rw [h c List.mem_cons_self, if_neg Bool.false_ne_true]
      have hrest := ih (c :: begun) fun d hd => h d (List.mem_cons_of_mem c hd)
      rw [List.foldlM_cons, hc, List.reverse_cons, List.append_assoc]
      exact hrest
  cases text with
  | nil => exact absurd rfl hne
  | cons c rest =>
    have hc := hplain c List.mem_cons_self
    simp only [endsWord, Bool.or_eq_false_iff, decide_eq_false_iff_not,
      Option.isSome_eq_false_iff, Option.isNone_iff_eq_none] at hc
    have hfirst : step ⟨.outside, tokens⟩ c = some ⟨.inWord [c], tokens⟩ := by
      show some (outside tokens c) = _
      rw [outside, hc.1.1, if_neg Bool.false_ne_true, if_neg hc.1.2, hc.2]
    rw [List.foldlM_cons, hfirst, List.reverse_cons]
    exact hinside rest [c] fun d hd => hplain d (List.mem_cons_of_mem c hd)

/-- A text splits into tokens, with a word at its end that may still go on. -/
def Lexes (text : List Char) (added : List Token) : Prop :=
  ∀ tokens, ∃ lexer, text.foldlM step ⟨.outside, tokens⟩ = some lexer ∧
    lexer.settle = some (added.reverse ++ tokens)

namespace Lexes

variable {text rest : List Char} {added more : List Token}

theorem nil : Lexes [] [] := fun tokens => ⟨⟨.outside, tokens⟩, rfl, rfl⟩

theorem space {c : Char} (htext : Lexes text added) (hc : isSpace c = true)
    (hrest : Lexes rest more) : Lexes (text ++ c :: rest) (added ++ more) := by
  intro tokens
  obtain ⟨lexer, hfold, hsettle⟩ := htext tokens
  obtain ⟨lexer', hfold', hsettle'⟩ := hrest (added.reverse ++ tokens)
  have hends : endsWord c = true := by rw [endsWord, hc, Bool.true_or, Bool.true_or]
  have hstep : lexer.step c = some ⟨.outside, added.reverse ++ tokens⟩ := by
    rw [step_of_endsWord hsettle hends, outside, if_pos hc]
  refine ⟨lexer', ?_, ?_⟩
  · rw [List.foldlM_append, hfold]
    show (lexer.step c).bind (rest.foldlM step) = _
    rw [hstep]
    exact hfold'
  · rw [hsettle', List.reverse_append, List.append_assoc]

theorem mark {c : Char} {token : Token} (htext : Lexes text added)
    (hc : punctuation c = some token) (hrest : Lexes rest more) :
    Lexes (text ++ c :: rest) (added ++ token :: more) := by
  intro tokens
  obtain ⟨lexer, hfold, hsettle⟩ := htext tokens
  obtain ⟨lexer', hfold', hsettle'⟩ := hrest (token :: (added.reverse ++ tokens))
  have hends : endsWord c = true := by rw [endsWord, hc, Option.isSome_some, Bool.or_true]
  have hblank : isSpace c = false ∧ c ≠ '"' := by
    unfold punctuation at hc
    split at hc <;> first | decide | cases hc
  have hstep : lexer.step c = some ⟨.outside, token :: (added.reverse ++ tokens)⟩ := by
    rw [step_of_endsWord hsettle hends, outside, hblank.1, if_neg Bool.false_ne_true,
      if_neg hblank.2, hc]
  refine ⟨lexer', ?_, ?_⟩
  · rw [List.foldlM_append, hfold]
    show (lexer.step c).bind (rest.foldlM step) = _
    rw [hstep]
    exact hfold'
  · rw [hsettle', List.reverse_append, List.reverse_cons, List.append_assoc, List.append_assoc,
      List.singleton_append]

theorem blanks (h : Lexes text added) (count : Nat) :
    Lexes (List.replicate count ' ' ++ text) added := by
  induction count with
  | zero => exact h
  | succ count ih => exact nil.space rfl ih

theorem newLine (htext : Lexes text added) (level : Nat) (hrest : Lexes rest more) :
    Lexes (text ++ ((Json.newLine level).toList ++ rest)) (added ++ more) := by
  rw [Json.newLine, String.toList_ofList]
  exact htext.space rfl (hrest.blanks (2 * level))

/-- A run of characters that end no word is the word that it spells. -/
theorem word {value : Json} (hplain : ∀ c ∈ text, endsWord c = false)
    (hword : JsonReader.word text = some value) : Lexes text [.scalar value] := by
  have hne : text ≠ [] := by
    rintro rfl
    cases hword
  intro tokens
  refine ⟨_, foldlM_plain hne hplain tokens, ?_⟩
  show closeWord tokens text.reverse = _
  rw [closeWord, List.reverse_reverse, hword]
  rfl

end Lexes

section Strings

theorem hexValue_digitChar : ∀ n < 16, hexValue (Nat.digitChar n) = some n := by decide

/-- What the escape of a character adds to a string. -/
theorem foldlM_escapeChar (c : Char) (units : List Nat) (tokens : List Token) :
    (Json.escapeChar c).foldlM step ⟨.inString units, tokens⟩ =
      some ⟨.inString (c.toNat :: units), tokens⟩ := by
  unfold Json.escapeChar
  split
  case h_8 _ hquote hbackslash _ _ _ _ _ =>
    by_cases hcontrol : c.toNat < 0x20
    · have hhigh : step ⟨.inEscape units 1 0, tokens⟩ (Nat.digitChar (c.toNat / 16)) =
          some ⟨.inEscape units 0 (c.toNat / 16), tokens⟩ := by
        simp [step, hexValue_digitChar (c.toNat / 16) (by omega)]
      have hlow : step ⟨.inEscape units 0 (c.toNat / 16), tokens⟩ (Nat.digitChar (c.toNat % 16)) =
          some ⟨.inString (c.toNat :: units), tokens⟩ := by
        simp [step, hexValue_digitChar (c.toNat % 16) (by omega)]
        omega
      rw [if_pos hcontrol]
      show ((step ⟨.inEscape units 1 0, tokens⟩ _).bind fun lexer =>
        [Nat.digitChar (c.toNat % 16)].foldlM step lexer) = _
      rw [hhigh]
      show ((step ⟨.inEscape units 0 (c.toNat / 16), tokens⟩ _).bind some) = _
      rw [hlow]
      rfl
    · rw [if_neg hcontrol, List.foldlM_cons]
      have hstep : step ⟨.inString units, tokens⟩ c =
          some ⟨.inString (c.toNat :: units), tokens⟩ := by
        show (if c = '"' then _ else if c = '\\' then _ else if c.toNat < 0x20 then _ else _) = _
        rw [if_neg hquote, if_neg hbackslash, if_neg hcontrol]
      rw [hstep]
      rfl
  all_goals rfl

theorem foldlM_escapeChars (cs : List Char) (units : List Nat) (tokens : List Token) :
    (cs.flatMap Json.escapeChar).foldlM step ⟨.inString units, tokens⟩ =
      some ⟨.inString ((cs.map Char.toNat).reverse ++ units), tokens⟩ := by
  induction cs generalizing units with
  | nil => rfl
  | cons c cs ih =>
    rw [List.flatMap_cons, List.foldlM_append, foldlM_escapeChar, List.map_cons,
      List.reverse_cons, List.append_assoc]
    exact ih (c.toNat :: units)

/-- Characters are no halves of pairs. -/
theorem not_isSurrogate (c : Char) : ¬ (0xd800 ≤ c.toNat ∧ c.toNat < 0xe000) := by
  intro h
  have hvalid : c.toNat < 0xd800 ∨ 0xdfff < c.toNat ∧ c.toNat < 0x110000 := c.valid
  omega

theorem joinPairs_map_toNat (cs : List Char) : joinPairs (cs.map Char.toNat) = some cs := by
  induction cs with
  | nil => rfl
  | cons c cs ih =>
    have hc := not_isSurrogate c
    cases cs with
    | nil =>
      rw [List.map_singleton, joinPairs, if_neg hc, Char.ofNat_toNat]
    | cons d cs =>
      have hpair : ¬ (0xd800 ≤ c.toNat ∧ c.toNat < 0xdc00 ∧ 0xdc00 ≤ d.toNat ∧ d.toNat < 0xe000) :=
        by omega
      rw [List.map_cons] at ih ⊢
      rw [List.map_cons, joinPairs, if_neg hpair, if_neg hc, ih, Option.map_some, Char.ofNat_toNat]

theorem Lexes.quoted (s : String) : Lexes (Json.quoted s).toList [.string (some s)] := by
  intro tokens
  refine ⟨⟨.outside, .string (some s) :: tokens⟩, ?_, rfl⟩
  have hbody := foldlM_escapeChars s.toList [] tokens
  have hstring : joinPairs ((s.toList.map Char.toNat).reverse ++ []).reverse = some s.toList := by
    rw [List.append_nil, List.reverse_reverse, joinPairs_map_toNat]
  have hclose : step ⟨.inString ((s.toList.map Char.toNat).reverse ++ []), tokens⟩ '"' =
      some ⟨.outside, .string (some s) :: tokens⟩ := by
    show some (closeString tokens _) = _
    rw [closeString, hstring, Option.map_some, String.ofList_toList]
  rw [Json.quoted, String.toList_ofList]
  show (s.toList.flatMap Json.escapeChar ++ ['"']).foldlM step ⟨.inString [], tokens⟩ = _
  rw [List.foldlM_append, hbody]
  show (step ⟨.inString ((s.toList.map Char.toNat).reverse ++ []), tokens⟩ '"').bind some = _
  rw [hclose]
  rfl

end Strings

end Lexer

section Numbers

theorem naturalOf_toDigits (n : Nat) : naturalOf (Nat.toDigits 10 n) = n := by
  have hvalue := @Nat.ofDigitChars_ten_toDigits n
  rw [Nat.ofDigitChars_eq_foldl] at hvalue
  exact hvalue

/-- Only zero starts with the digit zero. -/
theorem head?_toDigits {n : Nat} (h : (Nat.toDigits 10 n).head? = some '0') : n = 0 := by
  induction n using Nat.strongRecOn with
  | ind n ih =>
    by_cases hn : n < 10
    · have hdigit : ∀ n < 10, Nat.digitChar n = '0' → n = 0 := by decide
      rw [Nat.toDigits_of_lt_base hn, List.head?_cons, Option.some.injEq] at h
      exact hdigit n hn h
    · have hne : Nat.toDigits 10 (n / 10) ≠ [] := Nat.toDigits_ne_nil
      rw [Nat.toDigits_of_base_le (by decide) (by omega), List.head?_append_of_ne_nil _ hne] at h
      have hzero := ih (n / 10) (by omega) h
      omega

theorem unsignedNumber_toDigits (negative : Bool) (n : Nat) :
    unsignedNumber negative (Nat.toDigits 10 n) =
      if negative then
        if n ≠ 0 ∧ n ≤ 0x8000000000000000 then some (.int (-(n : Int)))
        else some (floatOf true (Nat.toDigits 10 n) [] 0)
      else if n < 0x10000000000000000 then some (.int n)
      else some (floatOf false (Nat.toDigits 10 n) [] 0) := by
  have hdigits : ∀ c ∈ Nat.toDigits 10 n, c.isDigit = true :=
    fun c hc => Nat.isDigit_of_mem_toDigits (by decide) (by decide) hc
  have hwhole : (Nat.toDigits 10 n).takeWhile Char.isDigit = Nat.toDigits 10 n :=
    List.takeWhile_eq_self_iff.mpr hdigits
  have hrest : (Nat.toDigits 10 n).dropWhile Char.isDigit = [] :=
    List.dropWhile_eq_nil_iff.mpr hdigits
  have hnumber : ((Nat.toDigits 10 n).isEmpty || (decide ((Nat.toDigits 10 n).head? = some '0') &&
      decide (1 < (Nat.toDigits 10 n).length))) = false := by
    rw [Bool.or_eq_false_iff, Bool.and_eq_false_imp, decide_eq_true_iff, decide_eq_false_iff_not]
    refine ⟨List.isEmpty_eq_false_iff.mpr Nat.toDigits_ne_nil, fun hhead => ?_⟩
    rw [head?_toDigits hhead, Nat.toDigits_zero]
    decide
  simp only [unsignedNumber, hwhole, hrest, hnumber, naturalOf_toDigits, Bool.false_eq_true,
    if_false]

/-- Words that start with a digit are numbers. -/
theorem word_of_isDigit {c : Char} {rest : List Char} (h : c.isDigit = true) :
    word (c :: rest) = unsignedNumber false (c :: rest) := by
  have hfirst : ∀ d, d.isDigit = false → c ≠ d := by
    intro d hd hcd
    rw [hcd, hd] at h
    cases h
  unfold word
  rw [if_neg (by simp [hfirst 'n' rfl]), if_neg (by simp [hfirst 't' rfl]),
    if_neg (by simp [hfirst 'f' rfl])]
  split
  · rename_i heq
    exact absurd (List.cons.inj heq).1 (hfirst '-' rfl)
  · rfl

theorem word_negative (rest : List Char) : word ('-' :: rest) = unsignedNumber true rest := by
  simp [word]

/-- The integers that 64 bits hold, with a sign or without one, read back. -/
theorem word_toString {n : Int} (hlow : -0x8000000000000000 ≤ n)
    (hhigh : n < 0x10000000000000000) : word (toString n).toList = some (.int n) := by
  have hdigits : ∀ n : Nat, (n.repr).toList = Nat.toDigits 10 n := by
    intro n
    rw [Nat.repr_eq_ofList_toDigits, String.toList_ofList]
  show word n.repr.toList = _
  rw [Int.repr_eq_if]
  by_cases hn : 0 ≤ n
  · have hword : word (Nat.toDigits 10 n.toNat) =
        unsignedNumber false (Nat.toDigits 10 n.toNat) := by
      cases htext : Nat.toDigits 10 n.toNat with
      | nil => exact absurd htext Nat.toDigits_ne_nil
      | cons c rest =>
        have hc : c ∈ Nat.toDigits 10 n.toNat := by
          rw [htext]
          exact List.mem_cons_self
        exact word_of_isDigit (Nat.isDigit_of_mem_toDigits (by decide) (by decide) hc)
    rw [if_pos hn, hdigits, hword, unsignedNumber_toDigits, if_neg Bool.false_ne_true,
      if_pos (by omega), Int.toNat_of_nonneg hn]
  · rw [if_neg hn, String.toList_append, hdigits]
    show word ('-' :: Nat.toDigits 10 (-n).toNat) = _
    rw [word_negative, unsignedNumber_toDigits, if_pos rfl, if_pos (by omega),
      Int.toNat_of_nonneg (by omega), Int.neg_neg]

end Numbers

theorem tokens_of_lexes {text : List Char} {added : List Token} (h : Lexer.Lexes text added) :
    tokens text = some added := by
  obtain ⟨lexer, hfold, hsettle⟩ := h []
  rw [tokens, hfold, Option.bind_some, Lexer.finish_eq, hsettle, Option.map_some,
    List.append_nil, List.reverse_reverse]

/-- A text that is a single word has the value of the word. -/
theorem read_of_plain {text : String} (hplain : ∀ c ∈ text.toList, Lexer.endsWord c = false) :
    read text = word text.toList := by
  by_cases hne : text.toList = []
  · rw [read, hne]
    rfl
  · have htokens : tokens text.toList =
        (word text.toList).map fun value => [Token.scalar value] := by
      rw [tokens, Lexer.foldlM_plain hne hplain, Option.bind_some, Lexer.finish_eq]
      show (Lexer.closeWord [] text.toList.reverse).map List.reverse = _
      rw [Lexer.closeWord, List.reverse_reverse, Option.map_map]
      rfl
    rw [read, htokens]
    cases word text.toList with
    | none => rfl
    | some value => rfl

section Tokens

mutual

/-- The tokens that the text of a value splits into. -/
def tokensOf : Json → List Token
  | .array items => .openArray :: (tokensOfItems items ++ [.closeArray])
  | .object fields => .openObject :: (tokensOfFields fields ++ [.closeObject])
  | .string s => [.string (some s)]
  | j => [.scalar j]

def tokensOfItems : List Json → List Token
  | [] => []
  | [j] => tokensOf j
  | j :: rest => tokensOf j ++ .comma :: tokensOfItems rest

def tokensOfFields : List (String × Json) → List Token
  | [] => []
  | [(name, j)] => .string (some name) :: .colon :: tokensOf j
  | (name, j) :: rest =>
    .string (some name) :: .colon :: (tokensOf j ++ .comma :: tokensOfFields rest)

end

end Tokens

end JsonReader

namespace FloatText

/-- A finite number whose JSON text reads as the number itself. -/
def ReadsBack (x : Float) : Prop :=
  x.isFinite = true ∧ JsonReader.read (json x) = some (.float x)

theorem endsWord_of_isNumeral {c : Char} (h : isNumeral c = true) :
    JsonReader.Lexer.endsWord c = false := by
  have hmarks : ∀ mark, isNumeral mark = false → c ≠ mark := by
    intro mark hmark heq
    rw [heq, hmark] at h
    cases h
  have hpunctuation : JsonReader.Lexer.punctuation c = none := by
    unfold JsonReader.Lexer.punctuation
    split <;> first | rfl | exact absurd rfl (hmarks _ rfl)
  rw [JsonReader.Lexer.endsWord, hpunctuation, JsonReader.isSpace]
  simp [hmarks ' ' rfl, hmarks '\t' rfl, hmarks '\n' rfl, hmarks '\r' rfl, hmarks '"' rfl]

end FloatText

namespace Json

/-- A value whose text says all about it. -/
inductive IsWritable : Json → Prop
  | null : IsWritable .null
  | bool (value : Bool) : IsWritable (.bool value)
  | int {value : Int} (low : -0x8000000000000000 ≤ value) (high : value < 0x10000000000000000) :
    IsWritable (.int value)
  | float {value : Float} (reads : FloatText.ReadsBack value) : IsWritable (.float value)
  | string (value : String) : IsWritable (.string value)
  | array {items : List Json} (writable : ∀ j ∈ items, IsWritable j) : IsWritable (.array items)
  | object {fields : List (String × Json)} (writable : ∀ field ∈ fields, IsWritable field.2) :
    IsWritable (.object fields)

end Json

namespace JsonReader

open Lexer (Lexes)

section Texts

theorem lexes_numeral {text : String} {value : Json}
    (hplain : ∀ c ∈ text.toList, FloatText.isNumeral c = true)
    (hword : word text.toList = some value) : Lexes text.toList [.scalar value] :=
  .word (fun c hc => FloatText.endsWord_of_isNumeral (hplain c hc)) hword

theorem lexes_constant {text : String} {value : Json}
    (hplain : text.toList.any Lexer.endsWord = false) (hword : word text.toList = some value) :
    Lexes text.toList [.scalar value] :=
  .word (fun c hc => Bool.eq_false_iff.mpr (List.any_eq_false.mp hplain c hc)) hword

theorem lexes_indentedItems {items : List Json}
    (h : ∀ j ∈ items, ∀ level, Lexes (Json.indented level j).toList (tokensOf j)) (level : Nat) :
    Lexes (Json.indentedItems level items).toList (tokensOfItems items) := by
  induction items with
  | nil => exact .nil
  | cons j rest ih =>
    have hj := h j List.mem_cons_self level
    cases rest with
    | nil =>
      rw [Json.indentedItems, String.toList_append]
      exact Lexes.nil.newLine level hj
    | cons next rest =>
      have hrest := ih fun j hj => h j (List.mem_cons_of_mem _ hj)
      rw [Json.indentedItems, String.toList_append, String.toList_append, String.toList_append,
        List.append_assoc, List.append_assoc]
      exact Lexes.nil.newLine level (hj.mark rfl hrest)
      all_goals nofun

theorem lexes_indentedFields {fields : List (String × Json)}
    (h : ∀ field ∈ fields, ∀ level, Lexes (Json.indented level field.2).toList (tokensOf field.2))
    (level : Nat) :
    Lexes (Json.indentedFields level fields).toList (tokensOfFields fields) := by
  induction fields with
  | nil => exact .nil
  | cons field rest ih =>
    obtain ⟨name, j⟩ := field
    have hj : Lexes (Json.indented level j).toList (tokensOf j) := h _ List.mem_cons_self level
    have hvalue : ∀ {text : List Char} {tokens : List Token}, Lexes text tokens →
        Lexes ((Json.quoted name).toList ++ ':' :: ' ' :: text)
          (.string (some name) :: .colon :: tokens) :=
      fun htext => (Lexes.quoted name).mark rfl (Lexes.nil.space rfl htext)
    cases rest with
    | nil =>
      have htext : (Json.indentedFields level [(name, j)]).toList =
          [] ++ ((Json.newLine level).toList ++
            ((Json.quoted name).toList ++ ':' :: ' ' :: (Json.indented level j).toList)) := by
        simp [Json.indentedFields]
      rw [htext]
      exact Lexes.nil.newLine level (hvalue hj)
    | cons next rest =>
      have hrest := ih fun field hfield => h field (List.mem_cons_of_mem _ hfield)
      have htext : (Json.indentedFields level ((name, j) :: next :: rest)).toList =
          [] ++ ((Json.newLine level).toList ++ ((Json.quoted name).toList ++ ':' :: ' ' ::
            ((Json.indented level j).toList ++
              ',' :: (Json.indentedFields level (next :: rest)).toList))) := by
        simp [Json.indentedFields]
      rw [htext]
      exact Lexes.nil.newLine level (hvalue (hj.mark rfl hrest))

theorem lexes_indented {j : Json} (h : j.IsWritable) (level : Nat) :
    Lexes (Json.indented level j).toList (tokensOf j) := by
  induction h generalizing level with
  | null =>
    have hnull : Lexes "null".toList [.scalar .null] := lexes_constant (by rfl) (by rfl)
    exact hnull
  | bool value =>
    have hfalse : Lexes "false".toList [.scalar (.bool false)] := lexes_constant (by rfl) (by rfl)
    have htrue : Lexes "true".toList [.scalar (.bool true)] := lexes_constant (by rfl) (by rfl)
    cases value with
    | false => exact hfalse
    | true => exact htrue
  | @int value low high =>
    exact lexes_numeral (FloatText.isNumeral_of_mem_int value) (word_toString low high)
  | @float value reads =>
    have hplain := FloatText.isNumeral_of_mem_json value
    have hread := reads.2
    rw [read_of_plain fun c hc => FloatText.endsWord_of_isNumeral (hplain c hc)] at hread
    exact lexes_numeral hplain hread
  | string value => exact .quoted value
  | @array items writable ih =>
    cases items with
    | nil =>
      have hclose : Lexes [']'] [.closeArray] := Lexes.nil.mark rfl .nil
      rw [Json.indented]
      exact Lexes.nil.mark (c := '[') rfl hclose
    | cons first rest =>
      have hitems := lexes_indentedItems ih (level + 1)
      have htext : (Json.indented level (.array (first :: rest))).toList =
          [] ++ '[' :: ((Json.indentedItems (level + 1) (first :: rest)).toList ++
            ((Json.newLine level).toList ++ ([] ++ ']' :: []))) := by
        simp [Json.indented]
      rw [htext]
      exact Lexes.nil.mark rfl (hitems.newLine level (Lexes.nil.mark rfl .nil))
  | @object fields writable ih =>
    cases fields with
    | nil =>
      have hclose : Lexes ['\x7d'] [.closeObject] := Lexes.nil.mark rfl .nil
      rw [Json.indented]
      exact Lexes.nil.mark (c := '\x7b') rfl hclose
    | cons first rest =>
      have hfields := lexes_indentedFields ih (level + 1)
      have htext : (Json.indented level (.object (first :: rest))).toList =
          [] ++ '\x7b' :: ((Json.indentedFields (level + 1) (first :: rest)).toList ++
            ((Json.newLine level).toList ++ ([] ++ '\x7d' :: []))) := by
        simp [Json.indented]
      rw [htext]
      exact Lexes.nil.mark rfl (hfields.newLine level (Lexes.nil.mark rfl .nil))

end Texts

section Values

/-- Where a value may begin. -/
def Expected.allowsValue : Expected → Bool
  | .value | .itemOrClose => true
  | _ => false

theorem step_of_allowsValue (frames : List Frame) (result : Option Json) {expected : Expected}
    {token : Token} (hexpected : expected.allowsValue = true) (htoken : token ≠ .closeArray) :
    Builder.step ⟨frames, expected, result⟩ token = Builder.openValue frames token := by
  cases expected with
  | value => rfl
  | itemOrClose =>
    cases token with
    | closeArray => exact absurd rfl htoken
    | _ => rfl
  | _ => cases hexpected

/-- A value whose tokens build it on top of whatever is open. -/
def Builds (j : Json) : Prop :=
  ∀ (frames : List Frame) (expected : Expected) (result : Option Json),
    expected.allowsValue = true →
      (tokensOf j).foldlM Builder.step ⟨frames, expected, result⟩ = some (Builder.put frames j)

theorem builds_single {j : Json} (token : Token) (htokens : tokensOf j = [token])
    (htoken : token ≠ .closeArray)
    (hopen : ∀ frames, Builder.openValue frames token = some (Builder.put frames j)) :
    Builds j := by
  intro frames expected result hexpected
  rw [htokens, List.foldlM_cons, step_of_allowsValue frames result hexpected htoken, hopen]
  rfl

theorem foldlM_tokensOfItems {items : List Json} (h : ∀ j ∈ items, Builds j) (hne : items ≠ [])
    (frames : List Frame) (done : List Json) (expected : Expected) (result : Option Json)
    (hexpected : expected.allowsValue = true) :
    (tokensOfItems items).foldlM Builder.step ⟨.array done :: frames, expected, result⟩ =
      some ⟨.array (items.reverse ++ done) :: frames, .separator, none⟩ := by
  induction items generalizing done expected result with
  | nil => exact absurd rfl hne
  | cons j rest ih =>
    have hj := h j List.mem_cons_self (.array done :: frames) expected result hexpected
    cases rest with
    | nil => exact hj
    | cons next rest =>
      have hrest := ih (fun j hj => h j (List.mem_cons_of_mem _ hj)) (List.cons_ne_nil _ _)
        (j :: done) .value none rfl
      rw [tokensOfItems, List.foldlM_append, hj, List.reverse_cons, List.append_assoc]
      · exact hrest
      · nofun

theorem foldlM_tokensOfFields {fields : List (String × Json)}
    (h : ∀ field ∈ fields, Builds field.2) (hne : fields ≠ []) (frames : List Frame)
    (done : List (String × Json)) (expected : Expected) (result : Option Json)
    (hexpected : expected = .name ∨ expected = .nameOrClose) :
    (tokensOfFields fields).foldlM Builder.step
        ⟨.object (some done) none :: frames, expected, result⟩ =
      some ⟨.object (some (fields.reverse ++ done)) none :: frames, .separator, none⟩ := by
  induction fields generalizing done expected result with
  | nil => exact absurd rfl hne
  | cons field rest ih =>
    obtain ⟨name, j⟩ := field
    have hj := h (name, j) List.mem_cons_self (.object (some done) (some name) :: frames)
      .value none rfl
    have hname : ∀ tokens : List Token,
        (Token.string (some name) :: .colon :: tokens).foldlM Builder.step
          ⟨.object (some done) none :: frames, expected, result⟩ =
        tokens.foldlM Builder.step ⟨.object (some done) (some name) :: frames, .value, none⟩ := by
      intro tokens
      rcases hexpected with rfl | rfl <;> rfl
    cases rest with
    | nil =>
      rw [tokensOfFields, hname]
      exact hj
    | cons next rest =>
      have hrest := ih (fun field hfield => h field (List.mem_cons_of_mem _ hfield))
        (List.cons_ne_nil _ _) ((name, j) :: done) .name none (Or.inl rfl)
      rw [tokensOfFields, hname, List.foldlM_append, hj, List.reverse_cons, List.append_assoc]
      · exact hrest
      · nofun

theorem builds {j : Json} (h : j.IsWritable) : Builds j := by
  induction h with
  | @array items writable ih =>
    intro frames expected result hexpected
    have hopen : Builder.step ⟨frames, expected, result⟩ .openArray =
        Builder.openValue frames .openArray := step_of_allowsValue frames result hexpected nofun
    rw [tokensOf, List.foldlM_cons, hopen]
    cases items with
    | nil => rfl
    | cons first rest =>
      have hitems := foldlM_tokensOfItems ih (List.cons_ne_nil _ _) frames []
        .itemOrClose none rfl
      show (tokensOfItems (first :: rest) ++ [Token.closeArray]).foldlM Builder.step
        ⟨.array [] :: frames, .itemOrClose, none⟩ = _
      rw [List.foldlM_append, hitems, List.append_nil]
      show some (Builder.put frames (.array (first :: rest).reverse.reverse)) = _
      rw [List.reverse_reverse]
  | @object fields writable ih =>
    intro frames expected result hexpected
    have hopen : Builder.step ⟨frames, expected, result⟩ .openObject =
        Builder.openValue frames .openObject := step_of_allowsValue frames result hexpected nofun
    rw [tokensOf, List.foldlM_cons, hopen]
    cases fields with
    | nil => rfl
    | cons first rest =>
      have hfields := foldlM_tokensOfFields ih (List.cons_ne_nil _ _) frames []
        .nameOrClose none (Or.inr rfl)
      show (tokensOfFields (first :: rest) ++ [Token.closeObject]).foldlM Builder.step
        ⟨.object (some []) none :: frames, .nameOrClose, none⟩ = _
      rw [List.foldlM_append, hfields, List.append_nil]
      show some (Builder.put frames (.object (first :: rest).reverse.reverse)) = _
      rw [List.reverse_reverse]
  | string value => exact builds_single (.string (some value)) rfl nofun fun _ => rfl
  | @null | @bool | @int | @float =>
    exact builds_single (.scalar _) rfl nofun fun _ => rfl

end Values

/-- A printed text reads as the value that it was printed from. -/
theorem read_pretty {j : Json} (h : j.IsWritable) : read (j.pretty ++ "\n") = some j := by
  have htokens : tokens (j.pretty ++ "\n").toList = some (tokensOf j) := by
    apply tokens_of_lexes
    rw [String.toList_append]
    have hline := (lexes_indented h 0).space (c := '\n') rfl .nil
    rw [List.append_nil] at hline
    exact hline
  have hbuilds := builds h [] .value none rfl
  rw [read, htokens]
  show ((tokensOf j).foldlM Builder.step Builder.start).bind Builder.result = _
  rw [Builder.start, hbuilds]
  rfl

end JsonReader

end OperatorRecovery
