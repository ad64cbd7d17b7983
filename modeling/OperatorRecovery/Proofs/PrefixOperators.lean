import OperatorRecovery.Proofs.JsonTexts
import OperatorRecovery.Proofs.OperatorReading

/-!
Prefix operators in front of their operands. The printer writes the token of the operator and
the operand behind it with nothing between them, and only an operand that binds looser is put in
parentheses. Two tokens are doubled ones, so a single one runs together with an operand that
begins with the same sign: the negation of a negation is printed as a decrement. Over names,
whole numbers and operators this is the only way in which two prefix operators are printed alike.
-/

namespace OperatorRecovery

open Characters

namespace Form

/-- Names of letters, digits and underscores, whole numbers and operators, on any operands. -/
def isArithmetic : Form ε → Bool
  | .identifier name => name.toList.all isWord
  | .literal (.int _) | .unary _ _ | .binary _ _ _ => true
  | _ => false

/-- A negative number, or an operator whose token is a sign or a doubled one. -/
def isSigned : Form ε → Bool
  | .literal (.int n) => decide (n.toInt < 0)
  | .unary op _ => op != .not && op != .bitNot
  | _ => false

end Form

namespace UnaryOperator

/-- Of two different tokens, the one that begins with the other is that one doubled. -/
theorem eq_or_doubled {op op' : UnaryOperator} {rest : List Char}
    (h : op'.token.toList = op.token.toList ++ rest) :
    op = op' ∨ op'.token = op.token ++ op.token := by
  have hprefix : op.token.toList <+: op'.token.toList := ⟨rest, h.symm⟩
  revert hprefix
  cases op <;> cases op' <;> decide

theorem token_ne_doubled (op : UnaryOperator) : op.token ≠ op.token ++ op.token := by
  cases op <;> decide

end UnaryOperator

/-- Whether a plus or a minus sign begins the text. -/
def beginsWithSign (text : String) : Bool :=
  text.toList.head? == some '+' || text.toList.head? == some '-'

theorem beginsWithSign_of_forall {text : String} (h : ∀ c ∈ text.toList, c ≠ '+' ∧ c ≠ '-') :
    beginsWithSign text = false := by
  have hplus : text.toList.head? ≠ some '+' := fun hhead =>
    (h '+' (List.mem_of_mem_head? hhead)).1 rfl
  have hminus : text.toList.head? ≠ some '-' := fun hhead =>
    (h '-' (List.mem_of_mem_head? hhead)).2 rfl
  simp [beginsWithSign, hplus, hminus]

theorem beginsWithSign_int (n : Int) : beginsWithSign (toString n) = decide (n < 0) := by
  show beginsWithSign n.repr = decide (n < 0)
  rw [Int.repr_eq_if]
  split
  · rename_i hn
    rw [decide_eq_false (by omega)]
    apply beginsWithSign_of_forall
    rw [Nat.repr_eq_ofList_toDigits, String.toList_ofList]
    intro c hc
    have hdigit := Nat.isDigit_of_mem_toDigits (by decide) (by decide) hc
    constructor <;> rintro rfl <;> exact absurd hdigit (by decide)
  · rename_i hn
    rw [decide_eq_true (by omega)]
    simp [beginsWithSign]

namespace Expr

/-- The text of an expression behind a prefix operator or a cast. -/
def operandText (e : Expr) : String := e.print.operand Printed.unary

def opensWithSign (e : Expr) : Bool := beginsWithSign e.operandText

theorem text_unary (op : UnaryOperator) (e : Expr) (as : Annotations) :
    text ⟨.unary op e, as⟩ = op.token ++ e.operandText := by
  rw [text, print_mk]
  rfl

theorem operandText_eq (e : Expr) :
    e.operandText =
      if e.form.precedence < Printed.unary then "(" ++ e.text ++ ")" else e.text := by
  obtain ⟨form, annotations⟩ := e
  rw [operandText, Printed.operand, precedence_print]
  rfl

section Heads

variable {e : Expr}

theorem head?_operandText_of_loose (h : e.form.precedence < Printed.unary) :
    e.operandText.toList.head? = some '(' := by
  rw [operandText_eq, if_pos h]
  simp

theorem operandText_of_tight (h : ¬ e.form.precedence < Printed.unary) :
    e.operandText = e.text := by
  rw [operandText_eq, if_neg h]

/-- Parentheses hide a sign. -/
theorem opensWithSign_of_loose (h : e.form.precedence < Printed.unary) :
    e.opensWithSign = false := by
  simp [opensWithSign, beginsWithSign, head?_operandText_of_loose h]

theorem head?_text_literal {n : Int64} {c : Char} (as : Annotations)
    (h : (text ⟨.literal (.int n), as⟩).toList.head? = some c) : FloatText.isNumeral c = true := by
  rw [text, print_mk] at h
  exact FloatText.isNumeral_of_mem_int n.toInt c (List.mem_of_mem_head? h)

/-- A binary operator binds looser than a prefix operator. -/
theorem precedence_binary_lt (op : BinaryOperator) (left right : Expr) :
    (Form.binary op left right).precedence < Printed.unary := by
  show op.precedence < 12
  cases op <;> decide

/-- Only the parentheses around an operand begin with one. -/
theorem head?_text_ne_parenthesis (harithmetic : e.form.isArithmetic = true)
    (htight : ¬ e.form.precedence < Printed.unary) : e.text.toList.head? ≠ some '(' := by
  obtain ⟨form, annotations⟩ := e
  intro hhead
  cases form with
  | identifier name =>
    have hword := List.all_eq_true.mp harithmetic '(' (List.mem_of_mem_head? hhead)
    exact absurd hword (by decide)
  | literal value =>
    cases value with
    | int n => exact absurd (head?_text_literal annotations hhead) (by decide)
    | _ => cases harithmetic
  | unary op operand =>
    rw [text_unary] at hhead
    cases op <;> simp [UnaryOperator.token] at hhead
  | binary op left right => exact htight (precedence_binary_lt op left right)
  | _ => cases harithmetic

end Heads

section Operands

variable {e e' : Expr}

/-- Two operands printed alike are both in parentheses or both not. -/
theorem loose_of_operandText_eq (he' : e'.form.isArithmetic = true)
    (heq : e.operandText = e'.operandText) (h : e.form.precedence < Printed.unary) :
    e'.form.precedence < Printed.unary := by
  by_contra htight
  have hhead := head?_operandText_of_loose h
  rw [heq, operandText_of_tight htight] at hhead
  exact head?_text_ne_parenthesis he' htight hhead

theorem text_eq_of_operandText_eq (he : e.form.isArithmetic = true)
    (he' : e'.form.isArithmetic = true) (heq : e.operandText = e'.operandText) : e.text = e'.text := by
  by_cases h : e.form.precedence < Printed.unary
  · have h' := loose_of_operandText_eq he' heq h
    rw [operandText_eq, operandText_eq, if_pos h, if_pos h'] at heq
    simpa [String.append_left_inj, String.append_right_inj] using heq
  · have h' : ¬ e'.form.precedence < Printed.unary := fun hloose =>
      h (loose_of_operandText_eq he heq.symm hloose)
    rwa [operandText_of_tight h, operandText_of_tight h'] at heq

end Operands

/-- The token of `op'` is that of `op` twice, and the second one begins the operand of `op`. -/
def RunsTogether (op : UnaryOperator) (e : Expr) (op' : UnaryOperator) (e' : Expr) : Prop :=
  op'.token = op.token ++ op.token ∧ e.operandText = op.token ++ e'.operandText

section RunsTogether

variable {op op' : UnaryOperator} {e e' : Expr}

theorem RunsTogether.text_eq (h : RunsTogether op e op' e') (as as' : Annotations) :
    text ⟨.unary op e, as⟩ = text ⟨.unary op' e', as'⟩ := by
  rw [text_unary, text_unary, h.1, h.2, String.append_assoc]

theorem RunsTogether.ne (h : RunsTogether op e op' e') : op ≠ op' := by
  rintro rfl
  exact op.token_ne_doubled h.1

/-- The operand that a token runs together with begins with a sign. -/
theorem RunsTogether.opensWithSign (h : RunsTogether op e op' e') : e.opensWithSign = true := by
  obtain ⟨hdoubled, htext⟩ := h
  rw [Expr.opensWithSign, htext]
  revert hdoubled
  cases op <;> cases op' <;> simp [UnaryOperator.token, beginsWithSign]

theorem runsTogether_of_append_eq {rest : List Char} (hne : op ≠ op')
    (htoken : op'.token.toList = op.token.toList ++ rest)
    (htext : e.operandText.toList = rest ++ e'.operandText.toList) :
    RunsTogether op e op' e' := by
  have hdoubled := (UnaryOperator.eq_or_doubled htoken).resolve_left hne
  refine ⟨hdoubled, ?_⟩
  rw [hdoubled, String.toList_append, List.append_cancel_left_eq] at htoken
  rw [← String.toList_inj, htext, String.toList_append, htoken]

/-- Operators printed alike are the same, or one token runs together with an operand. -/
theorem eq_or_runsTogether {as as' : Annotations}
    (h : text ⟨.unary op e, as⟩ = text ⟨.unary op' e', as'⟩) :
    op = op' ∨ RunsTogether op e op' e' ∨ RunsTogether op' e' op e := by
  rw [text_unary, text_unary, ← String.toList_inj, String.toList_append, String.toList_append,
    List.append_eq_append_iff] at h
  by_cases hne : op = op'
  · exact .inl hne
  rcases h with ⟨rest, htoken, htext⟩ | ⟨rest, htoken, htext⟩
  · exact .inr (.inl (runsTogether_of_append_eq hne htoken htext))
  · exact .inr (.inr (runsTogether_of_append_eq (Ne.symm hne) htoken htext))

end RunsTogether

/-- Behind a prefix operator a single sign opens the text of the negative numbers and of the
operators that are signs, and of nothing else. -/
theorem opensWithSign_eq {e : Expr} (h : e.form.isArithmetic = true) :
    e.opensWithSign = e.form.isSigned := by
  obtain ⟨form, annotations⟩ := e
  cases form with
  | identifier name =>
    apply beginsWithSign_of_forall
    intro c hc
    have hword := List.all_eq_true.mp h c hc
    constructor <;> rintro rfl <;> exact absurd hword (by decide)
  | literal value =>
    cases value with
    | int n =>
      rw [opensWithSign, operandText, print_mk]
      exact beginsWithSign_int n.toInt
    | _ => cases h
  | unary op operand =>
    rw [opensWithSign, operandText_of_tight (Nat.lt_irrefl _), text_unary]
    cases op <;> simp [UnaryOperator.token, beginsWithSign, Form.isSigned]
  | binary op left right => exact opensWithSign_of_loose (precedence_binary_lt op left right)
  | _ => cases h

/-- What is printed alike behind two prefix operators has the same operators and is printed alike
itself, exactly where no token runs together with an operand. -/
theorem text_unary_inj_iff {e e' : Expr} (he : e.form.isArithmetic = true)
    (he' : e'.form.isArithmetic = true) (op op' : UnaryOperator) (as as' : Annotations) :
    (text ⟨.unary op e, as⟩ = text ⟨.unary op' e', as'⟩ → op = op' ∧ e.text = e'.text) ↔
      ¬ (RunsTogether op e op' e' ∨ RunsTogether op' e' op e) := by
  constructor
  · rintro hinj (htogether | htogether)
    · exact htogether.ne (hinj (htogether.text_eq as as')).1
    · exact htogether.ne (hinj (htogether.text_eq as' as).symm).1.symm
  · intro hapart htext
    obtain rfl := (eq_or_runsTogether htext).resolve_right hapart
    rw [text_unary, text_unary, String.append_right_inj] at htext
    exact ⟨rfl, text_eq_of_operandText_eq he he' htext⟩

/-- `-(a + 1)` and `--a`. -/
theorem text_unary_inj_sum :
    let sum : Expr := .ofForm (.binary .add (.ofForm (.identifier "a"))
      (.ofForm (.literal (.int 1))))
    let name : Expr := .ofForm (.identifier "a")
    sum.form.isArithmetic = true ∧ name.form.isArithmetic = true ∧
      text (.ofForm (.unary .minus sum)) ≠ text (.ofForm (.unary .decrement name)) := by
  intro sum name
  have hsum : sum.form.isArithmetic = true := rfl
  have hname : name.form.isArithmetic = true := by decide
  refine ⟨hsum, hname, fun htext => ?_⟩
  suffices hapart : ¬ (RunsTogether .minus sum .decrement name ∨
      RunsTogether .decrement name .minus sum) from
    absurd ((text_unary_inj_iff hsum hname .minus .decrement [] []).mpr hapart htext).1 (by decide)
  rintro (htogether | htogether)
  · exact absurd htogether.opensWithSign (by rw [opensWithSign_eq hsum]; decide)
  · exact absurd htogether.opensWithSign (by rw [opensWithSign_eq hname]; decide)

/-- The negation of `-x` is printed as the decrement of `x`. -/
theorem text_minus_minus :
    let x : Expr := .ofForm (.identifier "x")
    let negated : Expr := .ofForm (.unary .minus x)
    x.form.isArithmetic = true ∧ negated.form.isArithmetic = true ∧
      text (.ofForm (.unary .minus negated)) = "--x" ∧
      text (.ofForm (.unary .decrement x)) = "--x" ∧
      ¬ (UnaryOperator.minus = .decrement ∧ negated.text = x.text) := by
  decide +kernel

end Expr

end OperatorRecovery
