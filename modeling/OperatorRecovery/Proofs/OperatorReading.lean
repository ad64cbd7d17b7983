import OperatorRecovery.SourceText
import OperatorRecovery.Proofs.Nodes

/-!
Reading printed operators back. The reader goes over a text once, from left to right, and
keeps what is open around the place that it has reached. An operator closes the open
operations that bind at least as tight and waits for its right operand; parentheses leave
no trace. Over names, member accesses, calls, operations and conditionals, the reader
gives back every printed expression without its parentheses and annotations, so no two
such expressions that differ in more than that are printed alike.
-/

namespace OperatorRecovery

/-- Letters, digits and underscores. -/
def Characters.isWord (c : Char) : Bool := isAlphanumeric c || c == '_'

namespace Form

def isName (name : String) : Bool := !name.toList.isEmpty && name.toList.all Characters.isWord

/-- What the reader knows: names, members without type arguments, calls, and operations. -/
def isPlain : Form ε → Bool
  | .identifier name | .member _ name [] => isName name
  | .call _ _ | .binary _ _ _ | .conditional _ _ _ | .parenthesized _ => true
  | _ => false

/-- The form without its parentheses, where it has some. -/
def bare : Form Expr → Expr
  | .parenthesized e => e
  | form => .ofForm form

end Form

namespace Expr

/-- An expression without annotations and parentheses. -/
def bare : Expr → Expr := fold fun form _ => form.bare

theorem bare_mk (form : Form Expr) (annotations : Annotations) :
    bare ⟨form, annotations⟩ = (form.map bare).bare := by
  simp only [bare, fold_mk]

def IsPlain (e : Expr) : Prop := ∀ node ∈ e.nodes .expression, node.2.form.isPlain = true

instance (e : Expr) : Decidable e.IsPlain :=
  inferInstanceAs (Decidable (∀ node ∈ e.nodes .expression, node.2.form.isPlain = true))

end Expr

namespace OperatorReader

inductive Word
  | name (name : String)
  | operator (op : BinaryOperator)
  | question
  | colon
  deriving DecidableEq

def word? (chars : List Char) : Option Word :=
  if chars.all Characters.isWord then some (.name (String.ofList chars))
  else if chars = ['?'] then some .question
  else if chars = [':'] then some .colon
  else (BinaryOperator.all.find? (·.token.toList == chars)).map .operator

def isPunctuation (c : Char) : Bool := [' ', '(', ')', '.', ','].contains c

/-- What is open around a place, with what was read of it. -/
inductive Frame
  | group
  | arguments (target : Expr) (done : List Expr)
  | operation (left : Expr) (op : BinaryOperator)
  | whenTrue (condition : Expr)
  | whenFalse (condition whenTrue : Expr)

/-- What was read last. -/
inductive Focus
  | nothing
  | operand (e : Expr)
  | memberOf (target : Expr)

structure Place where
  frames : List Frame
  focus : Focus

/-- Closes the open operations that bind at least as tight as `level` around an operand. -/
def reduce (level : Nat) : List Frame → Expr → List Frame × Expr
  | .operation left op :: frames, e =>
    if level ≤ op.precedence then reduce level frames (.ofForm (.binary op left e))
    else (.operation left op :: frames, e)
  | .whenFalse condition whenTrue :: frames, e =>
    if level ≤ Printed.conditional then
      reduce level frames (.ofForm (.conditional condition whenTrue e))
    else (.whenFalse condition whenTrue :: frames, e)
  | frames, e => (frames, e)

namespace Place

/-- The place behind a word. -/
def word? : Place → Word → Option Place
  | ⟨frames, .nothing⟩, .name name => some ⟨frames, .operand (.ofForm (.identifier name))⟩
  | ⟨frames, .memberOf target⟩, .name name =>
    some ⟨frames, .operand (.ofForm (.member target name []))⟩
  | ⟨frames, .operand e⟩, .operator op =>
    let (frames, left) := reduce op.precedence frames e
    some ⟨.operation left op :: frames, .nothing⟩
  | ⟨frames, .operand e⟩, .question =>
    let (frames, condition) := reduce (Printed.conditional + 1) frames e
    some ⟨.whenTrue condition :: frames, .nothing⟩
  | ⟨frames, .operand e⟩, .colon =>
    match reduce Printed.conditional frames e with
    | (.whenTrue condition :: frames, e) => some ⟨.whenFalse condition e :: frames, .nothing⟩
    | _ => none
  | _, _ => none

/-- The place behind a closing parenthesis, if the operand before it is the last part. -/
def close? : List Frame × Expr → Option Place
  | (.group :: frames, e) => some ⟨frames, .operand e⟩
  | (.arguments target done :: frames, e) =>
    some ⟨frames, .operand (.ofForm (.call target (done ++ [e])))⟩
  | _ => none

/-- The place behind a mark of punctuation. -/
def punctuation? : Place → Char → Option Place
  | place, ' ' => some place
  | ⟨frames, .nothing⟩, '(' => some ⟨.group :: frames, .nothing⟩
  | ⟨frames, .operand target⟩, '(' => some ⟨.arguments target [] :: frames, .nothing⟩
  | ⟨frames, .operand target⟩, '.' => some ⟨frames, .memberOf target⟩
  | ⟨frames, .operand e⟩, ',' =>
    match reduce Printed.conditional frames e with
    | (.arguments target done :: frames, e) =>
      some ⟨.arguments target (done ++ [e]) :: frames, .nothing⟩
    | _ => none
  | ⟨.arguments target [] :: frames, .nothing⟩, ')' =>
    some ⟨frames, .operand (.ofForm (.call target []))⟩
  | ⟨frames, .operand e⟩, ')' => close? (reduce Printed.conditional frames e)
  | _, _ => none

/-- The place behind the characters of a word, of which there may be none. -/
def settle? (place : Place) (chars : List Char) : Option Place :=
  if chars.isEmpty then some place else (OperatorReader.word? chars).bind place.word?

end Place

/-- Reads on from a place, with the characters of a word that was begun there. -/
def readFrom (begun : List Char) (place : Place) : List Char → Option Place
  | [] => place.settle? begun
  | c :: rest =>
    if isPunctuation c then
      (place.settle? begun).bind fun place => (place.punctuation? c).bind (readFrom [] · rest)
    else readFrom (begun ++ [c]) place rest

def read (place : Place) (text : List Char) : Option Place := readFrom [] place text

/-- The expression that a whole text reads as. -/
def expression? (text : String) : Option Expr :=
  match read ⟨[], .nothing⟩ text.toList with
  | some ⟨frames, .operand e⟩ =>
    match reduce Printed.conditional frames e with
    | ([], e) => some e
    | _ => none
  | _ => none

theorem word?_name {name : String} (h : Form.isName name = true) :
    word? name.toList = some (.name name) := by
  rw [Form.isName, Bool.and_eq_true] at h
  rw [word?, if_pos h.2, String.ofList_toList]

theorem word?_token (op : BinaryOperator) : word? op.token.toList = some (.operator op) := by
  cases op <;> decide

theorem isPunctuation_of_isWord {c : Char} (h : Characters.isWord c = true) :
    isPunctuation c = false := by
  have hmarks : [' ', '(', ')', '.', ','].any Characters.isWord = false := by decide
  rw [isPunctuation, ← Bool.not_eq_true, List.contains_iff_mem]
  intro hmem
  exact List.any_eq_false.mp hmarks c hmem h

section Reading

variable {place : Place}

theorem readFrom_word {word : List Char} (begun : List Char)
    (h : ∀ c ∈ word, isPunctuation c = false) :
    readFrom begun place word = place.settle? (begun ++ word) := by
  induction word generalizing begun with
  | nil => rw [readFrom, List.append_nil]
  | cons c rest ih =>
    have hrest := ih (begun ++ [c]) fun d hd => h d (List.mem_cons_of_mem c hd)
    rw [readFrom, h c List.mem_cons_self, if_neg Bool.false_ne_true, hrest, List.append_assoc,
      List.singleton_append]

/-- A mark of punctuation cuts a reading in two. -/
theorem readFrom_append_cons {mark : Char} (hmark : isPunctuation mark = true)
    (text rest : List Char) (begun : List Char) :
    readFrom begun place (text ++ mark :: rest) =
      (readFrom begun place text).bind fun place =>
        (place.punctuation? mark).bind (read · rest) := by
  induction text generalizing begun place with
  | nil =>
    have hsettled : readFrom begun place [] = place.settle? begun := rfl
    rw [List.nil_append, hsettled, readFrom, if_pos hmark]
    rfl
  | cons c text ih =>
    rw [List.cons_append, readFrom, readFrom]
    by_cases hc : isPunctuation c = true
    · rw [if_pos hc, if_pos hc, Option.bind_assoc]
      congr 1
      funext settled
      rw [Option.bind_assoc]
      congr 1
      funext behind
      exact ih []
    · rw [if_neg hc, if_neg hc]
      exact ih (begun ++ [c])

theorem read_append_cons {mark : Char} (hmark : isPunctuation mark = true)
    (text rest : List Char) :
    read place (text ++ mark :: rest) =
      (read place text).bind fun place => (place.punctuation? mark).bind (read · rest) :=
  readFrom_append_cons hmark text rest []

theorem read_cons {mark : Char} (hmark : isPunctuation mark = true) (rest : List Char) :
    read place (mark :: rest) = (place.punctuation? mark).bind (read · rest) :=
  read_append_cons hmark [] rest

theorem read_name {name : String} (h : Form.isName name = true) :
    read place name.toList = place.word? (.name name) := by
  have hword := h
  rw [Form.isName, Bool.and_eq_true, Bool.not_eq_true', List.all_eq_true] at hword
  rw [read, readFrom_word [] fun c hc => isPunctuation_of_isWord (hword.2 c hc),
    List.nil_append, Place.settle?, hword.1, if_neg Bool.false_ne_true, word?_name h]
  rfl

theorem read_token (op : BinaryOperator) :
    read place op.token.toList = place.word? (.operator op) := by
  have hnone : op.token.toList.any isPunctuation = false := by cases op <;> rfl
  have hmarks : ∀ c ∈ op.token.toList, isPunctuation c = false := fun c hc =>
    Bool.eq_false_iff.mpr (List.any_eq_false.mp hnone c hc)
  have hsome : op.token.toList.isEmpty = false := by cases op <;> rfl
  rw [read, readFrom_word [] hmarks, List.nil_append, Place.settle?, hsome,
    if_neg Bool.false_ne_true, word?_token]
  rfl

end Reading

/-- Everything binds looser than a primary expression. -/
theorem reduce_of_tight {level : Nat} (h : 11 ≤ level) (frames : List Frame) (e : Expr) :
    reduce level frames e = (frames, e) := by
  cases frames with
  | nil => rfl
  | cons frame frames =>
    cases frame with
    | operation left op =>
      have hop : op.precedence ≤ 10 := by cases op <;> decide
      rw [reduce, if_neg (by omega)]
    | whenFalse condition whenTrue =>
      rw [reduce, if_neg (by rw [Printed.conditional]; omega)]
    | _ => rfl

/-- Nothing open binds as tight as `level`. A conditional may still be the last part of another. -/
def Rests (level : Nat) (frames : List Frame) : Prop :=
  ∀ k e, level ≤ k → Printed.conditional < k → reduce k frames e = (frames, e)

theorem Rests.mono {level level' : Nat} {frames : List Frame} (h : Rests level frames)
    (hle : level ≤ level') : Rests level' frames :=
  fun k e hk htight => h k e (Nat.le_trans hle hk) htight

/-- A text reads as an expression that binds at a level, whatever is open around it: the
reader may have parts of the expression still open, but closes them as it would close
around the expression. -/
def Reads (text : List Char) (level : Nat) (e : Expr) : Prop :=
  ∀ frames, Rests level frames → ∃ frames' e',
    read ⟨frames, .nothing⟩ text = some ⟨frames', .operand e'⟩ ∧
      ∀ k ≤ level, reduce k frames' e' = reduce k frames e

namespace Reads

variable {text : List Char} {level : Nat} {e : Expr}

theorem mono (h : Reads text level e) {level' : Nat} (hle : level' ≤ level) :
    Reads text level' e := by
  intro frames hrests
  obtain ⟨frames', e', hread, hreduce⟩ := h frames (hrests.mono hle)
  exact ⟨frames', e', hread, fun k hk => hreduce k (Nat.le_trans hk hle)⟩

theorem of_read
    (h : ∀ frames, read ⟨frames, .nothing⟩ text = some ⟨frames, .operand e⟩) :
    Reads text level e :=
  fun frames _ => ⟨frames, e, h frames, fun _ _ => rfl⟩

/-- Nothing stays open behind a primary expression. -/
theorem read (h : Reads text Printed.primary e) (frames : List Frame) :
    OperatorReader.read ⟨frames, .nothing⟩ text = some ⟨frames, .operand e⟩ := by
  have hrests : Rests Printed.primary frames := fun k e hk _ =>
    reduce_of_tight (Nat.le_trans (by decide) hk) frames e
  obtain ⟨frames', e', hread, hreduce⟩ := h frames hrests
  have hexact := hreduce Printed.primary (Nat.le_refl _)
  rw [reduce_of_tight (by decide), reduce_of_tight (by decide)] at hexact
  cases hexact
  exact hread

theorem name {name : String} (h : Form.isName name = true) :
    Reads name.toList level (.ofForm (.identifier name)) :=
  of_read fun _ => read_name h

theorem member {name : String} (htarget : Reads text Printed.primary e)
    (hname : Form.isName name = true) :
    Reads (text ++ '.' :: name.toList) level (.ofForm (.member e name [])) := by
  apply of_read
  intro frames
  rw [read_append_cons (by decide), htarget.read]
  exact read_name hname

theorem parenthesized (h : Reads text level e) (hlevel : Printed.conditional ≤ level)
    (level' : Nat) : Reads ('(' :: (text ++ [')'])) level' e := by
  apply of_read
  intro frames
  have hopen : Rests level (.group :: frames) := fun _ _ _ _ => rfl
  obtain ⟨frames', e', hread, hreduce⟩ := h _ hopen
  have hclose : Place.punctuation? ⟨frames', .operand e'⟩ ')' = some ⟨frames, .operand e⟩ := by
    rw [Place.punctuation?, hreduce _ hlevel]
    rfl
  rw [read_cons (by decide)]
  show OperatorReader.read ⟨.group :: frames, .nothing⟩ (text ++ [')']) = _
  rw [read_append_cons (by decide), hread, Option.bind_some, hclose]
  rfl

/-- An operand is put in parentheses or binds tight enough. -/
theorem operand {printed : Printed} (h : Reads printed.text.toList printed.precedence e)
    (hprecedence : Printed.conditional ≤ printed.precedence) (least : Nat) :
    Reads (printed.operand least).toList least e := by
  unfold Printed.operand
  by_cases hloose : printed.precedence < least
  · rw [if_pos hloose, String.toList_append, String.toList_append]
    exact h.parenthesized hprecedence least
  · rw [if_neg hloose]
    exact h.mono (by omega)

theorem binary {op : BinaryOperator} {before after : List Char} {left right : Expr}
    (hleft : Reads before op.precedence left) (hright : Reads after (op.precedence + 1) right) :
    Reads (before ++ ' ' :: (op.token.toList ++ ' ' :: after)) op.precedence
      (.ofForm (.binary op left right)) := by
  intro frames hrests
  have htight : Printed.conditional < op.precedence := by cases op <;> decide
  obtain ⟨frames', left', hread, hreduce⟩ := hleft frames hrests
  have hplace : Place.word? ⟨frames', .operand left'⟩ (.operator op) =
      some ⟨.operation left op :: frames, .nothing⟩ := by
    rw [Place.word?, hreduce _ (Nat.le_refl _), hrests _ _ (Nat.le_refl _) htight]
  have hoperation : Rests (op.precedence + 1) (.operation left op :: frames) := by
    intro k e hk _
    rw [reduce, if_neg (by omega)]
  obtain ⟨frames'', right', hread', hreduce'⟩ := hright _ hoperation
  refine ⟨frames'', right', ?_, ?_⟩
  · rw [read_append_cons (by decide), hread]
    show OperatorReader.read ⟨frames', .operand left'⟩ _ = _
    rw [read_append_cons (by decide), read_token, hplace]
    exact hread'
  · intro k hk
    rw [hreduce' k (by omega), reduce, if_pos hk]

theorem conditional {before between after : List Char} {condition whenTrue whenFalse : Expr}
    (hcondition : Reads before (Printed.conditional + 1) condition)
    (hwhenTrue : Reads between Printed.conditional whenTrue)
    (hwhenFalse : Reads after Printed.conditional whenFalse) :
    Reads (before ++ ' ' :: '?' :: ' ' :: (between ++ ' ' :: ':' :: ' ' :: after))
      Printed.conditional (.ofForm (.conditional condition whenTrue whenFalse)) := by
  intro frames hrests
  obtain ⟨frames₁, condition', hread₁, hreduce₁⟩ := hcondition frames (hrests.mono (by decide))
  have hquestion : Place.word? ⟨frames₁, .operand condition'⟩ .question =
      some ⟨.whenTrue condition :: frames, .nothing⟩ := by
    rw [Place.word?, hreduce₁ _ (Nat.le_refl _), hrests _ _ (by decide) (by decide)]
  have hopen : Rests Printed.conditional (.whenTrue condition :: frames) := fun _ _ _ _ => rfl
  obtain ⟨frames₂, whenTrue', hread₂, hreduce₂⟩ := hwhenTrue _ hopen
  have hcolon : Place.word? ⟨frames₂, .operand whenTrue'⟩ .colon =
      some ⟨.whenFalse condition whenTrue :: frames, .nothing⟩ := by
    rw [Place.word?, hreduce₂ _ (Nat.le_refl _)]
    rfl
  have hlast : Rests Printed.conditional (.whenFalse condition whenTrue :: frames) := by
    intro k e _ htight
    rw [reduce, if_neg (by omega)]
  obtain ⟨frames₃, whenFalse', hread₃, hreduce₃⟩ := hwhenFalse _ hlast
  refine ⟨frames₃, whenFalse', ?_, ?_⟩
  · have hquestionMark : OperatorReader.read ⟨frames₁, .operand condition'⟩ ['?'] =
        some ⟨.whenTrue condition :: frames, .nothing⟩ := hquestion
    have hcolonMark : OperatorReader.read ⟨frames₂, .operand whenTrue'⟩ [':'] =
        some ⟨.whenFalse condition whenTrue :: frames, .nothing⟩ := hcolon
    rw [read_append_cons (by decide), hread₁]
    show OperatorReader.read ⟨frames₁, .operand condition'⟩ (['?'] ++ ' ' :: _) = _
    rw [read_append_cons (by decide), hquestionMark]
    show OperatorReader.read ⟨.whenTrue condition :: frames, .nothing⟩ _ = _
    rw [read_append_cons (by decide), hread₂]
    show OperatorReader.read ⟨frames₂, .operand whenTrue'⟩ ([':'] ++ ' ' :: after) = _
    rw [read_append_cons (by decide), hcolonMark]
    exact hread₃
  · intro k hk
    rw [hreduce₃ k hk, reduce, if_pos hk]

/-- The reader goes over an argument list from the opening parenthesis to the closing one. -/
theorem argumentList {target : Expr} {frames : List Frame} {text : Expr → List Char}
    {bare : Expr → Expr} {arguments : List Expr} (hne : arguments ≠ [])
    (h : ∀ e ∈ arguments, Reads (text e) Printed.conditional (bare e)) (done : List Expr) :
    OperatorReader.read ⟨.arguments target done :: frames, .nothing⟩
        ([',', ' '].intercalate (arguments.map text) ++ [')']) =
      some ⟨frames, .operand (.ofForm (.call target (done ++ arguments.map bare)))⟩ := by
  induction arguments generalizing done with
  | nil => exact absurd rfl hne
  | cons first rest ih =>
    have hopen : Rests Printed.conditional (.arguments target done :: frames) :=
      fun _ _ _ _ => rfl
    obtain ⟨frames', e', hread, hreduce⟩ := h first List.mem_cons_self _ hopen
    have hclosed := hreduce _ (Nat.le_refl _)
    cases rest with
    | nil =>
      have hplace : Place.punctuation? ⟨frames', .operand e'⟩ ')' =
          some ⟨frames, .operand (.ofForm (.call target (done ++ [bare first])))⟩ := by
        rw [Place.punctuation?, hclosed]
        rfl
      rw [List.map_singleton, List.map_singleton, List.intercalate_singleton,
        read_append_cons (by decide), hread, Option.bind_some, hplace]
      rfl
    | cons second rest =>
      have hplace : Place.punctuation? ⟨frames', .operand e'⟩ ',' =
          some ⟨.arguments target (done ++ [bare first]) :: frames, .nothing⟩ := by
        rw [Place.punctuation?, hclosed]
        rfl
      have hmore := ih (List.cons_ne_nil second rest)
        (fun e he => h e (List.mem_cons_of_mem first he)) (done ++ [bare first])
      rw [List.append_assoc, List.singleton_append] at hmore
      rw [List.map_cons, List.map_cons, List.intercalate_cons_cons, ← List.map_cons,
        List.append_assoc, List.append_assoc, List.cons_append, read_append_cons (by decide),
        hread, Option.bind_some, hplace, Option.bind_some, List.singleton_append,
        read_cons (by decide)]
      exact hmore

theorem call {target : Expr} {argumentText : Expr → List Char} {bare : Expr → Expr}
    {arguments : List Expr} (htarget : Reads text Printed.primary target)
    (harguments : ∀ e ∈ arguments, Reads (argumentText e) Printed.conditional (bare e)) :
    Reads (text ++ '(' :: ([',', ' '].intercalate (arguments.map argumentText) ++ [')'])) level
      (.ofForm (.call target (arguments.map bare))) := by
  apply of_read
  intro frames
  rw [read_append_cons (by decide), htarget.read]
  show OperatorReader.read ⟨.arguments target [] :: frames, .nothing⟩ _ = _
  by_cases hempty : arguments = []
  · subst hempty
    rfl
  · exact argumentList hempty harguments []

end Reads

end OperatorReader

namespace Expr

open OperatorReader

theorem precedence_print (form : Form Expr) (annotations : Annotations) :
    (print ⟨form, annotations⟩).precedence = form.precedence := by
  rw [print_mk]
  exact Form.precedence_map print form

theorem IsPlain.form {e : Expr} (h : e.IsPlain) : e.form.isPlain = true :=
  Every.self (Q := fun _ e => e.form.isPlain = true) h

theorem IsPlain.part {e part : Expr} (h : e.IsPlain) (hpart : part ∈ e.form.parts) :
    part.IsPlain := by
  obtain ⟨slot, hslot, rfl⟩ := List.mem_map.mp hpart
  have hslots := Every.slots (Q := fun _ e => e.form.isPlain = true) h slot hslot
  exact hslots.move rfl hslots.self

/-- A plain expression binds at least as tight as a conditional. -/
theorem IsPlain.conditional_le {e : Expr} (h : e.IsPlain) :
    Printed.conditional ≤ e.print.precedence := by
  have hform := h.form
  obtain ⟨form, annotations⟩ := e
  rw [precedence_print]
  cases form with
  | binary op left right =>
    show 1 ≤ op.precedence
    cases op <;> decide
  | directed | named => cases hform
  | conditional => exact Nat.le_refl 1
  | unary | cast => exact Nat.le_of_ble_eq_true rfl
  | _ => exact Nat.le_of_ble_eq_true rfl

/-- The text of a plain expression reads as the expression without its parentheses. -/
theorem IsPlain.reads {e : Expr} (h : e.IsPlain) :
    Reads e.text.toList e.print.precedence e.bare := by
  induction e using induction_on_parts with
  | step e ih =>
    have hform := h.form
    have hoperand : ∀ part ∈ e.form.parts, ∀ least,
        Reads (part.print.operand least).toList least part.bare :=
      fun part hpart least =>
        (ih part hpart (h.part hpart)).operand (h.part hpart).conditional_le least
    have hopen : ∀ part ∈ e.form.parts,
        Reads part.text.toList Printed.conditional part.bare :=
      fun part hpart => (ih part hpart (h.part hpart)).mono (h.part hpart).conditional_le
    obtain ⟨form, annotations⟩ := e
    rw [precedence_print, bare_mk, text, print_mk]
    cases form with
    | identifier name => exact Reads.name hform
    | member target name typeArguments =>
      cases typeArguments with
      | cons => cases hform
      | nil =>
        have htext : (((Form.member target name []).map print).print.text).toList =
            (target.print.operand Printed.primary).toList ++ '.' :: name.toList := by
          simp [Form.print, Form.text, Form.map, TypeSyntax.argumentsText]
        rw [htext]
        exact Reads.member (hoperand target (by simp [Form.parts, Form.slots]) _) hform
    | call target arguments =>
      have htext : (((Form.call target arguments).map print).print.text).toList =
          (target.print.operand Printed.primary).toList ++
            '(' :: ([',', ' '].intercalate (arguments.map (·.text.toList)) ++ [')']) := by
        simp [Form.print, Form.text, Form.map, argumentList, commaSeparated, text,
          String.toList_intercalate, Function.comp_def]
      rw [htext]
      exact Reads.call (hoperand target (by simp [Form.parts, Form.slots]) _)
        fun e he => hopen e (by simp [Form.parts, Form.slots, he])
    | binary op left right =>
      have htext : (((Form.binary op left right).map print).print.text).toList =
          (left.print.operand op.precedence).toList ++ ' ' :: (op.token.toList ++
            ' ' :: (right.print.operand (op.precedence + 1)).toList) := by
        simp [Form.print, Form.text, Form.map]
      rw [htext]
      exact Reads.binary (hoperand left (by simp [Form.parts, Form.slots]) _)
        (hoperand right (by simp [Form.parts, Form.slots]) _)
    | conditional condition whenTrue whenFalse =>
      have htext : (((Form.conditional condition whenTrue whenFalse).map print).print.text).toList =
          (condition.print.operand (Printed.conditional + 1)).toList ++ ' ' :: '?' :: ' ' ::
            ((whenTrue.print.operand Printed.conditional).toList ++ ' ' :: ':' :: ' ' ::
              (whenFalse.print.operand Printed.conditional).toList) := by
        simp [Form.print, Form.text, Form.map]
      rw [htext]
      exact Reads.conditional (hoperand condition (by simp [Form.parts, Form.slots]) _)
        (hoperand whenTrue (by simp [Form.parts, Form.slots]) _)
        (hoperand whenFalse (by simp [Form.parts, Form.slots]) _)
    | parenthesized inner =>
      have htext : (((Form.parenthesized inner).map print).print.text).toList =
          '(' :: (inner.text.toList ++ [')']) := by
        simp [Form.print, Form.text, Form.map, text]
      rw [htext]
      exact (hopen inner (by simp [Form.parts, Form.slots])).parenthesized (Nat.le_refl _) _
    | _ => cases hform

theorem IsPlain.expression?_text {e : Expr} (h : e.IsPlain) :
    expression? e.text = some e.bare := by
  have hopen : Rests e.print.precedence [] := fun _ _ _ _ => rfl
  obtain ⟨frames, e', hread, hreduce⟩ := h.reads [] hopen
  rw [expression?, hread]
  show (match reduce Printed.conditional frames e' with | ([], e) => some e | _ => none) = _
  rw [hreduce _ h.conditional_le]
  rfl

/-- Plain expressions with the same text differ in parentheses and annotations only. -/
theorem bare_eq_of_text_eq {e e' : Expr} (h : e.IsPlain) (h' : e'.IsPlain)
    (htext : e.text = e'.text) : e.bare = e'.bare := by
  have hread := h.expression?_text
  rw [htext, h'.expression?_text] at hread
  exact (Option.some.inj hread).symm

/-- `(a + b) * f(x.y) - c ? d : e`, with the parentheses as a node or without one. -/
def choice (written : Bool) : Expr :=
  let name (s : String) : Expr := .ofForm (.identifier s)
  let sum : Expr := ⟨.binary .add (name "a") (name "b"), [.loadToken]⟩
  let factor : Expr := if written then .ofForm (.parenthesized sum) else sum
  let call : Expr := .ofForm (.call (name "f") [.ofForm (.member (name "x") "y" [])])
  .ofForm (.conditional
    (.ofForm (.binary .subtract (.ofForm (.binary .multiply factor call)) (name "c")))
    (name "d") (name "e"))

theorem bare_eq_of_text_eq_choice :
    (choice true).IsPlain ∧ (choice false).IsPlain ∧ (choice true).text = (choice false).text ∧
      (choice true).bare = (choice false).bare :=
  have hwritten : (choice true).IsPlain := by decide
  have hmade : (choice false).IsPlain := by decide
  have htext : (choice true).text = (choice false).text := rfl
  ⟨hwritten, hmade, htext, bare_eq_of_text_eq hwritten hmade htext⟩

end Expr

end OperatorRecovery
