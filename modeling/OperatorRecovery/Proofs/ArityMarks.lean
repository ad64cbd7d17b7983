import OperatorRecovery.Proofs.ReadTypes
import OperatorRecovery.Proofs.SpelledTypes
import OperatorRecovery.Proofs.WrittenNames

/-!
Backticks in spelled types. The mark and number of a generic type end its name, and spelling cuts
them off there, but a namespace is spelled as it is, and so is a type parameter. What a type is
built from shows which backticks its spelling keeps. The reader makes a type of exactly the names
of its text, in order: a step adds the name that it takes to those that have been read. So the
spelling of a type that was read has a backtick exactly when namespaces are spelled out and the
text has a backtick with a dot behind it in the same name.
-/

namespace OperatorRecovery

namespace ResolvedType

/-- What a type is built from. -/
inductive Word
  | name («namespace» name : String)
  | parameter (parameter : TypeParameter)
  deriving DecidableEq

mutual

/-- The words of a type in the order of its text. -/
def words : ResolvedType → List Word
  | .named ns name arguments => .name ns name :: wordsOfList arguments
  | .array element _ => words element
  | .byRef referent => words referent
  | .parameter p => [.parameter p]
  | .unknown => []

def wordsOfList : List ResolvedType → List Word
  | [] => []
  | t :: rest => words t ++ wordsOfList rest

end

theorem wordsOfList_eq_flatMap (ts : List ResolvedType) : wordsOfList ts = ts.flatMap words := by
  induction ts with
  | nil => rfl
  | cons t ts ih => rw [wordsOfList, ih, List.flatMap_cons]

theorem wordsOfList_append (ts us : List ResolvedType) :
    wordsOfList (ts ++ us) = wordsOfList ts ++ wordsOfList us := by
  simp only [wordsOfList_eq_flatMap, List.flatMap_append]

/-- The spelling of a word has a backtick. -/
def Word.KeepsMark (style : SpellingStyle) : Word → Prop
  | .name ns _ => style.fullyQualify = true ∧ '\x60' ∈ ns.toList
  | .parameter p => '\x60' ∈ p.name.toList

end ResolvedType

namespace SpellingStyle

open ResolvedType TypeSyntax

section Spelling

variable (style : SpellingStyle)

theorem mark_not_mem_punctuation : '\x60' ∉ punctuation := by decide

theorem mark_not_mem_withoutArity (name : String) : '\x60' ∉ (withoutArity name).toList := by
  rw [withoutArity, String.toList_ofList]
  intro hmark
  simpa using List.mem_takeWhile_imp hmark

theorem mark_not_mem_keyword (b : BuiltinType) : '\x60' ∉ b.keyword.toList := by
  cases b <;> decide

/-- A spelled name has the backticks of its namespace and of its arguments. -/
theorem mark_mem_text_spellName_iff (ns name : String) (arguments : List TypeSyntax) :
    '\x60' ∈ (style.spellName ns name arguments).text.toList ↔
      (style.fullyQualify = true ∧ '\x60' ∈ ns.toList) ∨
        ∃ argument ∈ arguments, '\x60' ∈ argument.text.toList := by
  rw [← mem_argumentsText_iff mark_not_mem_punctuation]
  have hname := mark_not_mem_withoutArity name
  by_cases hns : ns = ""
  · simp [spellName, hns, TypeSyntax.text, hname]
  · cases hqualify : style.fullyQualify <;>
      simp [spellName, hns, hqualify, TypeSyntax.text, text_qualified, hname]

/-- The backticks of a spelled type are those that its words keep. -/
theorem mark_mem_text_spell_iff (t : ResolvedType) :
    '\x60' ∈ (style.spell t).text.toList ↔ ∃ word ∈ t.words, word.KeepsMark style := by
  cases t with
  | named ns name arguments =>
    have harguments : ∀ t ∈ arguments, ('\x60' ∈ (style.spell t).text.toList ↔
        ∃ word ∈ t.words, word.KeepsMark style) := fun t _ => mark_mem_text_spell_iff t
    rw [spell]
    split
    next b _ hbuiltin =>
      obtain ⟨rfl, rfl, rfl⟩ := named.inj (eq_builtin_of_builtin? hbuiltin)
      have hkeyword := mark_not_mem_keyword b
      simp [TypeSyntax.text, words, wordsOfList, Word.KeepsMark, hkeyword]
    next =>
      have hlist : (∃ t ∈ arguments.map style.spell, '\x60' ∈ t.text.toList) ↔
          ∃ word ∈ arguments.flatMap ResolvedType.words, word.KeepsMark style := by
        simp only [List.mem_map, List.mem_flatMap]
        constructor
        · rintro ⟨_, ⟨t, ht, rfl⟩, hmark⟩
          obtain ⟨word, hword, hkeeps⟩ := (harguments t ht).mp hmark
          exact ⟨word, ⟨t, ht, hword⟩, hkeeps⟩
        · rintro ⟨word, ⟨t, ht, hword⟩, hkeeps⟩
          exact ⟨_, ⟨t, ht, rfl⟩, (harguments t ht).mpr ⟨word, hword, hkeeps⟩⟩
      rw [mark_mem_text_spellName_iff, spellList_eq_map, hlist, words, wordsOfList_eq_flatMap,
        List.exists_mem_cons_iff]
      rfl
  | array element rank =>
    rw [spell, mem_text_iff mark_not_mem_punctuation, names,
      ← mem_text_iff mark_not_mem_punctuation, mark_mem_text_spell_iff element]
    rfl
  | byRef referent => exact mark_mem_text_spell_iff referent
  | parameter p =>
    simp [spell, TypeSyntax.ofName, TypeSyntax.text, TypeSyntax.argumentsText, words,
      Word.KeepsMark]
  | unknown => simp [spell, TypeSyntax.ofName, TypeSyntax.text, TypeSyntax.argumentsText, words]

end Spelling

end SpellingStyle

namespace TypeReader

open ResolvedType

section Words

def Lexeme.words : Lexeme → List Word
  | .name text => [.name (splitName text).1 (splitName text).2]
  | .mark _ | .wideBlank => []

/-- A name that encloses arguments stands in front of those that have been read. -/
def Enclosing.words (e : Enclosing) : List Word :=
  .name e.namespace e.name :: wordsOfList e.arguments.reverse

def Current.words : Current → List Word
  | .start => []
  | .named ns name => [.name ns name]
  | .complete type | .closed type => type.words
  | .brackets element _ => element.words

/-- What has been read, in the order of the text. -/
def State.words (state : State) : List Word :=
  state.enclosing.reverse.flatMap Enclosing.words ++ state.current.words

variable {enclosing : List Enclosing} {type : ResolvedType} {lexeme : Lexeme} {next : State}

theorem words_afterType (h : afterType enclosing type lexeme = .ok next) :
    next.words = State.words ⟨enclosing, .complete type⟩ ++ lexeme.words := by
  cases enclosing with
  | nil => cases h
  | cons e outer =>
    unfold afterType at h
    dsimp only at h
    split at h
    next =>
      cases h
      simp [State.words, Enclosing.words, Current.words, Lexeme.words, wordsOfList_append,
        wordsOfList]
    next =>
      cases h
      simp [State.words, Enclosing.words, Current.words, Lexeme.words, ResolvedType.words,
        wordsOfList_append, wordsOfList]
    next => cases h

theorem words_suffix (h : suffix enclosing type lexeme = .ok next) :
    next.words = State.words ⟨enclosing, .complete type⟩ ++ lexeme.words := by
  unfold suffix at h
  split at h
  next =>
    cases h
    simp [State.words, Current.words, Lexeme.words]
  next =>
    cases h
    simp [State.words, Current.words, Lexeme.words, ResolvedType.words]
  next => exact words_afterType h

/-- One step of the reader adds the name that it takes. -/
theorem words_step {state : State} (h : step state lexeme = .ok next) :
    next.words = state.words ++ lexeme.words := by
  obtain ⟨enclosing, current⟩ := state
  unfold step at h
  split at h
  · cases h
  cases current with
  | start =>
    dsimp only at h
    split at h
    next =>
      cases h
      simp [State.words, Current.words, Lexeme.words, ResolvedType.words]
    next text _ =>
      split at h
      next =>
        cases h
        simp [State.words, Current.words, Lexeme.words]
      next => cases h
    next => cases h
  | named ns name =>
    dsimp only at h
    split at h
    next =>
      cases h
      simp [State.words, Enclosing.words, Current.words, Lexeme.words, wordsOfList]
    next => exact words_suffix h
  | complete type => exact words_suffix h
  | closed type => exact words_afterType h
  | brackets element rank =>
    dsimp only at h
    split at h
    next =>
      cases h
      simp [State.words, Current.words, Lexeme.words]
    next =>
      cases h
      simp [State.words, Current.words, Lexeme.words, ResolvedType.words]
    next => cases h

theorem words_whole {t : ResolvedType} (h : whole enclosing type = .ok t) :
    t.words = State.words ⟨enclosing, .complete type⟩ := by
  rw [whole] at h
  split at h
  next hempty =>
    cases h
    rw [List.isEmpty_iff.mp hempty]
    rfl
  next => cases h

theorem words_finish {state : State} {t : ResolvedType} (h : finish state = .ok t) :
    t.words = state.words := by
  obtain ⟨enclosing, current⟩ := state
  cases current with
  | start => cases h
  | named ns name => exact words_whole h
  | complete type => exact words_whole h
  | closed type => exact words_whole h
  | brackets element rank => cases h

/-- A run makes a type of what had been read and the names that it takes. -/
theorem words_run {state : State} {ls : List Lexeme} {t : ResolvedType}
    (h : run state ls = .ok t) : t.words = state.words ++ ls.flatMap Lexeme.words := by
  induction ls generalizing state with
  | nil => rw [words_finish h, List.flatMap_nil, List.append_nil]
  | cons lexeme rest ih =>
    rw [run] at h
    split at h
    next hstep => rw [ih h, words_step hstep, List.append_assoc, List.flatMap_cons]
    next => cases h

end Words

section Lexemes

variable {word : List Char}

/-- A word that lacks a character lies on one side of it. -/
theorem infix_append_cons_iff {c : Char} (hc : c ∉ word) (front rest : List Char) :
    word <:+: front ++ c :: rest ↔ word <:+: front ∨ word <:+: rest := by
  constructor
  · rintro ⟨left, right, h⟩
    rcases List.append_eq_append_iff.mp h with ⟨gap, rfl, -⟩ | ⟨inside, hword, hrest⟩
    · exact Or.inl ⟨left, gap, rfl⟩
    · rcases List.append_eq_cons_iff.mp hrest.symm with ⟨rfl, -⟩ | ⟨inside, rfl, rfl⟩
      · exact Or.inl ⟨left, [], by simpa using hword⟩
      · rcases List.append_eq_append_iff.mp hword with ⟨gap, -, rfl⟩ | ⟨gap, -, hgap⟩
        · simp at hc
        · rcases List.append_eq_cons_iff.mp hgap.symm with ⟨-, rfl⟩ | ⟨gap, -, rfl⟩
          · simp at hc
          · exact Or.inr ⟨gap, right, rfl⟩
  · rintro (h | h)
    · exact h.trans (List.prefix_append front _).isInfix
    · exact h.trans ((List.suffix_cons c rest).trans (List.suffix_append front _)).isInfix

variable (hne : word ≠ []) (hword : ∀ c ∈ word, isNameChar c = true)

include hne

theorem infix_closeName_iff (pending : List Char) (ls : List Lexeme) :
    (∃ name, .name name ∈ closeName pending ls ∧ word <:+: name) ↔
      word <:+: pending.reverse ∨ ∃ name, .name name ∈ ls ∧ word <:+: name := by
  rw [closeName]
  split
  next hempty => simp [List.isEmpty_iff.mp hempty, hne]
  next => simp [or_and_right, exists_or]

include hword

/-- A word lies in a name of a text exactly when it lies in the text. -/
theorem infix_lexemesFrom_iff (pending text : List Char) :
    (∃ name, .name name ∈ lexemesFrom pending text ∧ word <:+: name) ↔
      word <:+: pending.reverse ++ text := by
  induction text generalizing pending with
  | nil => simp [lexemesFrom, infix_closeName_iff hne]
  | cons c rest ih =>
    rw [lexemesFrom]
    split
    next => simp [ih]
    next hc =>
      have hfree : c ∉ word := fun hmem => hc (hword c hmem)
      rw [infix_closeName_iff hne, infix_append_cons_iff hfree]
      have hrest := ih []
      split
      · simpa using or_congr_right hrest
      · split
        · simpa using or_congr_right hrest
        · simpa using or_congr_right hrest

end Lexemes

section Marks

/-- A backtick with a dot behind it in the same name. -/
def MarksNamespace (text : List Char) : Prop :=
  ∃ between, (∀ c ∈ between, isNameChar c = true) ∧ ('\x60' :: between ++ ['.']) <:+: text

/-- A name is split at its last dot, so every backtick with a dot behind it is in front of that. -/
theorem mark_mem_splitName_iff (dotted : List Char) :
    '\x60' ∈ (splitName dotted).1.toList ↔
      ∃ between, ('\x60' :: between ++ ['.']) <:+: dotted := by
  constructor
  · intro hmark
    have hdot : '.' ∈ dotted := by
      by_contra hdot
      rw [splitName_of_dotless fun c hc hc' => hdot (hc' ▸ hc)] at hmark
      simp at hmark
    obtain ⟨front, last, rfl, hlast⟩ := exists_last_dot hdot
    rw [splitName_append front hlast, String.toList_ofList] at hmark
    obtain ⟨left, between, rfl⟩ := List.append_of_mem hmark
    exact ⟨between, left, last, by simp⟩
  · rintro ⟨between, left, right, rfl⟩
    have hdot : '.' ∈ '.' :: right := List.mem_cons_self
    obtain ⟨front, last, hsplit, hlast⟩ := exists_last_dot hdot
    have hdotted : left ++ ('\x60' :: between ++ ['.']) ++ right =
        (left ++ '\x60' :: between ++ front) ++ '.' :: last := by
      simp [← hsplit]
    rw [hdotted, splitName_append _ hlast]
    simp

theorem exists_marked_name_iff (text : List Char) :
    (∃ name, .name name ∈ lexemes text ∧ '\x60' ∈ (splitName name).1.toList) ↔
      MarksNamespace text := by
  have hne (between : List Char) : '\x60' :: between ++ ['.'] ≠ [] := List.cons_ne_nil _ _
  constructor
  · rintro ⟨name, hname, hmark⟩
    obtain ⟨between, hinfix⟩ := (mark_mem_splitName_iff name).mp hmark
    have hword : ∀ c ∈ '\x60' :: between ++ ['.'], isNameChar c = true := fun c hc =>
      namesSpelled_lexemes text name hname c (List.IsInfix.subset hinfix hc)
    refine ⟨between, fun c hc => hword c (by simp [hc]), ?_⟩
    exact (infix_lexemesFrom_iff (hne between) hword [] text).mp ⟨name, hname, hinfix⟩
  · rintro ⟨between, hbetween, hinfix⟩
    have hword : ∀ c ∈ '\x60' :: between ++ ['.'], isNameChar c = true := by
      rw [List.cons_append, List.forall_mem_cons, List.forall_mem_append]
      exact ⟨by decide, hbetween, List.forall_mem_singleton.mpr (by decide)⟩
    obtain ⟨name, hname, hmark⟩ := (infix_lexemesFrom_iff (hne between) hword [] text).mpr hinfix
    exact ⟨name, hname, (mark_mem_splitName_iff name).mpr ⟨between, hmark⟩⟩

/-- Words that were read keep a backtick only in a namespace. -/
theorem exists_keepsMark_iff (style : SpellingStyle) (ls : List Lexeme) :
    (∃ word ∈ ls.flatMap Lexeme.words, word.KeepsMark style) ↔
      style.fullyQualify = true ∧
        ∃ name, .name name ∈ ls ∧ '\x60' ∈ (splitName name).1.toList := by
  constructor
  · rintro ⟨word, hword, hkeeps⟩
    obtain ⟨lexeme, hlexeme, hword⟩ := List.mem_flatMap.mp hword
    cases lexeme with
    | name text =>
      cases List.mem_singleton.mp hword
      exact ⟨hkeeps.1, text, hlexeme, hkeeps.2⟩
    | mark c => cases hword
    | wideBlank => cases hword
  · rintro ⟨hqualify, name, hname, hmark⟩
    exact ⟨_, List.mem_flatMap.mpr ⟨_, hname, List.mem_singleton_self _⟩, hqualify, hmark⟩

end Marks

end TypeReader

namespace ResolvedType

open TypeReader

/-- A type that is read has the names of its text, in order, and no type parameters. -/
theorem words_of_ofText {text : String} {t : ResolvedType} (h : ofText text = .ok t) :
    t.words = (lexemes text.toList).flatMap Lexeme.words :=
  words_run (ofText_eq_ok_iff.mp h)

/-- The spelling of a type that was read has no backtick exactly when it leaves namespaces out or
no backtick of the text has a dot behind it in the same name. -/
theorem mark_not_mem_spelling_iff {text : String} {t : ResolvedType} (h : ofText text = .ok t)
    (style : SpellingStyle) :
    '\x60' ∉ (style.spell t).text.toList ↔
      (style.fullyQualify = true → ¬ MarksNamespace text.toList) := by
  rw [SpellingStyle.mark_mem_text_spell_iff, words_of_ofText h, exists_keepsMark_iff,
    exists_marked_name_iff, not_and]

theorem mark_not_mem_spelling_boxedGrids :
    let text := "System.Collections.Generic.Dictionary\x602<System.String, N.Box\x601<N.C[,]>&>"
    let t : ResolvedType := .named "System.Collections.Generic" "Dictionary\x602"
      [.builtin .string, .byRef (.named "N" "Box\x601" [.array (.named "N" "C" []) 2])]
    ofText text = .ok t ∧
      (SpellingStyle.spell ⟨true, true⟩ t).text =
        "System.Collections.Generic.Dictionary<string, N.Box<N.C[,]>>" ∧
      '\x60' ∉ (SpellingStyle.spell ⟨true, true⟩ t).text.toList ∧
      ¬ MarksNamespace text.toList := by
  intro text t
  have hread : ofText text = .ok t := by decide +kernel
  have hfree : '\x60' ∉ (SpellingStyle.spell ⟨true, true⟩ t).text.toList := by decide +kernel
  exact ⟨hread, by decide +kernel, hfree,
    (mark_not_mem_spelling_iff hread ⟨true, true⟩).mp hfree rfl⟩

/-- A type inside a generic type keeps the mark of that one. -/
theorem mark_mem_spelling_nestedType :
    ofText "N.Outer\x601.Inner" = .ok (.named "N.Outer\x601" "Inner" []) ∧
      (SpellingStyle.spell ⟨true, true⟩ (.named "N.Outer\x601" "Inner" [])).text =
        "N.Outer\x601.Inner" ∧
      '\x60' ∈ (SpellingStyle.spell ⟨true, true⟩ (.named "N.Outer\x601" "Inner" [])).text.toList :=
  ⟨by decide +kernel, by decide +kernel, by decide +kernel⟩

end ResolvedType

end OperatorRecovery
