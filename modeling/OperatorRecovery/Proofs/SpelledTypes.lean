import OperatorRecovery.Spelling

/-!
The syntax of a type against the text of the type itself. A namespace is cut at its dots into a
chain of names, and printing the chain puts the dots back, so a fully qualified type is spelled
like the type it stands for. What the spelling leaves out is left out of the type first: the mark
and number behind a name, and passing by reference.
-/

namespace OperatorRecovery

namespace TypeSyntax

/-- The segments of a dotted name are the whole of it, with a dot in front of all but the first. -/
theorem join_segments (dotted : List Char) :
    (segments dotted).1 ++ (segments dotted).2.flatMap ('.' :: ·) = dotted := by
  induction dotted with
  | nil => rfl
  | cons c rest ih =>
    rw [segments]
    dsimp only
    split
    next hdot => simp [hdot, ih]
    next => simp [ih]

theorem text_chain (first : TypeSyntax) (more : List (List Char)) :
    (more.foldl (fun target name => .member target (String.ofList name) []) first).text =
      first.text ++ String.ofList (more.flatMap ('.' :: ·)) := by
  induction more generalizing first with
  | nil => simp
  | cons name more ih =>
    rw [List.foldl_cons, ih, text, argumentsText, ← String.toList_inj]
    simp

theorem text_qualified (dotted : String) : (qualified dotted).text = dotted := by
  have hjoin := join_segments dotted.toList
  rw [qualified, text_chain, ofName, text, argumentsText, String.append_empty,
    ← String.ofList_append, hjoin, String.ofList_toList]

end TypeSyntax

namespace ResolvedType

/-- A name up to its first backtick. -/
def upToMark (name : String) : String :=
  String.ofList (name.toList.take (name.toList.idxOf '\x60'))

mutual

/-- The type without what its spelling leaves out. -/
def spelled : ResolvedType → ResolvedType
  | .named ns name arguments => .named ns (upToMark name) (spelledList arguments)
  | .array element rank => .array element.spelled rank
  | .byRef referent => referent.spelled
  | .parameter p => .parameter p
  | .unknown => .unknown

def spelledList : List ResolvedType → List ResolvedType
  | [] => []
  | t :: rest => t.spelled :: spelledList rest

end

end ResolvedType

namespace SpellingStyle

open ResolvedType (upToMark spelled spelledList qualify)

theorem takeWhile_ne_eq_take_idxOf {α : Type} [DecidableEq α] (a : α) (l : List α) :
    l.takeWhile (· ≠ a) = l.take (l.idxOf a) := by
  induction l with
  | nil => rfl
  | cons b l ih =>
    by_cases hb : b = a
    · simp [hb]
    · rw [List.takeWhile_cons_of_pos (by simpa using hb), ih, List.idxOf_cons, beq_false_of_ne hb]
      rfl

theorem withoutArity_eq (name : String) : withoutArity name = upToMark name := by
  rw [withoutArity, upToMark, takeWhile_ne_eq_take_idxOf]

/-- A name behind its namespace, whether or not there is one. -/
theorem text_spellName (ns name : String) (arguments : List TypeSyntax) :
    (spellName ⟨false, true⟩ ns name arguments).text =
      qualify ns (upToMark name) ++ TypeSyntax.argumentsText arguments := by
  by_cases hns : ns = ""
  · simp [spellName, qualify, hns, TypeSyntax.text, withoutArity_eq]
  · simp [spellName, qualify, hns, TypeSyntax.text, TypeSyntax.text_qualified, withoutArity_eq]

/-- Arguments that are spelled right stand in a list that is spelled right. -/
theorem moreArgumentsText_spellList {ts : List ResolvedType}
    (h : ∀ t ∈ ts, (spell ⟨false, true⟩ t).text = t.spelled.text) :
    TypeSyntax.moreArgumentsText (spellList ⟨false, true⟩ ts) =
      ResolvedType.moreArgumentsText (spelledList ts) := by
  induction ts with
  | nil => rfl
  | cons t ts ih =>
    obtain ⟨ht, hts⟩ := List.forall_mem_cons.mp h
    rw [spellList, spelledList, TypeSyntax.moreArgumentsText, ResolvedType.moreArgumentsText,
      ht, ih hts]

theorem argumentsText_spellList {ts : List ResolvedType}
    (h : ∀ t ∈ ts, (spell ⟨false, true⟩ t).text = t.spelled.text) :
    TypeSyntax.argumentsText (spellList ⟨false, true⟩ ts) =
      ResolvedType.argumentsText (spelledList ts) := by
  cases ts with
  | nil => rfl
  | cons t ts =>
    obtain ⟨ht, hts⟩ := List.forall_mem_cons.mp h
    rw [spellList, spelledList, TypeSyntax.argumentsText, ResolvedType.argumentsText,
      ht, moreArgumentsText_spellList hts]

/-- Without keywords and behind its namespace, a type is spelled as its own text says. -/
theorem text_spell_qualified (t : ResolvedType) :
    (spell ⟨false, true⟩ t).text = t.spelled.text := by
  cases t with
  | named ns name arguments =>
    have harguments : ∀ t ∈ arguments, (spell ⟨false, true⟩ t).text = t.spelled.text :=
      fun t _ => text_spell_qualified t
    rw [spell, text_spellName, argumentsText_spellList harguments, spelled, ResolvedType.text]
  | array element rank =>
    rw [spell, TypeSyntax.text, text_spell_qualified element]
    rfl
  | byRef referent => exact text_spell_qualified referent
  | parameter p => exact String.append_empty
  | unknown => rfl

end SpellingStyle

end OperatorRecovery
