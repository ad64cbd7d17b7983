import OperatorRecovery.Proofs.SpelledTypes
import OperatorRecovery.Proofs.TypeTexts

/-!
Which types the syntax of a type refers to. A chain of names refers to the one dotted name that it
spells, and a keyword to the built-in type that it belongs to, since no two of these share one. A
bare name refers to every dotted name that ends in it. So the spelling of a type behind its
namespace refers to that type and to no other, with or without keywords, and the bare spelling
refers to it too.
-/

namespace OperatorRecovery

namespace BuiltinType

theorem keyword_inj {b c : BuiltinType} : b.keyword = c.keyword ↔ b = c := by
  constructor
  · cases b <;> cases c <;> decide
  · exact congrArg keyword

end BuiltinType

namespace TypeSyntax

/-- A chain spells what it begins with and every further name behind a dot. -/
theorem dotted?_chain {first : TypeSyntax} {name : String} (h : first.dotted? = some name)
    (more : List (List Char)) :
    (more.foldl (fun target name => .member target (String.ofList name) []) first).dotted? =
      some (name ++ String.ofList (more.flatMap ('.' :: ·))) := by
  induction more generalizing first name with
  | nil => simp [h]
  | cons segment more ih =>
    have hmember : (member first (String.ofList segment) []).dotted? =
        some (name ++ "." ++ String.ofList segment) := by rw [dotted?, h, Option.map_some]
    rw [List.foldl_cons, ih hmember, Option.some_inj, ← String.toList_inj]
    simp

theorem dotted?_qualified (dotted : String) : (qualified dotted).dotted? = some dotted := by
  have hjoin := join_segments dotted.toList
  rw [qualified, dotted?_chain rfl, ← String.ofList_append, hjoin, String.ofList_toList]

/-- A name behind a namespace refers to nothing else. -/
theorem refersTo_member_iff {ns name fullName : String} :
    (member (.qualified ns) name []).refersTo fullName = true ↔ fullName = ns ++ "." ++ name := by
  rw [refersTo, dotted?, dotted?_qualified, Option.map_some, beq_iff_eq, Option.some_inj]
  exact eq_comm

theorem refersTo_keyword_iff {b : BuiltinType} {fullName : String} :
    (keyword b.keyword).refersTo fullName = true ↔ fullName = b.fullName := by
  simp only [refersTo, List.any_eq_true, Bool.and_eq_true, beq_iff_eq, BuiltinType.keyword_inj]
  constructor
  · rintro ⟨c, -, rfl, hname⟩
    exact hname.symm
  · rintro rfl
    exact ⟨b, b.mem_all, rfl, rfl⟩

end TypeSyntax

namespace ResolvedType

variable {ns name : String}

theorem fullName_of_ne_empty (hns : ns ≠ "") :
    (named ns name []).fullName = ns ++ "." ++ name := by
  rw [fullName, qualify, if_neg hns]

theorem lastSegment_append (front : List Char) {last : List Char} (h : '.' ∉ last) :
    lastSegment (front ++ '.' :: last) = last := by
  have hdotless : ∀ c ∈ last, c ≠ '.' := fun c hc hdot => h (hdot ▸ hc)
  have hsplit := TypeReader.splitName_append front hdotless
  exact String.ofList_inj.mp (congrArg Prod.snd hsplit)

end ResolvedType

namespace SpellingStyle

open ResolvedType (eq_builtin_of_builtin? fullName_builtin fullName_of_ne_empty lastSegment_append)

variable {ns name : String}

theorem withoutArity_eq_self (h : '\x60' ∉ name.toList) : withoutArity name = name := by
  have hunmarked : ∀ c ∈ name.toList, decide (c ≠ '\x60') = true := by
    intro c hc
    exact decide_eq_true fun hmark => h (hmark ▸ hc)
  rw [withoutArity, List.takeWhile_eq_self_iff.mpr hunmarked, String.ofList_toList]

/-- A type without arguments is spelled by its keyword, if keywords are used and it has one, and by
its name otherwise. -/
theorem spell_named_cases (style : SpellingStyle) (ns name : String) :
    (∃ b, (ResolvedType.named ns name []).builtin? = some b ∧
        style.spell (.named ns name []) = .keyword b.keyword) ∨
      style.spell (.named ns name []) = style.spellName ns name [] := by
  rw [spell]
  split
  next b _ hbuiltin => exact Or.inl ⟨b, hbuiltin, rfl⟩
  next => exact Or.inr rfl

theorem spellName_full (hns : ns ≠ "") (hmark : '\x60' ∉ name.toList) (useKeywords : Bool) :
    spellName ⟨useKeywords, true⟩ ns name [] = .member (.qualified ns) name [] := by
  simp [spellName, hns, withoutArity_eq_self hmark]

theorem spellName_bare (hmark : '\x60' ∉ name.toList) (useKeywords : Bool) :
    spellName ⟨useKeywords, false⟩ ns name [] = .ofName name := by
  simp [spellName, withoutArity_eq_self hmark, TypeSyntax.ofName]

/-- Behind its namespace a type is spelled so that it alone is referred to; spelled bare it is
referred to as well, if its name is a single segment. -/
theorem refersTo_spell_named (hns : ns ≠ "") (hmark : '\x60' ∉ name.toList) (useKeywords : Bool) :
    (∀ fullName, (spell ⟨useKeywords, true⟩ (.named ns name [])).refersTo fullName = true ↔
        fullName = (ResolvedType.named ns name []).fullName) ∧
      ('.' ∉ name.toList → (spell ⟨useKeywords, false⟩ (.named ns name [])).refersTo
        (ResolvedType.named ns name []).fullName = true) := by
  constructor
  · intro fullName
    rcases spell_named_cases ⟨useKeywords, true⟩ ns name with ⟨b, hbuiltin, hspell⟩ | hspell
    · rw [hspell, TypeSyntax.refersTo_keyword_iff, eq_builtin_of_builtin? hbuiltin,
        fullName_builtin]
    · rw [hspell, spellName_full hns hmark, TypeSyntax.refersTo_member_iff,
        fullName_of_ne_empty hns]
  · intro hdot
    rcases spell_named_cases ⟨useKeywords, false⟩ ns name with ⟨b, hbuiltin, hspell⟩ | hspell
    · rw [hspell, TypeSyntax.refersTo_keyword_iff, eq_builtin_of_builtin? hbuiltin,
        fullName_builtin]
    · have hlast : ResolvedType.lastSegment (ns ++ "." ++ name).toList = name.toList := by
        have hlist : (ns ++ "." ++ name).toList = ns.toList ++ '.' :: name.toList := by simp
        rw [hlist, lastSegment_append _ hdot]
      rw [hspell, spellName_bare hmark, TypeSyntax.refersTo_ofName, fullName_of_ne_empty hns, hlast,
        beq_self_eq_true]

/-- The keyword of a built-in type refers to it like its names. -/
theorem refersTo_spell_int32 :
    "System" ≠ "" ∧ '\x60' ∉ "Int32".toList ∧ '.' ∉ "Int32".toList ∧
      spell ⟨true, true⟩ (.named "System" "Int32" []) = .keyword "int" ∧
      (∀ fullName, (spell ⟨true, true⟩ (.named "System" "Int32" [])).refersTo fullName = true ↔
        fullName = "System.Int32") ∧
      (spell ⟨true, false⟩ (.named "System" "Int32" [])).refersTo "System.Int32" = true :=
  have hns : "System" ≠ "" := by decide
  have hmark : '\x60' ∉ "Int32".toList := by decide
  have hdot : '.' ∉ "Int32".toList := by decide
  have hrefers := refersTo_spell_named hns hmark true
  ⟨hns, hmark, hdot, rfl, hrefers.1, hrefers.2 hdot⟩

end SpellingStyle

end OperatorRecovery
