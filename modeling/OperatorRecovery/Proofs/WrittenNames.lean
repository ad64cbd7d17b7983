import Mathlib.Data.List.Basic
import OperatorRecovery.TypeSyntax

/-!
The names in the syntax of a type. The text of a type is its names in order with punctuation
between them, so whatever else is found in the text is found in a name.
-/

namespace OperatorRecovery.TypeSyntax

open ResolvedType (brackets)

mutual

/-- The names and keywords of a type, in the order of its text. -/
def names : TypeSyntax → List String
  | .keyword word => [word]
  | .simple name arguments => name :: namesOfList arguments
  | .member target name arguments => names target ++ name :: namesOfList arguments
  | .array element _ => names element

def namesOfList : List TypeSyntax → List String
  | [] => []
  | t :: rest => names t ++ namesOfList rest

end

theorem namesOfList_eq_flatMap (ts : List TypeSyntax) : namesOfList ts = ts.flatMap names := by
  induction ts with
  | nil => rfl
  | cons t ts ih => rw [namesOfList, ih, List.flatMap_cons]

/-- What the text of a type has between its names. -/
def punctuation : List Char := ['.', '<', '>', ',', ' ', '[', ']']

section Filters

variable {p : Char → Bool} (hp : ∀ c ∈ punctuation, p c = false)

include hp

theorem filter_brackets (rank : UInt32) : (brackets rank).toList.filter p = [] := by
  have hopen : p '[' = false := hp _ (by decide)
  have hcomma : p ',' = false := hp _ (by decide)
  have hclose : p ']' = false := hp _ (by decide)
  simp [brackets, hopen, hcomma, hclose]

mutual

/-- Of the text of a type a filter for other characters keeps what it keeps of the names. -/
theorem filter_text (t : TypeSyntax) :
    t.text.toList.filter p = t.names.flatMap (·.toList.filter p) := by
  have hdot : p '.' = false := hp _ (by decide)
  cases t with
  | keyword word => simp [text, names]
  | simple name arguments => simp [text, names, filter_argumentsText arguments]
  | member target name arguments =>
    simp [text, names, filter_text target, filter_argumentsText arguments, hdot]
  | array element rank => simp [text, names, filter_text element, filter_brackets hp]

theorem filter_argumentsText (ts : List TypeSyntax) :
    (argumentsText ts).toList.filter p = (namesOfList ts).flatMap (·.toList.filter p) := by
  have hopen : p '<' = false := hp _ (by decide)
  cases ts with
  | nil => rfl
  | cons t ts =>
    simp [argumentsText, namesOfList, filter_text t, filter_moreArgumentsText ts, hopen]

theorem filter_moreArgumentsText (ts : List TypeSyntax) :
    (moreArgumentsText ts).toList.filter p = (namesOfList ts).flatMap (·.toList.filter p) := by
  have hclose : p '>' = false := hp _ (by decide)
  have hcomma : p ',' = false := hp _ (by decide)
  have hblank : p ' ' = false := hp _ (by decide)
  cases ts with
  | nil => simp [moreArgumentsText, namesOfList, hclose]
  | cons t ts =>
    simp [moreArgumentsText, namesOfList, filter_text t, filter_moreArgumentsText ts, hcomma,
      hblank]

end

end Filters

section Membership

variable {c : Char} (hc : c ∉ punctuation)

include hc

theorem mem_iff_of_filter {text : String} {names : List String}
    (h : ∀ p : Char → Bool, (∀ d ∈ punctuation, p d = false) →
      text.toList.filter p = names.flatMap (·.toList.filter p)) :
    c ∈ text.toList ↔ ∃ name ∈ names, c ∈ name.toList := by
  have hother : ∀ d ∈ punctuation, (d == c) = false := fun d hd =>
    beq_false_of_ne fun hdc => hc (hdc ▸ hd)
  have hkept (cs : List Char) : c ∈ cs ↔ c ∈ cs.filter (· == c) := by simp
  rw [hkept, h _ hother, List.mem_flatMap]
  simp

theorem mem_text_iff (t : TypeSyntax) :
    c ∈ t.text.toList ↔ ∃ name ∈ t.names, c ∈ name.toList :=
  mem_iff_of_filter hc fun _ hp => filter_text hp t

theorem mem_argumentsText_iff (ts : List TypeSyntax) :
    c ∈ (argumentsText ts).toList ↔ ∃ t ∈ ts, c ∈ t.text.toList := by
  rw [mem_iff_of_filter hc fun _ hp => filter_argumentsText hp ts, namesOfList_eq_flatMap]
  simp only [mem_text_iff hc, List.mem_flatMap]
  constructor
  · rintro ⟨name, ⟨t, ht, hname⟩, hmem⟩
    exact ⟨t, ht, name, hname, hmem⟩
  · rintro ⟨t, ht, name, hname, hmem⟩
    exact ⟨name, ⟨t, ht, hname⟩, hmem⟩

end Membership

end OperatorRecovery.TypeSyntax
