import OperatorRecovery.Path
import OperatorRecovery.Proofs.Provenance

/-!
Histories of annotation lists. A list changes in three ways: an annotation is added, or all
annotations of a donor are, or only its instruction ranges. Each of them appends, so a list is a
prefix of all that come later, and of several annotations of a kind the one that was there first
goes on counting. Ranges that are inherited answer no other question about the list.
-/

namespace OperatorRecovery

namespace Annotations

inductive Addition
  | push (added : Annotation)
  | copy (donor : Annotations)
  /-- The instruction ranges of the donor alone. -/
  | inherit (donor : Annotations)

def add (as : Annotations) : Addition → Annotations
  | .push added => as ++ [added]
  | .copy donor => as ++ donor
  | .inherit donor => inheritInstructions as donor

/-- The list at the start and after each addition. -/
def history (start : Annotations) : List Addition → List Annotations
  | [] => [start]
  | first :: rest => start :: history (add start first) rest

/-- A later list that goes on saying what an earlier one says. -/
structure IsKeptBy (earlier later : Annotations) : Prop where
  isPrefix : earlier <+: later
  symbol?_eq : ∀ s, symbol? earlier = some s → symbol? later = some s
  resolvedType?_eq : ∀ t, resolvedType? earlier = some t → resolvedType? later = some t
  hasLoadToken_eq : hasLoadToken earlier = true → hasLoadToken later = true
  instructions_isPrefix : instructions earlier <+: instructions later

section Histories

variable {as bs : Annotations}

/-- Each reading looks from the front and finds what was there. -/
theorem isKeptBy_of_isPrefix (h : as <+: bs) : IsKeptBy as bs := by
  obtain ⟨added, rfl⟩ := h
  constructor
  · exact List.prefix_append as added
  · intro s hs
    rw [symbol?_append, hs, Option.some_or]
  · intro t ht
    rw [resolvedType?_append, ht, Option.some_or]
  · intro hloaded
    exact hasLoadToken_append_of_left hloaded added
  · rw [instructions_append]
    exact List.prefix_append _ _

theorem isPrefix_add (as : Annotations) (addition : Addition) : as <+: add as addition := by
  cases addition with
  | push added => exact List.prefix_append as [added]
  | copy donor => exact List.prefix_append as donor
  | inherit donor => exact List.prefix_append as (ofInstructions (instructions donor))

theorem isPrefix_of_mem_history {start : Annotations} {additions : List Addition}
    (h : as ∈ history start additions) : start <+: as := by
  induction additions generalizing start with
  | nil =>
    rw [history, List.mem_singleton] at h
    exact h ▸ List.prefix_rfl
  | cons first rest ih =>
    rw [history, List.mem_cons] at h
    rcases h with rfl | h
    · exact List.prefix_rfl
    · exact (isPrefix_add start first).trans (ih h)

theorem pairwise_history (start : Annotations) (additions : List Addition) :
    (history start additions).Pairwise IsKeptBy := by
  induction additions generalizing start with
  | nil => exact List.pairwise_singleton _ _
  | cons first rest ih =>
    rw [history, List.pairwise_cons]
    constructor
    · intro later hlater
      exact isKeptBy_of_isPrefix ((isPrefix_add start first).trans (isPrefix_of_mem_history hlater))
    · exact ih (add start first)

/-- The first symbol is of one kind. -/
theorem method?_eq_none_or_field?_eq_none (as : Annotations) :
    method? as = none ∨ field? as = none := by
  unfold method? field?
  rcases symbol? as with _ | method | field | type
  · exact Or.inl rfl
  · exact Or.inr rfl
  · exact Or.inl rfl
  · exact Or.inl rfl

end Histories

section Inheriting

variable (as donor : Annotations)

theorem symbol?_inheritInstructions : symbol? (inheritInstructions as donor) = symbol? as :=
  symbol?_append_ofInstructions as (instructions donor)

theorem resolvedType?_inheritInstructions :
    resolvedType? (inheritInstructions as donor) = resolvedType? as := by
  have hranges (ranges : List InstructionRange) : resolvedType? (ofInstructions ranges) = none := by
    cases ranges <;> rfl
  rw [inheritInstructions, resolvedType?_append, hranges, Option.or_none]

theorem hasLoadToken_inheritInstructions :
    hasLoadToken (inheritInstructions as donor) = hasLoadToken as := by
  have hranges (ranges : List InstructionRange) : hasLoadToken (ofInstructions ranges) = false := by
    cases ranges <;> rfl
  rw [inheritInstructions, hasLoadToken_append, hranges, Bool.or_false]

end Inheriting

/-- Every list of a history goes on saying what the earlier ones said, and none denotes both a
method and a field. Inheriting instructions adds those of the donor at the end and changes nothing
else that is read off a list. The annotations of a node grow in these ways. -/
theorem history_grows :
    (∀ (start : Annotations) (additions : List Addition),
      (history start additions).Pairwise IsKeptBy ∧
      ∀ as ∈ history start additions, start <+: as ∧ (method? as = none ∨ field? as = none)) ∧
    (∀ as donor : Annotations,
      instructions (add as (.inherit donor)) = instructions as ++ instructions donor ∧
      symbol? (add as (.inherit donor)) = symbol? as ∧
      method? (add as (.inherit donor)) = method? as ∧
      field? (add as (.inherit donor)) = field? as ∧
      resolvedType? (add as (.inherit donor)) = resolvedType? as ∧
      hasLoadToken (add as (.inherit donor)) = hasLoadToken as) ∧
    ∀ (e : Expr) (donor : Annotations),
      e.annotate donor = ⟨e.form, add e.annotations (.copy donor)⟩ ∧
      e.inheritInstructions donor = ⟨e.form, add e.annotations (.inherit donor)⟩ := by
  refine ⟨?_, ?_, ?_⟩
  · intro start additions
    refine ⟨pairwise_history start additions, ?_⟩
    intro as has
    exact ⟨isPrefix_of_mem_history has, method?_eq_none_or_field?_eq_none as⟩
  · intro as donor
    have hsymbol := symbol?_inheritInstructions as donor
    refine ⟨instructions_inheritInstructions as donor, hsymbol, ?_, ?_,
      resolvedType?_inheritInstructions as donor, hasLoadToken_inheritInstructions as donor⟩
    · rw [add, method?, hsymbol, method?]
    · rw [add, field?, hsymbol, field?]
  · intro e donor
    exact ⟨rfl, rfl⟩

end Annotations

end OperatorRecovery
