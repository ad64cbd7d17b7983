import OperatorRecovery.FormatPlan

/-!
What a plan promises. There is a plan exactly when splitting the format met no error,
the arguments are named in order and each of them once, and no format of a slot is
empty; its segments are the tokens one for one. Building looks at no index and takes
the arguments as they come. The order of the plan makes this right: every slot holds
the argument of its index, and every argument stands in one slot.
-/

namespace OperatorRecovery.FormatPlan

open CompositeFormat

/-- The token that a segment is made from. -/
def Segment.token : Segment → Token
  | .text cs => .text cs
  | .argument index none => .argument index
  | .argument index (some spec) => .argumentWithSpec index spec

def Segment.index? : Segment → Option Nat
  | .text _ => none
  | .argument index _ => some index

/-- The piece of a segment, with the argument of its index in the slot. -/
def Segment.piece? (arguments : List Expr) : Segment → Option (Piece Expr)
  | .text cs => some (.text (String.ofList cs))
  | .argument index spec =>
    arguments[index]?.map fun e => .interpolation (shielded e) (spec.map String.ofList)

section Plans

variable {count expected index : Nat} {spec : Option (List Char)} {tokens : List Token}
  {segments : List Segment}

theorem bind_eq_ok_iff {result : Except ε α} {next : α → Except ε β} {b : β} :
    (result >>= next) = .ok b ↔ ∃ a, result = .ok a ∧ next a = .ok b := by
  cases result with
  | error e => simp [bind, Except.bind]
  | ok a => simp [bind, Except.bind]

theorem argument_eq_ok_iff {segment : Segment} :
    argument count expected index spec = .ok segment ↔
      spec ≠ some [] ∧ index = expected ∧ index < count ∧ segment = .argument index spec := by
  unfold argument
  split
  · rename_i hempty
    simp [hempty]
  · rename_i hspec
    split
    · rename_i hindex
      simp [hindex]
    · rename_i hindex
      split
      · rename_i hcount
        simp [Nat.not_lt.mpr hcount]
      · rename_i hcount
        rw [Except.ok.injEq]
        constructor
        · rintro rfl
          exact ⟨hspec, Decidable.not_not.mp hindex, Nat.lt_of_not_le hcount, rfl⟩
        · rintro ⟨_, _, _, rfl⟩
          rfl

/-- Arguments with and without a format are planned alike. -/
theorem fromTokens_argument_eq_ok_iff :
    fromTokens count expected ((Segment.argument index spec).token :: tokens) = .ok segments ↔
      spec ≠ some [] ∧ index = expected ∧ index < count ∧
        ∃ rest, fromTokens count (expected + 1) tokens = .ok rest ∧
          segments = .argument index spec :: rest := by
  have hstep : fromTokens count expected ((Segment.argument index spec).token :: tokens) =
      argument count expected index spec >>= fun segment =>
        fromTokens count (expected + 1) tokens >>= fun rest => .ok (segment :: rest) := by
    cases spec <;> rfl
  simp only [hstep, bind_eq_ok_iff, argument_eq_ok_iff, Except.ok.injEq]
  constructor
  · intro h
    obtain ⟨_, ⟨hspec, hindex, hcount, rfl⟩, rest, hrest, rfl⟩ := h
    exact ⟨hspec, hindex, hcount, rest, hrest, rfl⟩
  · intro h
    obtain ⟨hspec, hindex, hcount, rest, hrest, rfl⟩ := h
    exact ⟨_, ⟨hspec, hindex, hcount, rfl⟩, rest, hrest, rfl⟩

theorem fromTokens_text_eq_ok_iff {text : List Char} :
    fromTokens count expected (.text text :: tokens) = .ok segments ↔
      ∃ rest, fromTokens count expected tokens = .ok rest ∧ segments = .text text :: rest := by
  have hstep : fromTokens count expected (.text text :: tokens) =
      fromTokens count expected tokens >>= fun rest => .ok (.text text :: rest) := rfl
  simp only [hstep, bind_eq_ok_iff, Except.ok.injEq]
  exact exists_congr fun rest => and_congr_right fun _ => eq_comm

/-- The arguments from `expected` on are named in order, and no format is empty. -/
structure Orderly (count expected : Nat) (segments : List Segment) : Prop where
  indices : segments.filterMap Segment.index? = List.range' expected (count - expected)
  specified : ∀ index, .argument index (some []) ∉ segments

theorem orderly_nil_iff : Orderly count expected [] ↔ count ≤ expected := by
  constructor
  · intro h
    have hlength := congrArg List.length h.indices
    simp only [List.filterMap_nil, List.length_nil, List.length_range'] at hlength
    omega
  · intro h
    have hnone : count - expected = 0 := by omega
    exact ⟨by rw [hnone]; rfl, fun _ => List.not_mem_nil⟩

theorem orderly_text_iff {text : List Char} :
    Orderly count expected (.text text :: segments) ↔ Orderly count expected segments := by
  constructor
  · intro h
    exact ⟨h.indices, fun index hmem => h.specified index (List.mem_cons_of_mem _ hmem)⟩
  · intro h
    refine ⟨h.indices, fun index hmem => ?_⟩
    rcases List.mem_cons.mp hmem with heq | hmem
    · cases heq
    · exact h.specified index hmem

theorem orderly_argument_iff :
    Orderly count expected (.argument index spec :: segments) ↔
      spec ≠ some [] ∧ index = expected ∧ index < count ∧
        Orderly count (expected + 1) segments := by
  constructor
  · intro h
    have hindices : index :: segments.filterMap Segment.index? =
        List.range' expected (count - expected) := h.indices
    have hpositive : count - expected = count - (expected + 1) + 1 := by
      have hlength := congrArg List.length hindices
      simp only [List.length_cons, List.length_range'] at hlength
      omega
    rw [hpositive, List.range'_succ, List.cons.injEq] at hindices
    refine ⟨?_, hindices.1, by omega, hindices.2, fun i hmem =>
      h.specified i (List.mem_cons_of_mem _ hmem)⟩
    rintro rfl
    exact h.specified index List.mem_cons_self
  · intro h
    obtain ⟨hspec, rfl, hcount, hrest⟩ := h
    have hpositive : count - index = count - (index + 1) + 1 := by omega
    refine ⟨?_, fun i hmem => ?_⟩
    · rw [hpositive, List.range'_succ, ← hrest.indices]
      rfl
    · rcases List.mem_cons.mp hmem with heq | hmem
      · cases heq
        exact hspec rfl
      · exact hrest.specified i hmem

theorem Segment.token_injective : Function.Injective Segment.token := by
  intro s s' h
  match s, s' with
  | .text _, .text _ => cases h; rfl
  | .text _, .argument _ none => cases h
  | .text _, .argument _ (some _) => cases h
  | .argument _ none, .text _ => cases h
  | .argument _ (some _), .text _ => cases h
  | .argument _ none, .argument _ none => cases h; rfl
  | .argument _ none, .argument _ (some _) => cases h
  | .argument _ (some _), .argument _ none => cases h
  | .argument _ (some _), .argument _ (some _) => cases h; rfl

theorem Segment.token_ne_error (s : Segment) : s.token ≠ .error := by
  match s with
  | .text _ => nofun
  | .argument _ none => nofun
  | .argument _ (some _) => nofun

/-- The tokens of an orderly list of segments are planned, and nothing else is. -/
theorem fromTokens_eq_ok_iff :
    fromTokens count expected tokens = .ok segments ↔
      tokens = segments.map Segment.token ∧ Orderly count expected segments := by
  induction tokens generalizing expected segments with
  | nil =>
    rw [fromTokens, List.nil_eq, List.map_eq_nil_iff]
    split
    · rename_i hunused
      constructor
      · intro h
        cases h
      · rintro ⟨rfl, h⟩
        rw [orderly_nil_iff] at h
        omega
    · rename_i hused
      constructor
      · intro h
        cases h
        exact ⟨rfl, orderly_nil_iff.mpr (by omega)⟩
      · rintro ⟨rfl, _⟩
        rfl
  | cons token tokens ih =>
    have hmember {segment : Segment} (h : segment.token :: tokens = segments.map Segment.token) :
        ∃ rest, segments = segment :: rest ∧ tokens = rest.map Segment.token := by
      obtain ⟨segment', rest, rfl, htoken, hrest⟩ := List.map_eq_cons_iff.mp h.symm
      rw [Segment.token_injective htoken]
      exact ⟨rest, rfl, hrest.symm⟩
    have hargument (index : Nat) (spec : Option (List Char)) :
        fromTokens count expected ((Segment.argument index spec).token :: tokens) = .ok segments ↔
          (Segment.argument index spec).token :: tokens = segments.map Segment.token ∧
            Orderly count expected segments := by
      rw [fromTokens_argument_eq_ok_iff]
      constructor
      · rintro ⟨hspec, hindex, hcount, rest, hrest, rfl⟩
        obtain ⟨rfl, horderly⟩ := ih.mp hrest
        exact ⟨rfl, orderly_argument_iff.mpr ⟨hspec, hindex, hcount, horderly⟩⟩
      · rintro ⟨htokens, horderly⟩
        obtain ⟨rest, rfl, hrest⟩ := hmember htokens
        obtain ⟨hspec, hindex, hcount, horderly⟩ := orderly_argument_iff.mp horderly
        exact ⟨hspec, hindex, hcount, rest, ih.mpr ⟨hrest, horderly⟩, rfl⟩
    cases token with
    | text text =>
      rw [fromTokens_text_eq_ok_iff]
      constructor
      · rintro ⟨rest, hrest, rfl⟩
        obtain ⟨rfl, horderly⟩ := ih.mp hrest
        exact ⟨rfl, orderly_text_iff.mpr horderly⟩
      · rintro ⟨htokens, horderly⟩
        obtain ⟨rest, rfl, hrest⟩ := @hmember (.text text) htokens
        exact ⟨rest, ih.mpr ⟨hrest, orderly_text_iff.mp horderly⟩, rfl⟩
    | argument index => exact hargument index none
    | argumentWithSpec index spec => exact hargument index (some spec)
    | error =>
      constructor
      · intro h
        cases h
      · rintro ⟨htokens, _⟩
        obtain ⟨segment, _, _, htoken, _⟩ := List.map_eq_cons_iff.mp htokens.symm
        exact absurd htoken segment.token_ne_error

theorem plan_eq_ok_iff {format : List Char} :
    plan format count = .ok segments ↔
      CompositeFormat.tokens format = segments.map Segment.token ∧ Orderly count 0 segments :=
  fromTokens_eq_ok_iff

end Plans

section Building

variable {segments : List Segment} {arguments : List Expr}

/-- Slots take the arguments as they come, which are those of their indices. -/
theorem build_drop {start : Nat} (h : Orderly arguments.length start segments) :
    build segments (arguments.drop start) = segments.filterMap (Segment.piece? arguments) := by
  induction segments generalizing start with
  | nil => rfl
  | cons segment segments ih =>
    cases segment with
    | text text =>
      have hrest := ih (orderly_text_iff.mp h)
      rw [build, hrest]
      rfl
    | argument index spec =>
      obtain ⟨_, rfl, hindex, hrest⟩ := orderly_argument_iff.mp h
      have hpiece : Segment.piece? arguments (.argument index spec) =
          some (.interpolation (shielded arguments[index]) (spec.map String.ofList)) := by
        rw [Segment.piece?, List.getElem?_eq_getElem hindex]
        rfl
      rw [List.drop_eq_getElem_cons hindex, build, ih hrest, List.filterMap_cons, hpiece]

theorem build_eq_filterMap (h : Orderly arguments.length 0 segments) :
    build segments arguments = segments.filterMap (Segment.piece? arguments) :=
  build_drop h

/-- Where there are as many slots as arguments, every argument stands in one slot. -/
theorem slots_build (h : (segments.filterMap Segment.index?).length = arguments.length) :
    (build segments arguments).filterMap Piece.slot? = arguments.map shielded := by
  fun_induction build segments arguments with
  | case1 arguments =>
    have hnone : arguments = [] := List.eq_nil_of_length_eq_zero h.symm
    rw [hnone]
    rfl
  | case2 text segments arguments ih => exact ih h
  | case3 index spec segments e arguments ih =>
    have hrest := ih (Nat.succ.inj h)
    rw [List.map_cons, ← hrest]
    rfl
  | case4 index spec segments ih => cases h

theorem Orderly.length_indices {count start : Nat} (h : Orderly count start segments) :
    (segments.filterMap Segment.index?).length = count - start := by
  rw [h.indices, List.length_range']

theorem Orderly.index_lt {count : Nat} (h : Orderly count 0 segments) {segment : Segment}
    (hsegment : segment ∈ segments) : ∀ index ∈ segment.index?, index < count := by
  intro index hindex
  have hmem : index ∈ List.range' 0 (count - 0) := by
    rw [← h.indices]
    exact List.mem_filterMap.mpr ⟨segment, hsegment, hindex⟩
  simpa using hmem

end Building

end OperatorRecovery.FormatPlan
