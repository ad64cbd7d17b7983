import Mathlib.Data.List.Basic
import OperatorRecovery.Proofs.MatchStates

/-!
Sequences of items against the parts of a node. An optional item may take a part that a later
required item needs, so the matcher comes back to it and drops it where nothing else works. It finds
a match whenever there is one, for items over any attempts that come back to where they began and
whose success does not depend on captures. Of all full matches it records the one that keeps each
optional item if it can be kept after what was decided before it.
-/

namespace OperatorRecovery

/-- The parts from an index on, each with its own index. -/
def Expr.partsFrom (e : Expr) (i : Nat) : List (Expr × Nat) := e.parts.zipIdx.drop i

theorem Expr.partsFrom_of_length_le {e : Expr} {i : Nat} (h : e.parts.length ≤ i) :
    e.partsFrom i = [] := List.drop_eq_nil_of_le (by simpa using h)

theorem Expr.partsFrom_of_child? {e part : Expr} {i : Nat} (h : e.child? i = some part) :
    e.partsFrom i = (part, i) :: e.partsFrom (i + 1) := by
  obtain ⟨hi, hpart⟩ := List.getElem?_eq_some_iff.mp h
  have hlength : i < e.parts.zipIdx.length := by rwa [List.length_zipIdx]
  rw [partsFrom, List.drop_eq_getElem_cons hlength, List.getElem_zipIdx, hpart, Nat.zero_add,
    partsFrom]

namespace Match

variable {m m' : Match}

/-- The match is where it was, with all captures that were there. -/
structure Continues (m m' : Match) : Prop where
  path_eq : m'.path = m.path
  isPrefix : m.captures <+: m'.captures

theorem Continues.restore_eq (h : Continues m m') : m'.restore m.captures.length = m := by
  obtain ⟨path, captures⟩ := m
  obtain ⟨path', captures'⟩ := m'
  obtain ⟨rfl, hprefix⟩ := h
  rw [restore, ← List.prefix_iff_eq_take.mp hprefix]

theorem continues_extend (m : Match) (found : List Recording) : Continues m (m.extend found) :=
  ⟨rfl, List.prefix_append _ _⟩

/-- Where an attempt at a part continues, so does the visit of the part. -/
theorem Continues.leave {i : Nat} (h : Continues (m.enter i) m') : Continues m m'.leave where
  path_eq := by rw [Match.leave, h.path_eq, enter, List.dropLast_concat]
  isPrefix := h.isPrefix

end Match

namespace Attempt

open Match (Continues)

variable {m m₁ m₂ : Match} {first second other : Attempt}

theorem perform_bothOrElse_of_both (hfirst : perform first m = (true, m₁))
    (hsecond : perform second m₁ = (true, m₂)) :
    perform (bothOrElse first second other) m = (true, m₂) := by
  simp [bothOrElse, hfirst, hsecond]

theorem perform_bothOrElse_of_first (hfirst : perform first m = (false, m₁))
    (continues : Continues m m₁) :
    perform (bothOrElse first second other) m = perform other m := by
  simp [bothOrElse, hfirst, continues.restore_eq]

theorem perform_bothOrElse_of_second (hfirst : perform first m = (true, m₁))
    (hsecond : perform second m₁ = (false, m₂)) (continues : Continues m m₂) :
    perform (bothOrElse first second other) m = perform other m := by
  simp [bothOrElse, hfirst, hsecond, continues.restore_eq]

end Attempt

open Attempt

/-- An item over any attempt. -/
structure Probe where
  isOptional : Bool
  attempt : Expr → Attempt

namespace Probe

/-- Succeeds at a part on that path, if nothing was captured before. -/
def Fits (p : Probe) (part : Expr) (path : Expr.Path) : Prop :=
  (perform (p.attempt part) ⟨path, []⟩).1 = true

/-- Whether it succeeds does not depend on the captures. It comes back to where it began and keeps
what was captured before. -/
structure IsSteady (p : Probe) : Prop where
  succeeds_iff (part : Expr) (m : Match) :
    (perform (p.attempt part) m).1 = true ↔ p.Fits part m.path
  continues (part : Expr) (m : Match) : m.Continues (perform (p.attempt part) m).2

/-- Matches the parts from an index on, all of which must be used up. -/
def attemptAll : List Probe → Expr → Nat → Attempt
  | [], e, i => return e.parts.length ≤ i
  | p :: rest, e, i =>
    let without := if p.isOptional then attemptAll rest e i else return false
    if e.parts.length ≤ i then without
    else bothOrElse (descend e i p.attempt) (attemptAll rest e (i + 1)) without

/-- Keeping and dropping by the choice leaves these of the items. Only optional ones are dropped. -/
inductive Keeps : List Bool → List Probe → List Probe → Prop
  | nil : Keeps [] [] []
  | keep {choice : List Bool} {probes kept : List Probe} (p : Probe)
    (rest : Keeps choice probes kept) : Keeps (true :: choice) (p :: probes) (p :: kept)
  | drop {choice : List Bool} {probes kept : List Probe} {p : Probe}
    (optional : p.isOptional = true) (rest : Keeps choice probes kept) :
    Keeps (false :: choice) (p :: probes) kept

/-- What is kept matches the parts one for one, with none left over. -/
def IsFullMatch (probes : List Probe) (e : Expr) (i : Nat) (path : Expr.Path)
    (choice : List Bool) : Prop :=
  ∃ kept, Keeps choice probes kept ∧
    List.Forall₂ (fun p part => p.Fits part.1 (path ++ [part.2])) kept (e.partsFrom i)

/-- A full choice that, from left to right, keeps what any full choice keeps that has decided the
same so far. -/
structure IsPreferred (full : List Bool → Prop) (choice : List Bool) : Prop where
  isFull : full choice
  keeps (k : Nat) (other : List Bool) (h : full other) (same : other.take k = choice.take k)
    (kept : other[k]? = some true) : choice[k]? = some true

/-- The match after a visit of each part in turn. -/
def collect (e : Expr) : List Probe → Nat → Match → Match
  | [], _, m => m
  | p :: kept, i, m => collect e kept (i + 1) (perform (descend e i p.attempt) m).2

/-- There is a result if and only if some choice is a full match, and the result is what the
preferred choice records. -/
structure IsComplete (probes : List Probe) (e : Expr) (i : Nat) (m : Match)
    (result? : Option Match) : Prop where
  isSome_iff : result?.isSome = true ↔ ∃ choice, IsFullMatch probes e i m.path choice
  exists_preferred : ∀ m' ∈ result?, ∃ choice kept,
    IsPreferred (IsFullMatch probes e i m.path) choice ∧
    (∀ other, IsPreferred (IsFullMatch probes e i m.path) other → other = choice) ∧
    Keeps choice probes kept ∧ m' = collect e kept i m

/-- How the match of a sequence ends, and what it leaves. -/
inductive Ends (probes : List Probe) (e : Expr) (i : Nat) (m : Match) : Bool × Match → Prop
  | matched {choice : List Bool} {kept : List Probe}
    (preferred : IsPreferred (IsFullMatch probes e i m.path) choice)
    (keeps : Keeps choice probes kept) : Ends probes e i m (true, collect e kept i m)
  | unmatched (none : ∀ choice, ¬ IsFullMatch probes e i m.path choice) :
    Ends probes e i m (false, m)

section Choices

variable {full full' : List Bool → Prop} {choice choice' : List Bool} {probes kept : List Probe}

theorem Keeps.length_eq (h : Keeps choice probes kept) : choice.length = probes.length := by
  induction h with
  | nil => rfl
  | keep p rest ih => exact congrArg (· + 1) ih
  | drop optional rest ih => exact congrArg (· + 1) ih

theorem IsPreferred.congr (h : IsPreferred full choice) (hfull : ∀ c, full' c ↔ full c) :
    IsPreferred full' choice := by
  rwa [show full' = full from funext fun c => propext (hfull c)]

theorem IsPreferred.keep (h : IsPreferred (fun c => full (true :: c)) choice) :
    IsPreferred full (true :: choice) where
  isFull := h.isFull
  keeps k other hother same kept := by
    cases k with
    | zero => rfl
    | succ k =>
      cases other with
      | nil => cases kept
      | cons b other =>
        obtain ⟨rfl, hsame⟩ := List.cons.inj same
        exact h.keeps k other hother hsame kept

theorem IsPreferred.drop (hkeep : ∀ c, ¬ full (true :: c))
    (h : IsPreferred (fun c => full (false :: c)) choice) : IsPreferred full (false :: choice) where
  isFull := h.isFull
  keeps k other hother same kept := by
    cases other with
    | nil => cases kept
    | cons b other =>
      cases k with
      | zero =>
        obtain rfl : b = true := Option.some.inj kept
        exact absurd hother (hkeep other)
      | succ k =>
        obtain ⟨rfl, hsame⟩ := List.cons.inj same
        exact h.keeps k other hother hsame kept

/-- Of choices of one length at most one is preferred. -/
theorem IsPreferred.eq (h : IsPreferred full choice) (h' : IsPreferred full choice')
    (hlength : choice.length = choice'.length) : choice = choice' := by
  have htake (k : Nat) : choice.take k = choice'.take k := by
    induction k with
    | zero => rfl
    | succ k ih =>
      have hkept : choice[k]? = some true ↔ choice'[k]? = some true :=
        ⟨h'.keeps k choice h.isFull ih, h.keeps k choice' h'.isFull ih.symm⟩
      have hdecided : choice[k]? = choice'[k]? := by
        by_cases hk : k < choice.length
        · have hk' : k < choice'.length := hlength ▸ hk
          rw [List.getElem?_eq_getElem hk, List.getElem?_eq_getElem hk'] at hkept ⊢
          rw [Option.some.injEq, Option.some.injEq] at hkept
          rw [Bool.eq_iff_iff.mpr hkept]
        · rw [List.getElem?_eq_none (Nat.le_of_not_lt hk),
            List.getElem?_eq_none (Nat.le_of_not_lt (hlength ▸ hk))]
      rw [List.take_add_one, List.take_add_one, ih, hdecided]
  calc choice = choice.take choice.length := List.take_length.symm
    _ = choice'.take choice'.length := hlength ▸ htake choice.length
    _ = choice' := List.take_length

end Choices

section Matching

variable {p : Probe} {probes rest kept : List Probe} {e part : Expr} {i : Nat} {m m' : Match}
  {path : Expr.Path} {choice : List Bool} {result : Bool × Match}

theorem isFullMatch_nil_iff :
    IsFullMatch [] e i path choice ↔ choice = [] ∧ e.parts.length ≤ i := by
  constructor
  · rintro ⟨kept, ⟨⟩, hparts⟩
    refine ⟨rfl, Nat.le_of_not_lt fun hi => ?_⟩
    rw [Expr.partsFrom_of_child? (List.getElem?_eq_getElem hi)] at hparts
    cases hparts
  · rintro ⟨rfl, hi⟩
    refine ⟨[], .nil, ?_⟩
    rw [Expr.partsFrom_of_length_le hi]
    exact .nil

theorem isFullMatch_keep_iff : IsFullMatch (p :: rest) e i path (true :: choice) ↔
    ∃ part, e.child? i = some part ∧ p.Fits part (path ++ [i]) ∧
      IsFullMatch rest e (i + 1) path choice := by
  constructor
  · rintro ⟨kept, hkeeps, hparts⟩
    cases hkeeps with
    | keep p hkeeps =>
      cases hpart : e.child? i with
      | none =>
        rw [Expr.partsFrom_of_length_le (List.getElem?_eq_none_iff.mp hpart)] at hparts
        cases hparts
      | some part =>
        rw [Expr.partsFrom_of_child? hpart] at hparts
        cases hparts with
        | cons hfits hparts => exact ⟨part, rfl, hfits, _, hkeeps, hparts⟩
  · rintro ⟨part, hpart, hfits, kept, hkeeps, hparts⟩
    refine ⟨p :: kept, .keep p hkeeps, ?_⟩
    rw [Expr.partsFrom_of_child? hpart]
    exact .cons hfits hparts

theorem isFullMatch_drop_iff : IsFullMatch (p :: rest) e i path (false :: choice) ↔
    p.isOptional = true ∧ IsFullMatch rest e i path choice := by
  constructor
  · rintro ⟨kept, hkeeps, hparts⟩
    cases hkeeps with
    | drop optional hkeeps => exact ⟨optional, kept, hkeeps, hparts⟩
  · rintro ⟨optional, kept, hkeeps, hparts⟩
    exact ⟨kept, .drop optional hkeeps, hparts⟩

theorem not_isFullMatch_cons (hkeep : ∀ c, ¬ IsFullMatch (p :: rest) e i path (true :: c))
    (hdrop : ∀ c, ¬ IsFullMatch (p :: rest) e i path (false :: c)) (choice : List Bool) :
    ¬ IsFullMatch (p :: rest) e i path choice := by
  rcases choice with _ | ⟨_ | _, c⟩
  · rintro ⟨_, ⟨⟩, _⟩
  · exact hdrop c
  · exact hkeep c

/-- An item that no full match keeps is dropped, if it may be. -/
theorem ends_without (hkeep : ∀ c, ¬ IsFullMatch (p :: rest) e i m.path (true :: c))
    (h : Ends rest e i m (perform (attemptAll rest e i) m)) :
    Ends (p :: rest) e i m
      (perform (if p.isOptional then attemptAll rest e i else return false) m) := by
  by_cases hoptional : p.isOptional = true
  · rw [if_pos hoptional]
    have hdrop (c : List Bool) : IsFullMatch (p :: rest) e i m.path (false :: c) ↔
        IsFullMatch rest e i m.path c := by
      rw [isFullMatch_drop_iff]
      exact and_iff_right hoptional
    generalize perform (attemptAll rest e i) m = result at h ⊢
    cases h with
    | matched preferred keeps =>
      exact .matched (.drop hkeep (preferred.congr hdrop)) (.drop hoptional keeps)
    | unmatched hnone =>
      exact .unmatched (not_isFullMatch_cons hkeep fun c hc => hnone c ((hdrop c).mp hc))
  · rw [if_neg hoptional]
    exact .unmatched (not_isFullMatch_cons hkeep fun c hc =>
      hoptional (isFullMatch_drop_iff.mp hc).1)

theorem IsSteady.descend (h : p.IsSteady) (hpart : e.child? i = some part) (m : Match) :
    ((perform (Attempt.descend e i p.attempt) m).1 = true ↔ p.Fits part (m.path ++ [i])) ∧
      m.Continues (perform (Attempt.descend e i p.attempt) m).2 := by
  rw [perform_descend hpart]
  exact ⟨h.succeeds_iff part (m.enter i), (h.continues part (m.enter i)).leave⟩

theorem attemptAll_nil_ends (e : Expr) (i : Nat) (m : Match) :
    Ends [] e i m (perform (attemptAll [] e i) m) := by
  rw [attemptAll, perform_pure]
  by_cases hi : e.parts.length ≤ i
  · rw [decide_eq_true hi]
    refine .matched ⟨isFullMatch_nil_iff.mpr ⟨rfl, hi⟩, ?_⟩ .nil
    intro k other hother _ hkept
    rw [(isFullMatch_nil_iff.mp hother).1] at hkept
    cases hkept
  · rw [decide_eq_false hi]
    exact .unmatched fun c hc => hi (isFullMatch_nil_iff.mp hc).2

/-- An item is kept if its part fits and the rest then matches, and is else dropped. -/
theorem attemptAll_cons_ends (hp : p.IsSteady)
    (hrest : ∀ i m, Ends rest e i m (perform (attemptAll rest e i) m)) (i : Nat) (m : Match) :
    Ends (p :: rest) e i m (perform (attemptAll (p :: rest) e i) m) := by
  have hwithout := fun hkeep => ends_without (p := p) hkeep (hrest i m)
  rw [attemptAll]
  by_cases hi : e.parts.length ≤ i
  · rw [if_pos hi]
    refine hwithout fun c hc => ?_
    obtain ⟨part, hpart, _⟩ := isFullMatch_keep_iff.mp hc
    rw [Expr.child?, List.getElem?_eq_none hi] at hpart
    cases hpart
  · rw [if_neg hi]
    have hpart : e.child? i = some e.parts[i] := List.getElem?_eq_getElem (Nat.lt_of_not_le hi)
    obtain ⟨hfits, hcontinues⟩ := hp.descend hpart m
    -- The rest is matched from where the visit of the part leaves: on the same path, so that the
    -- same choices fit, but with more captures.
    rcases hfirst : perform (Attempt.descend e i p.attempt) m with ⟨succeeded, m₁⟩
    rw [hfirst] at hfits hcontinues
    have hkeep (c : List Bool) : IsFullMatch (p :: rest) e i m.path (true :: c) ↔
        succeeded = true ∧ IsFullMatch rest e (i + 1) m₁.path c := by
      rw [isFullMatch_keep_iff, hcontinues.path_eq]
      simp [hpart, hfits]
    cases succeeded with
    | false =>
      rw [perform_bothOrElse_of_first hfirst hcontinues]
      exact hwithout fun c hc => Bool.false_ne_true ((hkeep c).mp hc).1
    | true =>
      have hsecond := hrest (i + 1) m₁
      generalize hresult : perform (attemptAll rest e (i + 1)) m₁ = result at hsecond
      cases hsecond with
      | @matched choice kept preferred keeps =>
        have hcollect : collect e (p :: kept) i m = collect e kept (i + 1) m₁ := by
          rw [collect, hfirst]
        rw [perform_bothOrElse_of_both hfirst hresult, ← hcollect]
        have hfull (c : List Bool) := (hkeep c).trans (and_iff_right rfl)
        exact .matched (preferred.congr hfull).keep (.keep p keeps)
      | unmatched hnone =>
        rw [perform_bothOrElse_of_second hfirst hresult hcontinues]
        exact hwithout fun c hc => hnone c ((hkeep c).mp hc).2

theorem attemptAll_ends (steady : ∀ p ∈ probes, p.IsSteady) (e : Expr) (i : Nat) (m : Match) :
    Ends probes e i m (perform (attemptAll probes e i) m) := by
  induction probes generalizing i m with
  | nil => exact attemptAll_nil_ends e i m
  | cons p rest ih =>
    obtain ⟨hp, hrest⟩ := List.forall_mem_cons.mp steady
    exact attemptAll_cons_ends hp (ih hrest) i m

theorem Ends.exists_isComplete (h : Ends probes e i m result) :
    ∃ result?, result = (result?.isSome, result?.getD m) ∧ IsComplete probes e i m result? := by
  cases h with
  | @matched choice kept preferred keeps =>
    refine ⟨some (collect e kept i m), rfl, iff_of_true rfl ⟨choice, preferred.isFull⟩, ?_⟩
    rintro m' ⟨⟩
    refine ⟨choice, kept, preferred, ?_, keeps, rfl⟩
    intro other hother
    obtain ⟨kept', hkeeps', _⟩ := hother.isFull
    exact hother.eq preferred (hkeeps'.length_eq.trans keeps.length_eq.symm)
  | unmatched hnone =>
    exact ⟨none, rfl, iff_of_false Bool.false_ne_true fun ⟨choice, hc⟩ => hnone choice hc, nofun⟩

end Matching

end Probe

namespace Item

def isOptional : Item → Bool
  | .required _ => false
  | .optional _ => true

def pattern : Item → Pattern
  | .required p | .optional p => p

def probe (item : Item) : Probe := ⟨item.isOptional, item.pattern.attempt⟩

theorem fits_probe_iff (item : Item) (part : Expr) (path : Expr.Path) :
    item.probe.Fits part path ↔ (item.pattern.match? part).isSome = true := by
  rw [Probe.Fits, probe, Pattern.succeeds_iff]

theorem isSteady_probe (item : Item) : item.probe.IsSteady where
  succeeds_iff part m := by rw [fits_probe_iff, probe, Pattern.succeeds_iff]
  continues part m := by
    obtain ⟨found?, h⟩ := Pattern.exists_finds item.pattern part
    rw [probe, h.perform_eq]
    exact Match.continues_extend m _

theorem attemptItems_eq_attemptAll (items : List Item) (e : Expr) (i : Nat) :
    Pattern.attemptItems items e i = Probe.attemptAll (items.map probe) e i := by
  induction items generalizing i with
  | nil => rfl
  | cons item rest ih =>
    cases item <;>
      simp [Pattern.attemptItems, Probe.attemptAll, probe, isOptional, pattern, ih]

theorem perform_attemptAll_probe (items : List Item) (e : Expr) (i : Nat) (m : Match) :
    perform (Probe.attemptAll (items.map probe) e i) m =
      ((Pattern.runItems items e i m).isSome, (Pattern.runItems items e i m).getD m) := by
  obtain ⟨found?, h⟩ := Pattern.exists_finds_items items e i
  rw [← attemptItems_eq_attemptAll, h.perform_eq, h.visit_eq]
  cases found? <;> simp

theorem isComplete_runItems (items : List Item) (e : Expr) (i : Nat) (m : Match) :
    Probe.IsComplete (items.map probe) e i m (Pattern.runItems items e i m) := by
  have steady : ∀ p ∈ items.map probe, p.IsSteady :=
    List.forall_mem_map.mpr fun item _ => item.isSteady_probe
  obtain ⟨result?, hresult, hcomplete⟩ := (Probe.attemptAll_ends steady e i m).exists_isComplete
  rw [perform_attemptAll_probe] at hresult
  obtain ⟨hisSome, hgetD⟩ := Prod.mk.inj hresult
  have hrun : Pattern.runItems items e i m = result? := by
    generalize Pattern.runItems items e i m = found? at hisSome hgetD ⊢
    rcases found? with _ | found <;> rcases result? with _ | result
    · rfl
    · cases hisSome
    · cases hisSome
    · exact congrArg some hgetD
  exact hrun ▸ hcomplete

end Item

namespace Probe

/-- A match of a sequence is complete: it succeeds if and only if some of the optional items can be
dropped such that the others match the parts one for one, it records what is recorded for the
preferred choice, and a failure leaves the match in progress as it was. So are the items of a
pattern matched, each where its own pattern matches. -/
theorem attemptAll_complete :
    (∀ (probes : List Probe) (e : Expr) (i : Nat) (m : Match), (∀ p ∈ probes, p.IsSteady) →
      ∃ result?, perform (attemptAll probes e i) m = (result?.isSome, result?.getD m) ∧
        IsComplete probes e i m result?) ∧
    ∀ (items : List Item) (e : Expr) (i : Nat) (m : Match),
      IsComplete (items.map Item.probe) e i m (Pattern.runItems items e i m) ∧
      ∀ item ∈ items, item.probe.IsSteady ∧ ∀ part path,
        item.probe.Fits part path ↔ (item.pattern.match? part).isSome = true := by
  constructor
  · intro probes e i m steady
    exact (attemptAll_ends steady e i m).exists_isComplete
  · intro items e i m
    refine ⟨Item.isComplete_runItems items e i m, ?_⟩
    intro item _
    exact ⟨item.isSteady_probe, item.fits_probe_iff⟩

/-- An argument and a `typeof` that may be missing, with an argument between them that may not. -/
def spacedItems : List Item :=
  [.optional (.capture "first" .any), .required (.capture "second" .any),
    .optional (.capture "third" .typeOf)]

/-- A single argument is left for the required item. With a `typeof` behind it the first item takes
it, and the `typeof` is left for the required one. -/
theorem attemptAll_complete_spacedItems :
    let x : Expr := .ofForm (.identifier "x")
    let type : Expr := .ofForm (.typeOf (.simple "T" []))
    let call (arguments : List Expr) : Expr := .ofForm (.call (.ofForm (.identifier "f")) arguments)
    let m : Match := ⟨[2], [⟨"call", [2]⟩]⟩
    let probes := spacedItems.map Item.probe
    (∀ p ∈ probes, p.IsSteady) ∧
    (∃ result?, perform (attemptAll probes (call [x]) 1) m = (result?.isSome, result?.getD m) ∧
      IsComplete probes (call [x]) 1 m result?) ∧
    (∃ choice, IsFullMatch probes (call [x]) 1 [2] choice) ∧
    Pattern.runItems spacedItems (call [x]) 1 m =
      some ⟨[2], [⟨"call", [2]⟩, ⟨"second", [2, 1]⟩]⟩ ∧
    Pattern.runItems spacedItems (call [x, type]) 1 m =
      some ⟨[2], [⟨"call", [2]⟩, ⟨"first", [2, 1]⟩, ⟨"second", [2, 2]⟩]⟩ := by
  intro x type call m probes
  obtain ⟨hprobes, hitems⟩ := attemptAll_complete
  obtain ⟨hcomplete, hitem⟩ := hitems spacedItems (call [x]) 1 m
  have steady : ∀ p ∈ probes, p.IsSteady :=
    List.forall_mem_map.mpr fun item h => (hitem item h).1
  exact ⟨steady, hprobes probes (call [x]) 1 m steady, hcomplete.isSome_iff.mp rfl, rfl, rfl⟩

end Probe

end OperatorRecovery
