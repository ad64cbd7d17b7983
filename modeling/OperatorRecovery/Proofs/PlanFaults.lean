import Mathlib.Data.List.Basic
import Mathlib.Data.List.Induction
import OperatorRecovery.Proofs.FormatPlans

/-!
How planning ends. The tokens are taken one after the other, and it is counted how many arguments
they have used; the first token that offends at this count declines the format, and arguments that
no token used decline it at the end. The count of a step is that of the references before the
token, and it never passes the number of arguments.
-/

namespace OperatorRecovery

namespace CompositeFormat.Token

/-- The index and the format by which a token refers to an argument. -/
def reference? : Token → Option (Nat × Option (List Char))
  | .argument index => some (index, none)
  | .argumentWithSpec index spec => some (index, some spec)
  | .text _ | .error => none

def index? (token : Token) : Option Nat := token.reference?.map (·.1)

end CompositeFormat.Token

namespace FormatPlan

open CompositeFormat

/-- The segment that a token is planned as. -/
def segmentOf? : Token → Option Segment
  | .text cs => some (.text cs)
  | .argument index => some (.argument index none)
  | .argumentWithSpec index spec => some (.argument index (some spec))
  | .error => none

/-- How many arguments the tokens refer to. -/
def used (tokens : List Token) : Nat := (tokens.filterMap Token.reference?).length

/-- A token that declines the format when `expected` of `count` arguments were used before it. An
empty format counts before a wrong index, and a wrong index before an argument that is missing. -/
inductive Offends (count expected : Nat) (token : Token) : Decline → Prop
  | malformed (error : token = .error) : Offends count expected token .malformed
  | emptySpec {index : Nat} (refers : token.reference? = some (index, some [])) :
    Offends count expected token (.emptySpec index)
  | outOfOrder {index : Nat} {spec : Option (List Char)}
    (refers : token.reference? = some (index, spec)) (specified : spec ≠ some [])
    (misplaced : index ≠ expected) : Offends count expected token (.outOfOrder expected index)
  | missingArgument {spec : Option (List Char)}
    (refers : token.reference? = some (expected, spec)) (specified : spec ≠ some [])
    (missing : count ≤ expected) : Offends count expected token (.missingArgument expected count)

/-- No token offends at the number of arguments used before it. -/
def IsFaultless (count : Nat) (tokens : List Token) : Prop :=
  ∀ before token after, tokens = before ++ token :: after →
    ∀ decline, ¬Offends count (used before) token decline

/-- The leftmost token that offends does so for the given reason. -/
def HasFirstFault (count : Nat) (tokens : List Token) (decline : Decline) : Prop :=
  ∃ before token after, tokens = before ++ token :: after ∧ IsFaultless count before ∧
    Offends count (used before) token decline

section Steps

variable {count expected index : Nat} {spec : Option (List Char)} {token : Token}
  {segment : Segment} {decline : Decline}

/-- How many arguments a token uses. -/
def uses (token : Token) : Nat := token.reference?.isSome.toNat

/-- The segment of one token. -/
def planToken (count expected : Nat) : Token → Except Decline Segment
  | .text cs => .ok (.text cs)
  | .error => .error .malformed
  | .argument index => argument count expected index none
  | .argumentWithSpec index spec => argument count expected index (some spec)

theorem planToken_of_reference (refers : token.reference? = some (index, spec)) :
    planToken count expected token = argument count expected index spec := by
  cases token <;> cases refers <;> rfl

theorem segmentOf?_of_reference (refers : token.reference? = some (index, spec)) :
    segmentOf? token = some (.argument index spec) := by
  cases token <;> cases refers <;> rfl

theorem segmentOf?_eq_some_iff : segmentOf? token = some segment ↔ token = segment.token := by
  constructor
  · intro h
    cases token <;> cases h <;> rfl
  · rintro rfl
    match segment with
    | .text cs => rfl
    | .argument index none => rfl
    | .argument index (some spec) => rfl

theorem fromTokens_cons (count expected : Nat) (token : Token) (rest : List Token) :
    fromTokens count expected (token :: rest) =
      planToken count expected token >>= fun segment =>
        fromTokens count (expected + uses token) rest >>= fun segments =>
          .ok (segment :: segments) := by
  cases token <;> rfl

theorem offends_reference_iff (refers : token.reference? = some (index, spec)) :
    Offends count expected token decline ↔
      spec = some [] ∧ decline = .emptySpec index ∨
      spec ≠ some [] ∧ index ≠ expected ∧ decline = .outOfOrder expected index ∨
      spec ≠ some [] ∧ index = expected ∧ count ≤ index ∧
        decline = .missingArgument index count := by
  constructor
  · rintro (rfl | h | ⟨h, specified, misplaced⟩ | ⟨h, specified, missing⟩)
    · cases refers
    all_goals
      cases refers.symm.trans h
    · exact .inl ⟨rfl, rfl⟩
    · exact .inr (.inl ⟨specified, misplaced, rfl⟩)
    · exact .inr (.inr ⟨specified, rfl, missing, rfl⟩)
  · rintro (⟨rfl, rfl⟩ | ⟨specified, misplaced, rfl⟩ | ⟨specified, rfl, missing, rfl⟩)
    · exact .emptySpec refers
    · exact .outOfOrder refers specified misplaced
    · exact .missingArgument refers specified missing

theorem argument_eq_error_iff : argument count expected index spec = .error decline ↔
    spec = some [] ∧ decline = .emptySpec index ∨
    spec ≠ some [] ∧ index ≠ expected ∧ decline = .outOfOrder expected index ∨
    spec ≠ some [] ∧ index = expected ∧ count ≤ index ∧
      decline = .missingArgument index count := by
  unfold argument
  split
  · rename_i hspec
    simp [hspec, eq_comm]
  · rename_i hspec
    split
    · rename_i hindex
      simp [hspec, hindex, eq_comm]
    · rename_i hindex
      rw [not_not] at hindex
      split
      · rename_i hcount
        simp [hspec, hindex, hindex ▸ hcount, eq_comm]
      · rename_i hcount
        simp [hspec, hindex, hindex ▸ hcount]

/-- A token is declined for the reason for which it offends. -/
theorem planToken_eq_error_iff :
    planToken count expected token = .error decline ↔ Offends count expected token decline := by
  cases hrefers : token.reference? with
  | some reference =>
    rw [planToken_of_reference hrefers, argument_eq_error_iff, offends_reference_iff hrefers]
  | none =>
    have hmalformed : Offends count expected token decline ↔
        token = .error ∧ decline = .malformed := by
      constructor
      · rintro (rfl | h | ⟨h, _, _⟩ | ⟨h, _, _⟩)
        · exact ⟨rfl, rfl⟩
        all_goals cases hrefers.symm.trans h
      · rintro ⟨rfl, rfl⟩
        exact .malformed rfl
    rw [hmalformed]
    cases token with
    | error => simp [planToken, eq_comm]
    | text cs => simp [planToken]
    | argument index => cases hrefers
    | argumentWithSpec index spec => cases hrefers

/-- A token that does not offend is planned as its segment. -/
theorem planToken_eq_ok_iff : planToken count expected token = .ok segment ↔
    (∀ decline, ¬Offends count expected token decline) ∧ segmentOf? token = some segment := by
  have hsegment {s : Segment} (h : planToken count expected token = .ok s) :
      segmentOf? token = some s := by
    cases hrefers : token.reference? with
    | some reference =>
      rw [planToken_of_reference hrefers, argument_eq_ok_iff] at h
      rw [segmentOf?_of_reference hrefers, h.2.2.2]
    | none =>
      cases token with
      | text cs =>
        cases h
        rfl
      | error => cases h
      | argument index => cases hrefers
      | argumentWithSpec index spec => cases hrefers
  constructor
  · intro h
    refine ⟨fun decline hoffends => ?_, hsegment h⟩
    cases h.symm.trans (planToken_eq_error_iff.mpr hoffends)
  · rintro ⟨hfaultless, h⟩
    cases hplan : planToken count expected token with
    | error decline => exact absurd (planToken_eq_error_iff.mp hplan) (hfaultless decline)
    | ok s => rw [Option.some.inj ((hsegment hplan).symm.trans h)]

/-- A token that uses an argument finds one that is left. -/
theorem expected_add_uses_le (h : planToken count expected token = .ok segment)
    (hexpected : expected ≤ count) : expected + uses token ≤ count := by
  cases hrefers : token.reference? with
  | some reference =>
    rw [planToken_of_reference hrefers, argument_eq_ok_iff] at h
    obtain ⟨_, hindex, hcount, _⟩ := h
    rw [uses, hrefers]
    change expected + 1 ≤ count
    omega
  | none =>
    rw [uses, hrefers]
    exact hexpected

end Steps

section Loop

/-- What planning has come to: the number of arguments used, and the segments in order. -/
structure Progress where
  used : Nat
  segments : List Segment

/-- Takes one more token. -/
def advance (count : Nat) (progress : Progress) (token : Token) : Except Decline Progress := do
  let segment ← planToken count progress.used token
  return ⟨progress.used + uses token, progress.segments ++ [segment]⟩

def progress (count : Nat) (tokens : List Token) : Except Decline Progress :=
  tokens.foldlM (advance count) ⟨0, []⟩

def finish (count : Nat) (progress : Progress) : Except Decline (List Segment) :=
  if progress.used < count then .error (.unusedArguments (count - progress.used))
  else .ok progress.segments

variable {count : Nat} {p q : Progress} {token : Token} {tokens before : List Token}
  {decline : Decline}

/-- From any progress on, the segments of the other tokens are appended. -/
theorem foldlM_advance_bind_finish (count : Nat) (p : Progress) (tokens : List Token) :
    (tokens.foldlM (advance count) p >>= finish count) =
      (fromTokens count p.used tokens).map (p.segments ++ ·) := by
  induction tokens generalizing p with
  | nil =>
    change finish count p = _
    rw [finish, fromTokens]
    split
    · rfl
    · simp [Except.map]
  | cons token rest ih =>
    rw [List.foldlM_cons, bind_assoc, fromTokens_cons, advance]
    cases planToken count p.used token with
    | error decline => rfl
    | ok segment =>
      change (rest.foldlM (advance count) ⟨p.used + uses token, p.segments ++ [segment]⟩ >>=
        finish count) = _
      rw [ih]
      cases fromTokens count (p.used + uses token) rest <;>
        simp [Except.map, bind, Except.bind]

/-- Planning is the loop over the tokens, and the check that all arguments were used. -/
theorem plan_eq_progress_bind_finish (format : List Char) (count : Nat) :
    plan format count = progress count (CompositeFormat.tokens format) >>= finish count := by
  rw [progress, foldlM_advance_bind_finish, plan]
  cases fromTokens count 0 (CompositeFormat.tokens format) <;> rfl

theorem progress_append_singleton (count : Nat) (tokens : List Token) (token : Token) :
    progress count (tokens ++ [token]) =
      progress count tokens >>= fun p => advance count p token := by
  simp [progress]

theorem advance_eq_ok_iff : advance count p token = .ok q ↔
    ∃ segment, planToken count p.used token = .ok segment ∧
      q = ⟨p.used + uses token, p.segments ++ [segment]⟩ := by
  rw [advance, bind_eq_ok_iff]
  refine exists_congr fun segment => and_congr_right fun _ => ?_
  change Except.ok _ = Except.ok q ↔ _
  rw [Except.ok.injEq, eq_comm]

theorem bind_eq_error_iff {α β ε : Type} {result : Except ε α} {next : α → Except ε β} {e : ε} :
    (result >>= next) = .error e ↔
      result = .error e ∨ ∃ a, result = .ok a ∧ next a = .error e := by
  cases result <;> simp [bind, Except.bind]

theorem advance_eq_error_iff :
    advance count p token = .error decline ↔ Offends count p.used token decline := by
  rw [advance, bind_eq_error_iff, planToken_eq_error_iff]
  constructor
  · rintro (h | ⟨_, _, h⟩)
    · exact h
    · cases h
  · exact .inl

theorem used_append_singleton (tokens : List Token) (token : Token) :
    used (tokens ++ [token]) = used tokens + uses token := by
  rw [used, List.filterMap_append, List.length_append, uses]
  cases hrefers : token.reference? <;> simp [used, hrefers]

theorem isFaultless_nil (count : Nat) : IsFaultless count [] := by
  intro before token after h
  simp at h

theorem append_singleton_eq_iff {α : Type} {xs before after : List α} {x y : α} :
    xs ++ [x] = before ++ y :: after ↔
      (after = [] ∧ xs = before ∧ x = y) ∨
        ∃ rest, after = rest ++ [x] ∧ xs = before ++ y :: rest := by
  rcases List.eq_nil_or_concat after with rfl | ⟨rest, z, rfl⟩
  · simp [List.append_singleton_inj]
  · rw [List.concat_eq_append]
    have hsplit : before ++ y :: (rest ++ [z]) = (before ++ y :: rest) ++ [z] := by simp
    rw [hsplit, List.append_singleton_inj]
    constructor
    · rintro ⟨rfl, rfl⟩
      exact .inr ⟨rest, rfl, rfl⟩
    · rintro (⟨h, _⟩ | ⟨rest', h, rfl⟩)
      · simp at h
      · obtain ⟨rfl, rfl⟩ := List.append_singleton_inj.mp h
        exact ⟨rfl, rfl⟩

theorem isFaultless_append_singleton_iff : IsFaultless count (tokens ++ [token]) ↔
    IsFaultless count tokens ∧ ∀ decline, ¬Offends count (used tokens) token decline := by
  constructor
  · intro h
    refine ⟨fun before found after hsplit => ?_, ?_⟩
    · exact h before found (after ++ [token]) (by rw [hsplit]; simp)
    · exact h tokens token [] rfl
  · rintro ⟨htokens, hlast⟩ before found after hsplit
    rcases append_singleton_eq_iff.mp hsplit with ⟨_, rfl, rfl⟩ | ⟨rest, _, hrest⟩
    · exact hlast
    · exact htokens before found rest hrest

theorem hasFirstFault_append_singleton_iff : HasFirstFault count (tokens ++ [token]) decline ↔
    HasFirstFault count tokens decline ∨
      IsFaultless count tokens ∧ Offends count (used tokens) token decline := by
  constructor
  · rintro ⟨before, found, after, hsplit, hbefore, hoffends⟩
    rcases append_singleton_eq_iff.mp hsplit with ⟨_, rfl, rfl⟩ | ⟨rest, _, hrest⟩
    · exact .inr ⟨hbefore, hoffends⟩
    · exact .inl ⟨before, found, rest, hrest, hbefore, hoffends⟩
  · rintro (⟨before, found, after, rfl, hbefore, hoffends⟩ | ⟨htokens, hoffends⟩)
    · exact ⟨before, found, after ++ [token], by simp, hbefore, hoffends⟩
    · exact ⟨tokens, token, [], rfl, htokens, hoffends⟩

theorem HasFirstFault.not_isFaultless (h : HasFirstFault count tokens decline) :
    ¬IsFaultless count tokens := by
  intro hfaultless
  obtain ⟨before, token, after, hsplit, _, hoffends⟩ := h
  exact hfaultless before token after hsplit decline hoffends

/-- The loop gets through the tokens exactly if none of them offends. It has then counted the
references and made one segment of every token. -/
theorem progress_eq_ok_iff : progress count tokens = .ok q ↔
    IsFaultless count tokens ∧ q.used = used tokens ∧
      tokens.map segmentOf? = q.segments.map some := by
  -- From the right: the count at a token is the number of references before it.
  induction tokens using List.reverseRecOn generalizing q with
  | nil =>
    have hstart : progress count [] = .ok q ↔ q = ⟨0, []⟩ := by
      change Except.ok _ = Except.ok q ↔ _
      rw [Except.ok.injEq, eq_comm]
    obtain ⟨n, segments⟩ := q
    simp [hstart, isFaultless_nil, used]
  | append_singleton tokens token ih =>
    rw [progress_append_singleton, bind_eq_ok_iff, isFaultless_append_singleton_iff,
      used_append_singleton, List.map_append]
    constructor
    · rintro ⟨p, hp, hq⟩
      obtain ⟨hfaultless, hused, hsegments⟩ := ih.mp hp
      obtain ⟨segment, hplan, rfl⟩ := advance_eq_ok_iff.mp hq
      obtain ⟨hlast, hsegment⟩ := planToken_eq_ok_iff.mp hplan
      refine ⟨⟨hfaultless, hused ▸ hlast⟩, ?_, ?_⟩
      · rw [hused]
      · rw [hsegments, List.map_append, List.map_singleton, hsegment, List.map_singleton]
    · rintro ⟨⟨hfaultless, hlast⟩, hused, hsegments⟩
      obtain ⟨segments, last, hparts, hleft, hright⟩ := List.append_eq_map_iff.mp hsegments
      obtain ⟨segment, rfl, hsegment⟩ := List.map_eq_singleton_iff.mp hright
      refine ⟨⟨used tokens, segments⟩, ih.mpr ⟨hfaultless, rfl, hleft.symm⟩, ?_⟩
      refine advance_eq_ok_iff.mpr ⟨segment, planToken_eq_ok_iff.mpr ⟨hlast, hsegment.symm⟩, ?_⟩
      rw [← hused, ← hparts]

/-- The loop stops at the leftmost token that offends. -/
theorem progress_eq_error_iff :
    progress count tokens = .error decline ↔ HasFirstFault count tokens decline := by
  induction tokens using List.reverseRecOn generalizing decline with
  | nil =>
    constructor
    · intro h
      cases h
    · rintro ⟨before, token, after, h, _⟩
      simp at h
  | append_singleton tokens token ih =>
    rw [progress_append_singleton, bind_eq_error_iff, ih, hasFirstFault_append_singleton_iff]
    refine or_congr_right ?_
    simp only [advance_eq_error_iff]
    constructor
    · rintro ⟨p, hp, hoffends⟩
      obtain ⟨hfaultless, hused, _⟩ := progress_eq_ok_iff.mp hp
      exact ⟨hfaultless, hused ▸ hoffends⟩
    · rintro ⟨hfaultless, hoffends⟩
      cases hp : progress count tokens with
      | ok p =>
        obtain ⟨_, hused, _⟩ := progress_eq_ok_iff.mp hp
        exact ⟨p, rfl, hused ▸ hoffends⟩
      | error early =>
        exact absurd hfaultless (ih.mp hp).not_isFaultless

/-- The count of the loop never passes the number of arguments. -/
theorem used_le_of_progress (h : progress count tokens = .ok q) : q.used ≤ count := by
  induction tokens using List.reverseRecOn generalizing q with
  | nil =>
    cases h
    exact Nat.zero_le _
  | append_singleton tokens token ih =>
    rw [progress_append_singleton, bind_eq_ok_iff] at h
    obtain ⟨p, hp, hq⟩ := h
    obtain ⟨segment, hplan, rfl⟩ := advance_eq_ok_iff.mp hq
    exact expected_add_uses_le hplan (ih hp)

end Loop

section Outcomes

variable {count : Nat} {ts : List Token} {segments : List Segment}

theorem map_segmentOf?_eq_iff :
    ts.map segmentOf? = segments.map some ↔ ts = segments.map Segment.token := by
  induction ts generalizing segments with
  | nil => cases segments <;> simp
  | cons token rest ih =>
    cases segments with
    | nil => simp
    | cons segment segments =>
      rw [List.map_cons, List.map_cons, List.map_cons, List.cons.injEq, List.cons.injEq, ih,
        segmentOf?_eq_some_iff]

theorem index?_token (segment : Segment) : segment.token.index? = segment.index? := by
  match segment with
  | .text cs => rfl
  | .argument index none => rfl
  | .argument index (some spec) => rfl

/-- Segments are in order if their tokens are. -/
theorem orderly_iff : Orderly count 0 segments ↔
    (segments.map Segment.token).filterMap Token.index? = List.range count ∧
      ∀ index, .argumentWithSpec index [] ∉ segments.map Segment.token := by
  have hindices : (segments.map Segment.token).filterMap Token.index? =
      segments.filterMap Segment.index? := by
    rw [List.filterMap_map]
    exact congrArg (segments.filterMap ·) (funext index?_token)
  have hspecs (index : Nat) :
      (Segment.argument index (some [])).token ∈ segments.map Segment.token ↔
        .argument index (some []) ∈ segments :=
    List.mem_map_of_injective Segment.token_injective
  rw [hindices, List.range_eq_range']
  constructor
  · rintro ⟨horder, hspecified⟩
    exact ⟨horder, fun index => (hspecs index).not.mpr (hspecified index)⟩
  · rintro ⟨horder, hspecified⟩
    exact ⟨horder, fun index => (hspecs index).not.mp (hspecified index)⟩

theorem finish_eq_error_iff {p : Progress} {decline : Decline} : finish count p = .error decline ↔
    p.used < count ∧ decline = .unusedArguments (count - p.used) := by
  unfold finish
  split
  · rename_i h
    simp [h, eq_comm]
  · rename_i h
    simp [h]

/-- Planning accepts exactly the formats without errors that refer to the arguments in order, to
each of them once, and leave no format empty; the segments are the tokens one for one. Otherwise
the leftmost token that offends decides the reason, or the number of arguments that are left over.
The count of the loop over the tokens is that of the references, and never passes the number of
arguments. -/
theorem plan_outcomes (format : List Char) (count : Nat) :
    (∀ segments, plan format count = .ok segments ↔
      (.error ∉ tokens format ∧
        (tokens format).filterMap Token.index? = List.range count ∧
        ∀ index, .argumentWithSpec index [] ∉ tokens format) ∧
      (tokens format).map segmentOf? = segments.map some) ∧
    (∀ decline, plan format count = .error decline ↔
      HasFirstFault count (tokens format) decline ∨
        IsFaultless count (tokens format) ∧ used (tokens format) < count ∧
          decline = .unusedArguments (count - used (tokens format))) ∧
    plan format count = progress count (tokens format) >>= finish count ∧
    ∀ before p, before <+: tokens format → progress count before = .ok p →
      p.used = used before ∧ p.used ≤ count := by
  refine ⟨fun segments => ?_, fun decline => ?_, plan_eq_progress_bind_finish format count, ?_⟩
  · rw [plan_eq_ok_iff, map_segmentOf?_eq_iff]
    constructor
    · rintro ⟨htokens, horderly⟩
      refine ⟨⟨?_, htokens ▸ orderly_iff.mp horderly⟩, htokens⟩
      rw [htokens, List.mem_map]
      rintro ⟨segment, _, herror⟩
      exact segment.token_ne_error herror
    · rintro ⟨⟨_, horder⟩, htokens⟩
      exact ⟨htokens, orderly_iff.mpr (htokens ▸ horder)⟩
  · rw [plan_eq_progress_bind_finish, bind_eq_error_iff, progress_eq_error_iff]
    refine or_congr_right ?_
    constructor
    · rintro ⟨p, hp, hfinish⟩
      obtain ⟨hfaultless, hused, _⟩ := progress_eq_ok_iff.mp hp
      exact ⟨hfaultless, hused ▸ finish_eq_error_iff.mp hfinish⟩
    · rintro ⟨hfaultless, hunused⟩
      cases hp : progress count (tokens format) with
      | ok p =>
        obtain ⟨_, hused, _⟩ := progress_eq_ok_iff.mp hp
        exact ⟨p, rfl, finish_eq_error_iff.mpr (hused ▸ hunused)⟩
      | error early =>
        exact absurd hfaultless (progress_eq_error_iff.mp hp).not_isFaultless
  · intro before p _ hp
    exact ⟨(progress_eq_ok_iff.mp hp).2.1, used_le_of_progress hp⟩

example : plan ['{', '0', '}', '{', '7', ':', '}', '{'] 1 = .error (.emptySpec 7) := rfl

end Outcomes

end FormatPlan

end OperatorRecovery
