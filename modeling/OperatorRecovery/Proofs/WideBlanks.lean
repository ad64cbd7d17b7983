import OperatorRecovery.Proofs.ByteReading

/-!
Where the reading of a type breaks off inside a character. A wide blank is stepped over by one
byte wherever a space could stand: whatever state was reached by then, some text completes it to
a type, so breaking off there is no refusal of what was written.
-/

namespace OperatorRecovery.ByteReader

open Characters TypeReader
open String (utf8Len)

section Completions

theorem exists_run_of_mark {state next : State} {c : Char} (hc : c ∈ marks)
    (hstep : step state (.mark c) = .ok next)
    (h : ∃ suffix t, run next (lexemes suffix) = .ok t) :
    ∃ suffix t, run state (lexemes suffix) = .ok t := by
  obtain ⟨suffix, t, hrun⟩ := h
  exact ⟨c :: suffix, t, (run_mark hc suffix hstep).trans hrun⟩

/-- Open argument lists can be closed from the inside out. -/
theorem exists_run_complete (enclosing : List Enclosing) (type : ResolvedType) :
    ∃ suffix t, run ⟨enclosing, .complete type⟩ (lexemes suffix) = .ok t := by
  induction enclosing generalizing type with
  | nil => exact ⟨[], type, rfl⟩
  | cons e outer ih =>
    have hclose : step ⟨e :: outer, .complete type⟩ (.mark '>') =
        .ok ⟨outer, .complete (.named e.namespace e.name (type :: e.arguments).reverse)⟩ := rfl
    exact exists_run_of_mark (by decide) hclose (ih _)

theorem exists_run_named (enclosing : List Enclosing) (ns name : String) :
    ∃ suffix t, run ⟨enclosing, .named ns name⟩ (lexemes suffix) = .ok t := by
  have hreference : step ⟨enclosing, .named ns name⟩ (.mark '&') =
      .ok ⟨enclosing, .complete (.byRef (.named ns name []))⟩ := rfl
  exact exists_run_of_mark (by decide) hreference (exists_run_complete enclosing _)

/-- Whatever state was reached, some text completes a type there. -/
theorem exists_run (state : State) : ∃ suffix t, run state (lexemes suffix) = .ok t := by
  obtain ⟨enclosing, current⟩ := state
  cases current with
  | start =>
    obtain ⟨suffix, t, hrun⟩ := exists_run_named enclosing "" "_"
    refine ⟨'_' :: ' ' :: suffix, t, ?_⟩
    have hname : ∀ c ∈ ['_'], isNameChar c = true := by simp [isNameChar]
    have hends : Ends (' ' :: suffix) := ends_cons (isNameChar_of_isBlank (by decide)) suffix
    have hlexemes := lexemes_name (List.cons_ne_nil '_' []) hname hends
    rw [lexemes_blank] at hlexemes
    rw [← List.singleton_append, hlexemes, run_cons_of_ok _ rfl]
    exact hrun
  | named ns name => exact exists_run_named enclosing ns name
  | complete type => exact exists_run_complete enclosing type
  | closed type =>
    cases enclosing with
    | nil => exact ⟨[], type, rfl⟩
    | cons e outer =>
      have hclose : step ⟨e :: outer, .closed type⟩ (.mark '>') =
          .ok ⟨outer, .complete (.named e.namespace e.name (type :: e.arguments).reverse)⟩ := rfl
      exact exists_run_of_mark (by decide) hclose (exists_run_complete outer _)
  | brackets element rank =>
    have hclose : step ⟨enclosing, .brackets element rank⟩ (.mark ']') =
        .ok ⟨enclosing, .complete (.array element rank)⟩ := rfl
    exact exists_run_of_mark (by decide) hclose (exists_run_complete enclosing _)

theorem afterType_ne_wideBlank (enclosing : List Enclosing) (type : ResolvedType)
    (lexeme : Lexeme) : afterType enclosing type lexeme ≠ .error .wideBlank := by
  unfold afterType
  split
  · nofun
  · split <;> nofun

theorem suffix_ne_wideBlank (enclosing : List Enclosing) (type : ResolvedType)
    (lexeme : Lexeme) : suffix enclosing type lexeme ≠ .error .wideBlank := by
  unfold suffix
  split
  · nofun
  · nofun
  · exact afterType_ne_wideBlank enclosing type lexeme

/-- Nothing but a wide blank is refused as one. -/
theorem step_eq_wideBlank_iff {state : State} {lexeme : Lexeme} :
    step state lexeme = .error .wideBlank ↔ lexeme = .wideBlank := by
  constructor
  · intro h
    by_contra hne
    unfold step at h
    rw [if_neg hne] at h
    split at h
    · split at h
      · cases h
      · split at h <;> cases h
      · cases h
    · split at h
      · cases h
      · exact suffix_ne_wideBlank _ _ _ h
    · exact suffix_ne_wideBlank _ _ _ h
    · exact afterType_ne_wideBlank _ _ _ h
    · split at h <;> cases h
  · rintro rfl
    rfl

/-- A run breaks off at the first wide blank just when it could be completed there. -/
theorem run_wideBlank_iff {ls : List Lexeme} (h : .wideBlank ∉ ls) (state : State)
    (rest : List Lexeme) :
    run state (ls ++ .wideBlank :: rest) = .error .wideBlank ↔
      ∃ suffix t, run state (ls ++ lexemes suffix) = .ok t := by
  induction ls generalizing state with
  | nil => exact iff_of_true rfl (exists_run state)
  | cons l ls ih =>
    obtain ⟨hl, hls⟩ := not_or.mp (List.mem_cons.not.mp h)
    simp only [List.cons_append]
    cases hstep : step state l with
    | ok next =>
      simp only [run_cons_of_ok _ hstep]
      exact ih hls next
    | error fault =>
      have hrun (more : List Lexeme) : run state (l :: more) = .error fault := by
        rw [run, hstep]
      simp only [hrun]
      constructor
      · intro hfault
        cases hfault
        exact absurd (step_eq_wideBlank_iff.mp hstep).symm hl
      · rintro ⟨suffix, t, hok⟩
        cases hok

theorem wideBlank_not_mem_of_run {ls : List Lexeme} {state : State} {t : ResolvedType}
    (h : run state ls = .ok t) : .wideBlank ∉ ls := by
  induction ls generalizing state with
  | nil => exact List.not_mem_nil
  | cons l ls ih =>
    rw [run] at h
    split at h
    next next hnext =>
      rw [List.mem_cons, not_or]
      refine ⟨?_, ih h⟩
      rintro rfl
      cases hnext
    next => cases h

theorem closeName_append (pending : List Char) (ls : List Lexeme) :
    closeName pending ls = closeName pending [] ++ ls := by
  unfold closeName
  split <;> rfl

/-- No name reaches over a character that is in none. -/
theorem lexemesFrom_append_cons {c : Char} (h : isNameChar c = false)
    (pending front rest : List Char) : lexemesFrom pending (front ++ c :: rest) =
      lexemesFrom pending front ++ lexemes (c :: rest) := by
  induction front generalizing pending with
  | nil =>
    rw [List.nil_append, lexemesFrom_of_ends pending (ends_cons h rest), closeName_append]
    rfl
  | cons d front ih =>
    simp only [List.cons_append, lexemesFrom]
    split
    · exact ih (d :: pending)
    · rw [closeName_append pending (ite _ (lexemesFrom [] (front ++ c :: rest)) _),
        closeName_append pending (ite _ (lexemesFrom [] front) _), List.append_assoc]
      congr 1
      split
      · exact ih []
      · split <;> rw [ih, List.cons_append]

theorem lexemes_append_blank (front rest : List Char) :
    lexemes (front ++ ' ' :: rest) = lexemes front ++ lexemes rest := by
  have hspace : isNameChar ' ' = false := isNameChar_of_isBlank (by decide)
  rw [lexemes, lexemesFrom_append_cons hspace, lexemes_blank]
  rfl

theorem lexemes_append_wideBlank {blank : Char} (h : isWideBlank blank = true)
    (front rest : List Char) :
    lexemes (front ++ blank :: rest) = lexemes front ++ .wideBlank :: lexemes rest := by
  have hname : isNameChar blank = false := isNameChar_of_isBlank (by simp [isBlank, h])
  rw [lexemes, lexemesFrom_append_cons hname, lexemes_wideBlank h]
  rfl

theorem wideBlank_mem_closeName_iff {pending : List Char} {ls : List Lexeme} :
    .wideBlank ∈ closeName pending ls ↔ .wideBlank ∈ ls := by
  unfold closeName
  split <;> simp

theorem wideBlank_mem_lexemesFrom_iff {pending text : List Char} :
    .wideBlank ∈ lexemesFrom pending text ↔ ∃ c ∈ text, isWideBlank c = true := by
  induction text generalizing pending with
  | nil => simp [lexemesFrom, wideBlank_mem_closeName_iff]
  | cons c text ih =>
    rw [lexemesFrom, List.exists_mem_cons_iff]
    split
    next hname =>
      have hwide := isWideBlank_eq_false (isBlank_of_isNameChar hname)
      simp [ih, hwide]
    next =>
      rw [wideBlank_mem_closeName_iff]
      split
      next hnarrow => simp [ih, not_isWideBlank_of_isNarrowBlank hnarrow]
      next =>
        split
        next hwide => simp [hwide]
        next hwide => simp [ih, hwide]

theorem wideBlank_not_mem_lexemes_iff {text : List Char} :
    .wideBlank ∉ lexemes text ↔ ∀ c ∈ text, isWideBlank c = false := by
  rw [lexemes, wideBlank_mem_lexemesFrom_iff]
  simp

/-- Two first wide blanks of a text are at the same place. -/
theorem eq_of_first_wideBlank {front front' rest rest' : List Char} {blank blank' : Char}
    (h : front ++ blank :: rest = front' ++ blank' :: rest')
    (hfront : ∀ c ∈ front, isWideBlank c = false) (hblank : isWideBlank blank = true)
    (hfront' : ∀ c ∈ front', isWideBlank c = false) (hblank' : isWideBlank blank' = true) :
    front = front' := by
  have htake := congrArg (List.takeWhile fun c => !isWideBlank c) h
  rw [List.takeWhile_append_of_pos (by simpa using hfront),
    List.takeWhile_append_of_pos (by simpa using hfront')] at htake
  simpa [hblank, hblank'] using htake

end Completions

section Results

open ResolvedType

def Failure.report (text : String) : Failure → TypeTextError
  | .invalidName => .invalidName text
  | .unbalancedArguments => .unbalancedArguments text
  | .offBoundary _ => .wideBlank

theorem ofText_eq_mapError_parse (text : String) :
    ofText text = (parse text.toList).mapError (Failure.report text) := by
  have hleads := leads_parse text.toList
  rw [ofText]
  cases hparse : parse text.toList with
  | ok t =>
    rw [hparse] at hleads
    rw [show run begin (lexemes text.toList) = .ok t from hleads]
    rfl
  | error failure =>
    rw [hparse] at hleads
    rw [hleads.1]
    cases failure <;> rfl

/-- Where the machine refuses a wide blank, the text is sliced off its boundaries. -/
theorem exists_offBoundary_of_run {text : List Char}
    (h : run begin (lexemes text) = .error .wideBlank) :
    ∃ position, parse text = .error (.offBoundary position) ∧
      Failure.IsLocated text (.offBoundary position) := by
  have hleads := leads_parse text
  rw [h] at hleads
  cases hparse : parse text with
  | ok t =>
    rw [hparse] at hleads
    cases hleads
  | error failure =>
    rw [hparse] at hleads
    obtain ⟨hfault, hlocated⟩ := hleads
    cases failure with
    | invalidName => cases hfault
    | unbalancedArguments => cases hfault
    | offBoundary position => exact ⟨position, rfl, hlocated⟩

/-- The text is sliced behind the first byte of a wide blank, just where a space in the blank's
place would be behind something that can be completed to a type. -/
theorem parse_eq_offBoundary_iff {text : List Char} {position : Nat} :
    parse text = .error (.offBoundary position) ↔
      ∃ front blank rest, text = front ++ blank :: rest ∧ isWideBlank blank = true ∧
        position = utf8Len front + 1 ∧
        ∃ suffix t, ofText (String.ofList (front ++ ' ' :: suffix)) = .ok t := by
  simp only [ofText_eq_ok_iff, String.toList_ofList, lexemes_append_blank]
  constructor
  · intro hparse
    have hleads := leads_parse text
    rw [hparse] at hleads
    obtain ⟨hrun, front, blank, rest, rfl, hblank, hposition, hfront⟩ := hleads
    have hclear := wideBlank_not_mem_lexemes_iff.mpr hfront
    rw [lexemes_append_wideBlank hblank] at hrun
    exact ⟨front, blank, rest, rfl, hblank, hposition,
      (run_wideBlank_iff hclear begin (lexemes rest)).mp hrun⟩
  · rintro ⟨front, blank, rest, rfl, hblank, rfl, suffix, t, hrun⟩
    have hclear : .wideBlank ∉ lexemes front := fun hmem =>
      wideBlank_not_mem_of_run hrun (List.mem_append_left _ hmem)
    have hbreak := (run_wideBlank_iff hclear begin (lexemes rest)).mpr ⟨suffix, t, hrun⟩
    rw [← lexemes_append_wideBlank hblank] at hbreak
    obtain ⟨position, hparse, front', blank', rest', htext, hblank', rfl, hfront'⟩ :=
      exists_offBoundary_of_run hbreak
    have hfront := wideBlank_not_mem_lexemes_iff.mp hclear
    rw [hparse, eq_of_first_wideBlank htext hfront hblank hfront' hblank']

/-- That position is inside the blank. -/
theorem not_isValid_of_parse {text : String} {position : Nat}
    (h : parse text.toList = .error (.offBoundary position)) :
    ¬ String.Pos.Raw.IsValid text ⟨position⟩ := by
  obtain ⟨front, blank, rest, htext, hblank, rfl, _⟩ := parse_eq_offBoundary_iff.mp h
  have hinside := suffix?_inside (suffix?_append front (blank :: rest)) Nat.one_pos
    (one_lt_utf8Size_of_isWideBlank hblank)
  have hlist : text = String.ofList (front ++ blank :: rest) := by
    rw [← htext, String.ofList_toList]
  rw [hlist, ← isSome_suffix?_iff, hinside]
  nofun

/-- Reading a text is reading it by byte positions, and this ends in a type or in one of two
errors, unless a wide blank stands where a space could. -/
theorem ofText_breaksOff_iff (text : String) :
    ofText text = (parse text.toList).mapError (Failure.report text) ∧
      ∀ position, parse text.toList = .error (.offBoundary position) ↔
        ∃ front blank rest, text.toList = front ++ blank :: rest ∧ isWideBlank blank = true ∧
          position = utf8Len front + 1 ∧
          ∃ suffix t, ofText (String.ofList (front ++ ' ' :: suffix)) = .ok t :=
  ⟨ofText_eq_mapError_parse text, fun _ => parse_eq_offBoundary_iff⟩

/-- Behind a name a blank of two bytes is entered. -/
theorem ofText_noBreakSpace :
    parse "A\u00a0".toList = .error (.offBoundary 2) ∧
      ¬ String.Pos.Raw.IsValid "A\u00a0" ⟨2⟩ ∧ ofText "A\u00a0" = .error .wideBlank := by
  have hparse : parse "A\u00a0".toList = .error (.offBoundary 2) :=
    parse_eq_offBoundary_iff.mpr ⟨['A'], '\u00a0', [], rfl, by decide, rfl, [],
      .named "" "A" [], by decide +kernel⟩
  refine ⟨hparse, not_isValid_of_parse hparse, ?_⟩
  rw [ofText_eq_mapError_parse, hparse]
  rfl

end Results

end OperatorRecovery.ByteReader
