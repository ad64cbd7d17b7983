import OperatorRecovery.Proofs.BytePositions

/-!
The reading by byte positions agrees with the machine that takes a text lexeme by lexeme. As long
as no wide blank was stepped over, the position is on a boundary and the reader stands where the
machine does. One byte into a wide blank the text cannot be sliced, and there the machine refuses
the blank as well.
-/

namespace OperatorRecovery.ByteReader

open Characters TypeReader
open String (utf8Len)

section Characters

theorem exists_span (inClass : Char → Bool) (text : List Char) :
    ∃ word rest, text = word ++ rest ∧ (∀ c ∈ word, inClass c = true) ∧
      ∀ c ∈ rest.head?, inClass c = false := by
  refine ⟨text.takeWhile inClass, text.dropWhile inClass, List.takeWhile_append_dropWhile.symm,
    fun c hc => List.mem_takeWhile_imp hc, ?_⟩
  intro c hc
  have hfirst := List.head?_dropWhile_not inClass text
  rw [Option.mem_def] at hc
  rw [hc] at hfirst
  exact hfirst

/-- The codes of the blanks. -/
def blankCodes : List Nat :=
  [0x09, 0x0a, 0x0b, 0x0c, 0x0d, 0x20, 0x85, 0xa0, 0x1680, 0x2000, 0x2001, 0x2002, 0x2003, 0x2004,
    0x2005, 0x2006, 0x2007, 0x2008, 0x2009, 0x200a, 0x2028, 0x2029, 0x202f, 0x205f, 0x3000]

theorem toNat_mem_blankCodes {c : Char} (h : isBlank c = true) : c.toNat ∈ blankCodes := by
  simp only [isBlank, isNarrowBlank, isWideBlank, inRanges, Bool.or_eq_true, Bool.and_eq_true,
    decide_eq_true_eq, Bool.ite_eq_true_distrib, Bool.false_eq_true] at h
  simp only [blankCodes, List.mem_cons, List.not_mem_nil, or_false]
  rcases h with hnarrow | hwide
  · omega
  · split_ifs at hwide <;> omega

theorem isNameChar_of_isBlank {c : Char} (h : isBlank c = true) : isNameChar c = false := by
  have hclasses : ∀ n ∈ blankCodes, isNameChar (Char.ofNat n) = false := by decide +kernel
  rw [← Char.ofNat_toNat c]
  exact hclasses _ (toNat_mem_blankCodes h)

theorem isBlank_of_isNameChar {c : Char} (h : isNameChar c = true) : isBlank c = false := by
  by_contra hblank
  rw [isNameChar_of_isBlank (Bool.of_not_eq_false hblank)] at h
  cases h

theorem isWideBlank_eq_false {c : Char} (h : isBlank c = false) : isWideBlank c = false :=
  (Bool.or_eq_false_iff.mp h).2

theorem utf8Size_of_isNarrowBlank {c : Char} (h : isNarrowBlank c = true) : c.utf8Size = 1 := by
  rw [Char.utf8Size_eq_one_iff, UInt32.le_iff_toNat_le]
  exact Nat.le_of_lt_succ (isNarrowBlank_lt h)

theorem one_lt_utf8Size_of_isWideBlank {c : Char} (h : isWideBlank c = true) :
    1 < c.utf8Size := by
  have hpos := c.utf8Size_pos
  have hne : c.utf8Size ≠ 1 := by
    rw [Ne, Char.utf8Size_eq_one_iff, UInt32.le_iff_toNat_le]
    exact Nat.not_le_of_lt (isWideBlank_ge h)
  omega

theorem lexemes_narrowBlank {c : Char} (h : isNarrowBlank c = true) (rest : List Char) :
    lexemes (c :: rest) = lexemes rest := by
  have hname : isNameChar c = false := isNameChar_of_isBlank (by simp [isBlank, h])
  rw [lexemes, lexemesFrom, hname, h]
  rfl

theorem lexemes_narrowBlanks {blanks : List Char} (h : ∀ c ∈ blanks, isNarrowBlank c = true)
    (rest : List Char) : lexemes (blanks ++ rest) = lexemes rest := by
  induction blanks with
  | nil => rfl
  | cons c blanks ih =>
    obtain ⟨hc, hblanks⟩ := List.forall_mem_cons.mp h
    rw [List.cons_append, lexemes_narrowBlank hc, ih hblanks]

theorem lexemes_wideBlank {c : Char} (h : isWideBlank c = true) (rest : List Char) :
    lexemes (c :: rest) = .wideBlank :: lexemes rest := by
  have hblank : isBlank c = true := by simp [isBlank, h]
  have hnarrow : isNarrowBlank c = false := by
    by_contra hnarrow
    rw [not_isWideBlank_of_isNarrowBlank (Bool.of_not_eq_false hnarrow)] at h
    cases h
  rw [lexemes, lexemesFrom, isNameChar_of_isBlank hblank, hnarrow, h]
  rfl

end Characters

section Positions

variable {text rest more word : List Char} {position : Nat}

/-- What stands behind a position that was reached, with no wide blank in front of it. -/
def At (text : List Char) (position : Nat) (rest : List Char) : Prop :=
  ∃ front, text = front ++ rest ∧ utf8Len front = position ∧
    ∀ c ∈ front, isWideBlank c = false

theorem at_start (text : List Char) : At text 0 text := ⟨[], rfl, rfl, List.forall_mem_nil _⟩

theorem At.suffix?_eq (h : At text position rest) : suffix? text position = some rest := by
  obtain ⟨front, rfl, rfl, _⟩ := h
  exact suffix?_append front rest

theorem At.append (h : At text position (word ++ rest))
    (hword : ∀ c ∈ word, isWideBlank c = false) : At text (position + utf8Len word) rest := by
  obtain ⟨front, rfl, rfl, hfront⟩ := h
  refine ⟨front ++ word, (List.append_assoc _ _ _).symm, String.utf8Len_append _ _, ?_⟩
  intro c hc
  rcases List.mem_append.mp hc with hc | hc
  · exact hfront c hc
  · exact hword c hc

/-- Only behind the whole text is nothing left. -/
theorem At.eq_utf8Len_iff (h : At text position rest) : position = utf8Len text ↔ rest = [] := by
  obtain ⟨front, rfl, rfl, _⟩ := h
  rw [String.utf8Len_append, ← String.utf8Len_eq_zero]
  omega

/-- Where the text is sliced off its boundaries, this is behind the first byte of its first
wide blank. -/
def Failure.IsLocated (text : List Char) : Failure → Prop
  | .offBoundary position => ∃ front blank rest, text = front ++ blank :: rest ∧
      isWideBlank blank = true ∧ position = utf8Len front + 1 ∧
      ∀ c ∈ front, isWideBlank c = false
  | _ => True

theorem At.slice_eq (h : At text position (word ++ rest)) :
    slice text position (position + utf8Len word) = .ok word := by
  obtain ⟨front, rfl, rfl, _⟩ := h
  exact slice_append front word rest

/-- The blanks at a position are stepped over up to the first other character, unless a wide
one is among them. -/
theorem skipBlanks_cases (h : At text position rest) :
    (∃ failure, skipBlanks text position = .error (.offBoundary failure) ∧
        Failure.IsLocated text (.offBoundary failure) ∧
        ∃ more, lexemes rest = .wideBlank :: more) ∨
      ∃ stop more, skipBlanks text position = .ok stop ∧ At text stop more ∧
        lexemes more = lexemes rest ∧ ∀ c ∈ more.head?, isBlank c = false := by
  obtain ⟨blanks, more, rfl, hblanks, hmore⟩ := exists_span isNarrowBlank rest
  have hnarrow : ∀ c ∈ blanks, isBlank c = true ∧ 1 = c.utf8Size := fun c hc =>
    ⟨by simp [isBlank, hblanks c hc], (utf8Size_of_isNarrowBlank (hblanks c hc)).symm⟩
  have hat := h.append fun c hc => not_isWideBlank_of_isNarrowBlank (hblanks c hc)
  have hpassed : skipBlanks text position = skipBlanks text (position + utf8Len blanks) :=
    skip_append h.suffix?_eq hnarrow
  rw [lexemes_narrowBlanks hblanks, hpassed, skipBlanks]
  by_cases hwide : ∃ c ∈ more.head?, isWideBlank c = true
  · -- One byte into the wide blank the text cannot be sliced.
    left
    obtain ⟨c, hc, hwide⟩ := hwide
    obtain ⟨behind, rfl⟩ : ∃ behind, more = c :: behind := List.head?_eq_some_iff.mp hc
    have hinside := suffix?_inside hat.suffix?_eq Nat.one_pos (one_lt_utf8Size_of_isWideBlank hwide)
    refine ⟨position + utf8Len blanks + 1, ?_, ?_, lexemes behind, lexemes_wideBlank hwide behind⟩
    · rw [skip_of_step hat.suffix?_eq (by simp [isBlank, hwide])]
      exact skip_of_none hinside
    · obtain ⟨front, htext, hlength, hfront⟩ := hat
      exact ⟨front, c, behind, htext, hwide, by rw [hlength], hfront⟩
  · right
    have hother : ∀ c ∈ more.head?, isBlank c = false := by
      intro c hc
      rw [isBlank, hmore c hc, Bool.false_or]
      exact eq_false_of_ne_true fun h => hwide ⟨c, hc, h⟩
    exact ⟨_, more, skip_of_stop hat.suffix?_eq hother, hat, rfl, hother⟩

end Positions

section Runs

variable {text rest more : List Char} {position : Nat} {enclosing : List Enclosing}

def Failure.fault : Failure → Fault
  | .invalidName => .invalidName
  | .unbalancedArguments => .unbalancedArguments
  | .offBoundary _ => .wideBlank

/-- A reading by positions that is on the way to a result: it goes on as said, or it has failed
as the result does. -/
def Leads {α : Type} (text : List Char) (result : Except Fault ResolvedType)
    (read : Except Failure α) (Next : α → Prop) : Prop :=
  match read with
  | .ok a => Next a
  | .error failure => result = .error failure.fault ∧ failure.IsLocated text

theorem Leads.bind {α β : Type} {result : Except Fault ResolvedType} {read : Except Failure α}
    {next : α → Except Failure β} {Between : α → Prop} {Next : β → Prop}
    (h : Leads text result read Between)
    (hnext : ∀ a, Between a → Leads text result (next a) Next) :
    Leads text result (read >>= next) Next := by
  cases read with
  | ok a => exact hnext a h
  | error failure => exact h

/-- What stands at a position where a mark was looked for. -/
def Eaten.Holds (text rest : List Char) (mark : Char) : Eaten text position → Prop
  | .taken stop _ _ => ∃ more, At text stop more ∧ lexemes rest = .mark mark :: lexemes more
  | .left stop _ => ∃ more, At text stop more ∧ lexemes more = lexemes rest ∧
      ∀ c ∈ more.head?, isBlank c = false ∧ c ≠ mark

theorem leads_eat (state : State) {mark : Char} (h : At text position rest) (hmark : mark ∈ marks) :
    Leads text (run state (lexemes rest)) (eat text mark position)
      (Eaten.Holds text rest mark) := by
  rcases skipBlanks_cases h with ⟨failure, hskip, hlocated, more, hmore⟩ |
    ⟨start, more, hskip, hat, hmore, hblank⟩
  · rw [eat_of_error hskip, hmore]
    exact ⟨rfl, hlocated⟩
  · by_cases hfound : more.head? = some mark
    · obtain ⟨behind, rfl⟩ := List.head?_eq_some_iff.mp hfound
      obtain ⟨lt, le, heat⟩ := exists_eat_taken hskip hat.suffix?_eq
      have hword : ∀ c ∈ [mark], isWideBlank c = false := by
        rw [List.forall_mem_singleton]
        exact isWideBlank_eq_false (classes_of_mem_marks hmark).2
      have hmarked : At text start ([mark] ++ behind) := hat
      rw [heat]
      refine ⟨behind, ?_, by rw [← hmore, lexemes_mark hmark]⟩
      simpa using hmarked.append hword
    · obtain ⟨le, heat⟩ := exists_eat_left hskip hat.suffix?_eq hfound
      rw [heat]
      exact ⟨more, hat, hmore, fun c hc => ⟨hblank c hc, fun heq => hfound (heq ▸ hc)⟩⟩

/-- A name is read up to where it ends. -/
theorem skipName_append {name : List Char} (h : At text position (name ++ rest))
    (hname : ∀ c ∈ name, isNameChar c = true) (hrest : Ends rest) :
    skipName text position = .ok (position + utf8Len name) := by
  rw [skipName, skip_append h.suffix?_eq fun c hc => ⟨hname c hc, rfl⟩]
  exact skip_of_stop (suffix?_of_append h.suffix?_eq) hrest

theorem leads_readName (h : At text position rest)
    (hblank : ∀ c ∈ rest.head?, isBlank c = false ∧ c ≠ '?') :
    Leads text (run ⟨enclosing, .start⟩ (lexemes rest)) (readName text position)
      fun read => ∃ more, At text read.stop more ∧ run ⟨enclosing, .start⟩ (lexemes rest) =
        run ⟨enclosing, .named read.value.1 read.value.2⟩ (lexemes more) := by
  obtain ⟨name, more, rfl, hname, hends⟩ := exists_span isNameChar rest
  have hskip := skipName_append h hname hends
  have hread : readName text position =
      if isWellFormedName name then
        .ok ⟨splitName name, position + utf8Len name, Nat.le_add_right _ _⟩
      else .error .invalidName := by
    rw [readName]
    split
    next _ herror => simp [hskip] at herror
    next stop hstop =>
      obtain rfl : position + utf8Len name = stop := by simpa [hskip] using hstop
      rw [h.slice_eq]
      simp only [splitDotted_eq]
      rfl
  rw [hread]
  by_cases hnil : name = []
  · -- Without a name the text goes on with a mark that begins no type, or not at all.
    subst hnil
    refine ⟨?_, trivial⟩
    rw [List.nil_append] at hblank ⊢
    cases more with
    | nil => rfl
    | cons c more =>
      obtain ⟨hother, hquestion⟩ := hblank c rfl
      rw [lexemes_mark_of_other (hends c rfl) hother, run]
      simp [step, hquestion, Failure.fault]
  · rw [lexemes_name hnil hname hends]
    split
    next hwell =>
      have hnarrow : ∀ c ∈ name, isWideBlank c = false := fun c hc =>
        isWideBlank_eq_false (isBlank_of_isNameChar (hname c hc))
      refine ⟨more, h.append hnarrow, ?_⟩
      exact run_cons_of_ok _ (by simp [step, hwell])
    next hill =>
      refine ⟨?_, trivial⟩
      simp [run, step, hill, Failure.fault]

/-- The next lexeme can be stepped over and is not that mark, if there is one. -/
def Declines (mark : Char) (ls : List Lexeme) : Prop :=
  ∀ l ∈ ls.head?, l ≠ .mark mark ∧ l ≠ .wideBlank

/-- A character that is not a blank is in front of a lexeme, in a name or as a mark. -/
theorem exists_lexemes_eq_cons {c : Char} (h : isBlank c = false) (rest : List Char) :
    ∃ l ls, lexemes (c :: rest) = l :: ls ∧ l ≠ .wideBlank ∧ ∀ mark, c ≠ mark → l ≠ .mark mark := by
  by_cases hc : isNameChar c = true
  · obtain ⟨name, more, rfl, hname, hends⟩ := exists_span isNameChar rest
    have hwhole : ∀ d ∈ c :: name, isNameChar d = true := List.forall_mem_cons.mpr ⟨hc, hname⟩
    rw [← List.cons_append, lexemes_name (List.cons_ne_nil c name) hwhole hends]
    exact ⟨_, _, rfl, nofun, fun _ _ => nofun⟩
  · rw [lexemes_mark_of_other (eq_false_of_ne_true hc) h]
    exact ⟨_, _, rfl, nofun, fun mark hne => by simpa using hne⟩

theorem declines_lexemes {mark : Char} (h : ∀ c ∈ rest.head?, isBlank c = false ∧ c ≠ mark) :
    Declines mark (lexemes rest) := by
  cases rest with
  | nil => exact nofun
  | cons c rest =>
    obtain ⟨hother, hne⟩ := h c rfl
    obtain ⟨l, ls, hlexemes, hwide, hmark⟩ := exists_lexemes_eq_cons hother rest
    rw [hlexemes]
    intro l' hl'
    cases hl'
    exact ⟨hmark mark hne, hwide⟩

variable {ls : List Lexeme} {type : ResolvedType}

/-- A run goes on as another if both finish alike and take the next lexeme alike. -/
theorem run_congr {state state' : State} (hfinish : finish state = finish state')
    (hstep : ∀ l ∈ ls.head?, step state l = step state' l) : run state ls = run state' ls := by
  cases ls with
  | nil => exact hfinish
  | cons l ls => rw [run, run, hstep l rfl]

theorem run_eq_error {state : State} {fault : Fault} (hfinish : finish state = .error fault)
    (hstep : ∀ l ∈ ls.head?, step state l = .error fault) : run state ls = .error fault := by
  cases ls with
  | nil => exact hfinish
  | cons l ls => rw [run, hstep l rfl]

theorem run_named_of_declines {ns name : String} (h : Declines '<' ls) :
    run ⟨enclosing, .named ns name⟩ ls = run ⟨enclosing, .complete (.named ns name [])⟩ ls := by
  refine run_congr rfl fun l hl => ?_
  obtain ⟨hmark, hwide⟩ := h l hl
  simp only [step, if_neg hwide]

theorem run_complete_of_declines (hbracket : Declines '[' ls) (hreference : Declines '&' ls) :
    run ⟨enclosing, .complete type⟩ ls = run ⟨enclosing, .closed type⟩ ls := by
  refine run_congr rfl fun l hl => ?_
  obtain ⟨hmark, hwide⟩ := hbracket l hl
  obtain ⟨hmark', _⟩ := hreference l hl
  simp only [step, if_neg hwide, suffix]

theorem run_brackets_of_declines {rank : UInt32} (hcomma : Declines ',' ls)
    (hclose : Declines ']' ls) :
    run ⟨enclosing, .brackets type rank⟩ ls = .error .invalidName := by
  refine run_eq_error rfl fun l hl => ?_
  obtain ⟨hmark, hwide⟩ := hcomma l hl
  obtain ⟨hmark', _⟩ := hclose l hl
  simp only [step, if_neg hwide]

theorem run_closed_of_declines {e : Enclosing} (hcomma : Declines ',' ls)
    (hclose : Declines '>' ls) :
    run ⟨e :: enclosing, .closed type⟩ ls = .error .unbalancedArguments := by
  refine run_eq_error rfl fun l hl => ?_
  obtain ⟨hmark, hwide⟩ := hcomma l hl
  obtain ⟨hmark', _⟩ := hclose l hl
  simp only [step, if_neg hwide, afterType]

/-- A mark that was taken is one step of the machine. -/
theorem run_of_taken {state next : State} {mark : Char}
    (h : lexemes rest = .mark mark :: lexemes more) (hstep : step state (.mark mark) = .ok next) :
    run state (lexemes rest) = run next (lexemes more) := by
  rw [h, run_cons_of_ok _ hstep]

theorem leads_readRank {rest : List Char} {position : Nat} (rank : UInt32)
    (h : At text position rest) :
    Leads text (run ⟨enclosing, .brackets type rank⟩ (lexemes rest)) (readRank text rank position)
      fun read => ∃ more, At text read.stop more ∧ Declines ',' (lexemes more) ∧
        run ⟨enclosing, .brackets type rank⟩ (lexemes rest) =
          run ⟨enclosing, .brackets type read.value⟩ (lexemes more) := by
  rw [readRank]
  refine (leads_eat _ h (by decide)).bind ?_
  rintro (⟨next, hnext, hbound⟩ | ⟨stop, hstop⟩) heaten
  · obtain ⟨more, hat, hlexemes⟩ := heaten
    have hcomma : run ⟨enclosing, .brackets type rank⟩ (lexemes rest) =
        run ⟨enclosing, .brackets type (rank + 1)⟩ (lexemes more) := run_of_taken hlexemes rfl
    rw [hcomma]
    refine (leads_readRank (rank + 1) hat).bind ?_
    intro read hread
    exact hread
  · obtain ⟨more, hat, hlexemes, hother⟩ := heaten
    exact ⟨more, hat, declines_lexemes hother, by rw [hlexemes]⟩
termination_by utf8Len text - position

/-- The reading ends with a type that nothing behind it adds to. -/
def Read.Closes {start : Nat} (text : List Char) (enclosing : List Enclosing)
    (result : Except Fault ResolvedType) (read : Read start ResolvedType) : Prop :=
  ∃ more, At text read.stop more ∧ result = run ⟨enclosing, .closed read.value⟩ (lexemes more)

theorem leads_readSuffixes {rest : List Char} {position : Nat} (type : ResolvedType)
    (h : At text position rest) :
    Leads text (run ⟨enclosing, .complete type⟩ (lexemes rest)) (readSuffixes text type position)
      (Read.Closes text enclosing (run ⟨enclosing, .complete type⟩ (lexemes rest))) := by
  rw [readSuffixes]
  refine (leads_eat _ h (by decide)).bind ?_
  rintro (⟨first, hfirst, hbound⟩ | ⟨start, hstart⟩) heaten
  · obtain ⟨more, hat, hmore⟩ := heaten
    have hbracket : run ⟨enclosing, .complete type⟩ (lexemes rest) =
        run ⟨enclosing, .brackets type 1⟩ (lexemes more) := run_of_taken hmore rfl
    rw [hbracket]
    refine (leads_readRank 1 hat).bind ?_
    rintro ⟨rank, last, hlast⟩ ⟨behind, hbehind, hcomma, hrank⟩
    rw [hrank]
    refine (leads_eat _ hbehind (by decide)).bind ?_
    rintro (⟨next, hnext, hbound'⟩ | ⟨stop, hstop⟩) heaten
    · obtain ⟨after, hafter, hlexemes⟩ := heaten
      have hlt : position < next :=
        Nat.lt_of_lt_of_le hfirst (Nat.le_trans hlast (Nat.le_of_lt hnext))
      have hclose : run ⟨enclosing, .brackets type rank⟩ (lexemes behind) =
          run ⟨enclosing, .complete (.array type rank)⟩ (lexemes after) := run_of_taken hlexemes rfl
      rw [hclose]
      exact (leads_readSuffixes (.array type rank) hafter).bind fun read hread => hread
    · obtain ⟨after, hafter, hlexemes, hother⟩ := heaten
      have hclose : Declines ']' (lexemes behind) := hlexemes ▸ declines_lexemes hother
      exact ⟨run_brackets_of_declines hcomma hclose, trivial⟩
  · obtain ⟨more, hat, hmore, hother⟩ := heaten
    rw [← hmore]
    refine (leads_eat _ hat (by decide)).bind ?_
    rintro (⟨next, hnext, hbound⟩ | ⟨stop, hstop⟩) heaten
    · obtain ⟨behind, hbehind, hlexemes⟩ := heaten
      have hreference : run ⟨enclosing, .complete type⟩ (lexemes more) =
          run ⟨enclosing, .complete (.byRef type)⟩ (lexemes behind) := run_of_taken hlexemes rfl
      rw [hreference]
      exact (leads_readSuffixes (.byRef type) hbehind).bind fun read hread => hread
    · obtain ⟨behind, hbehind, hlexemes, hends⟩ := heaten
      have hreference : Declines '&' (lexemes more) := hlexemes ▸ declines_lexemes hends
      refine ⟨behind, hbehind, ?_⟩
      rw [hlexemes]
      exact run_complete_of_declines (declines_lexemes hother) hreference
termination_by utf8Len text - position

mutual

theorem leads_readType {rest : List Char} {position : Nat} (enclosing : List Enclosing)
    (h : At text position rest) :
    Leads text (run ⟨enclosing, .start⟩ (lexemes rest)) (readType text position)
      (Read.Closes text enclosing (run ⟨enclosing, .start⟩ (lexemes rest))) := by
  rw [readType]
  refine (leads_eat _ h (by decide)).bind ?_
  rintro (⟨stop, hstop, hbound⟩ | ⟨start, hstart⟩) heaten
  · obtain ⟨more, hat, hmore⟩ := heaten
    exact ⟨more, hat, run_of_taken hmore rfl⟩
  · obtain ⟨more, hat, hmore, hother⟩ := heaten
    rw [← hmore]
    refine (leads_readName hat hother).bind ?_
    rintro ⟨⟨ns, name⟩, behind, hbehind⟩ ⟨further, hfurther, hname⟩
    rw [hname]
    refine (leads_eat _ hfurther (by decide)).bind ?_
    rintro (⟨first, hfirst, hbound⟩ | ⟨last, hlast⟩) heaten
    · obtain ⟨inner, hinner, hlexemes⟩ := heaten
      have hlt : position < first := Nat.lt_of_le_of_lt (Nat.le_trans hstart hbehind) hfirst
      have hopen : run ⟨enclosing, .named ns name⟩ (lexemes further) =
          run ⟨⟨ns, name, []⟩ :: enclosing, .start⟩ (lexemes inner) := run_of_taken hlexemes rfl
      rw [hopen]
      refine (leads_readArguments ⟨ns, name, []⟩ enclosing hinner).bind ?_
      rintro ⟨arguments, last, hlast⟩ ⟨outer, houter, harguments⟩
      rw [harguments]
      exact (leads_readSuffixes _ houter).bind fun read hread => hread
    · obtain ⟨outer, houter, hlexemes, hends⟩ := heaten
      rw [← hlexemes, run_named_of_declines (declines_lexemes hends)]
      exact (leads_readSuffixes _ houter).bind fun read hread => hread
termination_by (utf8Len text - position, 0)
decreasing_by
  apply Prod.Lex.left
  omega

/-- Behind the list its generic type is complete, with these arguments after those that were
there. -/
theorem leads_readArguments {rest : List Char} {position : Nat} (e : Enclosing)
    (enclosing : List Enclosing) (h : At text position rest) :
    Leads text (run ⟨e :: enclosing, .start⟩ (lexemes rest)) (readArguments text position)
      fun read => ∃ more, At text read.stop more ∧
        run ⟨e :: enclosing, .start⟩ (lexemes rest) = run ⟨enclosing,
          .complete (.named e.namespace e.name (e.arguments.reverse ++ read.value))⟩
            (lexemes more) := by
  rw [readArguments]
  refine (leads_readType (e :: enclosing) h).bind ?_
  rintro ⟨first, behind, hbehind⟩ ⟨more, hat, hfirst⟩
  rw [hfirst]
  refine (leads_eat _ hat (by decide)).bind ?_
  rintro (⟨next, hnext, hbound⟩ | ⟨next, hnext⟩) heaten
  · obtain ⟨further, hfurther, hlexemes⟩ := heaten
    have hlt : position < next := Nat.lt_of_le_of_lt hbehind hnext
    have hcomma : run ⟨e :: enclosing, .closed first⟩ (lexemes more) =
        run ⟨{ e with arguments := first :: e.arguments } :: enclosing, .start⟩
          (lexemes further) := run_of_taken hlexemes rfl
    rw [hcomma]
    refine (leads_readArguments _ enclosing hfurther).bind ?_
    rintro ⟨more, stop, hstop⟩ ⟨outer, houter, harguments⟩
    refine ⟨outer, houter, ?_⟩
    rw [harguments]
    simp
  · obtain ⟨further, hfurther, hlexemes, hother⟩ := heaten
    rw [← hlexemes]
    refine (leads_eat _ hfurther (by decide)).bind ?_
    rintro (⟨stop, hstop, hbound⟩ | ⟨stop, hstop⟩) heaten
    · obtain ⟨outer, houter, hclose⟩ := heaten
      refine ⟨outer, houter, ?_⟩
      rw [run_of_taken hclose rfl, List.reverse_cons]
    · obtain ⟨outer, _, hclose, hends⟩ := heaten
      exact ⟨run_closed_of_declines (declines_lexemes hother) (hclose ▸ declines_lexemes hends),
        trivial⟩
termination_by (utf8Len text - position, 1)
decreasing_by
  · apply Prod.Lex.right
    omega
  · apply Prod.Lex.left
    omega

end

/-- The reading by positions gives what the machine gives. -/
theorem leads_parse (text : List Char) :
    Leads text (run begin (lexemes text)) (parse text)
      fun type => run begin (lexemes text) = .ok type := by
  refine (leads_readType [] (at_start text)).bind ?_
  rintro ⟨type, behind, hbehind⟩ ⟨more, hat, htype⟩
  rw [htype]
  rcases skipBlanks_cases hat with ⟨failure, hskip, hlocated, further, hfurther⟩ |
    ⟨stop, further, hskip, hstop, hlexemes, hblank⟩
  · simp only [hskip, hfurther]
    exact ⟨rfl, hlocated⟩
  · simp only [hskip, ← hlexemes]
    change Leads _ _ (if stop = utf8Len text then _ else _) _
    simp only [hstop.eq_utf8Len_iff]
    cases further with
    | nil =>
      rw [if_pos rfl]
      exact htype.trans (by rw [← hlexemes]; rfl)
    | cons c further =>
      obtain ⟨l, ls, hrest, hwide, _⟩ := exists_lexemes_eq_cons (hblank c rfl) further
      rw [if_neg (List.cons_ne_nil c further), hrest]
      refine ⟨?_, trivial⟩
      have hstep : step ⟨[], .closed type⟩ l = .error .invalidName := by
        simp only [step, if_neg hwide, afterType]
      rw [run, hstep]
      rfl

end Runs

end OperatorRecovery.ByteReader
