import OperatorRecovery.Proofs.WideBlanks

/-!
The texts of types by a grammar. A type is a question mark, or a name that may take arguments and
then any number of suffixes; blanks may stand in front of every name and every mark. The reader
takes exactly the texts that the grammar derives, with the type that it derives, as long as every
blank takes a single byte. One direction follows a derivation and runs the reader through it. The
other goes through a run from its end: what a step leaves to be derived, with the lexeme of the
step in front, is what was left before the step.

The reader counts the dimensions of an array in 32 bits, and so does the grammar. Below `2 ^ 32`
the rank is one plus the number of commas.
-/

namespace OperatorRecovery

open Characters TypeReader ByteReader

namespace TypeGrammar

section Grammar

def AreBlanks (text : List Char) : Prop := ∀ c ∈ text, isBlank c = true

instance (text : List Char) : Decidable (AreBlanks text) :=
  decidable_of_iff (text.all isBlank = true) List.all_eq_true

/-- A mark with blanks in front of it. -/
def IsMark (c : Char) (text : List Char) : Prop :=
  ∃ blanks, AreBlanks blanks ∧ text = blanks ++ [c]

/-- A dotted name and the two parts that its last dot splits it into. -/
structure IsName (dotted : List Char) («namespace» name : String) : Prop where
  nonempty : dotted ≠ []
  characters : ∀ c ∈ dotted, isAlphanumeric c = true ∨ c ∈ ['_', '.', '\x60']
  head : dotted.head? ≠ some '.'
  last : dotted.getLast? ≠ some '.'
  dotless : '.' ∉ name.toList
  split : «namespace» = "" ∧ dotted = name.toList ∨
    dotted = «namespace».toList ++ '.' :: name.toList

def IsBrackets (text : List Char) (rank : UInt32) : Prop :=
  ∃ opening closing, ∃ commas : List (List Char),
    text = opening ++ (commas.flatten ++ closing) ∧ IsMark '[' opening ∧
    (∀ comma ∈ commas, IsMark ',' comma) ∧ IsMark ']' closing ∧
    rank.toNat = (commas.length + 1) % 2 ^ 32

/-- `Suffixed t text s` when the suffixes in `text`, taken from the left, make `s` of `t`. -/
inductive Suffixed : ResolvedType → List Char → ResolvedType → Prop
  | none (t : ResolvedType) : Suffixed t [] t
  | array {t s : ResolvedType} {rank : UInt32} {brackets rest : List Char} :
    IsBrackets brackets rank → Suffixed (.array t rank) rest s → Suffixed t (brackets ++ rest) s
  | byRef {t s : ResolvedType} {mark rest : List Char} :
    IsMark '&' mark → Suffixed (.byRef t) rest s → Suffixed t (mark ++ rest) s

inductive Phrase
  | type (t : ResolvedType)
  /-- The arguments of a name, in angle brackets where there are any. -/
  | arguments (ts : List ResolvedType)
  /-- The arguments behind the first one, up to the closing bracket. -/
  | moreArguments (ts : List ResolvedType)

-- One relation over the phrases, so that `induction` applies to it.
inductive Derives : Phrase → List Char → Prop
  | unknown {mark : List Char} : IsMark '?' mark → Derives (.type .unknown) mark
  | named {blanks dotted arguments suffixes : List Char} {ns name : String}
    {ts : List ResolvedType} {t : ResolvedType} :
    AreBlanks blanks → IsName dotted ns name → Derives (.arguments ts) arguments →
    Suffixed (.named ns name ts) suffixes t →
    Derives (.type t) (blanks ++ (dotted ++ (arguments ++ suffixes)))
  | noArguments : Derives (.arguments []) []
  | arguments {opening first more : List Char} {t : ResolvedType} {ts : List ResolvedType} :
    IsMark '<' opening → Derives (.type t) first → Derives (.moreArguments ts) more →
    Derives (.arguments (t :: ts)) (opening ++ (first ++ more))
  | close {closing : List Char} : IsMark '>' closing → Derives (.moreArguments []) closing
  | comma {comma next more : List Char} {t : ResolvedType} {ts : List ResolvedType} :
    IsMark ',' comma → Derives (.type t) next → Derives (.moreArguments ts) more →
    Derives (.moreArguments (t :: ts)) (comma ++ (next ++ more))

/-- A type with blanks behind it. -/
def IsTypeText (text : List Char) (t : ResolvedType) : Prop :=
  ∃ front blanks, text = front ++ blanks ∧ Derives (.type t) front ∧ AreBlanks blanks

end Grammar

section Pieces

variable {dotted : List Char} {ns name : String} {c : Char}

theorem isNameChar_iff : isNameChar c = true ↔
    isAlphanumeric c = true ∨ c ∈ ['_', '.', '\x60'] := by
  simp [isNameChar, or_assoc]

theorem isWellFormedName_iff : isWellFormedName dotted = true ↔
    dotted ≠ [] ∧ dotted.head? ≠ some '.' ∧ dotted.getLast? ≠ some '.' := by
  simp [isWellFormedName, and_assoc]

/-- The names of the grammar are those of the reader. -/
theorem isName_iff : IsName dotted ns name ↔
    (∀ c ∈ dotted, isNameChar c = true) ∧ isWellFormedName dotted = true ∧
      splitName dotted = (ns, name) := by
  have hfree {word : List Char} (h : '.' ∉ word) : ∀ c ∈ word, c ≠ '.' := fun c hc hdot =>
    h (hdot ▸ hc)
  constructor
  · intro h
    refine ⟨fun c hc => isNameChar_iff.mpr (h.characters c hc),
      isWellFormedName_iff.mpr ⟨h.nonempty, h.head, h.last⟩, ?_⟩
    rcases h.split with ⟨rfl, rfl⟩ | rfl
    · rw [splitName_of_dotless (hfree h.dotless), String.ofList_toList]
    · rw [splitName_append _ (hfree h.dotless), String.ofList_toList, String.ofList_toList]
  · intro h
    obtain ⟨hchars, hwell, hsplit⟩ := h
    obtain ⟨hne, hhead, hlast⟩ := isWellFormedName_iff.mp hwell
    have hcharacters := fun c hc => isNameChar_iff.mp (hchars c hc)
    by_cases hdot : '.' ∈ dotted
    · obtain ⟨front, last, rfl, hdotless⟩ := exists_last_dot hdot
      rw [splitName_append front hdotless] at hsplit
      cases hsplit
      exact ⟨hne, hcharacters, hhead, hlast,
        by simpa using fun hmem => hdotless '.' hmem rfl, Or.inr (by simp)⟩
    · rw [splitName_of_dotless (hfree hdot)] at hsplit
      cases hsplit
      exact ⟨hne, hcharacters, hhead, hlast, by simpa using hdot, Or.inl (by simp)⟩

/-- One dimension, and one more for every comma, counted in 32 bits. -/
theorem rank_eq_iff {rank : UInt32} {commas : Nat} :
    rank.toNat = (commas + 1) % 2 ^ 32 ↔ rank = 1 + UInt32.ofNat commas := by
  rw [← UInt32.toNat_inj, UInt32.toNat_add, UInt32.toNat_ofNat',
    show (1 : UInt32).toNat = 1 from rfl, Nat.add_mod_mod, Nat.add_comm]

end Pieces

section Lexemes

variable {text blanks mark rest : List Char} {c : Char}

/-- No blank in the text takes several bytes. -/
def HasNarrowBlanks (text : List Char) : Prop := ∀ c ∈ text, isBlank c = true → c.utf8Size = 1

instance (text : List Char) : Decidable (HasNarrowBlanks text) :=
  decidable_of_iff (text.all fun c => !isBlank c || c.utf8Size == 1)
    (by simp [HasNarrowBlanks, imp_iff_not_or])

theorem hasNarrowBlanks_append :
    HasNarrowBlanks (text ++ rest) ↔ HasNarrowBlanks text ∧ HasNarrowBlanks rest :=
  List.forall_mem_append

theorem isNarrowBlank_of_utf8Size (hblank : isBlank c = true) (hsize : c.utf8Size = 1) :
    isNarrowBlank c = true := by
  rcases Bool.or_eq_true_iff.mp hblank with hnarrow | hwide
  · exact hnarrow
  · have hlong := one_lt_utf8Size_of_isWideBlank hwide
    omega

theorem lexemes_blanks (hblanks : AreBlanks blanks) (hnarrow : HasNarrowBlanks blanks)
    (rest : List Char) : lexemes (blanks ++ rest) = lexemes rest :=
  lexemes_narrowBlanks
    (fun c hc => isNarrowBlank_of_utf8Size (hblanks c hc) (hnarrow c hc (hblanks c hc))) rest

theorem ends_blanks (hblanks : AreBlanks blanks) (hrest : Ends rest) : Ends (blanks ++ rest) := by
  cases blanks with
  | nil => exact hrest
  | cons c blanks =>
    exact ends_cons (isNameChar_of_isBlank (hblanks c List.mem_cons_self)) _

theorem IsMark.ends (h : IsMark c mark) (hc : c ∈ marks) (rest : List Char) :
    Ends (mark ++ rest) := by
  obtain ⟨blanks, hblanks, rfl⟩ := h
  rw [List.append_assoc]
  exact ends_blanks hblanks (ends_cons (classes_of_mem_marks hc).1 rest)

/-- A mark with blanks in front is one step of the reader. -/
theorem IsMark.run_eq {state next : State} (h : IsMark c mark) (hc : c ∈ marks)
    (hnarrow : HasNarrowBlanks mark) (hstep : step state (.mark c) = .ok next)
    (rest : List Char) : run state (lexemes (mark ++ rest)) = run next (lexemes rest) := by
  obtain ⟨blanks, hblanks, rfl⟩ := h
  rw [List.append_assoc, lexemes_blanks hblanks (hasNarrowBlanks_append.mp hnarrow).1]
  exact run_mark hc rest hstep

theorem IsName.run_eq {dotted : List Char} {ns name : String} (h : IsName dotted ns name)
    (enclosing : List Enclosing) (hrest : Ends rest) :
    run ⟨enclosing, .start⟩ (lexemes (dotted ++ rest)) =
      run ⟨enclosing, .named ns name⟩ (lexemes rest) := by
  obtain ⟨hchars, hwell, hsplit⟩ := isName_iff.mp h
  have hstep : step ⟨enclosing, .start⟩ (.name dotted) = .ok ⟨enclosing, .named ns name⟩ := by
    simp [step, hwell, hsplit]
  rw [lexemes_name h.nonempty hchars hrest, run_cons_of_ok _ hstep]

end Lexemes

section Completeness

variable {text rest : List Char} {rank : UInt32} {t s : ResolvedType} {ts : List ResolvedType}

theorem ends_suffixed (h : Suffixed t text s) (hrest : Ends rest) : Ends (text ++ rest) := by
  cases h with
  | none => exact hrest
  | array hbrackets =>
    obtain ⟨opening, closing, commas, rfl, hopening, -⟩ := hbrackets
    simp only [List.append_assoc]
    exact hopening.ends (by decide) _
  | byRef hmark =>
    rw [List.append_assoc]
    exact hmark.ends (by decide) _

theorem ends_arguments (h : Derives (.arguments ts) text) (hrest : Ends rest) :
    Ends (text ++ rest) := by
  cases h with
  | noArguments => exact hrest
  | arguments hopening =>
    rw [List.append_assoc]
    exact hopening.ends (by decide) _

theorem ends_moreArguments (h : Derives (.moreArguments ts) text) (rest : List Char) :
    Ends (text ++ rest) := by
  cases h with
  | close hclosing => exact hclosing.ends (by decide) rest
  | comma hcomma =>
    rw [List.append_assoc]
    exact hcomma.ends (by decide) _

theorem run_commaMarks {commas : List (List Char)} (enclosing : List Enclosing)
    (element : ResolvedType) (rank : UInt32) (hcommas : ∀ comma ∈ commas, IsMark ',' comma)
    (hnarrow : HasNarrowBlanks commas.flatten) (rest : List Char) :
    run ⟨enclosing, .brackets element rank⟩ (lexemes (commas.flatten ++ rest)) =
      run ⟨enclosing, .brackets element (rank + UInt32.ofNat commas.length)⟩ (lexemes rest) := by
  induction commas generalizing rank with
  | nil => simp
  | cons comma commas ih =>
    obtain ⟨hcomma, hcommas⟩ := List.forall_mem_cons.mp hcommas
    rw [List.flatten_cons] at hnarrow ⊢
    obtain ⟨hfirst, hnarrow⟩ := hasNarrowBlanks_append.mp hnarrow
    rw [List.append_assoc, hcomma.run_eq (by decide) hfirst rfl, ih _ hcommas hnarrow,
      List.length_cons, UInt32.ofNat_add, UInt32.add_assoc, UInt32.add_comm 1]
    rfl

theorem IsBrackets.run_eq (h : IsBrackets text rank) (hknown : t.isUnknown = false)
    (hnarrow : HasNarrowBlanks text) (enclosing : List Enclosing) (rest : List Char) :
    run ⟨enclosing, after t⟩ (lexemes (text ++ rest)) =
      run ⟨enclosing, after (.array t rank)⟩ (lexemes rest) := by
  obtain ⟨opening, closing, commas, rfl, hopening, hcommas, hclosing, hrank⟩ := h
  simp only [hasNarrowBlanks_append] at hnarrow
  obtain ⟨hnopening, hncommas, hnclosing⟩ := hnarrow
  simp only [List.append_assoc]
  rw [hopening.run_eq (by decide) hnopening (step_after_bracket hknown enclosing),
    run_commaMarks enclosing t 1 hcommas hncommas,
    hclosing.run_eq (by decide) hnclosing rfl, rank_eq_iff.mp hrank]
  rfl

/-- The reader takes a type through its suffixes. -/
theorem Suffixed.run_eq (h : Suffixed t text s) (hknown : t.isUnknown = false)
    (hnarrow : HasNarrowBlanks text) (enclosing : List Enclosing) (rest : List Char) :
    run ⟨enclosing, after t⟩ (lexemes (text ++ rest)) =
      run ⟨enclosing, after s⟩ (lexemes rest) := by
  induction h with
  | none => rfl
  | array hbrackets _ ih =>
    obtain ⟨hnbrackets, hnrest⟩ := hasNarrowBlanks_append.mp hnarrow
    rw [List.append_assoc, hbrackets.run_eq hknown hnbrackets, ih rfl hnrest]
  | byRef hmark _ ih =>
    obtain ⟨hnmark, hnrest⟩ := hasNarrowBlanks_append.mp hnarrow
    rw [List.append_assoc,
      hmark.run_eq (by decide) hnmark (step_after_reference hknown enclosing)]
    exact ih rfl hnrest

/-- How the reader goes through the text of a phrase. -/
def Phrase.Read (text : List Char) : Phrase → Prop
  | .type t => ∀ enclosing rest, Ends rest →
    run ⟨enclosing, .start⟩ (lexemes (text ++ rest)) = run ⟨enclosing, after t⟩ (lexemes rest)
  | .arguments ts => ∀ ns name enclosing rest,
    run ⟨enclosing, .named ns name⟩ (lexemes (text ++ rest)) =
      run ⟨enclosing, after (.named ns name ts)⟩ (lexemes rest)
  | .moreArguments ts => ∀ t e outer rest,
    run ⟨e :: outer, after t⟩ (lexemes (text ++ rest)) =
      run ⟨outer, .complete (.named e.namespace e.name (e.arguments.reverse ++ t :: ts))⟩
        (lexemes rest)

/-- The reader goes through whatever the grammar derives. -/
theorem Derives.read {phrase : Phrase} (h : Derives phrase text)
    (hnarrow : HasNarrowBlanks text) : phrase.Read text := by
  induction h with
  | unknown hmark =>
    intro enclosing rest _
    exact hmark.run_eq (by decide) hnarrow rfl rest
  | named hblanks hname harguments hsuffixes ih =>
    intro enclosing rest hrest
    simp only [hasNarrowBlanks_append] at hnarrow
    obtain ⟨hnblanks, -, hnarguments, hnsuffixes⟩ := hnarrow
    have hends := ends_arguments harguments (ends_suffixed hsuffixes hrest)
    simp only [List.append_assoc]
    rw [lexemes_blanks hblanks hnblanks, hname.run_eq enclosing hends, ih hnarguments,
      hsuffixes.run_eq rfl hnsuffixes]
  | noArguments =>
    intro ns name enclosing rest
    rfl
  | arguments hopening _ hmore ihfirst ihmore =>
    intro ns name enclosing rest
    simp only [hasNarrowBlanks_append] at hnarrow
    obtain ⟨hnopening, hnfirst, hnmore⟩ := hnarrow
    simp only [List.append_assoc]
    rw [hopening.run_eq (by decide) hnopening rfl,
      ihfirst hnfirst _ _ (ends_moreArguments hmore rest), ihmore hnmore]
    rfl
  | close hclosing =>
    intro t e outer rest
    have hstep := step_after_close t e outer
    rw [List.reverse_cons] at hstep
    exact hclosing.run_eq (by decide) hnarrow hstep rest
  | comma hcomma _ hmore ihnext ihmore =>
    intro t e outer rest
    simp only [hasNarrowBlanks_append] at hnarrow
    obtain ⟨hncomma, hnnext, hnmore⟩ := hnarrow
    simp only [List.append_assoc]
    rw [hcomma.run_eq (by decide) hncomma (step_after_comma t e outer),
      ihnext hnnext _ _ (ends_moreArguments hmore rest), ihmore hnmore]
    simp

end Completeness

section Rows

/-- The texts of a lexeme: blanks may stand in front of it. -/
def IsSpelling : Lexeme → List Char → Prop
  | .name dotted, text => ∃ blanks, text = blanks ++ dotted ∧ AreBlanks blanks ∧
      ∀ c ∈ dotted, isNameChar c = true
  | .mark c, text => IsMark c text
  | .wideBlank, _ => False

/-- A text cut into its lexemes, with blanks at its end. -/
inductive IsRow : List Lexeme → List Char → Prop
  | nil {blanks : List Char} : AreBlanks blanks → IsRow [] blanks
  | cons {lexeme : Lexeme} {ls : List Lexeme} {front rest : List Char} :
    IsSpelling lexeme front → IsRow ls rest → IsRow (lexeme :: ls) (front ++ rest)

theorem areBlanks_cons {c : Char} {blanks : List Char} (hc : isBlank c = true)
    (hblanks : AreBlanks blanks) : AreBlanks (c :: blanks) :=
  List.forall_mem_cons.mpr ⟨hc, hblanks⟩

theorem isSpelling_blank {lexeme : Lexeme} {c : Char} {front : List Char}
    (hc : isBlank c = true) (h : IsSpelling lexeme front) : IsSpelling lexeme (c :: front) := by
  cases lexeme with
  | name dotted =>
    obtain ⟨blanks, rfl, hblanks, hdotted⟩ := h
    exact ⟨c :: blanks, rfl, areBlanks_cons hc hblanks, hdotted⟩
  | mark m =>
    obtain ⟨blanks, hblanks, rfl⟩ := h
    exact ⟨c :: blanks, areBlanks_cons hc hblanks, rfl⟩
  | wideBlank => exact h

theorem isRow_blank {ls : List Lexeme} {c : Char} {text : List Char} (hc : isBlank c = true)
    (h : IsRow ls text) : IsRow ls (c :: text) := by
  cases h with
  | nil hblanks => exact .nil (areBlanks_cons hc hblanks)
  | cons hspelling hrest => exact .cons (isSpelling_blank hc hspelling) hrest

theorem isRow_closeName {ls : List Lexeme} {pending text : List Char}
    (hpending : ∀ c ∈ pending, isNameChar c = true) (h : IsRow ls text) :
    IsRow (closeName pending ls) (pending.reverse ++ text) := by
  rw [closeName]
  split
  next hempty =>
    rw [List.isEmpty_iff.mp hempty]
    exact h
  next =>
    have hchars : ∀ c ∈ pending.reverse, isNameChar c = true := fun c hc =>
      hpending c (List.mem_reverse.mp hc)
    have hspelling : IsSpelling (.name pending.reverse) pending.reverse :=
      ⟨[], rfl, List.forall_mem_nil _, hchars⟩
    exact .cons hspelling h

theorem isRow_lexemesFrom {pending text : List Char}
    (hpending : ∀ c ∈ pending, isNameChar c = true) (hnarrow : HasNarrowBlanks text) :
    IsRow (lexemesFrom pending text) (pending.reverse ++ text) := by
  induction text generalizing pending with
  | nil => exact isRow_closeName hpending (.nil (List.forall_mem_nil _))
  | cons c text ih =>
    obtain ⟨hc, hnarrow⟩ := List.forall_mem_cons.mp hnarrow
    have hrest : IsRow (lexemesFrom [] text) text := ih (List.forall_mem_nil _) hnarrow
    rw [lexemesFrom]
    split
    next hname =>
      have hrow := ih (List.forall_mem_cons.mpr ⟨hname, hpending⟩) hnarrow
      rwa [List.reverse_cons, List.append_assoc] at hrow
    next =>
      apply isRow_closeName hpending
      split
      next hblank => exact isRow_blank (by simp [isBlank, hblank]) hrest
      next hblank =>
        split
        next hwide =>
          have hsize := isNarrowBlank_of_utf8Size (by simp [isBlank, hwide])
            (hc (by simp [isBlank, hwide]))
          exact absurd hsize hblank
        next =>
          have hspelling : IsSpelling (.mark c) [c] := ⟨[], List.forall_mem_nil _, rfl⟩
          exact .cons hspelling hrest

/-- A text without wide blanks is spelled by its lexemes. -/
theorem isRow_lexemes {text : List Char} (hnarrow : HasNarrowBlanks text) :
    IsRow (lexemes text) text :=
  isRow_lexemesFrom (List.forall_mem_nil _) hnarrow

end Rows

section Remainders

variable {text front rest : List Char} {t type : ResolvedType} {enclosing : List Enclosing}
  {lexeme : Lexeme} {state next : State}

/-- What may stand behind a part of a type so that the two make up the whole. -/
def Completes : Current → List Char → ResolvedType → Prop
  | .start, text, t => Derives (.type t) text
  | .named ns name, text, t => ∃ arguments suffixes ts, text = arguments ++ suffixes ∧
      Derives (.arguments ts) arguments ∧ Suffixed (.named ns name ts) suffixes t
  | .complete type, text, t => Suffixed type text t
  | .closed type, text, t => text = [] ∧ type = t
  | .brackets element rank, text, t => ∃ closing suffixes, ∃ commas : List (List Char),
      text = commas.flatten ++ (closing ++ suffixes) ∧ (∀ comma ∈ commas, IsMark ',' comma) ∧
      IsMark ']' closing ∧ Suffixed (.array element (rank + UInt32.ofNat commas.length)) suffixes t

/-- What may stand behind a type to close the argument lists around it, innermost first. -/
def Closes : List Enclosing → ResolvedType → List Char → ResolvedType → Prop
  | [], type, text, t => AreBlanks text ∧ type = t
  | e :: outer, type, text, t => ∃ more suffixes rest ts generic,
      text = more ++ (suffixes ++ rest) ∧ Derives (.moreArguments ts) more ∧
      Suffixed (.named e.namespace e.name (e.arguments.reverse ++ type :: ts)) suffixes generic ∧
      Closes outer generic rest t

/-- The text is what is left behind a state to make up a type in all. -/
def Remains (state : State) (text : List Char) (t : ResolvedType) : Prop :=
  ∃ front rest type, text = front ++ rest ∧ Completes state.current front type ∧
    Closes state.enclosing type rest t

theorem remains_complete (h : Closes enclosing type text t) :
    Remains ⟨enclosing, .complete type⟩ text t :=
  ⟨[], text, type, rfl, .none type, h⟩

theorem remains_named {ns name : String}
    (h : Remains ⟨enclosing, .complete (.named ns name [])⟩ text t) :
    Remains ⟨enclosing, .named ns name⟩ text t := by
  obtain ⟨front, rest, type, rfl, hsuffixes, hrest⟩ := h
  exact ⟨front, rest, type, rfl, ⟨[], front, [], rfl, .noArguments, hsuffixes⟩, hrest⟩

theorem closes_of_afterType (hspelling : IsSpelling lexeme front)
    (hstep : afterType enclosing type lexeme = .ok next) (h : Remains next rest t) :
    Closes enclosing type (front ++ rest) t := by
  cases enclosing with
  | nil => cases hstep
  | cons e outer =>
    unfold afterType at hstep
    dsimp only at hstep
    split at hstep
    next =>
      cases hstep
      obtain ⟨text, rest, argument, rfl, hargument, more, suffixes, rest, ts, generic, rfl,
        hmore, hsuffixes, hrest⟩ := h
      rw [List.reverse_cons, List.append_assoc] at hsuffixes
      exact ⟨front ++ (text ++ more), suffixes, rest, argument :: ts, generic, by simp,
        .comma hspelling hargument hmore, hsuffixes, hrest⟩
    next =>
      cases hstep
      obtain ⟨suffixes, rest, generic, rfl, hsuffixes, hrest⟩ := h
      rw [List.reverse_cons] at hsuffixes
      exact ⟨front, suffixes, rest, [], generic, rfl, .close hspelling, hsuffixes, hrest⟩
    next => cases hstep

theorem remains_of_suffix (hspelling : IsSpelling lexeme front)
    (hstep : suffix enclosing type lexeme = .ok next) (h : Remains next rest t) :
    Remains ⟨enclosing, .complete type⟩ (front ++ rest) t := by
  unfold suffix at hstep
  split at hstep
  next =>
    cases hstep
    obtain ⟨_, rest, s, rfl, ⟨closing, suffixes, commas, rfl, hcommas, hclosing, hsuffixes⟩,
      hrest⟩ := h
    have hbrackets : IsBrackets (front ++ (commas.flatten ++ closing))
        (1 + UInt32.ofNat commas.length) :=
      ⟨front, closing, commas, rfl, hspelling, hcommas, hclosing, rank_eq_iff.mpr rfl⟩
    exact ⟨_, rest, s, by simp, .array hbrackets hsuffixes, hrest⟩
  next =>
    cases hstep
    obtain ⟨suffixes, rest, s, rfl, hsuffixes, hrest⟩ := h
    exact ⟨_, rest, s, by simp, .byRef hspelling hsuffixes, hrest⟩
  next => exact remains_complete (closes_of_afterType hspelling hstep h)

/-- What is left behind a step, with the lexeme of the step in front, was left before it. -/
theorem remains_of_step (hspelling : IsSpelling lexeme front)
    (hstep : step state lexeme = .ok next) (h : Remains next rest t) :
    Remains state (front ++ rest) t := by
  obtain ⟨enclosing, current⟩ := state
  unfold step at hstep
  split at hstep
  · cases hstep
  cases current with
  | start =>
    dsimp only at hstep
    split at hstep
    next =>
      cases hstep
      obtain ⟨_, rest, s, rfl, ⟨rfl, rfl⟩, hrest⟩ := h
      exact ⟨front, rest, .unknown, rfl, .unknown hspelling, hrest⟩
    next dotted _ =>
      split at hstep
      next hwell =>
        cases hstep
        obtain ⟨blanks, rfl, hblanks, hdotted⟩ := hspelling
        obtain ⟨_, rest, s, rfl, ⟨arguments, suffixes, ts, rfl, harguments, hsuffixes⟩,
          hrest⟩ := h
        have hname := isName_iff.mpr ⟨hdotted, hwell, rfl⟩
        exact ⟨_, rest, s, by simp, .named hblanks hname harguments hsuffixes, hrest⟩
      next => cases hstep
    next => cases hstep
  | named ns name =>
    dsimp only at hstep
    split at hstep
    next =>
      cases hstep
      obtain ⟨first, rest, argument, rfl, hfirst, more, suffixes, rest, ts, generic, rfl,
        hmore, hsuffixes, hrest⟩ := h
      exact ⟨front ++ (first ++ more) ++ suffixes, rest, generic, by simp,
        ⟨_, suffixes, _, rfl, .arguments hspelling hfirst hmore, hsuffixes⟩, hrest⟩
    next => exact remains_named (remains_of_suffix hspelling hstep h)
  | complete type => exact remains_of_suffix hspelling hstep h
  | closed type => exact ⟨[], _, type, rfl, ⟨rfl, rfl⟩, closes_of_afterType hspelling hstep h⟩
  | brackets element rank =>
    dsimp only at hstep
    split at hstep
    next =>
      cases hstep
      obtain ⟨_, rest, s, rfl, ⟨closing, suffixes, commas, rfl, hcommas, hclosing, hsuffixes⟩,
        hrest⟩ := h
      have hcount : rank + UInt32.ofNat (front :: commas).length =
          rank + 1 + UInt32.ofNat commas.length := by
        rw [List.length_cons, UInt32.ofNat_add, UInt32.add_comm (UInt32.ofNat _),
          ← UInt32.add_assoc]
        rfl
      rw [← hcount] at hsuffixes
      exact ⟨_, rest, s, by simp, ⟨closing, suffixes, front :: commas, rfl,
        List.forall_mem_cons.mpr ⟨hspelling, hcommas⟩, hclosing, hsuffixes⟩, hrest⟩
    next =>
      cases hstep
      obtain ⟨suffixes, rest, s, rfl, hsuffixes, hrest⟩ := h
      have hclosed : Suffixed (.array element (rank + UInt32.ofNat 0)) suffixes s :=
        (UInt32.add_zero rank).symm ▸ hsuffixes
      exact ⟨front ++ suffixes, rest, s, by simp, ⟨front, suffixes, [], rfl,
        List.forall_mem_nil _, hspelling, hclosed⟩, hrest⟩
    next => cases hstep

theorem closes_of_whole (hblanks : AreBlanks text) (h : whole enclosing type = .ok t) :
    Closes enclosing type text t := by
  rw [whole] at h
  split at h
  next hempty =>
    cases h
    rw [List.isEmpty_iff.mp hempty]
    exact ⟨hblanks, rfl⟩
  next => cases h

theorem remains_of_finish (hblanks : AreBlanks text) (h : finish state = .ok t) :
    Remains state text t := by
  obtain ⟨enclosing, current⟩ := state
  cases current with
  | start => cases h
  | named ns name => exact remains_named (remains_complete (closes_of_whole hblanks h))
  | complete type => exact remains_complete (closes_of_whole hblanks h)
  | closed type => exact ⟨[], text, type, rfl, ⟨rfl, rfl⟩, closes_of_whole hblanks h⟩
  | brackets element rank => cases h

/-- A run that gives a type goes over what is left of that type. -/
theorem remains_of_run {ls : List Lexeme} (hrow : IsRow ls text) (h : run state ls = .ok t) :
    Remains state text t := by
  induction hrow generalizing state with
  | nil hblanks => exact remains_of_finish hblanks h
  | cons hspelling _ ih =>
    rw [run] at h
    split at h
    next hstep => exact remains_of_step hspelling hstep (ih h)
    next => cases h

end Remainders

section Blanks

variable {front blanks rest : List Char}

theorem lexemes_cons {c : Char} (h : isNameChar c = false) (rest : List Char) :
    lexemes (c :: rest) = lexemes [c] ++ lexemes rest := by
  simp only [lexemes, lexemesFrom, h, Bool.false_eq_true, if_false]
  split
  · rfl
  · split <;> rfl

/-- A text can be cut where no name reaches over the cut. -/
theorem lexemes_append (h : Ends rest ∨ Ends front.reverse) :
    lexemes (front ++ rest) = lexemes front ++ lexemes rest := by
  rcases h with hrest | hfront
  · cases rest with
    | nil => simp [lexemes, lexemesFrom, closeName]
    | cons c rest => exact lexemesFrom_append_cons (hrest c rfl) [] front rest
  · rcases List.eq_nil_or_concat' front with rfl | ⟨front, c, rfl⟩
    · rfl
    · have hc : isNameChar c = false := hfront c (by simp)
      have hcut (rest : List Char) :
          lexemes (front ++ c :: rest) = lexemes front ++ lexemes (c :: rest) :=
        lexemesFrom_append_cons hc [] front rest
      rw [List.append_assoc, List.singleton_append, hcut, lexemes_cons hc, hcut,
        List.append_assoc]

theorem lexemes_append_blanks (hblanks : AreBlanks blanks) (hnarrow : HasNarrowBlanks blanks)
    (h : Ends rest ∨ Ends front.reverse) :
    lexemes (front ++ (blanks ++ rest)) = lexemes (front ++ rest) := by
  cases blanks with
  | nil => rfl
  | cons c blanks =>
    have hends : Ends (c :: blanks ++ rest) :=
      ends_cons (isNameChar_of_isBlank (hblanks c List.mem_cons_self)) _
    rw [lexemes_append (Or.inl hends), lexemes_blanks hblanks hnarrow, lexemes_append h]

end Blanks

end TypeGrammar

/-- The same fault of another text. -/
def TypeTextError.about (text : String) : TypeTextError → TypeTextError
  | .invalidName _ => .invalidName text
  | .unbalancedArguments _ => .unbalancedArguments text
  | .wideBlank => .wideBlank

namespace ResolvedType

open TypeGrammar

theorem ofText_congr {text text' : String} (h : lexemes text.toList = lexemes text'.toList) :
    ofText text' = (ofText text).mapError (.about text') := by
  rw [ofText, ofText, h]
  cases run begin (lexemes text'.toList) with
  | ok t => rfl
  | error fault => cases fault <;> rfl

theorem ofText_eq_ok_iff_isTypeText {text : String} {t : ResolvedType}
    (h : HasNarrowBlanks text.toList) : ofText text = .ok t ↔ IsTypeText text.toList t := by
  rw [ofText_eq_ok_iff]
  constructor
  · intro hrun
    obtain ⟨front, blanks, type, htext, htype, hblanks, rfl⟩ :=
      remains_of_run (isRow_lexemes h) hrun
    exact ⟨front, blanks, htext, htype, hblanks⟩
  · intro htext
    obtain ⟨front, blanks, htext, htype, hblanks⟩ := htext
    rw [htext] at h ⊢
    obtain ⟨hfront, hnarrow⟩ := hasNarrowBlanks_append.mp h
    have hends : Ends blanks := List.append_nil blanks ▸ ends_blanks hblanks ends_nil
    have hlast := lexemes_blanks hblanks hnarrow []
    rw [List.append_nil] at hlast
    rw [begin, htype.read hfront [] blanks hends, hlast]
    exact run_after_nil t

/-- Where every blank takes a single byte, a text is read as a type just when the grammar derives
that type, and blanks that no name has on both sides make no difference. -/
theorem ofText_derives (text : String) (h : HasNarrowBlanks text.toList) :
    (∀ t, ofText text = .ok t ↔ IsTypeText text.toList t) ∧
      ∀ front blanks rest, text.toList = front ++ (blanks ++ rest) → AreBlanks blanks →
        Ends rest ∨ Ends front.reverse →
        ofText (String.ofList (front ++ rest)) =
          (ofText text).mapError (.about (String.ofList (front ++ rest))) := by
  refine ⟨fun t => ofText_eq_ok_iff_isTypeText h, ?_⟩
  intro front blanks rest htext hblanks hapart
  rw [htext] at h
  have hnarrow := (hasNarrowBlanks_append.mp (hasNarrowBlanks_append.mp h).2).1
  apply ofText_congr
  rw [htext, String.toList_ofList]
  exact lexemes_append_blanks hblanks hnarrow hapart

/-- Without the blanks in front of its arguments the text is read as the same type. -/
theorem ofText_derives_spacedPairs :
    HasNarrowBlanks spacedPairs.toList ∧ IsTypeText spacedPairs.toList pairs ∧
      ofText "\tA..Pair\x602< ? ,N.B [ , ,] &>[ ] " = .ok pairs := by
  have hnarrow : HasNarrowBlanks spacedPairs.toList := by decide +kernel
  have hread : ofText spacedPairs = .ok pairs := by decide +kernel
  obtain ⟨hderives, hblanks⟩ := ofText_derives spacedPairs hnarrow
  have hclosed := hblanks "\tA..Pair\x602".toList " ".toList "< ? ,N.B [ , ,] &>[ ] ".toList
    (by decide +kernel) (by decide +kernel)
    (Or.inl (ends_cons (by decide) _))
  rw [hread] at hclosed
  exact ⟨hnarrow, (hderives pairs).mp hread, hclosed⟩

end ResolvedType

end OperatorRecovery
