import OperatorRecovery.Proofs.TypeTexts

/-!
What the reader of type texts makes. Whatever blanks and doubled dots a text has, the types that
come out of it are built from names and ranks that have a spelling, and no unresolved type in them
has a suffix, since the reader refuses one there. This is an invariant of the reader: one step
keeps it, so every run does. The text of such a type reads back as the type, so printing what was
read gives a text that no longer changes.

The reader counts the dimensions of an array in 32 bits. The count comes around to zero where the
brackets hold that many commas, and such texts are left out.
-/

namespace OperatorRecovery.TypeReader

open ResolvedType

/-- A type whose text reads back: it has a spelling, and no unresolved type in it a suffix. -/
structure IsReadable (t : ResolvedType) : Prop where
  spelled : t.isSpelled = true
  standsAlone : t.unknownsStandAlone = true

section Readable

variable {t : ResolvedType}

theorem isReadable_unknown : IsReadable .unknown := ⟨rfl, rfl⟩

theorem areSpelled_iff {ts : List ResolvedType} :
    areSpelled ts = true ↔ ∀ t ∈ ts, t.isSpelled = true := by
  induction ts with
  | nil => simp [areSpelled]
  | cons t ts ih => simp [areSpelled, ih]

theorem allStandAlone_iff {ts : List ResolvedType} :
    allStandAlone ts = true ↔ ∀ t ∈ ts, t.unknownsStandAlone = true := by
  induction ts with
  | nil => simp [allStandAlone]
  | cons t ts ih => simp [allStandAlone, ih]

theorem isReadable_named {ns name : String} {arguments : List ResolvedType}
    (hns : isNamespace ns = true) (hname : isSimpleName name = true)
    (harguments : ∀ t ∈ arguments, IsReadable t) : IsReadable (.named ns name arguments) where
  spelled := by
    have hspelled := areSpelled_iff.mpr fun t ht => (harguments t ht).spelled
    simp [isSpelled, hns, hname, hspelled]
  standsAlone := allStandAlone_iff.mpr fun t ht => (harguments t ht).standsAlone

theorem isReadable_array {rank : UInt32} (h : IsReadable t) (hknown : t.isUnknown = false)
    (hrank : 1 ≤ rank) : IsReadable (.array t rank) where
  spelled := by simp [isSpelled, hrank, h.spelled]
  standsAlone := by simp [unknownsStandAlone, hknown, h.standsAlone]

theorem isReadable_byRef (h : IsReadable t) (hknown : t.isUnknown = false) :
    IsReadable (.byRef t) where
  spelled := h.spelled
  standsAlone := by simp [unknownsStandAlone, hknown, h.standsAlone]

/-- The text of a readable type reads back as the type. -/
theorem IsReadable.ofText_text (h : IsReadable t) : ofText t.text = .ok t := by
  rw [ofText_eq_ok_iff, begin, ← List.append_nil t.text.toList,
    run_text t [] h.spelled h.standsAlone ends_nil]
  exact run_after_nil t

end Readable

section Names

/-- Every name among the lexemes is of name characters. -/
def NamesSpelled (ls : List Lexeme) : Prop :=
  ∀ name, .name name ∈ ls → ∀ c ∈ name, isNameChar c = true

theorem namesSpelled_nil : NamesSpelled [] := fun _ hname => absurd hname List.not_mem_nil

theorem namesSpelled_cons {lexeme : Lexeme} {ls : List Lexeme}
    (h : ∀ name, lexeme ≠ .name name) (hls : NamesSpelled ls) : NamesSpelled (lexeme :: ls) := by
  intro name hname
  rcases List.mem_cons.mp hname with hlexeme | hname
  · exact absurd hlexeme.symm (h name)
  · exact hls name hname

theorem namesSpelled_closeName {pending : List Char} {ls : List Lexeme}
    (hpending : ∀ c ∈ pending, isNameChar c = true) (hls : NamesSpelled ls) :
    NamesSpelled (closeName pending ls) := by
  intro name hname
  rw [closeName] at hname
  split at hname
  · exact hls name hname
  · rcases List.mem_cons.mp hname with hlexeme | hname
    · intro c hc
      rw [Lexeme.name.inj hlexeme] at hc
      exact hpending c (List.mem_reverse.mp hc)
    · exact hls name hname

theorem namesSpelled_lexemesFrom {pending : List Char} (text : List Char)
    (hpending : ∀ c ∈ pending, isNameChar c = true) : NamesSpelled (lexemesFrom pending text) := by
  induction text generalizing pending with
  | nil => exact namesSpelled_closeName hpending namesSpelled_nil
  | cons c text ih =>
    have hrest : NamesSpelled (lexemesFrom [] text) := ih (List.forall_mem_nil _)
    rw [lexemesFrom]
    split
    next hc => exact ih (List.forall_mem_cons.mpr ⟨hc, hpending⟩)
    next =>
      apply namesSpelled_closeName hpending
      split
      next => exact hrest
      next =>
        split
        next => exact namesSpelled_cons (by simp) hrest
        next => exact namesSpelled_cons (by simp) hrest

theorem namesSpelled_lexemes (text : List Char) : NamesSpelled (lexemes text) :=
  namesSpelled_lexemesFrom text (List.forall_mem_nil _)

/-- A name that has a dot has a last one. -/
theorem exists_last_dot {dotted : List Char} (h : '.' ∈ dotted) :
    ∃ front last, dotted = front ++ '.' :: last ∧ ∀ c ∈ last, c ≠ '.' := by
  obtain ⟨last, front, hreverse, hlast⟩ :=
    List.eq_append_cons_of_mem (List.mem_reverse.mpr h)
  refine ⟨front.reverse, last.reverse, ?_, ?_⟩
  · rw [← List.reverse_reverse dotted, hreverse]
    simp
  · rintro c hc rfl
    exact hlast (List.mem_reverse.mp hc)

/-- A name that neither begins nor ends with a dot splits into a namespace and a simple name. -/
theorem splitName_spelled {dotted : List Char} (hwell : isWellFormedName dotted = true)
    (hchars : ∀ c ∈ dotted, isNameChar c = true) :
    isNamespace (splitName dotted).1 = true ∧ isSimpleName (splitName dotted).2 = true := by
  simp only [isWellFormedName, Bool.and_eq_true, Bool.not_eq_true', bne_iff_ne] at hwell
  obtain ⟨⟨hnonempty, hhead⟩, hlast⟩ := hwell
  by_cases hdot : '.' ∈ dotted
  · obtain ⟨front, last, rfl, hdotless⟩ := exists_last_dot hdot
    have hne : last ≠ [] := by
      rintro rfl
      simp at hlast
    have hfront : front.head? ≠ some '.' := by
      cases front with
      | nil => simp
      | cons c front => simpa using hhead
    rw [splitName_append front hdotless, isNamespace_iff, isSimpleName_iff,
      String.toList_ofList, String.toList_ofList]
    refine ⟨⟨?_, hfront⟩, hne, ?_⟩
    · intro c hc
      exact hchars c (List.mem_append_left _ hc)
    · intro c hc
      exact ⟨hchars c (List.mem_append_right _ (List.mem_cons_of_mem _ hc)), hdotless c hc⟩
  · have hdotless : ∀ c ∈ dotted, c ≠ '.' := by
      rintro c hc rfl
      exact hdot hc
    rw [splitName_of_dotless hdotless, isSimpleName_iff, String.toList_ofList]
    refine ⟨rfl, List.isEmpty_eq_false_iff.mp hnonempty, ?_⟩
    intro c hc
    exact ⟨hchars c hc, hdotless c hc⟩

end Names

section Ranks

/-- Brackets that hold this many commas have a rank that fits. -/
def RanksFit (ls : List Lexeme) : Prop :=
  ∀ commas, List.replicate commas (.mark ',') <:+: ls → commas + 1 < UInt32.size

theorem RanksFit.tail {lexeme : Lexeme} {ls : List Lexeme} (h : RanksFit (lexeme :: ls)) :
    RanksFit ls :=
  fun commas hcommas => h commas (hcommas.trans (List.suffix_cons lexeme ls).isInfix)

theorem ranksFit_of_length_lt {ls : List Lexeme} (h : ls.length + 1 < UInt32.size) :
    RanksFit ls := by
  intro commas hcommas
  have hlength := hcommas.length_le
  rw [List.length_replicate] at hlength
  omega

end Ranks

section Runs

/-- What holds of a current type when these lexemes come next. -/
def Current.Holds (rest : List Lexeme) : Current → Prop
  | .start => True
  | .named ns name => isNamespace ns = true ∧ isSimpleName name = true
  | .complete type => IsReadable type ∧ type.isUnknown = false
  | .closed type => IsReadable type
  | .brackets element rank => IsReadable element ∧ element.isUnknown = false ∧ 1 ≤ rank ∧
      ∀ commas, List.replicate commas (.mark ',') <+: rest → rank.toNat + commas < UInt32.size

structure Enclosing.Holds (e : Enclosing) : Prop where
  «namespace» : isNamespace e.namespace = true
  name : isSimpleName e.name = true
  arguments : ∀ t ∈ e.arguments, IsReadable t

/-- Everything that has been read is readable. -/
structure State.Holds (rest : List Lexeme) (state : State) : Prop where
  enclosing : ∀ e ∈ state.enclosing, e.Holds
  current : state.current.Holds rest

theorem holds_begin (rest : List Lexeme) : begin.Holds rest := ⟨List.forall_mem_nil _, trivial⟩

variable {enclosing : List Enclosing} {type : ResolvedType} {lexeme : Lexeme} {next : State}
  {rest : List Lexeme}

theorem holds_afterType (henclosing : ∀ e ∈ enclosing, e.Holds) (htype : IsReadable type)
    (h : afterType enclosing type lexeme = .ok next) : next.Holds rest := by
  cases enclosing with
  | nil => cases h
  | cons e outer =>
    obtain ⟨he, houter⟩ := List.forall_mem_cons.mp henclosing
    have harguments : ∀ t ∈ type :: e.arguments, IsReadable t :=
      List.forall_mem_cons.mpr ⟨htype, he.arguments⟩
    unfold afterType at h
    dsimp only at h
    split at h
    next =>
      cases h
      exact ⟨List.forall_mem_cons.mpr ⟨⟨he.namespace, he.name, harguments⟩, houter⟩, trivial⟩
    next =>
      cases h
      refine ⟨houter, isReadable_named he.namespace he.name ?_, rfl⟩
      intro t ht
      exact harguments t (List.mem_reverse.mp ht)
    next => cases h

theorem holds_suffix (hranks : RanksFit (lexeme :: rest))
    (henclosing : ∀ e ∈ enclosing, e.Holds) (htype : IsReadable type)
    (hknown : type.isUnknown = false) (h : suffix enclosing type lexeme = .ok next) :
    next.Holds rest := by
  unfold suffix at h
  split at h
  next =>
    cases h
    refine ⟨henclosing, htype, hknown, by decide, ?_⟩
    intro commas hcommas
    have hfit := hranks.tail commas hcommas.isInfix
    have hone : (1 : UInt32).toNat = 1 := rfl
    omega
  next =>
    cases h
    exact ⟨henclosing, isReadable_byRef htype hknown, rfl⟩
  next => exact holds_afterType henclosing htype h

/-- One more comma is one more dimension, and the count does not come around. -/
theorem holds_comma {element : ResolvedType} {rank : UInt32}
    (h : (Current.brackets element rank).Holds (.mark ',' :: rest)) :
    (Current.brackets element (rank + 1)).Holds rest := by
  obtain ⟨helement, hknown, hrank, hcommas⟩ := h
  have hsucc : ∀ commas, List.replicate commas (.mark ',') <+: rest →
      rank.toNat + (commas + 1) < UInt32.size := by
    intro commas hprefix
    exact hcommas (commas + 1) (List.replicate_succ ▸ (List.prefix_cons_inj _).mpr hprefix)
  have hcount : (rank + 1).toNat = rank.toNat + 1 := by
    have hnext := hsucc 0 List.nil_prefix
    rw [UInt32.toNat_add, show (1 : UInt32).toNat = 1 from rfl]
    exact Nat.mod_eq_of_lt hnext
  refine ⟨helement, hknown, ?_, ?_⟩
  · rw [UInt32.le_iff_toNat_le, hcount]
    exact Nat.le_add_left 1 _
  · intro commas hprefix
    have hnext := hsucc commas hprefix
    omega

/-- One step of the reader keeps everything readable. -/
theorem holds_step {state : State} (hnames : NamesSpelled (lexeme :: rest))
    (hranks : RanksFit (lexeme :: rest)) (hstate : state.Holds (lexeme :: rest))
    (h : step state lexeme = .ok next) : next.Holds rest := by
  obtain ⟨enclosing, current⟩ := state
  obtain ⟨henclosing, hcurrent⟩ := hstate
  unfold step at h
  split at h
  · cases h
  cases current with
  | start =>
    dsimp only at h
    split at h
    next =>
      cases h
      exact ⟨henclosing, isReadable_unknown⟩
    next text _ =>
      split at h
      next hwell =>
        cases h
        exact ⟨henclosing, splitName_spelled hwell (hnames text List.mem_cons_self)⟩
      next => cases h
    next => cases h
  | named ns name =>
    dsimp only at h
    split at h
    next =>
      cases h
      exact ⟨List.forall_mem_cons.mpr ⟨⟨hcurrent.1, hcurrent.2, List.forall_mem_nil _⟩,
        henclosing⟩, trivial⟩
    next =>
      exact holds_suffix hranks henclosing
        (isReadable_named hcurrent.1 hcurrent.2 (List.forall_mem_nil _)) rfl h
  | complete type => exact holds_suffix hranks henclosing hcurrent.1 hcurrent.2 h
  | closed type => exact holds_afterType henclosing hcurrent h
  | brackets element rank =>
    dsimp only at h
    split at h
    next =>
      cases h
      exact ⟨henclosing, holds_comma hcurrent⟩
    next =>
      cases h
      obtain ⟨helement, hknown, hrank, -⟩ := hcurrent
      exact ⟨henclosing, isReadable_array helement hknown hrank, rfl⟩
    next => cases h

theorem isReadable_whole {t : ResolvedType} (htype : IsReadable type)
    (h : whole enclosing type = .ok t) : IsReadable t := by
  rw [whole] at h
  split at h
  · cases h
    exact htype
  · cases h

theorem isReadable_finish {state : State} {t : ResolvedType} (hstate : state.Holds [])
    (h : finish state = .ok t) : IsReadable t := by
  obtain ⟨enclosing, current⟩ := state
  have hcurrent := hstate.current
  cases current with
  | start => cases h
  | named ns name =>
    exact isReadable_whole (isReadable_named hcurrent.1 hcurrent.2 (List.forall_mem_nil _)) h
  | complete type => exact isReadable_whole hcurrent.1 h
  | closed type => exact isReadable_whole hcurrent h
  | brackets element rank => cases h

/-- Whatever a run gives is readable. -/
theorem isReadable_run {state : State} {ls : List Lexeme} {t : ResolvedType}
    (hnames : NamesSpelled ls) (hranks : RanksFit ls) (hstate : state.Holds ls)
    (h : run state ls = .ok t) : IsReadable t := by
  induction ls generalizing state with
  | nil => exact isReadable_finish hstate h
  | cons lexeme rest ih =>
    rw [run] at h
    split at h
    next hstep =>
      exact ih (fun name hname => hnames name (List.mem_cons_of_mem _ hname)) hranks.tail
        (holds_step hnames hranks hstate hstep) h
    next => cases h

end Runs

end OperatorRecovery.TypeReader

namespace OperatorRecovery.ResolvedType

open TypeReader

theorem isReadable_of_ofText {text : String} {t : ResolvedType} (h : ofText text = .ok t)
    (hranks : RanksFit (lexemes text.toList)) : IsReadable t :=
  isReadable_run (namesSpelled_lexemes _) hranks (holds_begin _) (ofText_eq_ok_iff.mp h)

/-- The text of a type that was read reads back as that type, so reading and printing a text
gives a text that reading and printing leave as it is. -/
theorem ofText_text_of_ofText {text : String} {t : ResolvedType} (h : ofText text = .ok t)
    (hranks : RanksFit (lexemes text.toList)) :
    ofText t.text = .ok t ∧ (ofText t.text).map ResolvedType.text = .ok t.text := by
  have hread : ofText t.text = .ok t := (isReadable_of_ofText h hranks).ofText_text
  exact ⟨hread, by rw [hread]; rfl⟩

/-- A text with blanks between its marks and with a namespace that ends with a dot. -/
def spacedPairs : String := "\tA..Pair\x602 < ? ,N.B [ , ,] &>[ ] "

/-- ``A..Pair`2<?, N.B[,,]&>[]``. -/
def pairs : ResolvedType :=
  .array (.named "A." "Pair\x602" [.unknown, .byRef (.array (.named "N" "B" []) 3)]) 1

theorem ofText_text_pairs :
    ofText spacedPairs = .ok pairs ∧ RanksFit (lexemes spacedPairs.toList) ∧
      pairs.text ≠ spacedPairs ∧ ofText pairs.text = .ok pairs ∧
      (ofText pairs.text).map ResolvedType.text = .ok pairs.text :=
  have hread : ofText spacedPairs = .ok pairs := by decide +kernel
  have hranks : RanksFit (lexemes spacedPairs.toList) :=
    ranksFit_of_length_lt (by decide +kernel)
  ⟨hread, hranks, by decide +kernel, ofText_text_of_ofText hread hranks⟩

end OperatorRecovery.ResolvedType
