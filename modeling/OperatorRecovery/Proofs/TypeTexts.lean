import Mathlib.Data.List.TakeWhile
import OperatorRecovery.TypeReader

/-!
Reading the text of a type back. Names are followed by marks in a type's text, so the reader
finds them as they are, and each name splits at its last dot into what it was put together from.
The reader goes through the text of a type from a state in which a type has to begin to one in
which that type is complete. Only the mark of an unresolved type takes no suffix: behind it the
reader refuses the brackets or the reference mark that the text may have there.
-/

namespace OperatorRecovery

open Characters

namespace ResolvedType

def isUnknown : ResolvedType → Bool
  | .unknown => true
  | _ => false

/-- Not empty, and of name characters other than the dot. -/
def isSimpleName (name : String) : Bool :=
  !name.toList.isEmpty && name.toList.all fun c => TypeReader.isNameChar c && c != '.'

/-- Of name characters, with no dot in front. -/
def isNamespace («namespace» : String) : Bool :=
  «namespace».toList.all TypeReader.isNameChar && «namespace».toList.head? != some '.'

mutual

/-- Whether a type is built from names and ranks that have a spelling. A type parameter is
spelled like a type of its name. -/
def isSpelled : ResolvedType → Bool
  | .named ns name arguments => isNamespace ns && isSimpleName name && areSpelled arguments
  | .array element rank => decide (1 ≤ rank) && element.isSpelled
  | .byRef referent => referent.isSpelled
  | .parameter _ => false
  | .unknown => true

def areSpelled : List ResolvedType → Bool
  | [] => true
  | t :: rest => t.isSpelled && areSpelled rest

end

mutual

/-- Whether no unresolved type anywhere inside is the element of an array or passed by
reference. -/
def unknownsStandAlone : ResolvedType → Bool
  | .named _ _ arguments => allStandAlone arguments
  | .array element _ => !element.isUnknown && element.unknownsStandAlone
  | .byRef referent => !referent.isUnknown && referent.unknownsStandAlone
  | .parameter _ => true
  | .unknown => true

def allStandAlone : List ResolvedType → Bool
  | [] => true
  | t :: rest => t.unknownsStandAlone && allStandAlone rest

end

end ResolvedType

namespace TypeReader

open ResolvedType

section Lexemes

/-- The text does not go on with a name. -/
def Ends (rest : List Char) : Prop := ∀ c ∈ rest.head?, isNameChar c = false

theorem ends_nil : Ends [] := nofun

theorem ends_cons {c : Char} (h : isNameChar c = false) (rest : List Char) : Ends (c :: rest) := by
  intro d hd
  cases hd
  exact h

theorem lexemesFrom_append (pending rest : List Char) {name : List Char}
    (h : ∀ c ∈ name, isNameChar c = true) :
    lexemesFrom pending (name ++ rest) = lexemesFrom (name.reverse ++ pending) rest := by
  induction name generalizing pending with
  | nil => rfl
  | cons c name ih =>
    obtain ⟨hc, hname⟩ := List.forall_mem_cons.mp h
    rw [List.cons_append, lexemesFrom, if_pos hc, ih _ hname, List.reverse_cons,
      List.append_assoc, List.singleton_append]

theorem lexemesFrom_of_ends (pending : List Char) {rest : List Char} (h : Ends rest) :
    lexemesFrom pending rest = closeName pending (lexemes rest) := by
  cases rest with
  | nil => rfl
  | cons c rest =>
    have hc : isNameChar c = false := h c rfl
    simp [lexemes, lexemesFrom, hc, closeName]

/-- A name is found as it is where it ends. -/
theorem lexemes_name {name rest : List Char} (hne : name ≠ [])
    (hname : ∀ c ∈ name, isNameChar c = true) (hrest : Ends rest) :
    lexemes (name ++ rest) = .name name :: lexemes rest := by
  rw [lexemes, lexemesFrom_append [] rest hname, List.append_nil,
    lexemesFrom_of_ends _ hrest, closeName, List.reverse_reverse]
  simp [hne]

/-- The marks in the text of a type. -/
def marks : List Char := ['?', '<', '>', ',', '[', ']', '&']

theorem lexemes_mark_of_other {c : Char} (hname : isNameChar c = false) (hblank : isBlank c = false)
    (rest : List Char) : lexemes (c :: rest) = .mark c :: lexemes rest := by
  obtain ⟨hnarrow, hwide⟩ := Bool.or_eq_false_iff.mp hblank
  rw [lexemes, lexemesFrom, hname, hnarrow, hwide]
  rfl

theorem classes_of_mem_marks {c : Char} (h : c ∈ marks) :
    isNameChar c = false ∧ isBlank c = false := by
  simp only [marks, List.mem_cons, List.not_mem_nil, or_false] at h
  rcases h with rfl | rfl | rfl | rfl | rfl | rfl | rfl <;> decide

theorem lexemes_mark {c : Char} (h : c ∈ marks) (rest : List Char) :
    lexemes (c :: rest) = .mark c :: lexemes rest :=
  lexemes_mark_of_other (classes_of_mem_marks h).1 (classes_of_mem_marks h).2 rest

theorem lexemes_blank (rest : List Char) : lexemes (' ' :: rest) = lexemes rest := rfl

end Lexemes

section Names

variable {ns name : String}

theorem isSimpleName_iff :
    isSimpleName name = true ↔
      name.toList ≠ [] ∧ ∀ c ∈ name.toList, isNameChar c = true ∧ c ≠ '.' := by
  simp [isSimpleName]

theorem isNamespace_iff :
    isNamespace ns = true ↔
      (∀ c ∈ ns.toList, isNameChar c = true) ∧ ns.toList.head? ≠ some '.' := by
  simp [isNamespace]

/-- A namespace that is not empty stands in front, with a dot behind it. -/
theorem toList_qualify (ns name : String) :
    (qualify ns name).toList =
      (if ns.toList = [] then [] else ns.toList ++ ['.']) ++ name.toList := by
  by_cases hns : ns = ""
  · simp [qualify, hns]
  · have hlist : ns.toList ≠ [] := by simpa using hns
    simp [qualify, hns]

theorem isNameChar_of_mem_qualify (hns : isNamespace ns = true) (hname : isSimpleName name = true) :
    ∀ c ∈ (qualify ns name).toList, isNameChar c = true := by
  have hdot : isNameChar '.' = true := by decide
  intro c hc
  rw [toList_qualify, List.mem_append] at hc
  rcases hc with hc | hc
  · split at hc
    · cases hc
    · rcases List.mem_append.mp hc with hc | hc
      · exact (isNamespace_iff.mp hns).1 c hc
      · rwa [List.mem_singleton.mp hc]
  · exact ((isSimpleName_iff.mp hname).2 c hc).1

theorem isWellFormedName_qualify (hns : isNamespace ns = true) (hname : isSimpleName name = true) :
    isWellFormedName (qualify ns name).toList = true := by
  obtain ⟨hne, hchars⟩ := isSimpleName_iff.mp hname
  have hlast : (qualify ns name).toList.getLast? ≠ some '.' := by
    rw [toList_qualify, List.getLast?_append, List.getLast?_eq_some_getLast hne, Option.some_or]
    intro h
    exact (hchars _ (List.getLast_mem hne)).2 (Option.some.inj h)
  have hhead : (qualify ns name).toList.head? ≠ some '.' := by
    rw [toList_qualify]
    split
    · intro h
      exact (hchars '.' (List.mem_of_head? h)).2 rfl
    · rename_i hlist
      have hhead := (isNamespace_iff.mp hns).2
      rw [List.head?_eq_some_head hlist] at hhead
      rw [List.append_assoc, List.head?_append, List.head?_eq_some_head hlist, Option.some_or]
      exact hhead
  have hnonempty : (qualify ns name).toList ≠ [] := by
    rw [toList_qualify]
    exact List.append_ne_nil_of_right_ne_nil _ hne
  simp only [isWellFormedName, Bool.and_eq_true, Bool.not_eq_true', bne_iff_ne]
  exact ⟨⟨List.isEmpty_eq_false_iff.mpr hnonempty, hhead⟩, hlast⟩

/-- From the back a name without dots is passed as a whole. -/
theorem dotless_reverse {name : List Char} (h : ∀ c ∈ name, c ≠ '.') :
    ∀ c ∈ name.reverse, decide (c ≠ '.') = true := by
  intro c hc
  exact decide_eq_true (h c (List.mem_reverse.mp hc))

theorem splitName_of_dotless {name : List Char} (h : ∀ c ∈ name, c ≠ '.') :
    splitName name = ("", String.ofList name) := by
  rw [splitName, lastSegment, List.dropWhile_eq_nil_iff.mpr (dotless_reverse h),
    List.takeWhile_eq_self_iff.mpr (dotless_reverse h), List.reverse_reverse]
  rfl

/-- A name splits at its last dot. -/
theorem splitName_append (front : List Char) {name : List Char} (h : ∀ c ∈ name, c ≠ '.') :
    splitName (front ++ '.' :: name) = (String.ofList front, String.ofList name) := by
  have hreverse : (front ++ '.' :: name).reverse = name.reverse ++ '.' :: front.reverse := by simp
  rw [splitName, lastSegment, hreverse, List.dropWhile_append_of_pos (dotless_reverse h),
    List.takeWhile_append_of_pos (dotless_reverse h)]
  simp

theorem splitName_qualify (hname : isSimpleName name = true) :
    splitName (qualify ns name).toList = (ns, name) := by
  have hdotless : ∀ c ∈ name.toList, c ≠ '.' := fun c hc =>
    ((isSimpleName_iff.mp hname).2 c hc).2
  rw [toList_qualify]
  split
  · rename_i hlist
    have hns : ns = "" := by simpa using hlist
    rw [List.nil_append, splitName_of_dotless hdotless, String.ofList_toList, hns]
  · rw [List.append_assoc, List.singleton_append, splitName_append _ hdotless,
      String.ofList_toList, String.ofList_toList]

end Names

section Runs

theorem run_cons_of_ok {state next : State} {lexeme : Lexeme} (rest : List Lexeme)
    (h : step state lexeme = .ok next) : run state (lexeme :: rest) = run next rest := by
  rw [run, h]

/-- A mark that the reader takes is one step. -/
theorem run_mark {state next : State} {c : Char} (hc : c ∈ marks) (rest : List Char)
    (h : step state (.mark c) = .ok next) :
    run state (lexemes (c :: rest)) = run next (lexemes rest) := by
  rw [lexemes_mark hc, run_cons_of_ok _ h]

theorem run_mark_of_error {state : State} {c : Char} {fault : Fault} (hc : c ∈ marks)
    (rest : List Char) (h : step state (.mark c) = .error fault) :
    run state (lexemes (c :: rest)) = .error fault := by
  rw [lexemes_mark hc, run, h]

/-- What has been read of a type once its text is used up. Only a name without arguments may
still take some, and only an unresolved type takes no suffix. -/
def after : ResolvedType → Current
  | .named ns name [] => .named ns name
  | .unknown => .closed .unknown
  | t => .complete t

/-- A type that is used up is the result where nothing encloses it. -/
theorem run_after_nil (t : ResolvedType) : run ⟨[], after t⟩ [] = .ok t := by
  cases t with
  | named ns name arguments => cases arguments <;> rfl
  | _ => rfl

theorem step_after_comma (t : ResolvedType) (e : Enclosing) (outer : List Enclosing) :
    step ⟨e :: outer, after t⟩ (.mark ',') =
      .ok ⟨{ e with arguments := t :: e.arguments } :: outer, .start⟩ := by
  cases t with
  | named ns name arguments => cases arguments <;> rfl
  | _ => rfl

theorem step_after_close (t : ResolvedType) (e : Enclosing) (outer : List Enclosing) :
    step ⟨e :: outer, after t⟩ (.mark '>') =
      .ok ⟨outer, .complete (.named e.namespace e.name (t :: e.arguments).reverse)⟩ := by
  cases t with
  | named ns name arguments => cases arguments <;> rfl
  | _ => rfl

theorem step_after_bracket {t : ResolvedType} (h : t.isUnknown = false)
    (enclosing : List Enclosing) :
    step ⟨enclosing, after t⟩ (.mark '[') = .ok ⟨enclosing, .brackets t 1⟩ := by
  cases t with
  | named ns name arguments => cases arguments <;> rfl
  | unknown => cases h
  | _ => rfl

theorem step_after_reference {t : ResolvedType} (h : t.isUnknown = false)
    (enclosing : List Enclosing) :
    step ⟨enclosing, after t⟩ (.mark '&') = .ok ⟨enclosing, .complete (.byRef t)⟩ := by
  cases t with
  | named ns name arguments => cases arguments <;> rfl
  | unknown => cases h
  | _ => rfl

/-- Behind an unresolved type a suffix is a fault. -/
theorem exists_step_unknown {c : Char} (h : c = '[' ∨ c = '&') (enclosing : List Enclosing) :
    ∃ fault, step ⟨enclosing, after .unknown⟩ (.mark c) = .error fault := by
  rcases h with rfl | rfl <;> cases enclosing <;> exact ⟨_, rfl⟩

theorem add_ofNat_pred {rank : UInt32} (h : 1 ≤ rank) :
    1 + UInt32.ofNat (rank.toNat - 1) = rank := by
  have hrank : 1 ≤ rank.toNat := UInt32.le_iff_toNat_le.mp h
  have hbound := rank.toNat_lt
  have hone : (1 : UInt32).toNat = 1 := rfl
  rw [← UInt32.toNat_inj, UInt32.toNat_add, UInt32.toNat_ofNat', hone]
  omega

/-- Every comma between the brackets adds a dimension. -/
theorem run_commas (enclosing : List Enclosing) (element : ResolvedType) (rank : UInt32)
    (commas : Nat) (rest : List Char) :
    run ⟨enclosing, .brackets element rank⟩
        (lexemes (List.replicate commas ',' ++ ']' :: rest)) =
      run ⟨enclosing, .complete (.array element (rank + UInt32.ofNat commas))⟩ (lexemes rest) := by
  induction commas generalizing rank with
  | zero =>
    rw [List.replicate_zero, List.nil_append, run_mark (by decide) _ rfl]
    simp
  | succ commas ih =>
    rw [List.replicate_succ, List.cons_append, run_mark (by decide) _ rfl, ih,
      UInt32.ofNat_add, UInt32.add_assoc, UInt32.add_comm 1]
    rfl

theorem toList_brackets_append (rank : UInt32) (rest : List Char) :
    (brackets rank).toList ++ rest =
      '[' :: (List.replicate (rank.toNat - 1) ',' ++ ']' :: rest) := by
  simp [brackets]

theorem run_brackets {t : ResolvedType} {rank : UInt32} (h : t.isUnknown = false)
    (hrank : 1 ≤ rank) (enclosing : List Enclosing) (rest : List Char) :
    run ⟨enclosing, after t⟩ (lexemes ((brackets rank).toList ++ rest)) =
      run ⟨enclosing, after (.array t rank)⟩ (lexemes rest) := by
  rw [toList_brackets_append, run_mark (by decide) _ (step_after_bracket h enclosing),
    run_commas, add_ofNat_pred hrank]
  rfl

end Runs

section Texts

theorem toList_argumentsText_cons (first : ResolvedType) (more : List ResolvedType)
    (rest : List Char) :
    (argumentsText (first :: more)).toList ++ rest =
      '<' :: (first.text.toList ++ ((moreArgumentsText more).toList ++ rest)) := by
  simp [argumentsText]

theorem toList_moreArgumentsText_cons (next : ResolvedType) (more : List ResolvedType)
    (rest : List Char) :
    (moreArgumentsText (next :: more)).toList ++ rest =
      ',' :: ' ' :: (next.text.toList ++ ((moreArgumentsText more).toList ++ rest)) := by
  simp [moreArgumentsText]

theorem ends_argumentsText (arguments : List ResolvedType) {rest : List Char} (h : Ends rest) :
    Ends ((argumentsText arguments).toList ++ rest) := by
  cases arguments with
  | nil => exact h
  | cons first more =>
    rw [toList_argumentsText_cons]
    exact ends_cons (by decide) _

theorem ends_moreArgumentsText (more : List ResolvedType) (rest : List Char) :
    Ends ((moreArgumentsText more).toList ++ rest) := by
  cases more with
  | nil => exact ends_cons (by decide) _
  | cons next more =>
    rw [toList_moreArgumentsText_cons]
    exact ends_cons (by decide) _

theorem ends_brackets (rank : UInt32) (rest : List Char) :
    Ends ((brackets rank).toList ++ rest) := by
  rw [toList_brackets_append]
  exact ends_cons (by decide) _

/-- The qualified name of a type, from where the type has to begin. -/
theorem run_name {ns name : String} (hns : isNamespace ns = true) (hname : isSimpleName name = true)
    (enclosing : List Enclosing) {rest : List Char} (hrest : Ends rest) :
    run ⟨enclosing, .start⟩ (lexemes ((qualify ns name).toList ++ rest)) =
      run ⟨enclosing, .named ns name⟩ (lexemes rest) := by
  have hwell := isWellFormedName_qualify hns hname
  have hne : (qualify ns name).toList ≠ [] := by
    intro hnil
    rw [hnil] at hwell
    cases hwell
  have hstep : step ⟨enclosing, .start⟩ (.name (qualify ns name).toList) =
      .ok ⟨enclosing, .named ns name⟩ := by
    simp [step, hwell, splitName_qualify hname]
  rw [lexemes_name hne (isNameChar_of_mem_qualify hns hname) hrest, run_cons_of_ok _ hstep]

mutual

/-- The reader goes through the text of a type and has the type complete. -/
theorem run_text (t : ResolvedType) (enclosing : List Enclosing) {rest : List Char}
    (hspelled : t.isSpelled = true) (halone : t.unknownsStandAlone = true) (hrest : Ends rest) :
    run ⟨enclosing, .start⟩ (lexemes (t.text.toList ++ rest)) =
      run ⟨enclosing, after t⟩ (lexemes rest) := by
  cases t with
  | named ns name arguments =>
    simp only [isSpelled, Bool.and_eq_true] at hspelled
    simp only [unknownsStandAlone] at halone
    rw [text, String.toList_append, List.append_assoc,
      run_name hspelled.1.1 hspelled.1.2 enclosing (ends_argumentsText arguments hrest),
      run_argumentsText ns name arguments enclosing hspelled.2 halone]
  | array element rank =>
    simp only [isSpelled, Bool.and_eq_true, decide_eq_true_eq] at hspelled
    simp only [unknownsStandAlone, Bool.and_eq_true, Bool.not_eq_true'] at halone
    rw [text, String.toList_append, List.append_assoc,
      run_text element enclosing hspelled.2 halone.2 (ends_brackets rank rest),
      run_brackets halone.1 hspelled.1]
  | byRef referent =>
    simp only [isSpelled] at hspelled
    simp only [unknownsStandAlone, Bool.and_eq_true, Bool.not_eq_true'] at halone
    have hmark : Ends ("&".toList ++ rest) := ends_cons (by decide) rest
    rw [text, String.toList_append, List.append_assoc,
      run_text referent enclosing hspelled halone.2 hmark]
    exact run_mark (by decide) rest (step_after_reference halone.1 enclosing)
  | parameter p => cases hspelled
  | unknown => exact run_mark (by decide) rest rfl

theorem run_argumentsText (ns name : String) (arguments : List ResolvedType)
    (enclosing : List Enclosing) {rest : List Char} (hspelled : areSpelled arguments = true)
    (halone : allStandAlone arguments = true) :
    run ⟨enclosing, .named ns name⟩ (lexemes ((argumentsText arguments).toList ++ rest)) =
      run ⟨enclosing, after (.named ns name arguments)⟩ (lexemes rest) := by
  cases arguments with
  | nil => rfl
  | cons first more =>
    simp only [areSpelled, Bool.and_eq_true] at hspelled
    simp only [allStandAlone, Bool.and_eq_true] at halone
    rw [toList_argumentsText_cons, run_mark (by decide) _ rfl,
      run_text first _ hspelled.1 halone.1 (ends_moreArgumentsText more rest),
      run_moreArgumentsText first more _ enclosing hspelled.2 halone.2]
    rfl

theorem run_moreArgumentsText (t : ResolvedType) (more : List ResolvedType) (e : Enclosing)
    (outer : List Enclosing) {rest : List Char} (hspelled : areSpelled more = true)
    (halone : allStandAlone more = true) :
    run ⟨e :: outer, after t⟩ (lexemes ((moreArgumentsText more).toList ++ rest)) =
      run ⟨outer, .complete (.named e.namespace e.name (e.arguments.reverse ++ t :: more))⟩
        (lexemes rest) := by
  cases more with
  | nil =>
    have hstep := step_after_close t e outer
    rw [List.reverse_cons] at hstep
    exact run_mark (by decide) rest hstep
  | cons next more =>
    simp only [areSpelled, Bool.and_eq_true] at hspelled
    simp only [allStandAlone, Bool.and_eq_true] at halone
    rw [toList_moreArgumentsText_cons, run_mark (by decide) _ (step_after_comma t e outer),
      lexemes_blank,
      run_text next _ hspelled.1 halone.1 (ends_moreArgumentsText more rest),
      run_moreArgumentsText next more _ outer hspelled.2 halone.2]
    simp

end

/-- The reader stops at a suffix of an unresolved type. -/
theorem exists_run_unknown_error {t : ResolvedType} {c : Char} (hunknown : t.isUnknown = true)
    (hc : c = '[' ∨ c = '&') (enclosing : List Enclosing) (rest : List Char) :
    ∃ fault, run ⟨enclosing, .start⟩ (lexemes (t.text.toList ++ c :: rest)) = .error fault := by
  cases t with
  | unknown =>
    have hends : Ends (c :: rest) := by
      apply ends_cons
      rcases hc with rfl | rfl <;> decide
    have hmark : c ∈ marks := by
      rcases hc with rfl | rfl <;> decide
    obtain ⟨fault, hstep⟩ := exists_step_unknown hc enclosing
    refine ⟨fault, ?_⟩
    rw [run_text .unknown enclosing rfl rfl hends, run_mark_of_error hmark _ hstep]
  | _ => cases hunknown

mutual

/-- A suffix of an unresolved type anywhere inside ends the reading with a fault. -/
theorem exists_run_text_error (t : ResolvedType) (enclosing : List Enclosing) (rest : List Char)
    (hspelled : t.isSpelled = true) (h : t.unknownsStandAlone = false) :
    ∃ fault, run ⟨enclosing, .start⟩ (lexemes (t.text.toList ++ rest)) = .error fault := by
  cases t with
  | named ns name arguments =>
    simp only [isSpelled, Bool.and_eq_true] at hspelled
    simp only [unknownsStandAlone] at h
    have hends : Ends ((argumentsText arguments).toList ++ rest) := by
      cases arguments with
      | nil => cases h
      | cons first more =>
        rw [toList_argumentsText_cons]
        exact ends_cons (by decide) _
    rw [text, String.toList_append, List.append_assoc,
      run_name hspelled.1.1 hspelled.1.2 enclosing hends]
    exact exists_run_argumentsText_error ns name arguments enclosing rest hspelled.2 h
  | array element rank =>
    simp only [isSpelled, Bool.and_eq_true] at hspelled
    simp only [unknownsStandAlone, Bool.and_eq_false_iff, Bool.not_eq_false'] at h
    rw [text, String.toList_append, List.append_assoc]
    rcases h with hunknown | helement
    · rw [toList_brackets_append]
      exact exists_run_unknown_error hunknown (Or.inl rfl) enclosing _
    · exact exists_run_text_error element enclosing _ hspelled.2 helement
  | byRef referent =>
    simp only [isSpelled] at hspelled
    simp only [unknownsStandAlone, Bool.and_eq_false_iff, Bool.not_eq_false'] at h
    rw [text, String.toList_append, List.append_assoc]
    rcases h with hunknown | hreferent
    · exact exists_run_unknown_error hunknown (Or.inr rfl) enclosing rest
    · exact exists_run_text_error referent enclosing _ hspelled hreferent
  | parameter p => cases h
  | unknown => cases h

theorem exists_run_argumentsText_error (ns name : String) (arguments : List ResolvedType)
    (enclosing : List Enclosing) (rest : List Char) (hspelled : areSpelled arguments = true)
    (h : allStandAlone arguments = false) :
    ∃ fault, run ⟨enclosing, .named ns name⟩
      (lexemes ((argumentsText arguments).toList ++ rest)) = .error fault := by
  cases arguments with
  | nil => cases h
  | cons first more =>
    simp only [areSpelled, Bool.and_eq_true] at hspelled
    simp only [allStandAlone, Bool.and_eq_false_iff] at h
    rw [toList_argumentsText_cons, run_mark (by decide) _ rfl]
    cases hfirst : first.unknownsStandAlone with
    | false => exact exists_run_text_error first _ _ hspelled.1 hfirst
    | true =>
      rw [run_text first _ hspelled.1 hfirst (ends_moreArgumentsText more rest)]
      exact exists_run_moreArgumentsText_error first more _ enclosing rest hspelled.2
        (h.resolve_left (by simp [hfirst]))

theorem exists_run_moreArgumentsText_error (t : ResolvedType) (more : List ResolvedType)
    (e : Enclosing) (outer : List Enclosing) (rest : List Char)
    (hspelled : areSpelled more = true) (h : allStandAlone more = false) :
    ∃ fault, run ⟨e :: outer, after t⟩ (lexemes ((moreArgumentsText more).toList ++ rest)) =
      .error fault := by
  cases more with
  | nil => cases h
  | cons next more =>
    simp only [areSpelled, Bool.and_eq_true] at hspelled
    simp only [allStandAlone, Bool.and_eq_false_iff] at h
    rw [toList_moreArgumentsText_cons, run_mark (by decide) _ (step_after_comma t e outer),
      lexemes_blank]
    cases hnext : next.unknownsStandAlone with
    | false => exact exists_run_text_error next _ _ hspelled.1 hnext
    | true =>
      rw [run_text next _ hspelled.1 hnext (ends_moreArgumentsText more rest)]
      exact exists_run_moreArgumentsText_error next more _ outer rest hspelled.2
        (h.resolve_left (by simp [hnext]))

end

end Texts

end TypeReader

namespace ResolvedType

open TypeReader

theorem ofText_eq_ok_iff {text : String} {t : ResolvedType} :
    ofText text = .ok t ↔ run begin (lexemes text.toList) = .ok t := by
  rw [ofText]
  cases run begin (lexemes text.toList) with
  | ok found => simp
  | error fault => cases fault <;> simp

/-- The text of a type reads back as the type exactly when no unresolved type in it has a
suffix. -/
theorem ofText_text_iff (t : ResolvedType) (hspelled : t.isSpelled = true) :
    ofText t.text = .ok t ↔ t.unknownsStandAlone = true := by
  rw [ofText_eq_ok_iff, begin, ← List.append_nil t.text.toList]
  constructor
  · intro h
    by_contra hsuffix
    obtain ⟨fault, herror⟩ :=
      exists_run_text_error t [] [] hspelled (eq_false_of_ne_true hsuffix)
    rw [herror] at h
    cases h
  · intro halone
    rw [run_text t [] hspelled halone ends_nil]
    exact run_after_nil t

/-- ``System.Collections.Generic.Dictionary`2<?, A..é_[,,]&>[]``, with a dot at the end of a
namespace. -/
def nestedDictionary : ResolvedType :=
  .array (.named "System.Collections.Generic" "Dictionary\x602"
    [.unknown, .byRef (.array (.named "A." "é_" []) 3)]) 1

theorem ofText_text_nestedDictionary :
    nestedDictionary.isSpelled = true ∧ nestedDictionary.unknownsStandAlone = true ∧
      ofText nestedDictionary.text = .ok nestedDictionary :=
  have hspelled : nestedDictionary.isSpelled = true := by decide +kernel
  ⟨hspelled, rfl, (ofText_text_iff nestedDictionary hspelled).mpr rfl⟩

/-- An array of an unresolved type has a text that is not read. -/
theorem ofText_text_unknownArray_ne :
    isSpelled (.array .unknown 1) = true ∧
      ofText (text (.array .unknown 1)) = .error (.invalidName "?[]") ∧
      ofText (text (.array .unknown 1)) ≠ .ok (.array .unknown 1) := by
  have herror : ofText (text (.array .unknown 1)) = .error (.invalidName "?[]") := by
    decide +kernel
  refine ⟨by decide, herror, ?_⟩
  rw [herror]
  nofun

end ResolvedType

end OperatorRecovery
