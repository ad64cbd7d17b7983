import Mathlib.Data.String.Basic
import OperatorRecovery.Proofs.ReadTypes

/-!
Reading a type from its text by byte positions. The position is put forward by the width of a
mark or of a name's character, but by a single byte over a blank, so what matters is where a text
can be sliced: at the boundaries of its characters and nowhere inside one. Every loop goes on from
a larger position, up to the end of the text.
-/

namespace OperatorRecovery.ByteReader

open Characters TypeReader
open String (utf8Len)

/-- Why a reading fails. -/
inductive Failure
  | invalidName
  | unbalancedArguments
  /-- The text was sliced at a position where none of its characters begins or ends. -/
  | offBoundary (position : Nat)
  deriving DecidableEq, Repr

section Slices

/-- The text from a byte position on, if it can be sliced there. -/
def suffix? : List Char → Nat → Option (List Char)
  | text, 0 => some text
  | [], _ + 1 => none
  | c :: text, position + 1 =>
    if c.utf8Size ≤ position + 1 then suffix? text (position + 1 - c.utf8Size) else none

def slice (text : List Char) (start stop : Nat) : Except Failure (List Char) :=
  match suffix? text start, suffix? text stop with
  | none, _ => .error (.offBoundary start)
  | _, none => .error (.offBoundary stop)
  | some rest, some behind =>
    if start ≤ stop then .ok (rest.take (rest.length - behind.length))
    else .error (.offBoundary stop)

/-- The character that begins at a position, if the text does not end there. -/
def peek (text : List Char) (position : Nat) : Except Failure (Option Char) :=
  match suffix? text position with
  | some rest => .ok rest.head?
  | none => .error (.offBoundary position)

theorem suffix?_append (front rest : List Char) :
    suffix? (front ++ rest) (utf8Len front) = some rest := by
  induction front with
  | nil => cases rest <;> rfl
  | cons c front ih =>
    have hpos := c.utf8Size_pos
    obtain ⟨position, hposition⟩ : ∃ position, utf8Len (c :: front) = position + 1 :=
      Nat.exists_eq_succ_of_ne_zero (by simp; omega)
    rw [hposition, List.cons_append, suffix?]
    rw [String.utf8Len_cons] at hposition
    rw [if_pos (by omega), show position + 1 - c.utf8Size = utf8Len front by omega, ih]

theorem suffix?_eq_some_iff {text rest : List Char} {position : Nat} :
    suffix? text position = some rest ↔
      ∃ front, text = front ++ rest ∧ utf8Len front = position := by
  constructor
  · intro h
    fun_induction suffix? text position with
    | case1 text =>
      cases h
      exact ⟨[], rfl, rfl⟩
    | case2 => cases h
    | case3 c text position hle ih =>
      obtain ⟨front, rfl, hfront⟩ := ih h
      refine ⟨c :: front, rfl, ?_⟩
      rw [String.utf8Len_cons]
      omega
    | case4 => cases h
  · intro h
    obtain ⟨front, rfl, rfl⟩ := h
    exact suffix?_append front rest

/-- The positions at which a text can be sliced are its valid ones. -/
theorem isSome_suffix?_iff {text : List Char} {position : Nat} :
    (suffix? text position).isSome ↔ String.Pos.Raw.IsValid (String.ofList text) ⟨position⟩ := by
  simp only [Option.isSome_iff_exists, suffix?_eq_some_iff,
    String.Pos.Raw.isValid_iff_exists_append]
  constructor
  · intro h
    obtain ⟨rest, front, rfl, rfl⟩ := h
    refine ⟨String.ofList front, String.ofList rest, String.ofList_append, ?_⟩
    rw [String.Pos.Raw.ext_iff, String.byteIdx_rawEndPos, String.utf8ByteSize_ofList]
  · intro h
    obtain ⟨front, rest, htext, hposition⟩ := h
    refine ⟨rest.toList, front.toList, ?_, ?_⟩
    · rw [← String.toList_append, ← htext, String.toList_ofList]
    · rw [String.Pos.Raw.ext_iff, String.byteIdx_rawEndPos] at hposition
      rw [← String.utf8ByteSize_ofList, String.ofList_toList]
      exact hposition.symm

theorem slice_append (front word rest : List Char) :
    slice (front ++ (word ++ rest)) (utf8Len front) (utf8Len front + utf8Len word) = .ok word := by
  have hstop : suffix? (front ++ (word ++ rest)) (utf8Len front + utf8Len word) = some rest := by
    rw [← String.utf8Len_append, ← List.append_assoc]
    exact suffix?_append _ rest
  rw [slice, suffix?_append, hstop]
  simp

theorem add_utf8Size_le_of_peek {text : List Char} {position : Nat} {c : Char}
    (h : peek text position = .ok (some c)) : position + c.utf8Size ≤ utf8Len text := by
  unfold peek at h
  split at h
  next rest hrest =>
    obtain ⟨front, rfl, rfl⟩ := suffix?_eq_some_iff.mp hrest
    cases rest with
    | nil => cases h
    | cons d rest =>
      cases h
      rw [String.utf8Len_append, String.utf8Len_cons]
      omega
  next => cases h

end Slices

section Reading

/-- Steps over the characters of a class, over each by the number of bytes given. -/
def skip (text : List Char) (inClass : Char → Bool) (width : Char → Nat)
    (hwidth : ∀ c, 0 < width c) (position : Nat) : Except Failure Nat :=
  match _ : peek text position with
  | .error failure => .error failure
  | .ok none => .ok position
  | .ok (some c) =>
    if inClass c then skip text inClass width hwidth (position + width c) else .ok position
termination_by utf8Len text - position
decreasing_by
  have hle := add_utf8Size_le_of_peek ‹_›
  have hpos := c.utf8Size_pos
  have hstep := hwidth c
  omega

theorem le_of_skip {text : List Char} {inClass : Char → Bool} {width : Char → Nat}
    {hwidth : ∀ c, 0 < width c} {position stop : Nat}
    (h : skip text inClass width hwidth position = .ok stop) : position ≤ stop := by
  fun_induction skip text inClass width hwidth position with
  | case1 => cases h
  | case2 => cases h; exact Nat.le_refl _
  | case3 position c _ _ ih => exact Nat.le_trans (Nat.le_add_right _ _) (ih h)
  | case4 => cases h; exact Nat.le_refl _

/-- Blanks are stepped over a byte at a time. -/
def skipBlanks (text : List Char) (position : Nat) : Except Failure Nat :=
  skip text isBlank (fun _ => 1) (fun _ => Nat.one_pos) position

def skipName (text : List Char) (position : Nat) : Except Failure Nat :=
  skip text isNameChar Char.utf8Size Char.utf8Size_pos position

/-- Whether a mark was taken, and the position behind it or behind the blanks in front. -/
inductive Eaten (text : List Char) (start : Nat)
  | taken (stop : Nat) (lt : start < stop) (le : stop ≤ utf8Len text)
  | left (stop : Nat) (le : start ≤ stop)

def eat (text : List Char) (mark : Char) (position : Nat) :
    Except Failure (Eaten text position) :=
  match hskip : skipBlanks text position with
  | .error failure => .error failure
  | .ok start =>
    have hstart : position ≤ start := le_of_skip hskip
    match hpeek : peek text start with
    | .error failure => .error failure
    | .ok found =>
      if hfound : found = some mark then
        have hle := add_utf8Size_le_of_peek (hfound ▸ hpeek)
        have hpos := mark.utf8Size_pos
        .ok (.taken (start + mark.utf8Size) (by omega) hle)
      else .ok (.left start hstart)

/-- What was read from a position on, and the position behind it. -/
structure Read (start : Nat) (α : Type) where
  value : α
  stop : Nat
  start_le : start ≤ stop

/-- The same, from a position further in front. -/
def Read.from {start next : Nat} (read : Read next α) (h : start ≤ next) : Read start α :=
  ⟨read.value, read.stop, Nat.le_trans h read.start_le⟩

/-- The byte position of the last dot. -/
def lastDot? : List Char → Option Nat
  | [] => none
  | c :: rest =>
    match lastDot? rest with
    | some position => some (position + c.utf8Size)
    | none => if c = '.' then some 0 else none

/-- A dotted name sliced around its last dot, which takes one byte. -/
def splitDotted (dotted : List Char) : Except Failure (String × String) :=
  match lastDot? dotted with
  | none => return ("", String.ofList dotted)
  | some dot => do
    let ns ← slice dotted 0 dot
    let name ← slice dotted (dot + 1) (utf8Len dotted)
    return (String.ofList ns, String.ofList name)

def readName (text : List Char) (position : Nat) :
    Except Failure (Read position (String × String)) :=
  match hskip : skipName text position with
  | .error failure => .error failure
  | .ok stop => do
    let dotted ← slice text position stop
    if isWellFormedName dotted then
      let parts ← splitDotted dotted
      return ⟨parts, stop, le_of_skip hskip⟩
    else throw .invalidName

/-- The rank of an array whose brackets are open. It is counted in 32 bits. -/
def readRank (text : List Char) (rank : UInt32) (position : Nat) :
    Except Failure (Read position UInt32) := do
  match ← eat text ',' position with
  | .taken next hnext _ => return (← readRank text (rank + 1) next).from (Nat.le_of_lt hnext)
  | .left stop hstop => return ⟨rank, stop, hstop⟩
termination_by utf8Len text - position
decreasing_by omega

def readSuffixes (text : List Char) (type : ResolvedType) (position : Nat) :
    Except Failure (Read position ResolvedType) := do
  match ← eat text '[' position with
  | .taken first hfirst _ =>
    let ⟨rank, last, hlast⟩ ← readRank text 1 first
    match ← eat text ']' last with
    | .taken next hnext _ => return (← readSuffixes text (.array type rank) next).from (by omega)
    | .left _ _ => throw .invalidName
  | .left start hstart =>
    match ← eat text '&' start with
    | .taken next hnext _ => return (← readSuffixes text (.byRef type) next).from (by omega)
    | .left stop hstop => return ⟨type, stop, by omega⟩
termination_by utf8Len text - position
decreasing_by all_goals omega

mutual

def readType (text : List Char) (position : Nat) :
    Except Failure (Read position ResolvedType) := do
  match ← eat text '?' position with
  | .taken stop hstop _ => return ⟨.unknown, stop, by omega⟩
  | .left start hstart =>
    let ⟨(ns, name), behind, hbehind⟩ ← readName text start
    match ← eat text '<' behind with
    | .taken first hfirst _ =>
      let ⟨arguments, last, hlast⟩ ← readArguments text first
      return (← readSuffixes text (.named ns name arguments) last).from (by omega)
    | .left last hlast => return (← readSuffixes text (.named ns name []) last).from (by omega)
termination_by (utf8Len text - position, 0)
decreasing_by
  apply Prod.Lex.left
  omega

/-- Type arguments up to the mark that closes them. -/
def readArguments (text : List Char) (position : Nat) :
    Except Failure (Read position (List ResolvedType)) := do
  let ⟨first, behind, hbehind⟩ ← readType text position
  match ← eat text ',' behind with
  | .taken next hnext _ =>
    let ⟨rest, stop, hstop⟩ ← readArguments text next
    return ⟨first :: rest, stop, by omega⟩
  | .left next hnext =>
    match ← eat text '>' next with
    | .taken stop hstop _ => return ⟨[first], stop, by omega⟩
    | .left _ _ => throw .unbalancedArguments
termination_by (utf8Len text - position, 1)
decreasing_by
  · apply Prod.Lex.right
    omega
  · apply Prod.Lex.left
    omega

end

/-- The type that a whole text spells. -/
def parse (text : List Char) : Except Failure ResolvedType := do
  let ⟨type, behind, _⟩ ← readType text 0
  let stop ← skipBlanks text behind
  if stop = utf8Len text then return type else throw .invalidName

end Reading

section Skipping

variable {text word rest : List Char} {position : Nat}

theorem peek_eq_ok (h : suffix? text position = some rest) :
    peek text position = .ok rest.head? := by
  rw [peek, h]

theorem suffix?_of_append (h : suffix? text position = some (word ++ rest)) :
    suffix? text (position + utf8Len word) = some rest := by
  obtain ⟨front, rfl, rfl⟩ := suffix?_eq_some_iff.mp h
  rw [← String.utf8Len_append, ← List.append_assoc]
  exact suffix?_append _ rest

theorem suffix?_of_cons {c : Char} (h : suffix? text position = some (c :: rest)) :
    suffix? text (position + c.utf8Size) = some rest := by
  have happend : suffix? text position = some ([c] ++ rest) := h
  simpa using suffix?_of_append happend

/-- No position inside a character is one where the text can be sliced. -/
theorem suffix?_inside {c : Char} {n : Nat} (h : suffix? text position = some (c :: rest))
    (hpos : 0 < n) (hlt : n < c.utf8Size) : suffix? text (position + n) = none := by
  obtain ⟨front, rfl, rfl⟩ := suffix?_eq_some_iff.mp h
  rw [Option.eq_none_iff_forall_ne_some]
  intro behind hbehind
  obtain ⟨front', htext, hlength⟩ := suffix?_eq_some_iff.mp hbehind
  rcases List.append_eq_append_iff.mp htext with ⟨between, rfl, hcons⟩ | ⟨between, rfl, _⟩
  · cases between with
    | nil => simp at hlength; omega
    | cons d between =>
      cases hcons
      simp only [String.utf8Len_append, String.utf8Len_cons] at hlength
      omega
  · simp only [String.utf8Len_append] at hlength
    omega

variable {inClass : Char → Bool} {width : Char → Nat} {hwidth : ∀ c, 0 < width c}

theorem skip_eq : skip text inClass width hwidth position =
    match peek text position with
    | .error failure => .error failure
    | .ok none => .ok position
    | .ok (some c) =>
      if inClass c then skip text inClass width hwidth (position + width c)
      else .ok position := by
  rw [skip]
  split
  next _ hpeek => rw [hpeek]
  next hpeek => rw [hpeek]
  next _ hpeek => rw [hpeek]

theorem skip_of_stop (h : suffix? text position = some rest)
    (hstop : ∀ c ∈ rest.head?, inClass c = false) :
    skip text inClass width hwidth position = .ok position := by
  rw [skip_eq, peek_eq_ok h]
  cases rest with
  | nil => rfl
  | cons c rest =>
    have hc : inClass c = false := hstop c rfl
    simp [hc]

theorem skip_of_step {c : Char} (h : suffix? text position = some (c :: rest))
    (hc : inClass c = true) :
    skip text inClass width hwidth position =
      skip text inClass width hwidth (position + width c) := by
  rw [skip_eq, peek_eq_ok h]
  exact if_pos hc

theorem skip_of_none (h : suffix? text position = none) :
    skip text inClass width hwidth position = .error (.offBoundary position) := by
  rw [skip_eq, peek, h]

/-- Characters that are stepped over by their own width are passed. -/
theorem skip_append (h : suffix? text position = some (word ++ rest))
    (hword : ∀ c ∈ word, inClass c = true ∧ width c = c.utf8Size) :
    skip text inClass width hwidth position =
      skip text inClass width hwidth (position + utf8Len word) := by
  induction word generalizing position with
  | nil => rfl
  | cons c word ih =>
    obtain ⟨⟨hc, hown⟩, hrest⟩ := List.forall_mem_cons.mp hword
    rw [skip_of_step h hc, hown, ih (suffix?_of_cons h) hrest, String.utf8Len_cons,
      Nat.add_assoc, Nat.add_comm c.utf8Size]

variable {mark : Char} {start : Nat}

theorem eat_of_error {failure : Failure} (hskip : skipBlanks text position = .error failure) :
    eat text mark position = .error failure := by
  rw [eat]
  split
  next found hfound =>
    rw [hskip] at hfound
    cases hfound
    rfl
  next hfound => simp [hskip] at hfound

theorem exists_eat_taken (hskip : skipBlanks text position = .ok start)
    (h : suffix? text start = some (mark :: rest)) :
    ∃ lt le, eat text mark position = .ok (.taken (start + mark.utf8Size) lt le) := by
  have hpeek : peek text start = .ok (some mark) := peek_eq_ok h
  have hstart : position ≤ start := le_of_skip hskip
  have hpos := mark.utf8Size_pos
  refine ⟨by omega, add_utf8Size_le_of_peek hpeek, ?_⟩
  rw [eat]
  split
  next hfound => simp [hskip] at hfound
  next found hfound =>
    obtain rfl : start = found := by simpa [hskip] using hfound
    split
    next hfound => simp [hpeek] at hfound
    next found hfound =>
      obtain rfl : some mark = found := by simpa [hpeek] using hfound
      exact dif_pos rfl

theorem exists_eat_left (hskip : skipBlanks text position = .ok start)
    (h : suffix? text start = some rest) (hne : rest.head? ≠ some mark) :
    ∃ le, eat text mark position = .ok (.left start le) := by
  have hpeek := peek_eq_ok h
  refine ⟨le_of_skip hskip, ?_⟩
  rw [eat]
  split
  next hfound => simp [hskip] at hfound
  next found hfound =>
    obtain rfl : start = found := by simpa [hskip] using hfound
    split
    next hfound => simp [hpeek] at hfound
    next found hfound =>
      obtain rfl : rest.head? = found := by simpa [hpeek] using hfound
      exact dif_neg hne

end Skipping

section Names

theorem lastDot?_of_dotless {dotted : List Char} (h : ∀ c ∈ dotted, c ≠ '.') :
    lastDot? dotted = none := by
  induction dotted with
  | nil => rfl
  | cons c dotted ih =>
    obtain ⟨hc, hdotted⟩ := List.forall_mem_cons.mp h
    rw [lastDot?, ih hdotted, if_neg hc]

theorem lastDot?_append (front : List Char) {name : List Char} (h : ∀ c ∈ name, c ≠ '.') :
    lastDot? (front ++ '.' :: name) = some (utf8Len front) := by
  induction front with
  | nil => rw [List.nil_append, lastDot?, lastDot?_of_dotless h]; rfl
  | cons c front ih => rw [List.cons_append, lastDot?, ih, String.utf8Len_cons]

/-- The slices around the last dot are the two parts of the name. -/
theorem splitDotted_eq (dotted : List Char) : splitDotted dotted = .ok (splitName dotted) := by
  by_cases hdot : '.' ∈ dotted
  · obtain ⟨front, name, rfl, hname⟩ := exists_last_dot hdot
    have hdot : utf8Len ['.'] = 1 := by decide
    have hlength : utf8Len (front ++ '.' :: name) = utf8Len front + 1 + utf8Len name := by
      rw [← List.singleton_append, String.utf8Len_append, String.utf8Len_append, hdot,
        Nat.add_assoc]
    have hns : slice (front ++ '.' :: name) 0 (utf8Len front) = .ok front := by
      simpa using slice_append [] front ('.' :: name)
    have hlast : slice (front ++ '.' :: name) (utf8Len front + 1)
        (utf8Len front + 1 + utf8Len name) = .ok name := by
      simpa [hdot] using slice_append (front ++ ['.']) name []
    rw [splitDotted, lastDot?_append front hname, splitName_append front hname, hlength]
    simp only [hns, hlast]
    rfl
  · have hdotless : ∀ c ∈ dotted, c ≠ '.' := fun c hc heq => hdot (heq ▸ hc)
    rw [splitDotted, lastDot?_of_dotless hdotless, splitName_of_dotless hdotless]
    rfl

end Names

end OperatorRecovery.ByteReader
