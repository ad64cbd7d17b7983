import Mathlib.Algebra.Group.Nat.Defs
import Mathlib.Data.List.Chain
import OperatorRecovery.Proofs.Expansion

/-!
The grammar of composite formats. A format is a row of items: characters to show, with braces
written twice, and holes. Splitting meets no error exactly on such rows. What it gives has a shape
of its own: an error is the last token, no text is empty, no two texts meet, and what a hole holds
could stand in a hole again. Tokens of this shape are written with doubled braces and plain
decimals, and splitting what was written gives them back; so writing the tokens of a format drops
the leading zeros of its indices and nothing else.
-/

namespace OperatorRecovery.CompositeFormat

open LiteralText (doubleBrace doubleBraces)

/-- A token that refers to an argument. -/
def Token.ofHole (index : Nat) : Option (List Char) → Token
  | none => .argument index
  | some spec => .argumentWithSpec index spec

def Token.isText : Token → Bool
  | .text _ => true
  | _ => false

/-- The format of a hole ends at the first brace. -/
def IsSpec (spec : Option (List Char)) : Prop := ∀ cs ∈ spec, ∀ c ∈ cs, c ≠ '{' ∧ c ≠ '}'

section Grammar

/-- What a format is made of. -/
inductive Item
  | literal (c : Char)
  | hole (digits : List Char) (spec : Option (List Char))

namespace Item

/-- A brace that is to be shown is written twice. -/
def text : Item → List Char
  | literal c => doubleBrace c
  | hole digits spec => '{' :: (holeText digits spec ++ ['}'])

/-- A hole has an index that fits into 64 bits, and no braces inside. -/
def IsValid : Item → Prop
  | literal _ => True
  | hole digits spec => digits ≠ [] ∧ digits.all Char.isDigit = true ∧
      Nat.ofDigitChars 10 digits 0 < 2 ^ 64 ∧ IsSpec spec

end Item

/-- A row of valid items. -/
def IsFormat (cs : List Char) : Prop :=
  ∃ items : List Item, (∀ item ∈ items, item.IsValid) ∧ cs = items.flatMap Item.text

/-- Digits without the zeros before the first digit that counts. -/
def trimZeros : List Char → List Char
  | '0' :: digit :: rest => trimZeros (digit :: rest)
  | digits => digits

def Item.trimmed : Item → Item
  | literal c => literal c
  | hole digits spec => hole (trimZeros digits) spec

/-- The tokens of items that follow characters already read. -/
def gather : List Char → List Item → List Token
  | read, [] => closeText read []
  | read, .literal c :: rest => gather (c :: read) rest
  | read, .hole digits spec :: rest =>
    closeText read (.ofHole (Nat.ofDigitChars 10 digits 0) spec :: gather [] rest)

end Grammar

section Holes

variable {digits : List Char} {spec : Option (List Char)} {index : Nat}

theorem argumentToken?_eq (digits : List Char) (spec : Option (List Char)) :
    argumentToken? digits spec = (index? digits).map (Token.ofHole · spec) := by
  cases spec <;> rfl

theorem index?_eq_some_iff : index? digits = some index ↔
    digits ≠ [] ∧ digits.all Char.isDigit = true ∧ Nat.ofDigitChars 10 digits 0 < 2 ^ 64 ∧
      index = Nat.ofDigitChars 10 digits 0 := by
  constructor
  · intro h
    obtain ⟨hnonempty, hdigits, rfl⟩ := index?_eq_some h
    refine ⟨hnonempty, hdigits, ?_, rfl⟩
    unfold index? at h
    split at h
    · cases h
    · exact (Option.ite_none_right_eq_some.mp h).1
  · rintro ⟨hnonempty, hdigits, hfits, rfl⟩
    have hreadable : (digits.isEmpty || !digits.all Char.isDigit) = false := by
      simp [hnonempty, hdigits]
    rw [index?, hreadable]
    exact if_pos hfits

theorem argumentToken?_eq_some_iff {token : Token} : argumentToken? digits spec = some token ↔
    digits ≠ [] ∧ digits.all Char.isDigit = true ∧ Nat.ofDigitChars 10 digits 0 < 2 ^ 64 ∧
      token = .ofHole (Nat.ofDigitChars 10 digits 0) spec := by
  simp only [argumentToken?_eq, Option.map_eq_some_iff, index?_eq_some_iff]
  constructor
  · rintro ⟨_, ⟨hnonempty, hdigits, hfits, rfl⟩, rfl⟩
    exact ⟨hnonempty, hdigits, hfits, rfl⟩
  · rintro ⟨hnonempty, hdigits, hfits, rfl⟩
    exact ⟨_, ⟨hnonempty, hdigits, hfits, rfl⟩, rfl⟩

end Holes

section Completeness

variable {read digits : List Char} {spec : Option (List Char)}

theorem scan_literal (c : Char) (read rest : List Char) :
    scan (.text read) (doubleBrace c ++ rest) = scan (.text (c :: read)) rest := by
  unfold doubleBrace
  split
  next hbrace =>
    rcases hbrace with rfl | rfl <;> rfl
  next hbrace =>
    rw [not_or] at hbrace
    rw [List.singleton_append, scan]
    · exact fun _ h => absurd h hbrace.1
    · exact fun _ h => absurd h hbrace.2
    · exact hbrace.1
    · exact hbrace.2

theorem scan_index_append (hdigits : ∀ c ∈ digits, c.isDigit = true) (read rest : List Char) :
    scan (.index read) (digits ++ rest) = scan (.index (digits.reverse ++ read)) rest := by
  induction digits generalizing read with
  | nil => rfl
  | cons c digits ih =>
    have hc : c.isDigit = true := hdigits c List.mem_cons_self
    rw [List.cons_append, scan]
    · rw [ih (fun d hd => hdigits d (List.mem_cons_of_mem _ hd)), List.reverse_cons,
        List.append_assoc, List.singleton_append]
    all_goals exact ne_of_isDigit hc rfl

theorem scan_spec_append {cs : List Char} (hplain : ∀ c ∈ cs, c ≠ '{' ∧ c ≠ '}')
    (digits read rest : List Char) :
    scan (.spec digits read) (cs ++ rest) = scan (.spec digits (cs.reverse ++ read)) rest := by
  induction cs generalizing read with
  | nil => rfl
  | cons c cs ih =>
    have hc := hplain c List.mem_cons_self
    rw [List.cons_append, scan]
    · rw [ih (fun d hd => hplain d (List.mem_cons_of_mem _ hd)), List.reverse_cons,
        List.append_assoc, List.singleton_append]
    · exact hc.1
    · exact hc.2

theorem scan_hole (valid : (Item.hole digits spec).IsValid) (read rest : List Char) :
    scan (.text read) ((Item.hole digits spec).text ++ rest) =
      closeText read (.ofHole (Nat.ofDigitChars 10 digits 0) spec :: scan (.text []) rest) := by
  obtain ⟨hnonempty, hall, hfits, hspec⟩ := valid
  have hdigits : ∀ c ∈ digits, c.isDigit = true := List.all_eq_true.mp hall
  have htoken : argumentToken? digits spec = some (.ofHole (Nat.ofDigitChars 10 digits 0) spec) :=
    argumentToken?_eq_some_iff.mpr ⟨hnonempty, hall, hfits, rfl⟩
  have hinside : scan (.index []) (holeText digits spec ++ '}' :: rest) =
      .ofHole (Nat.ofDigitChars 10 digits 0) spec :: scan (.text []) rest := by
    rw [holeText, List.append_assoc, scan_index_append hdigits, List.append_nil]
    cases spec with
    | none =>
      rw [Option.elim_none, List.nil_append, scan, List.reverse_reverse, htoken]
    | some cs =>
      rw [Option.elim_some, List.cons_append, scan, scan_spec_append (hspec cs rfl),
        List.append_nil, scan, List.reverse_reverse, List.reverse_reverse, htoken]
  -- A digit comes first, so the brace of the hole is not taken for one that is doubled.
  have hopen : ∀ rest', holeText digits spec ++ '}' :: rest ≠ '{' :: rest' := by
    obtain ⟨d, ds, rfl⟩ := List.exists_cons_of_ne_nil hnonempty
    intro rest' heq
    exact ne_of_isDigit (hdigits d List.mem_cons_self) rfl (List.cons.inj heq).1
  rw [Item.text, List.cons_append, List.append_assoc, List.singleton_append, scan, hinside]
  exact fun rest' heq => hopen rest' heq

/-- Items are split into what they stand for. -/
theorem scan_items {items : List Item} (valid : ∀ item ∈ items, item.IsValid)
    (read : List Char) : scan (.text read) (items.flatMap Item.text) = gather read items := by
  induction items generalizing read with
  | nil => rfl
  | cons item items ih =>
    have hrest := ih fun other h => valid other (List.mem_cons_of_mem _ h)
    rw [List.flatMap_cons]
    cases item with
    | literal c => rw [Item.text, scan_literal, hrest, gather]
    | hole digits spec =>
      rw [scan_hole (valid _ List.mem_cons_self), hrest, gather]

end Completeness

section Soundness

theorem isFormat_nil : IsFormat [] := ⟨[], fun _ => nofun, rfl⟩

theorem IsFormat.cons {rest : List Char} (h : IsFormat rest) (item : Item)
    (valid : item.IsValid) : IsFormat (item.text ++ rest) := by
  obtain ⟨items, hitems, rfl⟩ := h
  exact ⟨item :: items, List.forall_mem_cons.mpr ⟨valid, hitems⟩, rfl⟩

/-- What was read of a hole that is still open. Text is done with as soon as it is read. -/
def Place.begun : Place → List Char
  | .text _ => []
  | .index read => '{' :: read.reverse
  | .spec digits read => '{' :: (digits.reverse ++ ':' :: read.reverse)

/-- No brace was read behind a colon. -/
def Place.IsPlain : Place → Prop
  | .spec _ read => IsSpec (some read.reverse)
  | _ => True

theorem isSpec_none : IsSpec none := fun _ => nofun

theorem isSpec_nil : IsSpec (some []) := by
  rintro _ ⟨⟩ c hc
  cases hc

theorem isSpec_read {read : List Char} {c : Char} (h : IsSpec (some read.reverse))
    (hleft : c ≠ '{') (hright : c ≠ '}') : IsSpec (some (c :: read).reverse) := by
  rintro _ ⟨⟩ d hd
  rw [List.reverse_cons, List.mem_append, List.mem_singleton] at hd
  rcases hd with hd | rfl
  · exact h _ rfl d hd
  · exact ⟨hleft, hright⟩

/-- What was begun and what is left make up items, if splitting goes on without an error. -/
theorem isFormat_of_scan (place : Place) (format : List Char) (plain : place.IsPlain)
    (herror : .error ∉ scan place format) : IsFormat (place.begun ++ format) := by
  fun_induction scan place format with
  | case1 read => exact isFormat_nil
  | case2 read rest ih => exact (ih trivial herror).cons (.literal '{') trivial
  | case3 read rest ih => exact (ih trivial herror).cons (.literal '}') trivial
  | case4 read rest hsingle ih => exact ih trivial (error_not_mem_of_closeText herror)
  | case6 read c rest _ _ hleft hright ih =>
    have htext : (Item.literal c).text = [c] := if_neg (not_or.mpr ⟨hleft, hright⟩)
    have hcons := (ih trivial herror).cons (.literal c) trivial
    rw [htext] at hcons
    exact hcons
  | case9 read rest ih =>
    have hrest := ih isSpec_nil herror
    simpa [Place.begun] using hrest
  | case10 read rest token htoken ih =>
    obtain ⟨hnonempty, hdigits, hfits, rfl⟩ := argumentToken?_eq_some_iff.mp htoken
    have hrest := ih trivial fun h => herror (List.mem_cons_of_mem _ h)
    have hcons := hrest.cons (.hole read.reverse none)
      ⟨hnonempty, hdigits, hfits, isSpec_none⟩
    simpa [Item.text, holeText, Place.begun] using hcons
  | case12 read c rest _ _ hright ih =>
    have hrest := ih trivial herror
    simpa [Place.begun] using hrest
  | case15 digits read rest token htoken ih =>
    obtain ⟨hnonempty, hdigits, hfits, rfl⟩ := argumentToken?_eq_some_iff.mp htoken
    have hrest := ih trivial fun h => herror (List.mem_cons_of_mem _ h)
    have hcons := hrest.cons (.hole digits.reverse (some read.reverse))
      ⟨hnonempty, hdigits, hfits, plain⟩
    simpa [Item.text, holeText, Place.begun] using hcons
  | case17 digits read c rest hleft hright ih =>
    have hrest := ih (isSpec_read plain hleft hright) herror
    simpa [Place.begun] using hrest
  | _ => exact absurd List.mem_cons_self herror

end Soundness

section Shape

/-- The shape of what a format is split into. -/
structure IsSplit (tokens : List Token) : Prop where
  error_last : .error ∉ tokens.dropLast
  filled : .text [] ∉ tokens
  apart : tokens.IsChain fun first second => ¬(first.isText = true ∧ second.isText = true)
  holes : ∀ index spec, .ofHole index spec ∈ tokens → index < 2 ^ 64 ∧ IsSpec spec

variable {token : Token} {tokens : List Token}

theorem ofHole_ne_error (index : Nat) (spec : Option (List Char)) :
    Token.ofHole index spec ≠ .error := by
  cases spec <;> nofun

theorem ofHole_ne_text (index : Nat) (spec : Option (List Char)) (cs : List Char) :
    Token.ofHole index spec ≠ .text cs := by
  cases spec <;> nofun

theorem isText_ofHole (index : Nat) (spec : Option (List Char)) :
    (Token.ofHole index spec).isText = false := by
  cases spec <;> rfl

theorem ofHole_injective {index index' : Nat} {spec spec' : Option (List Char)}
    (h : Token.ofHole index spec = .ofHole index' spec') : index = index' ∧ spec = spec' := by
  cases spec <;> cases spec' <;> cases h <;> exact ⟨rfl, rfl⟩

theorem isSplit_nil : IsSplit [] :=
  ⟨List.not_mem_nil, List.not_mem_nil, .nil, fun _ _ => nofun⟩

theorem isSplit_error : IsSplit [.error] :=
  ⟨List.not_mem_nil, by simp, .singleton _, fun index spec h =>
    absurd (List.mem_singleton.mp h) (ofHole_ne_error index spec)⟩

theorem error_not_mem_dropLast_cons (hne : token ≠ .error) (h : .error ∉ tokens.dropLast) :
    .error ∉ (token :: tokens).dropLast := by
  cases tokens with
  | nil => exact List.not_mem_nil
  | cons second rest =>
    rw [List.dropLast_cons_cons, List.mem_cons, not_or]
    exact ⟨hne.symm, h⟩

theorem IsSplit.text_cons {cs : List Char} (hcs : cs ≠ [])
    (hhead : ∀ next ∈ tokens.head?, next.isText = false) (h : IsSplit tokens) :
    IsSplit (.text cs :: tokens) where
  error_last := error_not_mem_dropLast_cons nofun h.error_last
  filled := by
    rw [List.mem_cons, not_or]
    exact ⟨fun heq => hcs (Token.text.inj heq).symm, h.filled⟩
  apart := List.isChain_cons.mpr
    ⟨fun next hnext htexts => absurd htexts.2 (by simp [hhead next hnext]), h.apart⟩
  holes index spec hmem := by
    rcases List.mem_cons.mp hmem with heq | hmem
    · exact absurd heq (ofHole_ne_text index spec cs)
    · exact h.holes index spec hmem

theorem IsSplit.hole_cons {index : Nat} {spec : Option (List Char)} (hindex : index < 2 ^ 64)
    (hspec : IsSpec spec) (h : IsSplit tokens) : IsSplit (.ofHole index spec :: tokens) where
  error_last := error_not_mem_dropLast_cons (ofHole_ne_error index spec) h.error_last
  filled := by
    rw [List.mem_cons, not_or]
    exact ⟨(ofHole_ne_text index spec []).symm, h.filled⟩
  apart := List.isChain_cons.mpr
    ⟨fun next _ htexts => absurd htexts.1 (by simp [isText_ofHole]), h.apart⟩
  holes index' spec' hmem := by
    rcases List.mem_cons.mp hmem with heq | hmem
    · obtain ⟨rfl, rfl⟩ := ofHole_injective heq
      exact ⟨hindex, hspec⟩
    · exact h.holes index' spec' hmem

theorem IsSplit.closeText (read : List Char)
    (hhead : ∀ next ∈ tokens.head?, next.isText = false) (h : IsSplit tokens) :
    IsSplit (closeText read tokens) := by
  unfold CompositeFormat.closeText
  split
  · exact h
  · rename_i hread
    refine h.text_cons ?_ hhead
    simpa using hread

/-- The piece that is being read is a hole. -/
def Place.IsInHole : Place → Prop
  | .text _ => False
  | _ => True

/-- A hole that was begun gives a token of its own, or an error; no text comes before it. -/
theorem isSplit_scan (place : Place) (format : List Char) (plain : place.IsPlain) :
    IsSplit (scan place format) ∧
      (place.IsInHole → ∀ first ∈ (scan place format).head?, first.isText = false) := by
  fun_induction scan place format with
  | case1 read =>
    exact ⟨isSplit_nil.closeText read fun _ h => absurd h (Option.not_mem_none _), False.elim⟩
  | case2 read rest ih => exact ⟨(ih trivial).1, False.elim⟩
  | case3 read rest ih => exact ⟨(ih trivial).1, False.elim⟩
  | case4 read rest hsingle ih =>
    obtain ⟨hsplit, hhead⟩ := ih trivial
    exact ⟨hsplit.closeText read (hhead trivial), False.elim⟩
  | case6 read c rest _ _ hleft hright ih => exact ⟨(ih trivial).1, False.elim⟩
  | case9 read rest ih =>
    obtain ⟨hsplit, hhead⟩ := ih isSpec_nil
    exact ⟨hsplit, fun _ => hhead trivial⟩
  | case10 read rest token htoken ih =>
    obtain ⟨_, _, hfits, rfl⟩ := argumentToken?_eq_some_iff.mp htoken
    refine ⟨(ih trivial).1.hole_cons hfits isSpec_none, ?_⟩
    rintro _ _ ⟨⟩
    rfl
  | case12 read c rest _ _ hright ih =>
    obtain ⟨hsplit, hhead⟩ := ih trivial
    exact ⟨hsplit, fun _ => hhead trivial⟩
  | case15 digits read rest token htoken ih =>
    obtain ⟨_, _, hfits, rfl⟩ := argumentToken?_eq_some_iff.mp htoken
    refine ⟨(ih trivial).1.hole_cons hfits plain, ?_⟩
    rintro _ _ ⟨⟩
    rfl
  | case17 digits read c rest hleft hright ih =>
    obtain ⟨hsplit, hhead⟩ := ih (isSpec_read plain hleft hright)
    exact ⟨hsplit, fun _ => hhead trivial⟩
  | _ =>
    refine ⟨isSplit_error, ?_⟩
    rintro _ _ ⟨⟩
    rfl

end Shape

section Writing

/-- A token as it stands in a format. -/
def Token.written : Token → List Char
  | .text cs => doubleBraces cs
  | .argument index => (Item.hole (Nat.toDigits 10 index) none).text
  | .argumentWithSpec index spec => (Item.hole (Nat.toDigits 10 index) (some spec)).text
  | .error => []

def Token.items : Token → List Item
  | .text cs => cs.map .literal
  | .argument index => [.hole (Nat.toDigits 10 index) none]
  | .argumentWithSpec index spec => [.hole (Nat.toDigits 10 index) (some spec)]
  | .error => []

variable {digits : List Char} {tokens : List Token}

theorem written_ofHole (index : Nat) (spec : Option (List Char)) :
    (Token.ofHole index spec).written = (Item.hole (Nat.toDigits 10 index) spec).text := by
  cases spec <;> rfl

theorem items_ofHole (index : Nat) (spec : Option (List Char)) :
    (Token.ofHole index spec).items = [.hole (Nat.toDigits 10 index) spec] := by
  cases spec <;> rfl

theorem written_eq_text_items (token : Token) : token.written = token.items.flatMap Item.text := by
  cases token with
  | text cs =>
    rw [Token.written, Token.items, List.flatMap_map]
    rfl
  | argument index => simp [Token.written, Token.items]
  | argumentWithSpec index spec => simp [Token.written, Token.items]
  | error => rfl

theorem gather_literals (cs : List Char) (read : List Char) (items : List Item) :
    gather read (cs.map Item.literal ++ items) = gather (cs.reverse ++ read) items := by
  induction cs generalizing read with
  | nil => rfl
  | cons c cs ih =>
    rw [List.map_cons, List.cons_append, gather, ih, List.reverse_cons, List.append_assoc,
      List.singleton_append]

theorem closeText_reverse {cs : List Char} (hcs : cs ≠ []) (rest : List Token) :
    closeText cs.reverse rest = .text cs :: rest := by
  rw [closeText, if_neg (by simpa using hcs), List.reverse_reverse]

theorem IsSplit.tail {token : Token} (h : IsSplit (token :: tokens)) : IsSplit tokens where
  error_last hmem := by
    refine h.error_last ?_
    cases tokens with
    | nil => cases hmem
    | cons second rest => exact List.mem_cons_of_mem _ hmem
  filled hmem := h.filled (List.mem_cons_of_mem _ hmem)
  apart := (List.isChain_cons.mp h.apart).2
  holes index spec hmem := h.holes index spec (List.mem_cons_of_mem _ hmem)

theorem IsSplit.head_isText {cs : List Char} (h : IsSplit (.text cs :: tokens)) :
    ∀ next ∈ tokens.head?, next.isText = false := by
  intro next hnext
  have hapart := (List.isChain_cons.mp h.apart).1 next hnext
  rw [not_and] at hapart
  exact eq_false_of_ne_true (hapart rfl)

/-- A token that is not an error is text or a hole. -/
theorem Token.exists_eq_of_ne_error {token : Token} (hne : token ≠ .error) :
    (∃ cs, token = .text cs) ∨ ∃ index spec, token = .ofHole index spec := by
  cases token with
  | text cs => exact .inl ⟨cs, rfl⟩
  | argument index => exact .inr ⟨index, none, rfl⟩
  | argumentWithSpec index spec => exact .inr ⟨index, some spec, rfl⟩
  | error => exact absurd rfl hne

/-- The items that tokens are written as are gathered into the tokens again: text goes on until a
hole comes, and no text follows on a text. -/
theorem gather_items (split : IsSplit tokens) (herror : .error ∉ tokens) :
    gather [] (tokens.flatMap Token.items) = tokens ∧
      ((∀ next ∈ tokens.head?, next.isText = false) → ∀ read,
        gather read (tokens.flatMap Token.items) = closeText read tokens) := by
  induction tokens with
  | nil => exact ⟨rfl, fun _ _ => rfl⟩
  | cons token rest ih =>
    rw [List.mem_cons, not_or] at herror
    obtain ⟨hrest, hopen⟩ := ih split.tail herror.2
    rw [List.flatMap_cons]
    rcases Token.exists_eq_of_ne_error (Ne.symm herror.1) with ⟨cs, rfl⟩ | ⟨index, spec, rfl⟩
    -- A text closes only before what is no text, so the open half of the hypothesis is needed.
    · have hcs : cs ≠ [] := by
        rintro rfl
        exact split.filled List.mem_cons_self
      refine ⟨?_, fun hhead => absurd (hhead _ rfl) (by simp [Token.isText])⟩
      rw [Token.items, gather_literals, List.append_nil, hopen split.head_isText,
        closeText_reverse hcs]
    · have hhole (read : List Char) :
          gather read ((Token.ofHole index spec).items ++ rest.flatMap Token.items) =
            closeText read (.ofHole index spec :: rest) := by
        rw [items_ofHole, List.singleton_append, gather, Nat.ofDigitChars_ten_toDigits, hrest]
      exact ⟨hhole [], fun _ read => hhole read⟩

theorem isValid_hole_toDigits {index : Nat} {spec : Option (List Char)} (hindex : index < 2 ^ 64)
    (hspec : IsSpec spec) : (Item.hole (Nat.toDigits 10 index) spec).IsValid := by
  refine ⟨Nat.toDigits_ne_nil, List.all_eq_true.mpr fun c hc => ?_, ?_, hspec⟩
  · exact Nat.isDigit_of_mem_toDigits (by decide) (by decide) hc
  · rw [Nat.ofDigitChars_ten_toDigits]
    exact hindex

theorem IsSplit.isValid_items (split : IsSplit tokens) :
    ∀ item ∈ tokens.flatMap Token.items, item.IsValid := by
  intro item hitem
  obtain ⟨token, htoken, hitem⟩ := List.mem_flatMap.mp hitem
  by_cases hne : token = .error
  · rw [hne] at hitem
    cases hitem
  rcases Token.exists_eq_of_ne_error hne with ⟨cs, rfl⟩ | ⟨index, spec, rfl⟩
  · obtain ⟨c, _, rfl⟩ := List.mem_map.mp hitem
    trivial
  · rw [items_ofHole, List.mem_singleton] at hitem
    obtain ⟨hindex, hspec⟩ := split.holes index spec htoken
    rw [hitem]
    exact isValid_hole_toDigits hindex hspec

theorem tokens_written (split : IsSplit tokens) (herror : .error ∉ tokens) :
    CompositeFormat.tokens (tokens.flatMap Token.written) = tokens := by
  have hitems : tokens.flatMap Token.written =
      (tokens.flatMap Token.items).flatMap Item.text := by
    rw [List.flatMap_assoc]
    exact List.flatMap_congr fun token _ => written_eq_text_items token
  rw [CompositeFormat.tokens, hitems, scan_items split.isValid_items]
  exact (gather_items split herror).1

theorem code_of_isDigit {c : Char} (hc : c.isDigit = true) : 48 ≤ c.toNat ∧ c.toNat ≤ 57 :=
  Char.isDigit_iff_toNat.mp hc

theorem toDigits_of_isDigit {c : Char} (hc : c.isDigit = true) :
    Nat.toDigits 10 (c.toNat - 48) = [c] := by
  obtain ⟨hlow, hhigh⟩ := code_of_isDigit hc
  have hten : c.toNat - 48 < 10 := by omega
  rw [Nat.toDigits_of_lt_base hten, List.cons.injEq, ← Char.toNat_inj,
    Nat.toNat_digitChar_of_lt_ten hten]
  exact ⟨by omega, rfl⟩

/-- Digits behind a positive number are the last digits of the number they make. -/
theorem toDigits_ofDigitChars {n : Nat} (hpos : 0 < n)
    (hdigits : ∀ c ∈ digits, c.isDigit = true) :
    Nat.toDigits 10 (Nat.ofDigitChars 10 digits n) = Nat.toDigits 10 n ++ digits := by
  induction digits generalizing n with
  | nil => simp
  | cons c digits ih =>
    have hc : c.isDigit = true := hdigits c List.mem_cons_self
    obtain ⟨_, hhigh⟩ := code_of_isDigit hc
    have hten : c.toNat - 48 < 10 := by omega
    have hstep : Nat.ofDigitChars 10 (c :: digits) n =
        Nat.ofDigitChars 10 digits (10 * n + (c.toNat - 48)) := Nat.ofDigitChars_cons
    rw [hstep, ih (by omega) fun d hd => hdigits d (List.mem_cons_of_mem _ hd),
      ← Nat.toDigits_append_toDigits (by decide) hpos hten, toDigits_of_isDigit hc,
      List.append_assoc, List.singleton_append]

/-- The decimal of a number that digits spell is those digits without leading zeros. -/
theorem toDigits_eq_trimZeros (hnonempty : digits ≠ [])
    (hdigits : ∀ c ∈ digits, c.isDigit = true) :
    Nat.toDigits 10 (Nat.ofDigitChars 10 digits 0) = trimZeros digits := by
  fun_induction trimZeros digits with
  | case1 digit rest ih =>
    exact ih nofun fun c hc => hdigits c (List.mem_cons_of_mem _ hc)
  | case2 digits hsingle =>
    obtain ⟨c, rest, rfl⟩ := List.exists_cons_of_ne_nil hnonempty
    have hc : c.isDigit = true := hdigits c List.mem_cons_self
    have hstep : Nat.ofDigitChars 10 (c :: rest) 0 =
        Nat.ofDigitChars 10 rest (c.toNat - 48) := by
      rw [Nat.ofDigitChars_cons, Nat.mul_zero, Nat.zero_add]
      rfl
    rw [hstep]
    cases rest with
    | nil => exact toDigits_of_isDigit hc
    | cons d rest =>
      have hne : c.toNat ≠ 48 := by
        intro heq
        have hzero : c = '0' := Char.toNat_inj.mp heq
        exact hsingle d rest (by rw [hzero])
      have hpos : 0 < c.toNat - 48 := by
        have := (code_of_isDigit hc).1
        omega
      rw [toDigits_ofDigitChars hpos fun d hd => hdigits d (List.mem_cons_of_mem _ hd),
        toDigits_of_isDigit hc, List.singleton_append]

theorem written_closeText (read : List Char) (tokens : List Token) :
    (closeText read tokens).flatMap Token.written =
      doubleBraces read.reverse ++ tokens.flatMap Token.written := by
  unfold closeText
  split
  · rename_i hempty
    rw [List.isEmpty_iff.mp hempty]
    rfl
  · rfl

/-- Tokens are written as the items they stand for, with plain indices. -/
theorem written_gather {items : List Item} (valid : ∀ item ∈ items, item.IsValid)
    (read : List Char) : (gather read items).flatMap Token.written =
      doubleBraces read.reverse ++ (items.map Item.trimmed).flatMap Item.text := by
  fun_induction gather read items with
  | case1 read => rw [written_closeText, List.map_nil, List.flatMap_nil, List.flatMap_nil]
  | case2 read c rest ih =>
    have hbrace : doubleBraces [c] = doubleBrace c := List.flatMap_singleton ..
    rw [ih fun item h => valid item (List.mem_cons_of_mem _ h), List.reverse_cons,
      LiteralText.doubleBraces_append, hbrace, List.append_assoc, List.map_cons,
      List.flatMap_cons, Item.trimmed, Item.text]
  | case3 read digits spec rest ih =>
    obtain ⟨hnonempty, hdigits, _, _⟩ := valid _ List.mem_cons_self
    rw [written_closeText, List.flatMap_cons, written_ofHole,
      ih fun item h => valid item (List.mem_cons_of_mem _ h),
      toDigits_eq_trimZeros hnonempty (List.all_eq_true.mp hdigits), List.map_cons,
      List.flatMap_cons, Item.trimmed]
    rfl

theorem error_not_mem_closeText (read : List Char) (herror : .error ∉ tokens) :
    .error ∉ closeText read tokens := by
  unfold closeText
  split
  · exact herror
  · rw [List.mem_cons, not_or]
    exact ⟨nofun, herror⟩

theorem error_not_mem_gather (read : List Char) (items : List Item) :
    .error ∉ gather read items := by
  fun_induction gather read items with
  | case1 read => exact error_not_mem_closeText read List.not_mem_nil
  | case2 read c rest ih => exact ih
  | case3 read digits spec rest ih =>
    refine error_not_mem_closeText read ?_
    rw [List.mem_cons, not_or]
    exact ⟨(ofHole_ne_error _ spec).symm, ih⟩

end Writing

/-- Every format is split into tokens of one shape, and there is no error among them exactly if it
is a row of valid items. Tokens of this shape without an error come back when they are written and
split; what a row of items is split into is written as the same row with plain indices. -/
theorem tokens_grammar (format : List Char) :
    IsSplit (tokens format) ∧
      (.error ∉ tokens format ↔ IsFormat format) ∧
      (∀ ts, IsSplit ts → .error ∉ ts → tokens (ts.flatMap Token.written) = ts) ∧
      ∀ items : List Item, (∀ item ∈ items, item.IsValid) → format = items.flatMap Item.text →
        (tokens format).flatMap Token.written = (items.map Item.trimmed).flatMap Item.text := by
  refine ⟨(isSplit_scan (.text []) format trivial).1, ⟨?_, ?_⟩, ?_, ?_⟩
  · exact isFormat_of_scan (.text []) format trivial
  · rintro ⟨items, valid, rfl⟩
    rw [tokens, scan_items valid]
    exact error_not_mem_gather [] items
  · exact fun ts => tokens_written
  · rintro items valid rfl
    rw [tokens, scan_items valid, written_gather valid]
    rfl

theorem tokens_grammar_paddedIndex :
    let items : List Item :=
      [.literal '{', .hole ['0', '0', '7'] (some ['N', ':']), .literal '}', .literal '!']
    tokens (items.flatMap Item.text) =
        [.text ['{'], .argumentWithSpec 7 ['N', ':'], .text ['}', '!']] ∧
      (tokens (items.flatMap Item.text)).flatMap Token.written =
        ['{', '{', '{', '7', ':', 'N', ':', '}', '}', '}', '!'] := by
  intro items
  have valid : ∀ item ∈ items, item.IsValid := by
    simp [items, Item.IsValid, IsSpec, Nat.ofDigitChars]
  exact ⟨rfl, (tokens_grammar _).2.2.2 items valid rfl⟩

end OperatorRecovery.CompositeFormat
