import OperatorRecovery.AlphanumericRanges
import OperatorRecovery.ExtenderRanges
import OperatorRecovery.UnprintableRanges

/-!
Character classes of Unicode text. ASCII is decided by a short rule in every
class, the rest by sorted ranges. Blanks are the characters of White_Space;
the narrow ones among them take a single byte in UTF-8.
-/

namespace OperatorRecovery.Characters

/-- Whether `n` lies in one of the ranges that `bounds` delimits in turn. -/
def inRanges : List Nat → Nat → Bool
  | low :: high :: rest, n => if n < high then decide (low ≤ n) else inRanges rest n
  | _, _ => false

def isAscii (c : Char) : Bool := c.toNat < 0x80

def isControl (c : Char) : Bool := c.toNat < 0x20 || 0x7f ≤ c.toNat && c.toNat < 0xa0

def isAlphanumeric (c : Char) : Bool :=
  if isAscii c then c.isAlphanum else inRanges AlphanumericRanges.bounds c.toNat

def isNarrowBlank (c : Char) : Bool := c.toNat = 0x20 || 0x09 ≤ c.toNat && c.toNat < 0x0e

def isWideBlank (c : Char) : Bool :=
  inRanges [0x85, 0x86, 0xa0, 0xa1, 0x1680, 0x1681, 0x2000, 0x200b, 0x2028, 0x202a,
    0x202f, 0x2030, 0x205f, 0x2060, 0x3000, 0x3001] c.toNat

def isBlank (c : Char) : Bool := isNarrowBlank c || isWideBlank c

/-- The fillers of Hangul syllables, the only letters that are ignored in display. -/
def isHangulFiller (c : Char) : Bool :=
  inRanges [0x115f, 0x1161, 0x3164, 0x3165, 0xffa0, 0xffa1] c.toNat

def isPrintable (c : Char) : Bool :=
  if isAscii c then !isControl c
  else !isHangulFiller c && !inRanges UnprintableRanges.bounds c.toNat

/-- The halfwidth sound marks of katakana, the only letters that extend a grapheme. -/
def isHalfwidthSoundMark (c : Char) : Bool := inRanges [0xff9e, 0xffa0] c.toNat

/-- Whether a character is drawn onto the one before it. A halfwidth sound mark
has a place of its own. -/
def joinsPrevious (c : Char) : Bool :=
  !isAscii c && !isHalfwidthSoundMark c && inRanges ExtenderRanges.bounds c.toNat

theorem isNarrowBlank_lt {c : Char} (h : isNarrowBlank c = true) : c.toNat < 0x80 := by
  simp [isNarrowBlank] at h
  omega

theorem isWideBlank_ge {c : Char} (h : isWideBlank c = true) : 0x80 ≤ c.toNat := by
  simp only [isWideBlank, inRanges] at h
  by_cases hc : c.toNat < 0x86
  · simp [hc] at h
    omega
  · omega

/-- No blank is both narrow and wide. -/
theorem not_isWideBlank_of_isNarrowBlank {c : Char} (h : isNarrowBlank c = true) :
    isWideBlank c = false := by
  cases hwide : isWideBlank c with
  | false => rfl
  | true =>
    have hlow := isNarrowBlank_lt h
    have hhigh := isWideBlank_ge hwide
    omega

end OperatorRecovery.Characters
