/-!
# Blank text

A character is blank when it belongs to the Unicode separators or to the control characters that
break lines or columns: tabs, line feeds, the four information separators, the next-line control,
and the spaces of every width.  The zero-width space and the byte-order mark are not blank.
-/

namespace AccessGraph.Text

/-- The blank characters, as closed ranges of code points. -/
def blankRanges : List (Nat × Nat) :=
  [(0x09, 0x0D), (0x1C, 0x20), (0x85, 0x85), (0xA0, 0xA0), (0x1680, 0x1680), (0x2000, 0x200A),
   (0x2028, 0x2029), (0x202F, 0x202F), (0x205F, 0x205F), (0x3000, 0x3000)]

/-- Whether `n` lies in one of the given closed ranges. -/
def inRanges (ranges : List (Nat × Nat)) (n : Nat) : Bool :=
  ranges.any fun (low, high) => low ≤ n && n ≤ high

/-- Whether a character separates words. -/
def isBlankChar (c : Char) : Bool := inRanges blankRanges c.toNat

/-- Whether a text holds nothing but blank characters; the empty text does. -/
def isBlank (s : String) : Bool := s.toList.all isBlankChar

/-- The text without the characters satisfying `p` at either end. -/
def stripChars (p : Char → Bool) (cs : List Char) : List Char :=
  (((cs.dropWhile p).reverse).dropWhile p).reverse

/-- The text without the line feeds at either end. -/
def stripLines (s : String) : String := String.ofList (stripChars (· == '\n') s.toList)

end AccessGraph.Text
