import RunParams.Text.CodeRun

/-!
# White space

The 29 white space characters that separate tokens: the Unicode property, with the four information separators
U+001C to U+001F. Numerals may be surrounded by white space other than those four.
-/

namespace RunParams.Text

/-- The ranges of the white space characters. -/
def blankRanges : List (Nat × Nat) :=
  [(0x9, 0xD), (0x1C, 0x20), (0x85, 0x85), (0xA0, 0xA0), (0x1680, 0x1680), (0x2000, 0x200A), (0x2028, 0x2029),
   (0x202F, 0x202F), (0x205F, 0x205F), (0x3000, 0x3000)]

/-- Whether a character is white space. -/
def isBlank (c : Char) : Bool :=
  inRanges blankRanges c.toNat

/-- Whether a character is one of the four information separators. -/
def isSeparator (c : Char) : Bool :=
  0x1C ≤ c.toNat && c.toNat ≤ 0x1F

/-- The text from its first character that is not white space on. -/
def skipBlanks (s : List Char) : List Char :=
  s.dropWhile isBlank

/-- The text without what satisfies `p` at either end. -/
def trim (p : Char → Bool) (s : List Char) : List Char :=
  ((s.dropWhile p).reverse.dropWhile p).reverse

/-- The maximal runs of characters that are not white space, in order. -/
def words (s : List Char) : List (List Char) :=
  go [] s
where
  /-- The words of `s` when the characters of `word` stand before it, last first. -/
  go (word : List Char) : List Char → List (List Char)
    | [] => if word.isEmpty then [] else [word.reverse]
    | c :: s =>
      if isBlank c then
        if word.isEmpty then go [] s else word.reverse :: go [] s
      else go (c :: word) s

end RunParams.Text
