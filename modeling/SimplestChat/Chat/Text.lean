import Mathlib

/-!
# Message text

Message text is a list of Unicode scalar values. The three predicates on
characters are the ones the server asks its Unicode tables for; the functions
above them are the text rules of chat: what counts as plain text, how long a
text is in bytes, and how a quoted excerpt is cut.
-/

namespace SimplestChat

abbrev Text := List Char

namespace Text

/-- The Unicode `White_Space` property. -/
def isWhitespace (c : Char) : Bool :=
  let n := c.toNat
  (9 ≤ n && n ≤ 13) || n = 0x20 || n = 0x85 || n = 0xA0 || n = 0x1680 ||
    (0x2000 ≤ n && n ≤ 0x200A) || n = 0x2028 || n = 0x2029 || n = 0x202F ||
    n = 0x205F || n = 0x3000

/-- The Unicode general category `Cc`. -/
def isControl (c : Char) : Bool :=
  let n := c.toNat
  n < 0x20 || (0x7F ≤ n && n ≤ 0x9F)

/-- The Unicode `Default_Ignorable_Code_Point` property. The source reads it from the
compiled data of `icu_properties`, of which this is a transcription. -/
def isDefaultIgnorable (c : Char) : Bool :=
  let n := c.toNat
  n = 0xAD || n = 0x34F || n = 0x61C || n = 0x115F || n = 0x1160 ||
    n = 0x17B4 || n = 0x17B5 || (0x180B ≤ n && n ≤ 0x180F) ||
    (0x200B ≤ n && n ≤ 0x200F) || (0x202A ≤ n && n ≤ 0x202E) ||
    (0x2060 ≤ n && n ≤ 0x206F) || n = 0x3164 ||
    (0xFE00 ≤ n && n ≤ 0xFE0F) || n = 0xFEFF || n = 0xFFA0 ||
    (0xFFF0 ≤ n && n ≤ 0xFFF8) || (0x1BCA0 ≤ n && n ≤ 0x1BCA3) ||
    (0x1D173 ≤ n && n ≤ 0x1D17A) || (0xE0000 ≤ n && n ≤ 0xE0FFF)

/-- Formatting that reorders or hides what is shown. Joiners, direction
marks, variation selectors and flag tags are needed by displayed text. -/
def isHiddenFormat (c : Char) : Bool :=
  let n := c.toNat
  let needed :=
    (0x200C ≤ n && n ≤ 0x200F) || n = 0x61C || (0x180B ≤ n && n ≤ 0x180F) ||
      (0xFE00 ≤ n && n ≤ 0xFE0F) || (0xE0020 ≤ n && n ≤ 0xE007F) ||
      (0xE0100 ≤ n && n ≤ 0xE01EF)
  if n = 0x2028 || n = 0x2029 then true
  else !needed && isDefaultIgnorable c

/-- Message text keeps line breaks and tabs and nothing else that hides. -/
def isPlainText (text : Text) : Bool :=
  !text.any fun c =>
    (isControl c && c != '\n' && c != '\t') || isHiddenFormat c

def byteLength (text : Text) : ℕ := (text.map fun c => c.utf8Size).sum

/-- `trim().is_empty()`. -/
def isBlank (text : Text) : Bool :=
  text.all isWhitespace

/-- The maximal runs of characters that are not white space. -/
def splitWhitespace : Text → List Text
  | [] => []
  | c :: rest =>
    if isWhitespace c then splitWhitespace rest
    else
      match rest, splitWhitespace rest with
      | [], _ => [[c]]
      | d :: _, words =>
        if isWhitespace d then [c] :: words
        else
          match words with
          | [] => [[c]]
          | word :: others => (c :: word) :: others

def trimEnd (text : Text) : Text := (text.reverse.dropWhile isWhitespace).reverse

/-- The first 140 characters of the text with its white space collapsed. -/
def quoteExcerpt (content : Text) : Text :=
  let flat := [' '].intercalate (splitWhitespace content)
  if 140 < flat.length then trimEnd (flat.take 140) ++ ['…'] else flat

end Text

end SimplestChat
