import SimplestChat.Chat.Entry

/-!
# Quote excerpts in the web client

The client cuts an excerpt itself when an edit or a removal reaches a quote that it has
loaded. It works on UTF-16 code units and with the white space of JavaScript, the server
on characters.
-/

namespace SimplestChat.Text

open List

/-- A character as JavaScript stores it. -/
def codeUnits (c : Char) : List ℕ :=
  let n := c.toNat
  if n < 0x10000 then [n]
  else [0xD800 + (n - 0x10000) / 0x400, 0xDC00 + (n - 0x10000) % 0x400]

def utf16 (text : Text) : List ℕ := text.flatMap codeUnits

/-- A character that is white space on both sides or on neither. -/
def Shared (c : Char) : Prop := c.toNat ≠ 0x85 ∧ c.toNat ≠ 0xFEFF

def flat (content : Text) : Text := [' '].intercalate (splitWhitespace content)

section

variable {content : Text} (h : ∀ c ∈ content, Shared c)
include h

end

end SimplestChat.Text
