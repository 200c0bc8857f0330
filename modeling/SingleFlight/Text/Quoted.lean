import SingleFlight.Text.Visible

/-!
# Quoted text

The quoted form of texts and characters: the quote in use, the backslash and the common controls
get a backslash, other characters without a visible form are spelled by number.
-/

namespace SingleFlight.Text

/-- The number of a character in lower-case hexadecimal digits, in braces. -/
def spellByNumber (c : Char) : List Char :=
  ['\\', 'u', '\x7b'] ++ Nat.toDigits 16 c.toNat ++ ['\x7d']

/-- How a character is written between two of the given quotes. -/
def spell (quote c : Char) : List Char :=
  if c = '\x00' then ['\\', '0']
  else if c = '\t' then ['\\', 't']
  else if c = '\r' then ['\\', 'r']
  else if c = '\n' then ['\\', 'n']
  else if c = '\\' || c = quote then ['\\', c]
  else if isVisible c then [c]
  else spellByNumber c

/-- A text in double quotes. -/
def quoted (s : String) : String :=
  String.ofList (('"' :: s.toList.flatMap (spell '"')) ++ ['"'])

/-- A character in single quotes. -/
def quotedChar (c : Char) : String :=
  String.ofList (('\'' :: spell '\'' c) ++ ['\''])

end SingleFlight.Text
