import Quiesce.Text.Unprintable
import Quiesce.Text.GraphemeExtend
/-!
# Quoted text

The form in which names are shown for diagnosis: between double quotes, with a backslash escape for
every character that would not be seen as itself. An apostrophe is left bare.
-/

namespace Quiesce.Text

def hexDigits (n : Nat) : List Char :=
  Nat.toDigits 16 n

/-- A character by its code point: a backslash, the letter u and hexadecimal digits in braces. -/
def codePointEscape (c : Char) : List Char :=
  '\\' :: 'u' :: '\x7b' :: (hexDigits c.toNat ++ ['\x7d'])

/-- How one character is written inside the quotes. -/
def escape (c : Char) : List Char :=
  if c = '\x00' then ['\\', '0']
  else if c = '\t' then ['\\', 't']
  else if c = '\r' then ['\\', 'r']
  else if c = '\n' then ['\\', 'n']
  else if c = '\\' then ['\\', '\\']
  else if c = '"' then ['\\', '"']
  else if isGraphemeExtend c || isUnprintable c then codePointEscape c
  else [c]

/-- The characters of a quoted text, quotes included. -/
def quotedChars (s : List Char) : List Char :=
  '"' :: (s.flatMap escape ++ ['"'])

/-- A text between double quotes, escaped. -/
def quote (s : String) : String :=
  String.ofList (quotedChars s.toList)

/-- An optional text: `Some("…")` or `None`. -/
def quoteOption : Option String → String
  | some s => "Some(" ++ quote s ++ ")"
  | none => "None"

example : quotedChars ['a', '"', '\n'] = ['"', 'a', '\\', '"', '\\', 'n', '"'] := by
  decide +kernel

example : escape '\u0301' = ['\\', 'u', '\x7b', '3', '0', '1', '\x7d'] := by decide +kernel

end Quiesce.Text
