import PredicateScript.Text.Invisible

/-!
# Quoted text

A text inside a script is shown between double quotes. A quote or a
backslash of the text itself gets a backslash in front, the null, tab,
line feed and carriage return characters have escapes of one letter, and
every other character without a mark of its own is written by its code
point, in hexadecimal between braces. So the closing quote is the only
quote in the written form that no backslash precedes. An apostrophe needs
no escape.
-/

namespace PredicateScript.Text

/-- The escape that writes a character by its code point. -/
def codePointEscape (c : Char) : List Char :=
  ['\\', 'u', '\x7b'] ++ Nat.toDigits 16 c.toNat ++ ['\x7d']

/-- **How one character is written** inside quotes. -/
def escape (c : Char) : List Char :=
  if c = '"' then ['\\', '"']
  else if c = '\\' then ['\\', '\\']
  else if c = '\t' then ['\\', 't']
  else if c = '\n' then ['\\', 'n']
  else if c = '\r' then ['\\', 'r']
  else if c = '\x00' then ['\\', '0']
  else if isInvisible c then codePointEscape c
  else [c]

/-- **A text between quotes**, each of its characters escaped as
needed. -/
def quoted (s : String) : String :=
  String.ofList ('"' :: s.toList.flatMap escape ++ ['"'])

/-- A list of texts: between brackets, each text quoted. -/
def quotedList (l : List String) : String :=
  "[" ++ ", ".intercalate (l.map quoted) ++ "]"

end PredicateScript.Text
