import GraphQuery.Text.Escaped

/-!
# Quoted text

The form in which a string is shown wherever it has to be told from the text around it: between
double quotes, with a backslash before a quote or a backslash, with a letter for the four control
characters that have one, and with the code point in hexadecimal for any other character that does
not show. A single quote needs no escape.
-/

namespace GraphQuery

/-- The hexadecimal digits of a number, in lower case and without padding. -/
def hexDigits (n : Nat) : List Char :=
  Nat.toDigits 16 n

/-- One character as it stands between the quotes. -/
def quotedChar (c : Char) : List Char :=
  if c = '"' then ['\\', '"']
  else if c = '\\' then ['\\', '\\']
  else if c = '\t' then ['\\', 't']
  else if c = '\n' then ['\\', 'n']
  else if c = '\r' then ['\\', 'r']
  else if c = '\x00' then ['\\', '0']
  else if isEscaped c then ['\\', 'u', '\x7b'] ++ hexDigits c.toNat ++ ['\x7d']
  else [c]

/-- A text between double quotes. -/
def quoted (s : String) : String :=
  String.ofList ('"' :: s.toList.flatMap quotedChar ++ ['"'])

/-- Texts separated by a comma and a blank. -/
def commaSeparated (parts : List String) : String :=
  ", ".intercalate parts

/-- A list of strings, each in quotes, between square brackets. -/
def quotedList (strings : List String) : String :=
  "[" ++ commaSeparated (strings.map quoted) ++ "]"

example : quoted "a'b\"c\\\n" = "\"a'b\\\"c\\\\\\n\"" := by decide +kernel

end GraphQuery
