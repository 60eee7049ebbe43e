import ZoneConsole.Text.Hidden

/-!
# Texts shown in quotes

How messages show a text: in double quotes, with the quote and the backslash
escaped, tab, line feed, carriage return and NUL by their short escapes, and
every character without a shape of its own by its code in braces.
-/

namespace ZoneConsole.Text

/-- A character as it stands inside the quotes. -/
def showChar (c : Char) : List Char :=
  if c = '"' then ['\\', '"']
  else if c = '\\' then ['\\', '\\']
  else if c = '\t' then ['\\', 't']
  else if c = '\n' then ['\\', 'n']
  else if c = '\r' then ['\\', 'r']
  else if c.toNat = 0 then ['\\', '0']
  else if isHidden c then "\\u\x7b".toList ++ Nat.toDigits 16 c.toNat ++ ['}']
  else [c]

/-- A text in quotes. -/
def quoted (s : String) : String :=
  String.ofList ('"' :: (s.toList.flatMap showChar ++ ['"']))

end ZoneConsole.Text
