import DataAgent.Text.Unprintable

/-!
# Text — Shown

Strings as messages show them: in double quotes, with escapes for quotes, backslashes and
whatever would not be seen.
-/

namespace DataAgent

/-- A code point in hexadecimal. -/
def hexChars (n : Nat) : List Char := Nat.toDigits 16 n

/-- A character inside a shown string. -/
def shownChar (c : Char) : List Char :=
  if c = '"' then ['\\', '"']
  else if c = '\\' then ['\\', '\\']
  else if c = '\n' then ['\\', 'n']
  else if c = '\r' then ['\\', 'r']
  else if c = '\t' then ['\\', 't']
  else if c.toNat = 0 then ['\\', '0']
  else if isUnprintable c then '\\' :: 'u' :: '\x7b' :: hexChars c.toNat ++ ['\x7d']
  else [c]

/-- A string as messages show it. -/
def shown (s : String) : String := String.ofList ('"' :: s.toList.flatMap shownChar ++ ['"'])

end DataAgent
