/-
Texts in double quotes, on one line whatever they hold.

Tab, return, newline, NUL, the double quote and the backslash have an
escape of two characters; other unprintable characters are spelled by
their code point in hexadecimal. An apostrophe and every printable
character stand for themselves.
-/
import BraceLift.Text.Unprintable

namespace BraceLift.Text

/-- How a quoted text writes one character. -/
def quoteChar (c : Char) : Text :=
  if c = '\x00' then ['\\', '0']
  else if c = '\t' then ['\\', 't']
  else if c = '\r' then ['\\', 'r']
  else if c = '\n' then ['\\', 'n']
  else if c = '"' then ['\\', '"']
  else if c = '\\' then ['\\', '\\']
  else if isUnprintable c then
    "\\u\x7b".toList ++ Nat.toDigits 16 c.toNat ++ "\x7d".toList
  else [c]

/-- The text in double quotes. -/
def quoted (t : Text) : Text :=
  '"' :: t.flatMap quoteChar ++ ['"']

end BraceLift.Text
