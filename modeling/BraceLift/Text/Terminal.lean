/-
Text on its way to a terminal, which obeys some characters instead of
showing them.

There are two ways to keep it from obeying. A line of the log spells
the characters that could start something by their number
(`disarmed`). A message about an argument leaves out every character
that is not shown, and with an escape character the whole sequence
that it opens (`visible`).

A sequence is read by one character after the other (`Mode.next`): an
escape character starts one anywhere, cancel and substitute end one
anywhere, and white space ends a sequence that has no payload.
-/
import BraceLift.Text.Basic

namespace BraceLift.Text

-- ========================================================== control codes

/-- The code points from `first` to `last`. -/
def between (first last : Nat) (c : Char) : Bool :=
  first ≤ c.toNat && c.toNat ≤ last

/-- White space that moves the cursor: tab, newline, form feed and
return. -/
def isMotion (c : Char) : Bool :=
  c == '\t' || c == '\n' || c == '\x0c' || c == '\r'

/-- Whether a character by itself leaves something on the terminal. -/
def isShown (c : Char) : Bool :=
  isMotion c || (' ' ≤ c && c != '\x7f')

/-- Whether some byte of the character in UTF-8 is the one that ends a
payload in an eight-bit code. -/
def holdsTerminator (c : Char) : Bool :=
  (bytes [c]).data.contains 0x9c

-- ============================================================= sequences

/-- How far a terminal has read. -/
inductive Mode where
  /-- Outside of any sequence. -/
  | ground
  /-- After an escape character. -/
  | escape
  /-- In an escape sequence of more than one character. -/
  | escapeBody
  /-- In a control sequence. -/
  | control
  /-- In a command, up to a bell. -/
  | command
  /-- At the start of a device string. -/
  | device
  /-- In the parameters of a device string. -/
  | deviceParameters
  /-- In what follows the parameters of a device string. -/
  | deviceBody
  /-- In the payload of a string. -/
  | payload
  deriving DecidableEq, Repr

namespace Mode

/-- The mode after the character that follows an escape character. -/
def ofIntroducer (c : Char) : Mode :=
  if between 0x20 0x2F c then .escapeBody
  else if c = '[' then .control
  else if c = ']' then .command
  else if c = 'P' then .device
  else if c = 'X' ∨ c = '^' ∨ c = '_' then .payload
  else if between 0x30 0x7E c then .ground
  else .escape

/-- The mode after a character that is none of those that act alike in
every sequence. -/
def advance : Mode → Char → Mode
  | .ground, _ => .ground
  | .escape, c => if isMotion c then .ground else ofIntroducer c
  | .escapeBody, c =>
      if isMotion c ∨ between 0x30 0x7E c then .ground else .escapeBody
  | .control, c =>
      if isMotion c ∨ between 0x40 0x7E c then .ground else .control
  | .command, c => if c = '\x07' then .ground else .command
  | .device, c =>
      if between 0x20 0x2F c then .deviceBody
      else if between 0x30 0x3F c then .deviceParameters
      else if between 0x40 0x7E c then .payload
      else .device
  | .deviceParameters, c =>
      if between 0x20 0x2F c then .deviceBody
      else if between 0x3C 0x7E c then .payload
      else .deviceParameters
  | .deviceBody, c =>
      if between 0x30 0x7E c then .payload else .deviceBody
  | .payload, c => if holdsTerminator c then .ground else .payload

/-- The mode after one more character. -/
def next (mode : Mode) (c : Char) : Mode :=
  if c = '\x1b' then .escape
  else if c = '\x18' ∨ c = '\x1a' then .ground
  else mode.advance c

/-- Whether a character is shown in a mode. -/
def shows : Mode → Char → Bool
  | .ground, c => isShown c
  | .escape, c | .escapeBody, c | .control, c => isMotion c
  | _, _ => false

end Mode

/-- What is shown of a text that is read in some mode. -/
def visibleFrom : Mode → Text → Text
  | _, [] => []
  | mode, c :: rest =>
      let more := visibleFrom (mode.next c) rest
      if mode.shows c then c :: more else more

/-- What a terminal shows of a text. -/
def visible (t : Text) : Text :=
  visibleFrom .ground t

-- ============================================================== spelling

/-- A character as it stands in a line of the log: escape, bell,
backspace, form feed, delete and the eight-bit control codes are
spelled by their number. -/
def disarmChar (c : Char) : Text :=
  if c = '\x1b' then "\\x1b".toList
  else if c = '\x07' then "\\x07".toList
  else if c = '\x08' then "\\x08".toList
  else if c = '\x0c' then "\\x0c".toList
  else if c = '\x7f' then "\\x7f".toList
  else if between 0x80 0x9F c then
    "\\u\x7b".toList ++ Nat.toDigits 16 c.toNat ++ "\x7d".toList
  else [c]

/-- The text with every character that could start something spelled
out. -/
def disarmed (t : Text) : Text :=
  t.flatMap disarmChar

end BraceLift.Text
