/-
Reading a command line, argument by argument.

An option without a value attached, and the source, are only noted when
they are met (`Pending`) and settled before the next option or at the
end. So a fault of theirs gives way to an argument that is not known or
to a value where none is wanted, both of which are found out without
settling anything; every other fault is reported in the order in which
the arguments are settled.

A value in an argument of its own never starts with a dash and a
further character; attached (`--name=value`, `-ovalue`) it may be
anything. After `--` every argument is taken as it is.
-/
import BraceLift.CommandLine.Setting

namespace BraceLift.CommandLine

/-- What has been met and not been settled. -/
inductive Pending where
  /-- Nothing. -/
  | nothing
  /-- An option whose value has yet to come. -/
  | awaiting (option : Valued)
  /-- An option with its value. -/
  | valued (option : Valued) (value : Text)
  /-- The source. -/
  | source (value : Text)
  deriving DecidableEq

/-- How far a command line has been read. -/
structure Reading where
  /-- The settings made, in their order. -/
  settings : List Setting
  pending : Pending
  /-- Whether the source has been met. -/
  sourceMet : Bool
  /-- Whether `--` has been met. -/
  plain : Bool
  deriving DecidableEq

namespace Reading

/-- Nothing read yet. -/
def start : Reading := ⟨[], .nothing, false, false⟩

-- ============================================================== settling

/-- Makes a setting whose value is read only if its item is new. -/
def accept (reading : Reading) (item : Item)
    (setting : Except Refusal Setting) : Except Refusal Reading :=
  if reading.settings.any (·.item == item) then .error (.repeated item)
  else setting.map fun made =>
    { reading with settings := reading.settings ++ [made] }

/-- Settles what is pending. -/
def settle (reading : Reading) : Except Refusal Reading :=
  let settled := { reading with pending := .nothing }
  match reading.pending with
  | .nothing => .ok reading
  | .awaiting option => .error (.missingValue (.valued option))
  | .valued option value =>
      settled.accept (.valued option) (Setting.ofValue option value)
  | .source value => settled.accept .source (Setting.ofSource value)

-- ============================================================== meetings

/-- Meets an option without its value. -/
def await (reading : Reading) (option : Valued) : Except Refusal Reading :=
  reading.settle.map fun settled => { settled with pending := .awaiting option }

/-- Meets an option with its value attached. -/
def attach (reading : Reading) (option : Valued) (value : Text) :
    Except Refusal Reading :=
  reading.settle.bind fun settled =>
    settled.accept (.valued option) (Setting.ofValue option value)

/-- Meets a flag. -/
def raise (reading : Reading) (flag : Flag) : Except Refusal Reading :=
  reading.settle.bind fun settled =>
    settled.accept (.flag flag) (.ok (.flag flag))

/-- Meets a query. -/
def ask (reading : Reading) (query : Query) : Except Refusal Reading :=
  reading.settle.bind fun _ => .error (.asked query)

/-- Meets an argument that is neither an option nor a value. -/
def place (reading : Reading) (argument : Text) : Except Refusal Reading :=
  if reading.sourceMet then .error (.unknown argument)
  else reading.settle.map fun settled =>
    { settled with pending := .source argument, sourceMet := true }

-- ============================================================= arguments

/-- Takes what follows two dashes. -/
def long (reading : Reading) (body : Text) : Except Refusal Reading :=
  let (name, value?) := body.cutAt '='
  match Switch.ofName? name with
  | none => .error (.unknown ("--".toList ++ name))
  | some switch =>
      match switch, value? with
      | .valued option, some value => reading.attach option value
      | .valued option, none => reading.await option
      | .flag flag, none => reading.raise flag
      | .query query, none => reading.ask query
      | switch, some value => .error (.unwantedValue switch value)

/-- A value attached to a letter: an equals sign in front is no part of
it. -/
def attached : Text → Text
  | '=' :: value => value
  | value => value

/-- Takes what follows one dash, letter by letter. -/
def letters (reading : Reading) : Text → Except Refusal Reading
  | [] => .ok reading
  | letter :: rest =>
      match Switch.ofLetter? letter with
      | none => .error (.unknown ['-', letter])
      | some (.valued option) =>
          if rest = [] then reading.await option
          else reading.attach option (attached rest)
      | some (.flag flag) =>
          match reading.raise flag with
          | .error refusal => .error refusal
          | .ok raised => raised.letters rest
      | some (.query query) => reading.ask query

/-- Takes an argument that is neither an option nor `--`. -/
def word (reading : Reading) (argument : Text) : Except Refusal Reading :=
  match reading.pending with
  | .awaiting option =>
      .ok { reading with pending := .valued option argument }
  | _ => reading.place argument

/-- Takes one argument. -/
def take (reading : Reading) (argument : Text) : Except Refusal Reading :=
  if reading.plain then reading.place argument
  else match argument with
    | ['-', '-'] => .ok { reading with plain := true }
    | '-' :: '-' :: body => reading.long body
    | '-' :: letter :: rest => reading.letters (letter :: rest)
    | _ => reading.word argument

/-- Takes some arguments. -/
def takeAll (reading : Reading) : List Text → Except Refusal Reading
  | [] => .ok reading
  | argument :: rest =>
      match reading.take argument with
      | .error refusal => .error refusal
      | .ok next => next.takeAll rest

/-- The job, once all arguments are taken. -/
def finish (reading : Reading) : Except Refusal Job :=
  match reading.settle with
  | .error refusal => .error refusal
  | .ok settled =>
      match conflict? (settled.settings.map Setting.item) with
      | some (first, second) => .error (.exclusive first second)
      | none => .ok (Setting.job settled.settings)

end Reading

/-- The job that a command line asks for. -/
def parse (arguments : List Text) : Except Refusal Job :=
  match Reading.start.takeAll arguments with
  | .error refusal => .error refusal
  | .ok reading => reading.finish

end BraceLift.CommandLine
