import Optimization.Value.Scalar

/-!
# Levels of a log

A level has a word and a number. The level of a log is set once: the first request installs it, and
later requests have no effect.

* Words are compared in upper case, and an unknown word asks for `INFO`.
* One word stands for the pattern of a log line; a log is installed for it, but it is no level.
-/

namespace Optimization.LogLevel

/-- The levels by word. -/
def levels : List (String × Int) :=
  [("CRITICAL", 50), ("FATAL", 50), ("ERROR", 40), ("WARNING", 30), ("WARN", 30), ("INFO", 20),
    ("DEBUG", 10), ("NOTSET", 0)]

/-- The level of a log that nobody has set. -/
def initial : Int := 30

/-- The level of an unknown word. -/
def fallback : Int := 20

/-- The word that stands for the pattern of a line, and the pattern. -/
def pattern : String × String := ("BASIC_FORMAT", "%(levelname)s:%(name)s:%(message)s")

/-- The upper case of a character as far as the words of levels are concerned: two characters
beyond ASCII have the upper case of an ASCII letter. -/
def upperChar (c : Char) : Char :=
  if c = 'ı' then 'I' else if c = 'ſ' then 'S' else c.toUpper

/-- The number that a scalar asks for. -/
def request (x : Scalar) : Except Fault Int :=
  let word := x.toText.map upperChar
  if word == pattern.1 then throw (.unknownLevel pattern.2)
  else pure ((levels.lookup word).getD fallback)

/-- The answers to several requests: the first one takes effect or fails, the others show the
level that is then in force. -/
def requestAll : List Scalar → List (Except Fault Int)
  | [] => []
  | x :: rest =>
    let first := request x
    first :: rest.map fun _ => .ok (first.toOption.getD initial)

end Optimization.LogLevel
