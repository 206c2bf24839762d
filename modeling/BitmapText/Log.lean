/-!
# Log records

What the library reports while it works. Nothing is written here: an operation answers with the
records it made, and its caller decides where they go.

## Main definitions

* `Log.Level`: how urgent a record is.
* `Log.Filter`: the least urgent level that is let through.
* `Log.Record`: a level, the part of the library that speaks, and a message.
-/

namespace BitmapText

namespace Log

/-- The urgency of a record, most urgent first. -/
inductive Level where
  | error | warn | info | debug | trace
deriving Repr, DecidableEq

namespace Level

/-- The name of a level, as records show it. -/
def label : Level → String
  | error => "ERROR"
  | warn => "WARN"
  | info => "INFO"
  | debug => "DEBUG"
  | trace => "TRACE"

def rank : Level → Nat
  | error => 1
  | warn => 2
  | info => 3
  | debug => 4
  | trace => 5

end Level

/-- Which records are let through: none, or those at least as urgent as a level. -/
inductive Filter where
  | off
  | upTo (level : Level)
deriving Repr, DecidableEq

namespace Filter

def rank : Filter → Nat
  | off => 0
  | upTo level => level.rank

def label : Filter → String
  | off => "OFF"
  | upTo level => level.label

def all : List Filter :=
  [off, upTo .error, upTo .warn, upTo .info, upTo .debug, upTo .trace]

/-- The filter of the given name, where the case of ASCII letters does not matter. -/
def ofName? (name : String) : Option Filter :=
  all.find? fun f => name.map Char.toUpper == f.label

/-- Records of `level` are let through. -/
def admits (f : Filter) (level : Level) : Bool := level.rank ≤ f.rank

end Filter

/-- A message from one part of the library. -/
structure Record where
  level : Level
  target : String
  message : String
deriving Repr, DecidableEq

end Log

end BitmapText
