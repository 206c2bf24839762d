import BitmapText.Toml.Library
import BitmapText.Toml.Tree

/-!
# Writing TOML

A small library for TOML, for the programs of this project. A string is written in the first of
these forms that shows it without escapes that could be avoided: in double quotes, in single quotes,
in three double quotes, in three single quotes. What fits none of them is escaped between double
quotes, on several lines if the string has several.

## Main definitions

* `Toml.writeString`: a string as a value.
* `Toml.writeSections`: sections as a document.
* `Toml.Library.standard`: the library.
-/

namespace BitmapText

namespace Toml

/-- `c` is a control character other than a tab or a newline. -/
def isControl (c : Char) : Bool :=
  (c.toNat < 0x20 && c ≠ '\t' && c ≠ '\n') || c.toNat = 0x7f

/-- `quote` comes three times in a row. -/
def isTripled (quote : Char) : List Char → Bool
  | a :: b :: c :: rest =>
    (a = quote && b = quote && c = quote) || isTripled quote (b :: c :: rest)
  | _ => false

def capitalHexDigit (n : Nat) : Char :=
  if n < 10 then Char.ofNat (0x30 + n) else Char.ofNat (0x41 + (n - 10))

/-- How a character other than a quote or a newline is written between double quotes. -/
def escapeChar (c : Char) : List Char :=
  match c with
  | '\x08' => ['\\', 'b']
  | '\t' => ['\\', 't']
  | '\x0c' => ['\\', 'f']
  | '\r' => ['\\', 'r']
  | '\\' => ['\\', '\\']
  | c =>
    if isControl c then
      ['\\', 'u', '0', '0', capitalHexDigit (c.toNat / 16), capitalHexDigit (c.toNat % 16)]
    else [c]

/-- How a character is written between double quotes on one line. -/
def escapeLineChar (c : Char) : List Char :=
  match c with
  | '"' => ['\\', '"']
  | '\n' => ['\\', 'n']
  | c => escapeChar c

/-- The characters of a string between double quotes on several lines. Of quotes in a row, every
third one is escaped; `run` is the number of quotes in front that have not been. -/
def escapeLines (run : Nat) : List Char → List Char
  | [] => []
  | '"' :: rest =>
    if run < 2 then '"' :: escapeLines (run + 1) rest
    else '\\' :: '"' :: escapeLines 0 rest
  | '\n' :: rest => '\n' :: escapeLines 0 rest
  | c :: rest => escapeChar c ++ escapeLines 0 rest

def writeBasic (cs : List Char) : List Char := '"' :: cs.flatMap escapeLineChar ++ ['"']

/-- A string in single quotes on one line, where nothing is escaped. -/
def writeLiteral (cs : List Char) : List Char := '\'' :: cs ++ ['\'']

/-- The newline with which a string of several lines starts behind its opening quotes. -/
def openingNewline (cs : List Char) : List Char := if cs.contains '\n' then ['\n'] else []

def writeMultilineBasic (cs : List Char) : List Char :=
  ['"', '"', '"'] ++ openingNewline cs ++ escapeLines 0 cs ++ ['"', '"', '"']

/-- A string in three single quotes, where nothing is escaped. -/
def writeMultilineLiteral (cs : List Char) : List Char :=
  ['\'', '\'', '\''] ++ openingNewline cs ++ cs ++ ['\'', '\'', '\'']

/-- A string in the first form that suits it. -/
def writeString (cs : List Char) : List Char :=
  let control := cs.any isControl
  let newline := cs.contains '\n'
  let backslash := cs.contains '\\'
  if ¬ control ∧ ¬ newline ∧ ¬ backslash ∧ ¬ cs.contains '"' then writeBasic cs
  else if ¬ control ∧ ¬ newline ∧ ¬ cs.contains '\'' then writeLiteral cs
  else if ¬ control ∧ ¬ backslash ∧ ¬ isTripled '"' cs then writeMultilineBasic cs
  else if ¬ control ∧ ¬ isTripled '\'' cs then writeMultilineLiteral cs
  else if newline then writeMultilineBasic cs
  else writeBasic cs

def writeNat (n : Nat) : List Char := (toString n).toList

/-! ## Documents -/

/-- The largest integer of a document, which has 64 bits with a sign. -/
def largestInteger : Nat := 9223372036854775807

namespace Plain

def write : Plain → List Char
  | string text => writeString text.toList
  | integer n => writeNat n

/-- The value can be written. -/
def isWritable : Plain → Bool
  | string _ => true
  | integer n => n ≤ largestInteger

end Plain

/-- A key with its written value, on a line. -/
def writeLine (key : String) (value : List Char) : List Char :=
  key.toList ++ " = ".toList ++ value ++ ['\n']

namespace Section

/-- A header with a line for each entry below it. -/
def write (s : Section) : List Char :=
  '[' :: s.name.toList ++ "]\n".toList ++
    (s.entries.map fun entry => writeLine entry.1 entry.2.write).flatten

/-- All values of the section can be written. -/
def isWritable (s : Section) : Bool := s.entries.all fun entry => entry.2.isWritable

end Section

/-- Sections with an empty line between them. -/
def writeSections : List Section → List Char
  | [] => []
  | [s] => s.write
  | s :: rest => s.write ++ ['\n'] ++ writeSections rest

/-- The library that programs run with. It stands in for libraries that do more. -/
def Library.standard : Library where
  read text := (parse text).mapError Error.message
  write sections :=
    if sections.all Section.isWritable then .ok (String.ofList (writeSections sections))
    else .error "out-of-range value for u64 type"

end Toml

end BitmapText
