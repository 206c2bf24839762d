/-!
# Characters of TOML text

Which characters may stand where in a document, and how many of them a reader takes. A carriage
return is only allowed before a newline, where it is dropped first of all, so that a newline is the
one end of a line.

## Main definitions

* `Toml.unifyNewlines`: the text with plain newlines.
* `Toml.isTextChar`: characters of comments and strings.
* `Toml.skipBlank`, `Toml.lineEnd`, `Toml.skipFiller`: the room between the parts of a document.
-/

namespace BitmapText

namespace Toml

/-- Write every newline that follows a carriage return without it. -/
def unifyNewlines : List Char → List Char
  | '\r' :: '\n' :: rest => '\n' :: unifyNewlines rest
  | c :: rest => c :: unifyNewlines rest
  | [] => []

/-- `c` may stand in a comment or a string: it is a tab or no control character. -/
def isTextChar (c : Char) : Bool := c = '\t' || (0x20 ≤ c.toNat && c.toNat ≠ 0x7f)

/-- `c` is room within a line. -/
def isBlank (c : Char) : Bool := c = ' ' || c = '\t'

/-- `c` may stand in a key without quotes. -/
def isBareKeyChar (c : Char) : Bool :=
  ('A' ≤ c && c ≤ 'Z') || ('a' ≤ c && c ≤ 'z') || ('0' ≤ c && c ≤ '9') || c = '_' || c = '-'

/-- `c` ends a value without quotes. -/
def isDelimiter (c : Char) : Bool :=
  isBlank c || c = '\n' || c = '#' || c = ',' || c = ']' || c = '}'

/-- `cs` without the room in front. -/
def skipBlank (cs : List Char) : List Char := cs.dropWhile isBlank

/-- `cs` without the characters of a comment in front. -/
def skipComment (cs : List Char) : List Char := cs.dropWhile isTextChar

/-- What follows the end of a line, before which only room and a comment may stand. -/
def lineEnd (cs : List Char) : Option (List Char) :=
  let cs := match skipBlank cs with
    | '#' :: rest => skipComment rest
    | rest => rest
  match cs with
  | [] => some []
  | '\n' :: rest => some rest
  | _ => none

/-- Skip room, newlines and comments; `inComment` tells whether a comment has been opened. -/
def skipFillerFrom (inComment : Bool) : List Char → List Char
  | [] => []
  | c :: rest =>
    if c = '\n' then skipFillerFrom false rest
    else if inComment then
      if isTextChar c then skipFillerFrom true rest else c :: rest
    else if isBlank c then skipFillerFrom false rest
    else if c = '#' then skipFillerFrom true rest
    else c :: rest

/-- `cs` without the room, newlines and comments in front. -/
def skipFiller (cs : List Char) : List Char := skipFillerFrom false cs

end Toml

end BitmapText
