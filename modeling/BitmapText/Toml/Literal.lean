import BitmapText.Toml.Characters

/-!
# Quoted strings of TOML

There are four ways to quote a string: in single or double quotes, on one line or, with the quote
three times, on several. Escapes are read between double quotes only.

Each reader starts behind the opening quotes and gives back the string and what follows the closing
quotes.

## Main definitions

* `Toml.basicBody`, `Toml.literalBody`: strings on one line.
* `Toml.multilineBasicBody`, `Toml.multilineLiteralBody`: strings on several lines.
-/

namespace BitmapText

namespace Toml

def shortEscape? (c : Char) : Option Char :=
  match c with
  | 'b' => some '\x08'
  | 't' => some '\t'
  | 'n' => some '\n'
  | 'f' => some '\x0c'
  | 'r' => some '\r'
  | '"' => some '"'
  | '\\' => some '\\'
  | _ => none

def hexDigit? (c : Char) : Option Nat :=
  if '0' ≤ c ∧ c ≤ '9' then some (c.toNat - 0x30)
  else if 'a' ≤ c ∧ c ≤ 'f' then some (c.toNat - 0x61 + 10)
  else if 'A' ≤ c ∧ c ≤ 'F' then some (c.toNat - 0x41 + 10)
  else none

/-- The number with these hexadecimal digits, added to the digits before them. -/
def hexNumber? (before : Nat) : List Char → Option Nat
  | [] => some before
  | c :: rest =>
    match hexDigit? c with
    | none => none
    | some d => hexNumber? (before * 16 + d) rest

/-- The character of a numbered escape; surrogates and larger numbers have none. -/
def numberedEscape? (digits : List Char) : Option Char :=
  match hexNumber? 0 digits with
  | none => none
  | some n => if n < 0xd800 ∨ (0xdfff < n ∧ n < 0x110000) then some (Char.ofNat n) else none

/-- Put a character in front of a string that was read. -/
def consChar (c : Char) : List Char × List Char → List Char × List Char
  | (text, rest) => (c :: text, rest)

/-- The rest of a string in double quotes on one line. -/
def basicBody : List Char → Option (List Char × List Char)
  | [] => none
  | '"' :: rest => some ([], rest)
  | '\\' :: 'u' :: a :: b :: c :: d :: rest =>
    match numberedEscape? [a, b, c, d] with
    | none => none
    | some ch => (basicBody rest).map (consChar ch)
  | '\\' :: 'U' :: a :: b :: c :: d :: e :: f :: g :: h :: rest =>
    match numberedEscape? [a, b, c, d, e, f, g, h] with
    | none => none
    | some ch => (basicBody rest).map (consChar ch)
  | '\\' :: c :: rest =>
    match shortEscape? c with
    | none => none
    | some ch => (basicBody rest).map (consChar ch)
  | c :: rest => if isTextChar c then (basicBody rest).map (consChar c) else none

/-- The rest of a string in single quotes on one line. -/
def literalBody : List Char → Option (List Char × List Char)
  | [] => none
  | '\'' :: rest => some ([], rest)
  | c :: rest => if isTextChar c then (literalBody rest).map (consChar c) else none

/-- Behind the closing quotes of a string on several lines: up to two more quotes belong to the
string. -/
def closingQuotes (quote : Char) : List Char → List Char × List Char
  | a :: b :: rest =>
    if a = quote then if b = quote then ([a, b], rest) else ([a], b :: rest)
    else ([], a :: b :: rest)
  | [a] => if a = quote then ([a], []) else ([], [a])
  | [] => ([], [])

/-- Only room stands in front of the next newline. -/
def endsLine (cs : List Char) : Bool :=
  match skipBlank cs with
  | '\n' :: _ => true
  | _ => false

/-- The rest of a string in double quotes on several lines. A backslash at the end of a line joins
the lines: while `joining`, room and newlines are passed over. -/
def multilineBasicFrom (joining : Bool) : List Char → Option (List Char × List Char)
  | [] => none
  | '"' :: '"' :: '"' :: rest => some (closingQuotes '"' rest)
  | '\\' :: 'u' :: a :: b :: c :: d :: rest =>
    match numberedEscape? [a, b, c, d] with
    | none => none
    | some ch => (multilineBasicFrom false rest).map (consChar ch)
  | '\\' :: 'U' :: a :: b :: c :: d :: e :: f :: g :: h :: rest =>
    match numberedEscape? [a, b, c, d, e, f, g, h] with
    | none => none
    | some ch => (multilineBasicFrom false rest).map (consChar ch)
  | '\\' :: c :: rest =>
    if endsLine (c :: rest) then multilineBasicFrom true (c :: rest)
    else
      match shortEscape? c with
      | none => none
      | some ch => (multilineBasicFrom false rest).map (consChar ch)
  | c :: rest =>
    if joining ∧ (isBlank c ∨ c = '\n') then multilineBasicFrom true rest
    else if isTextChar c ∨ c = '\n' then (multilineBasicFrom false rest).map (consChar c)
    else none

/-- `cs` without a newline that directly follows the opening quotes. -/
def skipFirstNewline : List Char → List Char
  | '\n' :: rest => rest
  | cs => cs

/-- The rest of a string in double quotes on several lines. -/
def multilineBasicBody (cs : List Char) : Option (List Char × List Char) :=
  multilineBasicFrom false (skipFirstNewline cs)

/-- The rest of a string in single quotes on several lines. -/
def multilineLiteralFrom : List Char → Option (List Char × List Char)
  | [] => none
  | '\'' :: '\'' :: '\'' :: rest => some (closingQuotes '\'' rest)
  | c :: rest =>
    if isTextChar c ∨ c = '\n' then (multilineLiteralFrom rest).map (consChar c) else none

/-- The rest of a string in single quotes on several lines. -/
def multilineLiteralBody (cs : List Char) : Option (List Char × List Char) :=
  multilineLiteralFrom (skipFirstNewline cs)

/-- A quoted string of any kind, if one stands in front. -/
def quotedString? : List Char → Option (List Char × List Char)
  | '"' :: '"' :: '"' :: rest => multilineBasicBody rest
  | '\'' :: '\'' :: '\'' :: rest => multilineLiteralBody rest
  | '"' :: rest => basicBody rest
  | '\'' :: rest => literalBody rest
  | _ => none

end Toml

end BitmapText
