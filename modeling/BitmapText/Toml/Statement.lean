import BitmapText.Toml.Literal
import BitmapText.Toml.Scalar

/-!
# Statements of a TOML document

A document is a sequence of lines, and a line holds a table header, an assignment, or nothing. This
module reads lines; what they come to together is another matter (`Toml.Tree`), except for tables
that are written inside a line, which are closed by the time the line ends.

Arrays and inline tables nest to a fixed depth, and so do the keys of one path.

## Main definitions

* `Toml.Statement`: the lines.
* `Toml.value?`: a value in front of other text.
* `Toml.statements?`: the statements of a document.
-/

namespace BitmapText

namespace Toml

/-- What a line says. -/
inductive Statement where
  /-- The lines that follow assign in the table of this path. -/
  | table (path : List String)
  /-- The lines that follow assign in a new last element of the array of this path. -/
  | element (path : List String)
  | assign (path : List String) (value : Value)
deriving Repr

/-- Arrays and inline tables nest less deep than this, and paths have fewer keys. -/
def depthLimit : Nat := 80

/-! ## Keys -/

def key? (cs : List Char) : Option (String × List Char) :=
  match cs with
  | '"' :: rest => (basicBody rest).map fun (key, rest) => (String.ofList key, rest)
  | '\'' :: rest => (literalBody rest).map fun (key, rest) => (String.ofList key, rest)
  | _ =>
    match cs.span isBareKeyChar with
    | ([], _) => none
    | (key, rest) => some (String.ofList key, rest)

/-- Keys with points between them, and what follows them and the room behind. -/
def keys? (cs : List Char) : Option (List String × List Char) :=
  match key? (skipBlank cs) with
  | none => none
  | some (key, rest) =>
    match skipBlank rest with
    | '.' :: rest =>
      if rest.length < cs.length then
        (keys? rest).map fun (keys, rest) => (key :: keys, rest)
      else none
    | rest => some ([key], rest)
termination_by cs.length

/-- The path of keys in front of other text. -/
def path? (cs : List Char) : Option (List String × List Char) :=
  match keys? cs with
  | some (keys, rest) => if keys.length < depthLimit then some (keys, rest) else none
  | none => none

/-! ## Tables within a line -/

/-- A table that is being filled. -/
inductive Draft where
  /-- The value of a key; nothing can be added to it. -/
  | closed (value : Value)
  /-- The table of a path, to which more keys can be added. -/
  | opened (entries : List (String × Draft))

def replaceEntry {α : Type} (key : String) (value : α) (entries : List (String × α)) :
    List (String × α) :=
  entries.map fun entry => if entry.1 = key then (key, value) else entry

/-- Assign a value to a path that has none. -/
def Draft.assign (value : Value) :
    List String → List (String × Draft) → Option (List (String × Draft))
  | [], _ => none
  | [key], entries =>
    match entries.lookup key with
    | none => some (entries ++ [(key, .closed value)])
    | some _ => none
  | key :: path, entries =>
    match entries.lookup key with
    | none => (Draft.assign value path []).map fun inner => entries ++ [(key, .opened inner)]
    | some (.opened inner) =>
      (Draft.assign value path inner).map fun inner => replaceEntry key (.opened inner) entries
    | some (.closed _) => none

mutual

def Draft.toValue : Draft → Value
  | .closed value => value
  | .opened entries => .table (Draft.toEntries entries)

def Draft.toEntries : List (String × Draft) → List (String × Value)
  | [] => []
  | (key, draft) :: rest => (key, draft.toValue) :: Draft.toEntries rest

end

def tableOfAssignments? (assignments : List (List String × Value)) : Option Value :=
  (assignments.foldlM (fun entries a => Draft.assign a.2 a.1 entries) []).map fun entries =>
    .table (Draft.toEntries entries)

/-! ## Values -/

/-- The items of an array, up to and with the closing bracket. -/
def items? (item? : List Char → Option (Value × List Char)) (cs : List Char) :
    Option (List Value × List Char) :=
  match skipFiller cs with
  | ']' :: rest => some ([], rest)
  | start =>
    match item? start with
    | none => none
    | some (value, rest) =>
      match skipFiller rest with
      | ']' :: rest => some ([value], rest)
      | ',' :: rest =>
        if rest.length < cs.length then
          (items? item? rest).map fun (values, rest) => (value :: values, rest)
        else none
      | _ => none
termination_by cs.length

/-- The assignments of an inline table, up to and with the closing brace. -/
def assignments? (item? : List Char → Option (Value × List Char)) (cs : List Char) :
    Option (List (List String × Value) × List Char) :=
  match path? cs with
  | some (path, '=' :: rest) =>
    match item? (skipBlank rest) with
    | none => none
    | some (value, rest) =>
      match skipBlank rest with
      | '}' :: rest => some ([(path, value)], rest)
      | ',' :: rest =>
        if rest.length < cs.length then
          (assignments? item? rest).map fun (others, rest) => ((path, value) :: others, rest)
        else none
      | _ => none
  | _ => none
termination_by cs.length

def inlineTable? (item? : List Char → Option (Value × List Char)) (cs : List Char) :
    Option (Value × List Char) :=
  match skipBlank cs with
  | '}' :: rest => some (.table [], rest)
  | start =>
    match assignments? item? start with
    | none => none
    | some (assignments, rest) => (tableOfAssignments? assignments).map (·, rest)

/-- A value in front of other text, with arrays and inline tables nested `levels` deep at most. -/
def value? (levels : Nat) (cs : List Char) : Option (Value × List Char) :=
  match cs with
  | '[' :: rest =>
    match levels with
    | 0 => none
    | levels + 1 => (items? (value? levels) rest).map fun (values, rest) => (.array values, rest)
  | '{' :: rest =>
    match levels with
    | 0 => none
    | levels + 1 => inlineTable? (value? levels) rest
  | '"' :: _ => (quotedString? cs).map fun (text, rest) => (.string (String.ofList text), rest)
  | '\'' :: _ => (quotedString? cs).map fun (text, rest) => (.string (String.ofList text), rest)
  | _ => scalar? cs

/-! ## Lines -/

/-- The rest of a line that has to be empty, behind a statement. -/
def ended? (statement : Statement) (cs : List Char) : Option (Option Statement × List Char) :=
  (lineEnd cs).map (some statement, ·)

def line? (cs : List Char) : Option (Option Statement × List Char) :=
  match skipBlank cs with
  | '[' :: '[' :: rest =>
    match path? rest with
    | some (path, ']' :: ']' :: rest) => ended? (.element path) rest
    | _ => none
  | '[' :: rest =>
    match path? rest with
    | some (path, ']' :: rest) => ended? (.table path) rest
    | _ => none
  | start =>
    match lineEnd start with
    | some rest => some (none, rest)
    | none =>
      match path? start with
      | some (path, '=' :: rest) =>
        match value? (depthLimit - 1) (skipBlank rest) with
        | some (value, rest) => ended? (.assign path value) rest
        | none => none
      | _ => none

/-- The statements of a document whose newlines are plain. -/
def lines? (cs : List Char) : Option (List Statement) :=
  if cs.isEmpty then some []
  else
    match line? cs with
    | none => none
    | some (statement, rest) =>
      if rest.length < cs.length then
        (lines? rest).map fun statements => statement.toList ++ statements
      else none
termination_by cs.length

/-- `cs` without a byte order mark in front. -/
def skipMark : List Char → List Char
  | '\ufeff' :: rest => rest
  | cs => cs

def statements? (text : String) : Option (List Statement) :=
  lines? (unifyNewlines (skipMark text.toList))

end Toml

end BitmapText
