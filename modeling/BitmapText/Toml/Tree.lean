import BitmapText.Toml.Statement

/-!
# TOML documents

What the statements of a document come to together: one table. A table may be opened by a header, by
a longer header, or by a path of keys, and how it was opened decides what may still be added to it.
A header opens a table once; a table that a path of keys opened takes no header; and a path of keys
does not reach into a table that has one.

## Main definitions

* `Toml.Node`: a part of a document that is being assembled.
* `Toml.assemble?`: the table of a sequence of statements.
* `Toml.parse`: the table of a text.
-/

namespace BitmapText

namespace Toml

/-- How a table was opened. -/
inductive Origin where
  | header
  | implied
  | dotted
deriving Repr, DecidableEq

/-- A part of a document. -/
inductive Node where
  | leaf (value : Value)
  | table (origin : Origin) (entries : List (String × Node))
  | elements (tables : List Node)

/-- The entries of a table. -/
abbrev Entries := List (String × Node)

/-- Change the table of a path below a table. Tables that are missing on the way are opened. A path
of keys does not pass through a table with a header. Any path enters the last element of an
array. -/
def editAt (dotted : Bool) (f : Origin → Entries → Option (Origin × Entries)) :
    List String → Origin → Entries → Option (Origin × Entries)
  | [], origin, entries => f origin entries
  | key :: path, origin, entries =>
    match entries.lookup key with
    | none =>
      (editAt dotted f path (if dotted then .dotted else .implied) []).map fun (o, inner) =>
        (origin, entries ++ [(key, .table o inner)])
    | some (.leaf _) => none
    | some (.table o inner) =>
      if dotted ∧ o = .header then none
      else
        (editAt dotted f path o inner).map fun (o, inner) =>
          (origin, replaceEntry key (.table o inner) entries)
    | some (.elements tables) =>
      match tables.getLast? with
      | some (.table o inner) =>
        (editAt dotted f path o inner).map fun (o, inner) =>
          (origin, replaceEntry key (.elements (tables.dropLast ++ [.table o inner])) entries)
      | _ => none

def openTable (key : String) (origin : Origin) (entries : Entries) : Option (Origin × Entries) :=
  match entries.lookup key with
  | none => some (origin, entries ++ [(key, .table .header [])])
  | some (.table .implied inner) =>
    some (origin, replaceEntry key (.table .header inner) entries)
  | some _ => none

/-- Add an element to an array by its header. -/
def openElement (key : String) (origin : Origin) (entries : Entries) :
    Option (Origin × Entries) :=
  match entries.lookup key with
  | none => some (origin, entries ++ [(key, .elements [.table .header []])])
  | some (.elements tables) =>
    some (origin, replaceEntry key (.elements (tables ++ [.table .header []])) entries)
  | some _ => none

/-- Give a key its value. A path of keys ends in a table that such a path has opened. -/
def putValue (byPath : Bool) (key : String) (value : Value) (origin : Origin)
    (entries : Entries) : Option (Origin × Entries) :=
  if byPath ∧ origin ≠ .dotted then none
  else
    match entries.lookup key with
    | none => some (origin, entries ++ [(key, .leaf value)])
    | some _ => none

def assignIn (path : List String) (value : Value) (origin : Origin) (entries : Entries) :
    Option (Origin × Entries) :=
  match path.getLast? with
  | none => none
  | some key =>
    editAt true (putValue (1 < path.length) key value) path.dropLast origin entries

/-- A document so far, and the table that the next line assigns in. -/
structure Draught where
  entries : Entries := []
  current : List String := []

def Draught.add (d : Draught) : Statement → Option Draught
  | .table path =>
    match path.getLast? with
    | none => none
    | some key =>
      (editAt false (openTable key) path.dropLast .header d.entries).map fun (_, entries) =>
        { entries, current := path }
  | .element path =>
    match path.getLast? with
    | none => none
    | some key =>
      (editAt false (openElement key) path.dropLast .header d.entries).map fun (_, entries) =>
        { entries, current := path }
  | .assign path value =>
    (editAt false (assignIn path value) d.current .header d.entries).map fun (_, entries) =>
      { d with entries }

mutual

def Node.toValue : Node → Value
  | .leaf value => value
  | .table _ entries => .table (Node.toEntries entries)
  | .elements tables => .array (Node.toItems tables)

def Node.toEntries : List (String × Node) → List (String × Value)
  | [] => []
  | (key, node) :: rest => (key, node.toValue) :: Node.toEntries rest

def Node.toItems : List Node → List Value
  | [] => []
  | node :: rest => node.toValue :: Node.toItems rest

end

def assemble? (statements : List Statement) : Option Value :=
  (statements.foldlM Draught.add {}).map fun d => .table (Node.toEntries d.entries)

/-- Why a text is no document. -/
inductive Error where
  | malformed
  | conflict
deriving Repr, DecidableEq

def Error.message : Error → String
  | malformed => "a line cannot be read"
  | conflict => "a key or a table is defined twice"

def parse (text : String) : Except Error Value :=
  match statements? text with
  | none => .error .malformed
  | some statements =>
    match assemble? statements with
    | none => .error .conflict
    | some value => .ok value

end Toml

end BitmapText
