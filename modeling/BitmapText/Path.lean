/-!
# Paths

A path keeps the text it was given, and that text is what a reader is shown. Two paths name the
same place when their components agree: repeated and trailing slashes are ignored, and so is every
`.` except one that opens a relative path. A `..` is a component like any other.

## Main definitions

* `Path`: the text of a path.
* `Path.Component`: what a path is made of.
* `Path.components`: the components of a path.
* `Path.join`: a path below another.
-/

namespace BitmapText

/-- A path, by the text it was given. -/
structure Path where
  text : String
deriving Repr, DecidableEq, Hashable, Inhabited

namespace Path

/-- One step of a path. -/
inductive Component where
  | root
  /-- A `.` that opens a relative path. -/
  | here
  /-- A `..`. -/
  | parent
  | name (text : String)
deriving Repr, DecidableEq, Hashable

namespace Component

/-- The place of a component's kind in the order of components. -/
def rank : Component → Nat
  | root => 0
  | here => 1
  | parent => 2
  | name _ => 3

/-- The name of a component; the other kinds have none. -/
def label : Component → String
  | name text => text
  | _ => ""

/-- Components are ordered by kind, names by their characters. -/
def order (a b : Component) : Ordering :=
  (compare a.rank b.rank).then (compareOfLessAndEq a.label b.label)

/-- The component that a piece between slashes stands for, if it stands for one. -/
def ofPiece? (piece : String) : Option Component :=
  if piece = "" ∨ piece = "." then none
  else if piece = ".." then some parent
  else some (name piece)

end Component

/-- The pieces of `cs` between slashes. -/
def pieces : List Char → List (List Char)
  | [] => [[]]
  | '/' :: rest => [] :: pieces rest
  | c :: rest =>
    match pieces rest with
    | piece :: others => (c :: piece) :: others
    | [] => [[c]]

def components (p : Path) : List Component :=
  let parts := (pieces p.text.toList).map String.ofList
  let opening : List Component :=
    match parts with
    | "" :: _ :: _ => [.root]
    | "." :: _ => [.here]
    | _ => []
  opening ++ parts.filterMap Component.ofPiece?

/-- Lists of components are ordered lexicographically, a shorter one before its extensions. -/
def orderComponents : List Component → List Component → Ordering
  | [], [] => .eq
  | [], _ :: _ => .lt
  | _ :: _, [] => .gt
  | a :: as, b :: bs => (a.order b).then (orderComponents as bs)

/-- Paths are ordered by their components. -/
def order (p q : Path) : Ordering := orderComponents p.components q.components

/-- The path `name` below `p`: a slash goes between them unless one is there already or `p` is
empty. -/
def join (p : Path) (name : String) : Path :=
  if p.text = "" ∨ p.text.toList.getLast? = some '/' then ⟨p.text ++ name⟩
  else ⟨p.text ++ "/" ++ name⟩

end Path

end BitmapText
