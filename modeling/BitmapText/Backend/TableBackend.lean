import BitmapText.Face
import BitmapText.Face.TableFace

/-!
# Libraries given by a table

A rasterizer library whose faces are listed by path. It fails to start as often as it is told to,
and it counts what it is asked for.

## Main definitions

* `TableBackend`: the listed faces and the counts so far.
-/

namespace BitmapText

/-- What the table says about one path. -/
inductive TableBackend.Listing where
  /-- The file cannot be opened, for the given reason. -/
  | refused (reason : String)
  | face (table : TableFace.Table)

/-- A library of listed faces. -/
structure TableBackend where
  listed : List (String × TableBackend.Listing) := []
  /-- What every other path holds, if it holds anything. -/
  others : Option TableBackend.Listing := none
  /-- The number of starts that fail before one succeeds. -/
  startFailures : Nat := 0
  starts : Nat := 0
  opens : Nat := 0
  /-- The number of renderings asked of faces that were given back. -/
  rasterizes : Nat := 0
  /-- The number of measurements asked of faces that were given back. -/
  probes : Nat := 0

namespace TableBackend

/-- What the table says about a path. -/
def listing? (b : TableBackend) (path : Path) : Option Listing :=
  match b.listed.lookup path.text with
  | some listing => some listing
  | none => b.others

/-- Start the library: it fails until its failures are used up. -/
def start (b : TableBackend) : Except FontError Unit × TableBackend :=
  let b := { b with starts := b.starts + 1 }
  if b.starts ≤ b.startFailures then
    (.error (.rasterizerInit ("busy " ++ toString b.starts)), b)
  else (.ok (), b)

/-- Open the face listed for a path, at any size but zero. -/
def openFace (b : TableBackend) (key : FontKey) : Except FontError TableFace × TableBackend :=
  match b.listing? key.path with
  | none => (.error (.faceOpen key.path "no such file"), b)
  | some (.refused reason) => (.error (.faceOpen key.path reason), b)
  | some (.face table) =>
    if key.size = 0 ∨ key.dpi = 0 then (.error (.sizeRejected key.size key.dpi), b)
    else (.ok (.ofTable table), { b with opens := b.opens + 1 })

def closeFace (b : TableBackend) (face : TableFace) : TableBackend :=
  { b with rasterizes := b.rasterizes + face.rasterizes, probes := b.probes + face.probes }

instance : Backend TableBackend TableFace where
  start := start
  openFace b key :=
    match b.openFace key with
    | (result, b) => (result, #[], b)
  closeFace := closeFace

end TableBackend

end BitmapText
