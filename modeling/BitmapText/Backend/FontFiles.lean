import BitmapText.Face
import BitmapText.Face.OpenTypeFace

/-!
# Font files

The rasterizer that opens font files. It needs no start, and keeps nothing of a face that is given
back.

## Main definitions

* `FontFiles`: the files that can be read.
* `FontFiles.openFaceBy`: open a file as a face, with some libraries that read font files.
-/

namespace BitmapText

/-- The files that fonts are read from. -/
structure FontFiles where
  /-- The bytes at a path, or why there are none. -/
  read : Path → Except String OpenType.Data

namespace FontFiles

def openedRecord {lib : OpenType.Library} (path : Path) (face : ScaledFont lib) : Log.Record :=
  ⟨.debug, "ori_text::raster::swash",
    "swash: opened " ++ path.text ++ " at " ++ Single.text face.scale ++ " ppem (kerning: " ++
      (if face.hasKerning then "true" else "false") ++ ")"⟩

/-- Open the file that a key names, at the scale that it asks for. -/
def openFaceBy (lib : OpenType.Library) (files : FontFiles) (key : FontKey) :
    Except FontError (ScaledFont lib) :=
  match files.read key.path with
  | .error reason => .error (.faceOpen key.path reason)
  | .ok data =>
    match lib.directory? data with
    | none => .error (.faceOpen key.path "unrecognized font data")
    | some directory =>
      match OpenType.pixelsPerEm? key.size key.dpi with
      | none => .error (.sizeRejected key.size key.dpi)
      | some scale => .ok (.ofFont data directory scale)

instance : Backend FontFiles OpenTypeFace where
  start files := (.ok (), files)
  openFace files key :=
    match files.openFaceBy .standard key with
    | .error e => (.error e, #[], files)
    | .ok face => (.ok face, #[openedRecord key.path face], files)

end FontFiles

end BitmapText
