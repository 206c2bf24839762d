import BitmapText.Backend.FontFiles
import BitmapText.Backend.TableBackend
import BitmapText.Bitmap
import BitmapText.Bitmap.Clip
import BitmapText.Bitmap.Pgm
import BitmapText.CommandLine
import BitmapText.CommandLine.Run
import BitmapText.Config
import BitmapText.Config.Load
import BitmapText.Config.Text
import BitmapText.Coord
import BitmapText.Face
import BitmapText.Face.OpenTypeFace
import BitmapText.Face.TableFace
import BitmapText.Files
import BitmapText.Files.Disk
import BitmapText.Font
import BitmapText.FontError
import BitmapText.FontKey
import BitmapText.Glyph
import BitmapText.GlyphCache
import BitmapText.Log
import BitmapText.Log.LogFile
import BitmapText.Main
import BitmapText.OpenType.CharMap
import BitmapText.OpenType.Data
import BitmapText.OpenType.Fill
import BitmapText.OpenType.Kerning
import BitmapText.OpenType.Library
import BitmapText.OpenType.Metrics
import BitmapText.OpenType.Outline
import BitmapText.OpenType.Standard
import BitmapText.Path
import BitmapText.Registry
import BitmapText.Session
import BitmapText.Shaping
import BitmapText.Single
import BitmapText.Stats
import BitmapText.StringCache
import BitmapText.StringCache.Arena
import BitmapText.Text.Blank
import BitmapText.Text.CodePoints
import BitmapText.Text.Integer
import BitmapText.Text.Printable
import BitmapText.Text.Quoted
import BitmapText.Toml.Characters
import BitmapText.Toml.Library
import BitmapText.Toml.Literal
import BitmapText.Toml.Scalar
import BitmapText.Toml.Statement
import BitmapText.Toml.Tree
import BitmapText.Toml.Value
import BitmapText.Toml.Writer
import BitmapText.Proofs.Arena.Links
import BitmapText.Proofs.Arena.Sequence
import BitmapText.Proofs.StringCache.Recency
import BitmapText.Proofs.StringCache.Refinement
import BitmapText.Proofs.StringCache.Retention
import BitmapText.Proofs.Registry.Counting
import BitmapText.Proofs.Font.Query
import BitmapText.Proofs.Registry.InUse
import BitmapText.Proofs.Session.Moments
import BitmapText.Proofs.Face.Steady
import BitmapText.Proofs.Shaping.Pen
import BitmapText.Proofs.Shaping.PenRun
import BitmapText.Proofs.Shaping.Clipping
import BitmapText.Proofs.Font.Faithful
import BitmapText.Proofs.Font.Transparency
import BitmapText.Proofs.Font.FitWidth
import BitmapText.Proofs.Font.Shape
import BitmapText.Proofs.Font.DrawnGlyphs
import BitmapText.Proofs.Arena.Checked
import BitmapText.Proofs.StringCache.WellFormed
import BitmapText.Proofs.Font.Probing
import BitmapText.Proofs.Registry.Calls
import BitmapText.Proofs.Registry.Probing
import BitmapText.Proofs.Registry.Acquisition
import BitmapText.Proofs.Registry.Requests
import BitmapText.Proofs.Bitmap.Region
import BitmapText.Proofs.Shaping.Ink
import BitmapText.Proofs.Font.Ink
import BitmapText.Proofs.Shaping.Inquiries
import BitmapText.Proofs.Shaping.Height
import BitmapText.Proofs.Font.Failures
import BitmapText.Proofs.Registry.Apart
import BitmapText.Proofs.Bitmap.Draw
import BitmapText.Proofs.Font.Picture
import BitmapText.Proofs.Face.Recorded
import BitmapText.Proofs.GlyphCache.Accounts
import BitmapText.Proofs.GlyphCache.Tasks
import BitmapText.Proofs.StringCache.Batches
import BitmapText.Proofs.Shaping.Greedy
import BitmapText.Proofs.Shaping.Placing
import BitmapText.Proofs.Shaping.Slices
import BitmapText.Proofs.Shaping.LastGlyph
import BitmapText.Proofs.Toml.Strings
import BitmapText.Proofs.Toml.Lines
import BitmapText.Proofs.Toml.Sections
import BitmapText.Proofs.Config.RoundTrip
import BitmapText.Proofs.Font.Edges
import BitmapText.Proofs.Bitmap.Scan
import BitmapText.Proofs.Text.Utf8
import BitmapText.Proofs.Text.Groups
import BitmapText.Proofs.Text.Decimal
import BitmapText.Proofs.CommandLine.Items
import BitmapText.Proofs.Config.Validation
import BitmapText.Proofs.Registry.KeyOrder
import BitmapText.Proofs.Registry.Listing
import BitmapText.Proofs.Bitmap.Layers
import BitmapText.Proofs.StringCache.Slots
import BitmapText.Proofs.Face.Kerning
import BitmapText.Proofs.Bitmap.Graymap
