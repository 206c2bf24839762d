import BitmapText.Backend.FontFiles
import BitmapText.Bitmap.Pgm
import BitmapText.CommandLine
import BitmapText.Config.Load
import BitmapText.Log.LogFile
import BitmapText.Registry

/-!
# Running the program

The program draws one text, tells the size of the picture, and on demand writes the picture to a
file and lists the caches. What it does to files is written for any `Files`; what it prints is its
result.

## Main definitions

* `CommandLine.Failure`: why the program fails.
* `CommandLine.Output`: what the program prints and how it ends.
* `CommandLine.logFileBeside`: the file that the program logs to.
* `CommandLine.run`: run the program.
-/

namespace BitmapText

namespace CommandLine

/-- Why the program fails. -/
inductive Failure where
  | argument (error : ArgumentError)
  | missingText
  | config (error : ConfigError)
  | font (error : FontError)
  | output (path : Path) (error : FileError)
deriving Repr, DecidableEq

def Failure.message : Failure → String
  | argument error => error.message
  | missingText => "missing TEXT argument"
  | config error => error.message
  | font error => error.message
  | output path error => "failed to write " ++ path.text ++ ": " ++ error.message

/-- What was printed, and why there is no more. -/
structure Ending where
  printed : String
  failure : Option Failure := none
deriving Repr, DecidableEq

/-- What the program prints, and the code it ends with. -/
structure Output where
  stdout : String
  stderr : String
  code : Nat
deriving Repr, DecidableEq

/-- A failure is told to the user, and shows in the code. -/
def Ending.output (e : Ending) : Output :=
  match e.failure with
  | none => ⟨e.printed, "", 0⟩
  | some failure => ⟨e.printed, "error: " ++ failure.message ++ "\n", 1⟩

/-! ## Texts -/

def versionLine : String := "oritext 0.1.0-alpha.3\n"

def usage : String :=
  "USAGE:\n" ++
  "    oritext [OPTIONS] TEXT\n" ++
  "\n" ++
  "OPTIONS:\n" ++
  "    --config FILE       Read configuration from FILE\n" ++
  "    --out FILE          Write the rendered text as a binary PGM image\n" ++
  "    --max-width N       Clip the text to N pixels\n" ++
  "    --stats             Print cache diagnostics after rendering\n" ++
  "    --print-config      Print the default configuration to stdout\n" ++
  "    --version, -V       Print version information\n" ++
  "    --help, -h          Print this help message\n"

def helpText : String :=
  versionLine ++ "Render text through cached glyph and string caches\n\n" ++ usage

def logFileBeside (program : Path) : Path :=
  let directory := (program.text.toList.reverse.dropWhile (· ≠ '/')).reverse
  (Path.mk (String.ofList directory)).join "oritext_debug.log"

/-- The line about a picture. -/
def summary (p : Picture) : String :=
  "width=" ++ toString p.canvas.width ++ " height=" ++ toString p.canvas.height ++
    " glyphs=" ++ toString p.glyphs ++ "\n"

/-! ## Drawing -/

variable {m : Type → Type} [Monad m] [Files m]

/-- Write a picture, and list the caches of a registry. -/
def deliver (options : Options) (picture : Picture) (listing : String) : m Ending := do
  let written ← match options.out with
    | none => pure none
    | some path =>
      match ← Files.write path picture.canvas.toPgm with
      | .ok () => pure none
      | .error e => pure (some (Failure.output path e))
  match written with
  | some failure => return ⟨summary picture, some failure⟩
  | none => return ⟨summary picture ++ (if options.stats then listing ++ "\n" else ""), none⟩

/-- Draw a text with the font of the settings. The font is given back in the end. -/
def draw (options : Options) (text : String) (config : Config) (log : LogFile) : m Ending := do
  let bytes ← Files.read config.font.path
  let files : FontFiles := ⟨fun _ => bytes.mapError FileError.message⟩
  let registry : Registry FontFiles OpenTypeFace := .empty files config.cache.limits
  match registry.acquire ⟨config.font.path, config.font.size, config.font.dpi⟩ with
  | (.error e, _, records) =>
    log.append records
    return ⟨"", some (.font e)⟩
  | (.ok handle, registry, records) =>
    log.append records
    match registry.ask handle (Font.picture · text options.maxWidth) with
    | none => return ⟨"", none⟩
    | some (picture, registry, records) =>
      log.append records
      let ending ← match picture with
        | .error e => pure ⟨"", some (.font e)⟩
        | .ok picture => deliver options picture registry.stats.text
      log.append (registry.release handle.key).2
      return ending

/-- Draw the text of the options, with the settings that they name or those at the usual place. -/
def drawText (environment : Environment) (logPath : Path) (options : Options) : m Ending := do
  match options.text with
  | none => return ⟨"", some .missingText⟩
  | some text =>
    let loaded ← match options.config with
      | some path => Config.loadFrom path
      | none => Except.ok <$> (Prod.fst <$> Config.load environment)
    match loaded with
    | .error e => return ⟨"", some (.config e)⟩
    | .ok config =>
      match config.log.filter with
      | .error fault => return ⟨"", some (.config fault.error)⟩
      | .ok filter => draw options text config ⟨logPath, filter⟩

def run (environment : Environment) (logPath : Path) (arguments : List String) : m Output := do
  match Command.ofArguments arguments with
  | .error e => return ({ printed := "", failure := some (.argument e) } : Ending).output
  | .ok .printConfig =>
    match Config.toToml {} with
    | .ok text => return ({ printed := text } : Ending).output
    | .error e => return ({ printed := "", failure := some (.config e) } : Ending).output
  | .ok .version => return ({ printed := versionLine } : Ending).output
  | .ok .help => return ({ printed := helpText } : Ending).output
  | .ok (.draw options) => return (← drawText environment logPath options).output

end CommandLine

end BitmapText
