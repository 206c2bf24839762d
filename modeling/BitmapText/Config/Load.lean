import BitmapText.Config.Text
import BitmapText.Files

/-!
# Loading the configuration

A configuration is loaded from a file that was asked for, in which case it has to be usable, or from
the usual place, in which case the usual settings stand in for it. The usual place is in the
directory for configurations, if the environment names one, and else below the home directory;
without either it is below the current directory.

## Main definitions

* `Environment`: what the environment says.
* `Environment.configDirectory`, `Environment.configFile`: the usual place.
* `Config.ofBytes`: the settings of a file's bytes.
* `Config.loadFrom`: the settings of a file.
* `Config.load`: the settings at the usual place.
-/

namespace BitmapText

/-! ## The usual place -/

/-- The variables of the environment that matter; `none` for one that is not set. -/
structure Environment where
  configHome : Option String := none
  home : Option String := none
deriving Repr, DecidableEq

namespace Environment

def configDirectory (e : Environment) : Path :=
  match e.configHome, e.home with
  | some directory, _ => (Path.mk directory).join "oritext"
  | none, some home => ((Path.mk home).join ".config").join "oritext"
  | none, none => (Path.mk ".").join "oritext"

def configFile (e : Environment) : Path := e.configDirectory.join "config.toml"

end Environment

/-! ## Files with settings -/

namespace Config

/-- The settings of a file with the given bytes. -/
def ofBytes (path : Path) (bytes : Array UInt8) : Except ConfigError Config :=
  match String.fromUTF8? ⟨bytes⟩ with
  | none => .error (.io path "stream did not contain valid UTF-8")
  | some text =>
    match parse text with
    | .ok config => .ok config
    | .error (.parse _ reason) => .error (.parse path reason)
    | .error e => .error e

/-- What is reported about the file at the usual place. -/
inductive LoadNote where
  | loaded (path : Path)
  /-- The file is there, but its settings cannot be used. -/
  | refused (error : ConfigError)
deriving Repr, DecidableEq

def LoadNote.record : LoadNote → Log.Record
  | loaded path => ⟨.info, "ori_text::config::io", "config: loaded from " ++ path.text⟩
  | refused error => ⟨.warn, "ori_text::config::io", "config: " ++ error.message⟩

variable {m : Type → Type} [Monad m] [Files m]

def loadFrom (path : Path) : m (Except ConfigError Config) := do
  match ← Files.read path with
  | .error e => return .error (.io path e.message)
  | .ok bytes => return ofBytes path bytes

/-- The settings at the usual place, with what there is to report. A file that is not there goes
without a report. -/
def load (environment : Environment) : m (Config × Option LoadNote) := do
  let path := environment.configFile
  match ← loadFrom path with
  | .ok config => return (config, some (.loaded path))
  | .error (.io path' reason) =>
    if ← Files.reaches path then return ({}, some (.refused (.io path' reason)))
    else return ({}, none)
  | .error e => return ({}, some (.refused e))

end Config

end BitmapText
