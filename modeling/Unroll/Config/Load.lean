import Unroll.Config.Document
import Unroll.Host
import Unroll.Setting.Decode
import Unroll.Setting.Layer
import Unroll.Setting.Variables
import Unroll.Toml.Parse

/-!
# Loading a configuration

A configuration is made up of layers: the initial values, the settings of a file, and the settings
in the environment. Later layers win, setting by setting. The result has to be valid.

A file that is asked for has to exist. Without one, the file at the default path counts if it is
there and is text.
-/

namespace Unroll

/-- Why a configuration cannot be loaded. -/
inductive LoadFault where
  | missingFile (path : String)
  /-- The file is not UTF-8. -/
  | notText
  /-- The file is not a TOML document. -/
  | notToml
  | index (fault : Setting.IndexFault)
  | setting (fault : Setting.Fault)

/-- Why a configuration cannot be obtained or written. -/
inductive ConfigError where
  | load (fault : LoadFault)
  | unwritable (fault : Unwritable)
  | invalid (reason : Invalid)

def LoadFault.message : LoadFault → String
  | missingFile path => "configuration file \"" ++ path ++ "\" not found"
  | notText => "stream did not contain valid UTF-8"
  | notToml => "TOML parse error"
  | index .beforeStart => "index before the start of an array"
  | setting fault => fault.message

namespace ConfigError

def message : ConfigError → String
  | load fault => "Failed to load configuration: " ++ fault.message
  | unwritable fault => fault.message
  | invalid reason => reason.message

/-- The messages of an error and of what is behind it. -/
def chain : ConfigError → List String
  | load fault => [message (load fault), fault.message]
  | unwritable fault => [message (unwritable fault), fault.cause]
  | invalid reason => [message (invalid reason)]

end ConfigError

/-! ## Layers -/

/-- A document as a layer. -/
structure Document where
  /-- Where the document comes from. -/
  origin : Option String
  entries : List (String × Toml)

namespace Document

def ofFile (file : FoundFile) : Except LoadFault Document :=
  match String.fromUTF8? file.content with
  | none => .error .notText
  | some text =>
    match Toml.parse? text with
    | none => .error .notToml
    | some entries => .ok { origin := some file.path, entries }

/-- The settings of a document. -/
def settings (d : Document) : List (String × Setting) :=
  Setting.ofEntries d.origin d.entries

end Document

/-- The layers over each other, from the initial values to the environment. -/
def layered (document : Option Document) (environment : List (String × String)) :
    Except Setting.IndexFault Setting := do
  let tree ← Setting.emptyTable.overlay (Setting.ofConfig Config.initial)
  let tree ←
    match document with
    | some d => tree.overlay d.settings
    | none => .ok tree
  tree.overlay (Setting.ofVariables environment)

namespace Config

/-- The configuration that the layers make up. -/
def ofLayers (document : Option Document) (environment : List (String × String)) :
    Except ConfigError Config := do
  let tree ← (layered document environment).mapError fun e => .load (.index e)
  let c ← (Config.ofSetting tree).mapError fun e => .load (.setting e)
  c.validate.mapError .invalid
  return c

end Config

namespace Host

/-- The document of a file that has to be there. -/
def requiredDocument (h : Host) (path : String) : Except LoadFault Document :=
  match h.findConfig? path with
  | some file => Document.ofFile file
  | none => .error (.missingFile path)

/-- The document at the default path, if there is a text. -/
def defaultDocument (h : Host) : Except LoadFault (Option Document) :=
  match h.findConfig? h.defaultConfigPath with
  | none => .ok none
  | some file =>
    match Document.ofFile file with
    | .ok document => .ok (some document)
    | .error .notText => .ok none
    | .error fault => .error fault

/-- The document of a run, given the path that was asked for, if any. -/
def document (h : Host) : Option String → Except LoadFault (Option Document)
  | some path => (h.requiredDocument (h.expandPath path)).map some
  | none => h.defaultDocument

end Host

/-- Loads the configuration of a run, given the path of a file, if any. -/
def Config.load (h : Host) (path : Option String) : Except ConfigError Config := do
  let document ← (h.document path).mapError .load
  Config.ofLayers document h.environment

end Unroll
