import Unroll.Path

/-!
# The host of a run

What a run sees of the machine: its variables, its working directory and the files. Everything that
depends on the machine is a function of a `Host`.
-/

namespace Unroll

structure Host where
  /-- The variables of the environment with their values. -/
  environment : List (String × String)
  /-- The absolute path of the working directory. -/
  workingDirectory : String
  /-- The home directory of the account, which counts if no variable names one. -/
  accountHome : String
  /-- The content of the regular file at an absolute path. -/
  read : String → Option ByteArray

/-- A file as it was found. -/
structure FoundFile where
  /-- The path from the working directory. -/
  path : String
  content : ByteArray

namespace Host

def valueOf? (h : Host) (name : String) : Option String :=
  (h.environment.find? (·.1 == name)).map (·.2)

def home (h : Host) : String :=
  match h.valueOf? "HOME" with
  | some path => if path.isEmpty then h.accountHome else path
  | none => h.accountHome

/-- Replaces `~` at the start of a path, alone or before a slash, by the home directory. -/
def expandPath (h : Host) (path : String) : String :=
  match path.toList with
  | ['~'] => h.home
  | '~' :: '/' :: rest => h.home ++ String.ofList ('/' :: rest)
  | _ => path

/-- The directory of the user's configuration files. A variable for it counts if it is absolute. -/
def configDirectory (h : Host) : String :=
  let fallback := Path.join h.home ".config"
  match h.valueOf? "XDG_CONFIG_HOME" with
  | some path => if Path.isAbsolute path then path else fallback
  | none => fallback

/-- Where the configuration file is looked for if none is given. -/
def defaultConfigPath (h : Host) : String :=
  Path.join (Path.join h.configDirectory "fibstack") "config.toml"

/-- The absolute paths at which a configuration file is looked for. -/
def configCandidates (h : Host) (path : String) : List String :=
  let exact := Path.join h.workingDirectory path
  exact :: (Path.appendToName? ".toml" exact).toList

/-- The configuration file of the given path: the file at it, or the one with `.toml` appended. -/
def findConfig? (h : Host) (path : String) : Option FoundFile :=
  (h.configCandidates path).findSome? fun candidate =>
    (h.read candidate).map fun content =>
      { path := Path.relativeTo h.workingDirectory candidate, content }

end Host

end Unroll
