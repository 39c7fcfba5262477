import Unroll.CommandLine.Parse
import Unroll.Config.Load
import Unroll.Execution
import Unroll.Host.FileTree

/-!
# Sessions

A session holds a configuration and works on it command by command. A command that fails leaves the
configuration alone.
-/

namespace Unroll

namespace Config

/-- A host that has nothing but one file, in its working directory. -/
def hostOfFile (name text : String) : Host where
  environment := []
  workingDirectory := "/"
  accountHome := "/"
  read := ((FileTree.empty).addFile [name] text.toUTF8).read

/-- Writes a configuration to a file and loads it from there. -/
def reload (c : Config) : Except ConfigError Config := do
  let text ← c.toToml.mapError .unwritable
  Config.load (hostOfFile "c.toml" text) (some "c.toml")

end Config

namespace Session

inductive Command where
  /-- Loads a configuration in the place of the current one. -/
  | load (host : Host) (path : Option String)
  /-- Lets a command line replace values. -/
  | arguments (words : List String)
  | replace (config : Config)
  | validate
  /-- Shows the configuration as a document. -/
  | document
  /-- Tells whether the configuration comes back from a file. -/
  | reload
  | execute (clock : Clock)

inductive Reply where
  | done
  | text (text : String)
  | reloaded (same : Bool)
  | executed (execution : Execution)

inductive Fault where
  | config (fault : ConfigError)
  | arguments (stop : CommandLine.Stop)
  | execute (fault : ExecuteFault)

/-- The reply to a command and the configuration after it. -/
def attempt (c : Config) : Command → Except Fault (Reply × Config)
  | .load host path => do
    return (.done, ← (Config.load host path).mapError .config)
  | .arguments words => do
    let line ← (CommandLine.parse words).mapError .arguments
    return (.done, line.apply c)
  | .replace config => return (.done, config)
  | .validate => do
    c.validate.mapError fun reason => .config (.invalid reason)
    return (.done, c)
  | .document => do
    return (.text (← c.toToml.mapError fun fault => .config (.unwritable fault)), c)
  | .reload => do
    let reloaded ← c.reload.mapError .config
    return (.reloaded (reloaded = c), c)
  | .execute clock => do
    return (.executed (← (Unroll.execute c clock).outcome.mapError .execute), c)

/-- The reply to a command, or why it fails, and the configuration after it. -/
def step (c : Config) (command : Command) : Except Fault Reply × Config :=
  match attempt c command with
  | .ok (reply, after) => (.ok reply, after)
  | .error fault => (.error fault, c)

/-- The replies to commands in turn, each with the configuration after it. -/
def replay (c : Config) : List Command → List (Except Fault Reply × Config)
  | [] => []
  | command :: rest =>
    let (reply, after) := step c command
    (reply, after) :: replay after rest

end Session

end Unroll
