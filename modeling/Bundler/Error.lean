import Bundler.FileTree
import Bundler.Text.Location

/-!
# Errors

Why a configuration is refused or a build fails, and how each cause is worded.
-/

namespace Bundler

/-- An error of a loader, a tap or a plugin, with the messages of what it stopped, the outermost
first. -/
structure Cause where
  messages : List String
deriving DecidableEq, Repr, Inhabited

namespace Cause

def ofMessage (message : String) : Cause := ⟨[message]⟩

/-- All messages in one line. -/
def render (cause : Cause) : String :=
  ": ".intercalate cause.messages

end Cause

/-- Why a configuration is refused. -/
inductive ConfigError where
  | unreadable (path : Path) (reason : String)
  | malformed (path : Path) (reason : String)
  | invalid (reason : String)
  | invalidRule (pattern reason : String)
  | unknownPlugin (name : String)
deriving DecidableEq, Repr, Inhabited

namespace ConfigError

def message : ConfigError → String
  | unreadable path reason => s!"I/O error reading {path.text}: {reason}"
  | malformed path reason => s!"TOML parsing error in {path.text}: {reason}"
  | invalid reason => s!"Validation error: {reason}"
  | invalidRule pattern reason => s!"Invalid rule test '{pattern}': {reason}"
  | unknownPlugin name => s!"Unknown plugin '{name}'"

end ConfigError

/-- Why a build fails. -/
inductive BuildError where
  | file (path : Path) (reason : String)
  | moduleNotFound (specifier : String) (base : Path)
  | syntaxError (module : String) (location : Text.Location) (reason : String)
  | loaderFailed (loader module reason : String)
  | dynamicRequire (module : String) (location : Text.Location)
  | unknownLoader (name : String)
  | tapFailed (hook tap reason : String)
  | invalidAsset (name reason : String)
  | pluginFailed (name reason : String)
  | config (cause : ConfigError)
deriving DecidableEq, Repr, Inhabited

namespace BuildError

def message : BuildError → String
  | file path reason => s!"I/O error on {path.text}: {reason}"
  | moduleNotFound specifier base =>
    s!"Module not found: Can't resolve '{specifier}' in '{base.text}'"
  | syntaxError module location reason =>
    s!"Parse error in {module} at {location.render}: {reason}"
  | loaderFailed loader module reason => s!"Loader '{loader}' failed on {module}: {reason}"
  | dynamicRequire module location =>
    s!"Unsupported require() in {module} at {location.render}: " ++
      "the argument must be a string literal"
  | unknownLoader name => s!"Loader '{name}' is not registered"
  | tapFailed hook tap reason => s!"Hook '{hook}' tap '{tap}' failed: {reason}"
  | invalidAsset name reason => s!"Invalid asset '{name}': {reason}"
  | pluginFailed name reason => s!"Plugin '{name}' failed to apply: {reason}"
  | config cause => s!"Configuration error: {cause.message}"

def ofFile (path : Path) (error : FileError) : BuildError :=
  file path error.message

def chain (error : BuildError) : List String :=
  match error with
  | file _ reason => [error.message, reason]
  | config cause => [error.message, cause.message]
  | _ => [error.message]

end BuildError

end Bundler
