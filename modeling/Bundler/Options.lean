import Bundler.Error
import Bundler.Path.Normal
import Bundler.Pattern.Reader
import Bundler.Table
import Bundler.Text.Replace

/-!
# Options

What a build is asked to do: the directory that module ids are relative to, the entries, where
and under which names bundles are written, and which files go through which loaders.
-/

namespace Bundler

/-- The files whose path matches `test` go through `loaders`. -/
structure Rule where
  pattern : String
  test : Pattern
  loaders : List String
deriving Inhabited

namespace Rule

def ofText? (pattern : String) (loaders : List String) : Except ConfigError Rule :=
  match Pattern.ofText? pattern with
  | some test => .ok ⟨pattern, test, loaders⟩
  | none => .error (.invalidRule pattern "regex parse error")

def appliesTo (rule : Rule) (resource : String) : Bool :=
  rule.test.isMatch resource

end Rule

/-- The options of a build. -/
structure Options where
  context : Path
  entries : Table Path
  outputPath : Path
  filename : String
  extensions : List String
  rules : List Rule
deriving Inhabited

namespace Options

/-- The part of a file name template that stands for the name of a chunk. -/
def placeholder : String := "[name]"

/-- The extensions that are tried unless others are given. -/
def defaultExtensions : List String := [".js"]

/-- The options of a context directory: no entry, and bundles in its directory `dist`. -/
def ofContext (context : Path) : Options :=
  { context := context.normalize
    entries := .empty
    outputPath := context.normalize.join ⟨"dist"⟩
    filename := placeholder ++ ".js"
    extensions := defaultExtensions
    rules := [] }

def absolute (options : Options) (path : Path) : Path :=
  (options.context.join path).normalize

def withEntry (options : Options) (name : String) (path : Path) : Options :=
  { options with entries := options.entries.insert name (options.absolute path) }

/-- Sets the directory that bundles are written to. -/
def withOutputPath (options : Options) (path : Path) : Options :=
  { options with outputPath := options.absolute path }

def withFilename (options : Options) (filename : String) : Options :=
  { options with filename := filename }

/-- Sets the extensions that are tried after the literal path. -/
def withExtensions (options : Options) (extensions : List String) : Options :=
  { options with extensions := extensions }

def withRule (options : Options) (rule : Rule) : Options :=
  { options with rules := options.rules ++ [rule] }

/-- A build needs an entry, a name for each and a file name template. -/
def validate (options : Options) : Except ConfigError Unit :=
  if options.entries.keys.isEmpty then .error (.invalid "No entry configured")
  else if options.entries.contains "" then
    .error (.invalid "Entry name cannot be empty (got \"\")")
  else if options.filename.isEmpty then .error (.invalid "output.filename cannot be empty")
  else .ok ()

/-- The file name of a chunk: the template with the chunk's name at every placeholder. -/
def filenameFor (options : Options) (chunk : String) : String :=
  Text.replaceAll options.filename placeholder chunk

end Options

end Bundler
