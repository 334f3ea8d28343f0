import Bundler.Hook.Kind
import Bundler.Json.Basic
import Bundler.Path
import Bundler.Text.Inspect

/-!
# Events

What happens during a build, as it is written to the log. Loaders and taps may leave notes of
their own, which are no part of the log.
-/

namespace Bundler

/-- How severe an event is. -/
inductive Level where
  | error
  | warn
  | info
  | debug
  | trace
deriving DecidableEq, Repr, Inhabited

namespace Level

/-- The rank of a level, the most severe first. -/
def rank : Level → Nat
  | error => 0
  | warn => 1
  | info => 2
  | debug => 3
  | trace => 4

def title : Level → String
  | error => "ERROR"
  | warn => "WARN"
  | info => "INFO"
  | debug => "DEBUG"
  | trace => "TRACE"

end Level

/-- One thing that happens. -/
inductive Event where
  | requestResolved (specifier : String) (path : Path)
  | requireResolved (module request dependency : String)
  | loaderCalled (loader resource : String)
  | moduleBuilt (module entry : String) (dependencies : Nat)
  | entryBuilt (entry module : String)
  | chunkAssembled (chunk : String) (modules : Nat)
  | chunkRendered (chunk asset : String) (bytes : Nat)
  | fileWritten (path : Path)
  | tapRegistered (hook : HookKind) (tap : String)
  | tapCalled (hook : HookKind) (tap : String)
  | pluginApplied (plugin : String)
  | buildStarted (context : Path) (entries : Nat)
  | buildFinished (modules chunks files : Nat)
  | configLoaded (path : Path)
  | configAbsent
  | lifecycle (hook : HookKind) (subject : String) (count : Nat)
  | note (value : Json)
deriving Inhabited

namespace Event

/-- The name of the part of the program that an event belongs to, and the text of the event. -/
structure Entry where
  level : Level
  source : String
  text : String

/-- How an event is logged. -/
def entry? : Event → Option Entry
  | requestResolved specifier path => some ⟨.trace, "resolve",
      s!"resolved request specifier={Text.inspect specifier} resolved={path.text}"⟩
  | requireResolved module request dependency => some ⟨.debug, "transform",
      s!"resolved require module={module} request={request} dependency={dependency}"⟩
  | loaderCalled loader resource => some ⟨.trace, "loaders",
      s!"running loader loader={loader} resource={resource}"⟩
  | moduleBuilt module entry dependencies => some ⟨.debug, "graph::builder",
      s!"built module module={module} entry={Text.inspect entry} dependencies={dependencies}"⟩
  | entryBuilt entry module => some ⟨.debug, "compilation",
      s!"entry built entry={entry} module={module}"⟩
  | chunkAssembled chunk modules => some ⟨.debug, "chunk",
      s!"assembled chunk chunk={Text.inspect chunk} modules={modules}"⟩
  | chunkRendered chunk asset bytes => some ⟨.debug, "compilation",
      s!"rendered chunk chunk={chunk} asset={asset} bytes={bytes}"⟩
  | fileWritten path => some ⟨.debug, "compilation", s!"emitted file={path.text}"⟩
  | tapRegistered hook tap => some ⟨.trace, "hooks",
      s!"tap registered hook={hook.name} composition={hook.composition.title} tap={tap}"⟩
  | tapCalled hook tap => some ⟨.trace, "hooks", s!"calling tap hook={hook.name} tap={tap}"⟩
  | pluginApplied plugin => some ⟨.debug, "compiler",
      s!"applying plugin plugin={Text.inspect plugin}"⟩
  | buildStarted context entries => some ⟨.info, "compiler",
      s!"build started context={context.text} entries={entries}"⟩
  | buildFinished modules chunks files => some ⟨.info, "compiler",
      s!"build finished modules={modules} chunks={chunks} files={files}"⟩
  | configLoaded path => some ⟨.debug, "cli", s!"loaded config config={path.text}"⟩
  | configAbsent => some ⟨.debug, "cli",
      "no tinypack.toml, using command-line options only"⟩
  | lifecycle hook subject count => some ⟨.info, "plugins::builtin",
      s!"{hook.name} {subject}={count}"⟩
  | note _ => none

/-- The line of an event in a log that shows events of a level and more severe ones. -/
def line? (shown : Level) (event : Event) : Option String :=
  match event.entry? with
  | some entry =>
    if entry.level.rank ≤ shown.rank then
      some s!"{entry.level.title} tinypack::{entry.source}: {entry.text}"
    else none
  | none => none

def note? : Event → Option Json
  | note value => some value
  | _ => none

end Event

end Bundler
