import Bundler.Error
import Bundler.Hook.Kind
import Bundler.Report
import Bundler.Text.Inspect

/-!
# Hooks and taps

A tap is a named function. The taps of a hook are called in the order in which they were
registered, and the first that fails ends the build.
-/

namespace Bundler

/-- A named function at a hook. -/
structure Tap (F : Type) where
  name : String
  call : F

/-- The taps at one point of a build. -/
structure Hook (F : Type) where
  kind : HookKind
  taps : List (Tap F)

namespace Hook

variable {F : Type}

/-- A hook without taps. -/
def ofKind (kind : HookKind) : Hook F := ⟨kind, []⟩

def names (hook : Hook F) : List String := hook.taps.map Tap.name

def add (hook : Hook F) (tap : Tap F) : Hook F :=
  { hook with taps := hook.taps ++ [tap] }

def registered (hook : Hook F) (tap : Tap F) : Event :=
  .tapRegistered hook.kind tap.name

/-- Calls one tap, and says which tap it was that failed. -/
def callTap {σ : Type} (kind : HookKind) (run : F → Action σ Cause Unit) (tap : Tap F) :
    Action σ BuildError Unit := do
  Action.log (.tapCalled kind tap.name)
  (run tap.call).mapError fun cause => .tapFailed kind.name tap.name cause.render

/-- Calls taps one after another. -/
def callTaps {σ : Type} (kind : HookKind) (run : F → Action σ Cause Unit) :
    List (Tap F) → Action σ BuildError Unit
  | [] => Action.ok ()
  | tap :: rest => do
      callTap kind run tap
      callTaps kind run rest

/-- Calls every tap of a hook. Each works on the state that the one before it left. -/
def callAll {σ : Type} (hook : Hook F) (run : F → Action σ Cause Unit) :
    Action σ BuildError Unit :=
  callTaps hook.kind run hook.taps

/-- Calls taps that only look on. -/
def observe (hook : Hook F) (run : F → Report Cause Unit) : Report BuildError Unit :=
  let outcome := hook.callAll (fun tap => Action.ofReport (run tap)) ()
  ⟨outcome.events, outcome.result⟩

def thread {α : Type} (hook : Hook F) (run : F → α → Report Cause α) (value : α) :
    Report BuildError α :=
  let step (tap : F) : Action α Cause Unit := do
    let here ← Action.get
    let next ← Action.ofReport (run tap here)
    Action.modify fun _ => next
  let outcome := hook.callAll step value
  ⟨outcome.events,
    match outcome.result with
    | .ok () => .ok outcome.state
    | .error error => .error error⟩

/-- The hook as it is shown to a developer. -/
def inspect (hook : Hook F) : String :=
  "Hook \x7b kind: " ++ hook.kind.title ++ ", composition: " ++ hook.kind.composition.title ++
    ", taps: " ++ Text.inspectList hook.names ++ " \x7d"

end Hook

/-- What an asset path is computed for: the chunk, the file name template and the directory
that bundles are written to. -/
structure AssetPathData where
  chunk : String
  filename : String
  outputPath : Path
deriving Inhabited

/-- A tap that may put another asset path in place of the one it is given. -/
abbrev AssetPathTap := AssetPathData → String → Report Cause String

/-- The asset path that the taps of a hook leave. -/
def Hook.assetPath (hook : Hook AssetPathTap) (data : AssetPathData) (path : String) :
    Report BuildError String :=
  hook.thread (fun tap here => tap data here) path

end Bundler
