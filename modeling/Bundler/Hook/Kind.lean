/-!
# Kinds of hooks

The fixed points of a build at which taps are called, in the order in which they are reached.
-/

namespace Bundler

/-- How the taps of a hook are combined: one after another, or each on the result of the one
before it. -/
inductive Composition where
  | series
  | waterfall
deriving DecidableEq, Repr, Inhabited

namespace Composition

def name : Composition → String
  | series => "series"
  | waterfall => "waterfall"

def title : Composition → String
  | series => "Series"
  | waterfall => "Waterfall"

end Composition

/-- A point of a build at which taps are called. -/
inductive HookKind where
  | run
  | compilation
  | assetPath
  | emit
  | done
deriving DecidableEq, Repr, Inhabited

namespace HookKind

/-- Every kind, in the order of a build. -/
def all : List HookKind := [run, compilation, assetPath, emit, done]

def name : HookKind → String
  | run => "run"
  | compilation => "compilation"
  | assetPath => "assetPath"
  | emit => "emit"
  | done => "done"

def title : HookKind → String
  | run => "Run"
  | compilation => "Compilation"
  | assetPath => "AssetPath"
  | emit => "Emit"
  | done => "Done"

/-- Only asset paths are handed from tap to tap. -/
def composition : HookKind → Composition
  | assetPath => .waterfall
  | _ => .series

end HookKind

end Bundler
