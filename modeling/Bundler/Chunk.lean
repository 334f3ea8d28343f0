import Bundler.Json.Printer
import Bundler.Module.Graph
import Bundler.Report

/-!
# Chunks and bundles

A chunk holds the modules of one entry. Its bundle is a program that keeps the modules in a
registry, runs each of them at most once, and yields what the entry's module exports.
-/

namespace Bundler

/-- The modules that are reached from one entry. -/
structure Chunk where
  name : String
  entryModule : Module
  modules : List Module
deriving DecidableEq, Repr, Inhabited

namespace Chunk

/-- The modules of a list that an entry owns. -/
def owned (name : String) (modules : List Module) : List Module :=
  modules.filter fun module => module.isOwnedBy name

def ofModules (name : String) (entryModule : Module) (modules : List Module) : Chunk :=
  ⟨name, entryModule, owned name modules⟩

def ids (chunk : Chunk) : List String :=
  chunk.modules.map Module.id

def assemble {ε : Type} (name : String) (entryModule : Module) (modules : List Module) :
    Report ε Chunk :=
  let chunk := ofModules name entryModule modules
  ⟨[.chunkAssembled name chunk.modules.length], .ok chunk⟩

end Chunk

namespace Bundle

/-- The name of the function that a rewritten import calls. -/
def requireName : String := "__tinypack_require__"

/-- The variable that holds the registry of modules. -/
def modulesName : String := "__tinypack_modules__"

/-- The variable that holds the modules that have run. -/
def cacheName : String := "__tinypack_module_cache__"

/-- The parameters that every module is wrapped in. -/
def parameters : String := "module, exports, " ++ requireName

/-- A text that ends in a line break, one being added if there is none. -/
def terminated (text : String) : String :=
  if text.toList.getLast? == some '\n' then text else text ++ "\n"

def key (module : Module) : String := Json.quote module.id

def keys (chunk : Chunk) : List String := chunk.modules.map key

def registryEntry (module : Module) : String :=
  "    " ++ key module ++ ": function (" ++ parameters ++ ") \x7b\n" ++
    terminated module.code ++ "    \x7d,\n"

/-- The function that runs a module at most once. The record of a module is kept before the
module runs, so that modules may require each other. -/
def requireFunction : String :=
  "  var " ++ cacheName ++ " = \x7b\x7d;\n" ++
  "  function " ++ requireName ++ "(id) \x7b\n" ++
  "    if (Object.prototype.hasOwnProperty.call(" ++ cacheName ++ ", id)) \x7b\n" ++
  "      return " ++ cacheName ++ "[id].exports;\n" ++
  "    \x7d\n" ++
  "    if (!Object.prototype.hasOwnProperty.call(" ++ modulesName ++ ", id)) \x7b\n" ++
  "      throw new Error(\"Cannot find module '\" + id + \"'\");\n" ++
  "    \x7d\n" ++
  "    var module = \x7b id: id, exports: \x7b\x7d \x7d;\n" ++
  "    " ++ cacheName ++ "[id] = module;\n" ++
  "    " ++ modulesName ++ "[id].call(module.exports, module, module.exports, " ++
    requireName ++ ");\n" ++
  "    return module.exports;\n" ++
  "  \x7d\n"

def render (chunk : Chunk) : String :=
  "(function () \x7b\n" ++
  "  var " ++ modulesName ++ " = \x7b\n" ++
  String.join (chunk.modules.map registryEntry) ++
  "  \x7d;\n" ++
  requireFunction ++
  "  return " ++ requireName ++ "(" ++ key chunk.entryModule ++ ");\n" ++
  "\x7d)();\n"

end Bundle

end Bundler
