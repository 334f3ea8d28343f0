import Bundler.Script.Reader.State

/-!
# Targets of assignments

What stands on the left of an assignment is read as an expression first. This module turns it
into a target, or fails where it is none.
-/

namespace Bundler.Script.Parser

/-- Whether an expression denotes a place that can be assigned to, under marks of types. -/
def isPlace : Node → Bool
  | .node (.name _) _ _ _ _ => true
  | .node (.member _) _ _ _ _ => true
  | .node (.element _) _ _ _ _ => true
  | .node .parenthesized _ _ _ [inner] => isPlace inner
  | .node .nonNull _ _ _ [inner] => isPlace inner
  | .node .asType _ _ _ [inner, _] => isPlace inner
  | .node .satisfiesType _ _ _ [inner, _] => isPlace inner
  | .node .assertedType _ _ _ [_, inner] => isPlace inner
  | _ => false

def isCompound : Node → Bool
  | .node (.array _) _ _ _ _ => true
  | .node (.object _) _ _ _ _ => true
  | _ => false

/-- A target that is a single place; parentheses around it are dropped. -/
def placeTarget : Node → Parser Node
  | .node .parenthesized start _ _ [inner] =>
    if isCompound inner then failAt start else placeTarget inner
  | node => if isPlace node then return node else failAt node.start

mutual

/-- A target: a place, or a list or an object of targets. -/
def target : Node → Parser Node
  | .node (.array comma) start stop _ elements => do
    return Node.mk .arrayTarget start stop (← targetElements comma elements)
  | .node (.object comma) start stop _ properties => do
    return Node.mk .objectTarget start stop (← targetProperties comma properties)
  | .node kind start stop value children => placeTarget (.node kind start stop value children)

/-- A target with a default, if there is one. -/
def defaultedTarget : Node → Parser Node
  | .node (.assign op) start stop _ [left, right] => do
    if op != .plain then fault start
    return Node.mk .targetDefault start stop [left, right]
  | .node (.array comma) start stop _ elements => do
    return Node.mk .arrayTarget start stop (← targetElements comma elements)
  | .node (.object comma) start stop _ properties => do
    return Node.mk .objectTarget start stop (← targetProperties comma properties)
  | .node kind start stop value children => placeTarget (.node kind start stop value children)

def targetElements (comma : Option Nat) : List Node → Parser (List Node)
  | [] => return []
  | .node .absent start stop value children :: rest => do
    return .node .absent start stop value children :: (← targetElements comma rest)
  | .node .spread start stop _ [inner] :: rest => do
    if rest.isEmpty then
      let inner ← target inner
      if let some place := comma then fault place
      return [Node.mk .restTarget start stop [inner]]
    else failAt start
  | element :: rest => do
    let element ← defaultedTarget element
    return element :: (← targetElements comma rest)

def targetProperties (comma : Option Nat) : List Node → Parser (List Node)
  | [] => return []
  | .node (.property computed shorthand) start stop _ [key, value] :: rest => do
    let property ← if shorthand then
        pure (Node.mk .targetShorthand start stop [key, Node.absent])
      else do
        let value ← defaultedTarget value
        pure (Node.mk (.targetProperty computed) start stop [key, value])
    return property :: (← targetProperties comma rest)
  | .node .shorthandDefault start stop _ [name, value] :: rest => do
    modify fun state =>
      { state with openDefaults := state.openDefaults.filter (· != start) }
    let property := Node.mk .targetShorthand start stop [name, value]
    return property :: (← targetProperties comma rest)
  | .node .spread start stop _ [inner] :: rest => do
    if rest.isEmpty then
      if isCompound inner then fault inner.start
      let inner ← target inner
      if let some place := comma then fault place
      return [Node.mk .restTarget start stop [inner]]
    else failAt start
  | .node (.methodProperty _ _) _ _ _ [_, method] :: _ => failAt method.start
  | property :: _ => failAt property.start

end

end Bundler.Script.Parser
