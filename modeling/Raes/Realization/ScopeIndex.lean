import Raes.Lib.Dict
import Raes.Realization.Common

/-!
# Lookup of lexical scopes

`realization_structure/_scope_index.py`: the scopes of a document, found by the tokens
of a path.  Every token that a lookup follows costs one operation.
-/

namespace Raes.Realization

open Stateful Verdict

inductive ScopeIndex where
  | place (closure : Option Closure) (children : List (String × ScopeIndex))

namespace ScopeIndex

def empty : ScopeIndex := .place none []

def closure : ScopeIndex → Option Closure
  | .place closure _ => closure

def children : ScopeIndex → List (String × ScopeIndex)
  | .place _ children => children

/-- Declare a closure at the place that the tokens lead to. -/
def insert (closure : Closure) : List String → ScopeIndex → ScopeIndex
  | [], .place _ children => .place (some closure) children
  | token :: rest, .place own children =>
    let child := (children.lookup token).getD empty
    .place own (Dict.setEntry token (insert closure rest child) children)

def ofScopes (scopes : List Scope) : ScopeIndex :=
  scopes.foldl (fun index scope => insert scope.closure (pointerTokens scope.fieldPointer) index)
    empty

/-- The closure that a place inherits: the one declared deepest along its path. -/
def closureAlong : ScopeIndex → Closure → List String → Closure
  | _, inherited, [] => inherited
  | index, inherited, token :: rest =>
    match index.children.lookup token with
    | none => inherited
    | some child => closureAlong child (child.closure.getD inherited) rest

/-- `inherited_closure`, without the budget. -/
def closureAt (index : ScopeIndex) (path : List String) (default : Closure) : Closure :=
  closureAlong index (index.closure.getD default) path

/-- `declared_children`, without the budget. -/
def childTokens : ScopeIndex → List String → List String
  | index, [] => index.children.map Prod.fst
  | index, token :: rest =>
    match index.children.lookup token with
    | none => []
    | some child => childTokens child rest

end ScopeIndex

variable (limits : Limits)

def spendLookup (pointer message : String) : Resolution Unit :=
  require (spendOperation limits) pointer fun _ => message

theorem finds_spendLookup (pointer message : String) :
    Finds reading (spendLookup limits pointer message) (.ok ()) :=
  seeks_require (total_spendOperation limits) _ _

theorem finds_forM {α : Type} (l : List α) {f : α → Resolution Unit}
    (h : ∀ a, Finds reading (f a) (.ok ())) : Finds reading (forM l f) (.ok ()) := by
  induction l with
  | nil => exact seeks_pure rfl
  | cons a rest ih =>
    rw [List.forM_cons]
    exact Seeks.after (h a) ih

namespace ScopeIndex

/-- One operation for every scope and for every token of it. -/
def build (document : Document) : Resolution ScopeIndex := do
  forM document.scopes fun scope => do
    spendLookup limits "" "Scope indexing exceeded max_operations."
    forM (pointerTokens scope.fieldPointer) fun _ =>
      spendLookup limits "" "Scope indexing exceeded max_operations."
  return ofScopes document.scopes

def inheritAlong (pointer : String) : ScopeIndex → Closure → List String → Resolution Closure
  | _, inherited, [] => pure inherited
  | index, inherited, token :: rest => do
    spendLookup limits pointer "Closure resolution exceeded max_operations."
    match index.children.lookup token with
    | none => pure inherited
    | some child => inheritAlong pointer child (child.closure.getD inherited) rest

def inheritedClosure (index : ScopeIndex) (path : List String) (default : Closure) :
    Resolution Closure :=
  inheritAlong limits (pointerFromTokens path) index (index.closure.getD default) path

def declaredChildren (pointer : String) : ScopeIndex → List String → Resolution (List String)
  | index, [] => do
    forM index.children fun _ =>
      spendLookup limits pointer "Scope child lookup exceeded max_operations."
    return index.children.map Prod.fst
  | index, token :: rest => do
    spendLookup limits pointer "Scope child lookup exceeded max_operations."
    match index.children.lookup token with
    | none => pure []
    | some child => declaredChildren pointer child rest

theorem finds_build (document : Document) :
    Finds reading (build limits document) (.ok (ofScopes document.scopes)) := by
  refine Seeks.bind (finds_forM _ fun scope => ?_) fun _ _ _ => seeks_pure rfl
  exact Seeks.after (finds_spendLookup limits _ _) (finds_forM _ fun _ => finds_spendLookup limits _ _)

theorem finds_inheritAlong (pointer : String) (index : ScopeIndex) (inherited : Closure)
    (path : List String) :
    Finds reading (inheritAlong limits pointer index inherited path)
      (.ok (closureAlong index inherited path)) := by
  induction path generalizing index inherited with
  | nil => exact seeks_pure rfl
  | cons token rest ih =>
    refine Seeks.after (finds_spendLookup limits _ _) ?_
    rw [closureAlong]
    cases index.children.lookup token with
    | none => exact seeks_pure rfl
    | some child => exact ih child _

theorem finds_inheritedClosure (index : ScopeIndex) (path : List String) (default : Closure) :
    Finds reading (inheritedClosure limits index path default)
      (.ok (index.closureAt path default)) :=
  finds_inheritAlong limits _ index _ path

theorem finds_declaredChildren (pointer : String) (index : ScopeIndex) (path : List String) :
    Finds reading (declaredChildren limits pointer index path) (.ok (index.childTokens path)) := by
  induction path generalizing index with
  | nil =>
    refine Seeks.bind (finds_forM _ fun _ => ?_) fun _ _ _ => seeks_pure rfl
    exact finds_spendLookup limits _ _
  | cons token rest ih =>
    refine Seeks.after (finds_spendLookup limits _ _) ?_
    rw [childTokens]
    cases index.children.lookup token with
    | none => exact seeks_pure rfl
    | some child => exact ih child

end ScopeIndex

end Raes.Realization
