/-!
# StateSpace.Scope

Cancellation scopes.

* `Scopes` — a forest of scopes, numbered in the order of their creation; each is a root or lies
  inside an older one.
* `Scopes.request` — asks a scope to stop; the first reason given to a scope stays.
* `Scopes.reason?` — the reason that holds for a scope: that of the nearest requested scope among
  itself and those around it. A request therefore reaches everything inside its scope and nothing
  else.
-/

namespace StateSpace

/-- Raised by work that noticed a request to stop. -/
structure Interruption where
  reason : String
deriving DecidableEq, Repr

def Interruption.message (i : Interruption) : String := s!"interrupted: {i.reason}"

/-- A scope is named by its number. -/
abbrev ScopeId := Nat

structure Scope where
  /-- The scopes around this one, the nearest first. -/
  ancestors : List ScopeId
  /-- The reason of the first request made to this scope itself. -/
  request? : Option String
deriving DecidableEq, Repr

structure Scopes where
  scopes : Array Scope
deriving DecidableEq, Repr

namespace Scopes

def empty : Scopes := ⟨#[]⟩

def size (f : Scopes) : Nat := f.scopes.size

/-- The chain of scopes that count for `id`: the scope itself, then those around it. -/
def lineage (f : Scopes) (id : ScopeId) : List ScopeId :=
  match f.scopes[id]? with
  | some s => id :: s.ancestors
  | none => []

/-- Adds a scope that lies inside no other. Its number is the size of the forest before. -/
def addRoot (f : Scopes) : Scopes :=
  ⟨f.scopes.push { ancestors := [], request? := none }⟩

/-- Adds a scope inside `parent`. Its number is the size of the forest before. -/
def addChild (f : Scopes) (parent : ScopeId) : Scopes :=
  ⟨f.scopes.push { ancestors := f.lineage parent, request? := none }⟩

/-- The reason given to the scope itself, whatever holds around it. -/
def ownReason? (f : Scopes) (id : ScopeId) : Option String :=
  f.scopes[id]?.bind (·.request?)

/-- Asks a scope to stop. A scope that was asked before keeps its reason. -/
def request (f : Scopes) (id : ScopeId) (reason : String) : Scopes :=
  ⟨f.scopes.modify id fun s => { s with request? := s.request? <|> some reason }⟩

/-- The reason of the nearest requested scope, the scope itself first. -/
def reason? (f : Scopes) (id : ScopeId) : Option String :=
  (f.lineage id).findSome? f.ownReason?

def isRequested (f : Scopes) (id : ScopeId) : Bool := (f.reason? id).isSome

/-- What work inside the scope does between two steps: go on, or stop with the reason. -/
def poll (f : Scopes) (id : ScopeId) : Except Interruption Unit :=
  match f.reason? id with
  | some reason => .error ⟨reason⟩
  | none => .ok ()

/-- How the owner of a scope is shown. -/
def ownerText (f : Scopes) (id : ScopeId) : String :=
  s!"ShutdownManager \x7b should_shutdown: {f.isRequested id} \x7d"

/-- How an observer of a scope is shown. -/
def observerText (f : Scopes) (id : ScopeId) : String :=
  s!"ShutdownNotifier \x7b should_shutdown: {f.isRequested id} \x7d"

end Scopes

end StateSpace
