import StateSpace.Configuration.Seconds
import StateSpace.Scope

/-!
# StateSpace.Limit

Limits on the wall time of an analysis.

* `WallLimit` — the time that an analysis may take;
* `Limiter` — watches over a scope. If it still runs when the time is over, it asks the scope to
  stop;
* `Limiter.await` — how long somebody who waits for a request lets the time pass.
-/

namespace StateSpace

structure WallLimit where
  time : Duration
deriving DecidableEq, Repr

namespace WallLimit

/-- The option that holds the limit, in seconds. -/
def option : String := "limits.time.wall"

/-- The limit of a configuration, if it has one. -/
def ofConfiguration (c : Configuration) :
    Except (Failure Configuration.Error) (Option WallLimit) :=
  match c.readSeconds option with
  | .error e => .error e
  | .ok none => .ok none
  | .ok (some time) => .ok (some ⟨time⟩)

def reason (l : WallLimit) : String := s!"The wall time limit of {l.time.text} has elapsed."

end WallLimit

structure Limiter where
  limit : WallLimit
  scope : ScopeId
  running : Bool := false
  /-- How many nanoseconds have passed since it was started. -/
  passed : Nat := 0
deriving DecidableEq, Repr

namespace Limiter

/-- Starts to count the time. A limiter that is running goes on counting. -/
def start (l : Limiter) : Limiter :=
  if l.running then l else { l with running := true, passed := 0 }

def stop (l : Limiter) : Limiter := { l with running := false }

/-- Lets time pass, in which the limit may be reached. -/
def pass (l : Limiter) (time : Duration) (f : Scopes) : Limiter × Scopes :=
  let passed := l.passed + time.nanoseconds
  ({ l with passed },
    if l.running && l.limit.time.nanoseconds ≤ passed then f.request l.scope l.limit.reason
    else f)

/-- Lets time pass, unless the scope was asked to stop already. -/
def await (l : Limiter) (time : Duration) (f : Scopes) : Limiter × Scopes :=
  if f.isRequested l.scope then (l, f) else l.pass time f

end Limiter

end StateSpace
