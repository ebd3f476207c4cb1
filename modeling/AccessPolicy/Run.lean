import AccessPolicy.Log

/-!
# Runs

A run is what an evaluation does, from the outside: the events that can be observed, in order, and
how it ends. Events before a fault stay observable; nothing happens after one.
-/

namespace AccessPolicy

/-- What can be observed while rules are evaluated. -/
inductive Event where
  /-- A custom checker, under this name, was asked about a text. -/
  | called (checker : String) (rhs : String)
  /-- Something was reported. -/
  | logged (entry : LogEntry)
  deriving DecidableEq, Repr

/-- Why an evaluation gives no answer. -/
inductive Fault where
  /-- Rules referred to rules beyond the bound on their nesting. -/
  | tooDeep
  /-- A custom checker gave up. -/
  | checkerFailed (message : String)
  deriving DecidableEq, Repr

/-- The events of an evaluation, and its result or fault. -/
structure Run (α : Type) where
  events : List Event
  outcome : Except Fault α

namespace Run

/-- Answers and does nothing else. -/
protected def pure (a : α) : Run α := ⟨[], .ok a⟩

/-- Goes on with the result of a run, unless that ended in a fault. -/
protected def bind (r : Run α) (next : α → Run β) : Run β :=
  match r.outcome with
  | .ok a => ⟨r.events ++ (next a).events, (next a).outcome⟩
  | .error fault => ⟨r.events, .error fault⟩

instance : Monad Run where
  pure := Run.pure
  bind := Run.bind

/-- Ends at once in a fault. -/
def fault (f : Fault) : Run α := ⟨[], .error f⟩

/-- Lets one event be observed. -/
def observe (e : Event) : Run Unit := ⟨[e], .ok ()⟩

/-- Reports an entry. -/
def log (entry : LogEntry) : Run Unit := observe (.logged entry)

/-- The calls of custom checkers, in order. -/
def calls (r : Run α) : List (String × String) :=
  r.events.filterMap fun
    | .called checker rhs => some (checker, rhs)
    | .logged _ => none

/-- The entries reported, in order. -/
def entries (r : Run α) : List LogEntry :=
  r.events.filterMap fun
    | .called _ _ => none
    | .logged entry => some entry

end Run
end AccessPolicy
