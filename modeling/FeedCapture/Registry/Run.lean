import FeedCapture.Registry

/-!
# Using a registry

Any number of holders enter connections and drop their registrations, in any order and under any
keys; tokens are made and cancelled in between, and all connections can be closed at any time.

## Main definitions

* `Registrations.Act` — something that is done to a registry or to the tokens in use
* `Registrations.act`, `Registrations.run` — what comes of an act, and of several in order
-/

namespace FeedCapture.Registrations

/-- Something that is done to a registry or to the tokens in use. -/
inductive Act where
  /-- A holder enters a connection under a key, with a named token. -/
  | register (holder : String) (key : SourceKey) (token : String)
  /-- A holder gives its registration up. -/
  | drop (holder : String)
  /-- A holder panics, and its registration is dropped on the way. -/
  | panic (holder : String)
  | child (name parent : String)
  | cancel (name : String)
  | closeAll
deriving DecidableEq, Repr

/-- What comes of an act. -/
def act (s : Registrations) : Act → Registrations
  | .register holder key token => (s.register holder key token).1
  | .drop holder => (s.drop holder).1
  | .panic holder => (s.drop holder).1
  | .child name parent => s.child name parent
  | .cancel name => s.cancel name
  | .closeAll => s.closeAll.1

/-- What comes of acts in order. -/
def run (s : Registrations) (acts : List Act) : Registrations := acts.foldl act s

end FeedCapture.Registrations
