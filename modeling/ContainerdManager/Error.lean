/-!
# Errors

`src/error.rs`, the variants the modelled functions return. A containerd
failure keeps the operation tag and the gRPC status code; an I/O failure
keeps its context string.
-/

namespace ContainerdManager

/-- gRPC status codes other than `Ok`. -/
inductive Code where
  | cancelled
  | unknown
  | invalidArgument
  | deadlineExceeded
  | notFound
  | alreadyExists
  | permissionDenied
  | resourceExhausted
  | failedPrecondition
  | aborted
  | outOfRange
  | unimplemented
  | internal
  | unavailable
  | dataLoss
  | unauthenticated
  deriving DecidableEq, Repr

inductive Error where
  | containerd (op : String) (source : Code)
  | io (context : String)
  | containerAlreadyExists (name : String)
  | containerNotFound (id : String)
  | taskAlreadyExists (id : String)
  | taskNotFound (id : String)
  | taskExited (id : String)
  | snapshotAlreadyExists (name : String)
  | snapshotNotFound (name : String)
  | snapshotNotManaged (name : String)
  | imageNotFound (image : String)
  | resourceExhausted (message : String)
  | timeout (message : String)
  | invalidArgument (message : String)
  | portForward (message : String)
  | statePoisoned (what : String)
  deriving DecidableEq, Repr

end ContainerdManager
