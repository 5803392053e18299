/-!
# Types of inspect answers

`src/types.rs`: the status containerd reports for a task, and what the crate
makes of it.
-/

namespace ContainerdManager

/-- `containerd_client::types::v1::Status`; a value without a name arrives as its number. -/
inductive Status where
  | unknown
  | created
  | running
  | stopped
  | paused
  | pausing
  | other (code : Int)
  deriving DecidableEq, Repr

inductive TaskStatus where
  | running
  | stopped
  | paused
  | unknown
  deriving DecidableEq, Repr

/-- `TaskStatus::from`; `Created` is transient and surfaces as running. -/
def TaskStatus.from : Status → TaskStatus
  | .running => .running
  | .stopped => .stopped
  | .paused => .paused
  | .pausing => .paused
  | .created => .running
  | .unknown => .unknown
  | .other _ => .unknown

end ContainerdManager
