import SceneGuard.Main
import SceneGuard.Rule.Scripted
import SceneGuard.Proofs.Codec.Text
import SceneGuard.Proofs.Speculation.Relaxing
import SceneGuard.Proofs.Model.Numbering
import SceneGuard.Proofs.Pass.Checked
import SceneGuard.Proofs.Pass.Cycles
import SceneGuard.Proofs.Pass.Execution
import SceneGuard.Proofs.Pass.Forced
import SceneGuard.Proofs.Pass.Hierarchy
import SceneGuard.Proofs.Pass.Overlaps
import SceneGuard.Proofs.Pass.Record
import SceneGuard.Proofs.Pass.Subtree
import SceneGuard.Proofs.Pass.Severity
import SceneGuard.Proofs.Pass.Superseded
import SceneGuard.Proofs.Pass.Restoration
import SceneGuard.Proofs.Pass.Isolation
import SceneGuard.Proofs.Pass.Boxes
import SceneGuard.Proofs.Pass.Termination
import SceneGuard.Proofs.Pass.Verbatim
import SceneGuard.Proofs.Scene.Insertion
import SceneGuard.Proofs.Scene.ResetShape
import SceneGuard.Proofs.Scene.Restored
import SceneGuard.Proofs.Scene.Undo
import SceneGuard.Proofs.Speculation.Abandoned
import SceneGuard.Proofs.Speculation.Carried
import SceneGuard.Proofs.Speculation.Endings
import SceneGuard.Proofs.Speculation.Snapshots
import SceneGuard.Proofs.Geometry.Crossings
import SceneGuard.Proofs.Geometry.Histories
import SceneGuard.Proofs.Pass.Conservation
import SceneGuard.Proofs.Rule.Routing
