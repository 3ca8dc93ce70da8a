import SqlBuilder.Describe
import SqlBuilder.Execution
import SqlBuilder.Log
import SqlBuilder.Proofs.Commitment
import SqlBuilder.Proofs.ConcatRun
import SqlBuilder.Proofs.Delivery
import SqlBuilder.Proofs.Directions
import SqlBuilder.Proofs.Failure
import SqlBuilder.Proofs.Forgetting
import SqlBuilder.Proofs.GroupPlace
import SqlBuilder.Proofs.Guards
import SqlBuilder.Proofs.KeyColumns
import SqlBuilder.Proofs.Numbering
import SqlBuilder.Proofs.Pagination
import SqlBuilder.Proofs.Portability
import SqlBuilder.Proofs.Remains
import SqlBuilder.Proofs.Reordering
import SqlBuilder.Proofs.Rewrapping
import SqlBuilder.Proofs.Shortening
import SqlBuilder.Proofs.Storage
import SqlBuilder.Proofs.WireFormat
import SqlBuilder.Proofs.WriteLog
import SqlBuilder.Proofs.WritesWithin
import SqlBuilder.Proofs.Whole
