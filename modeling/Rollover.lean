import Rollover.Exercise
import Rollover.Main
import Rollover.Proofs.Recovery
import Rollover.Proofs.Forward
import Rollover.Proofs.Installations
import Rollover.Proofs.Sealing
import Rollover.Proofs.WriteAlias
import Rollover.Proofs.Removal
import Rollover.Proofs.Binding
import Rollover.Proofs.Listing
import Rollover.Proofs.Locks
import Rollover.Proofs.Territory
import Rollover.Proofs.Holding
import Rollover.Proofs.Turnover
import Rollover.Proofs.Bounds
import Rollover.Proofs.Roster
import Rollover.Proofs.Interleaving
import Rollover.Proofs.Progress
import Rollover.Proofs.Drill
import Rollover.Proofs.BestEffort
import Rollover.Proofs.Proceedings
import Rollover.Proofs.Neighbours
import Rollover.Proofs.Alone
import Rollover.Proofs.Exclusion
import Rollover.Proofs.Execution
import Rollover.Proofs.Tables
import Rollover.Proofs.Reconciliation
import Rollover.Proofs.FullNames
import Rollover.Proofs.Bookkeeping
import Rollover.Proofs.Tracking
import Rollover.Proofs.Deeds
import Rollover.Proofs.Outcome
import Rollover.Proofs.Settling
import Rollover.Proofs.Protection
import Rollover.Proofs.Succession
import Rollover.Proofs.Background
import Rollover.Proofs.Rehearsals
import Rollover.Proofs.Separation
import Rollover.Proofs.Repetition
import Rollover.Proofs.Enumeration
import Rollover.Proofs.Decoding
import Rollover.Proofs.GroupFiles
import Rollover.Proofs.Messages
import Rollover.Proofs.Coverage
import Rollover.Proofs.Sifting
import Rollover.Proofs.Checked
import Rollover.Proofs.Faults
import Rollover.Proofs.Flushing
import Rollover.Proofs.Overflow
