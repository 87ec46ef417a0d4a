import Reckoner.Main
import Reckoner.Proofs.Expression
import Reckoner.Proofs.Machine
import Reckoner.Proofs.Acceptance
import Reckoner.Proofs.Trace
import Reckoner.Proofs.View
import Reckoner.Proofs.Capacity
import Reckoner.Proofs.Draws
import Reckoner.Proofs.History
import Reckoner.Proofs.Cuts
import Reckoner.Proofs.Exchange
import Reckoner.Proofs.Separators
import Reckoner.Proofs.Memory
import Reckoner.Proofs.Mentions
import Reckoner.Proofs.Batch
import Reckoner.Proofs.Groups
import Reckoner.Proofs.Places
import Reckoner.Proofs.Failures
import Reckoner.Proofs.Mismatches
import Reckoner.Proofs.Respelling
import Reckoner.Proofs.UpperCase
import Reckoner.Proofs.Entries
import Reckoner.Proofs.Tables
import Reckoner.Proofs.Registrations
import Reckoner.Proofs.SingleNames
import Reckoner.Proofs.Bindings
import Reckoner.Proofs.ArgumentChains
import Reckoner.Proofs.StackOrder
import Reckoner.Proofs.Periods
