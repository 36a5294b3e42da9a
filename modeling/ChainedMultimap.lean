import ChainedMultimap.Hash.Function
import ChainedMultimap.Object.Connection
import ChainedMultimap.Object.FlowCounters
import ChainedMultimap.Proofs.Threads
import ChainedMultimap.Table.Checked
import ChainedMultimap.Table.Run
import ChainedMultimap.Table.Walk
import ChainedMultimap.Proofs.WellFormed
import ChainedMultimap.Proofs.Runs
import ChainedMultimap.Proofs.Checked
import ChainedMultimap.Proofs.Invariant
import ChainedMultimap.Proofs.Multimap
import ChainedMultimap.Proofs.Walk
import ChainedMultimap.Proofs.Keyed
import ChainedMultimap.Proofs.Growth
import ChainedMultimap.Proofs.Twins
import ChainedMultimap.Proofs.Lifetime
import ChainedMultimap.Proofs.Contract
import ChainedMultimap.Proofs.Failure
import ChainedMultimap.Proofs.Flows
import ChainedMultimap.Process
import ChainedMultimap.Proofs.Digest
import ChainedMultimap.Proofs.Secret
import ChainedMultimap.Proofs.Rebuild
import ChainedMultimap.Proofs.Occupancy
import ChainedMultimap.Proofs.Iteration
import ChainedMultimap.Proofs.Adjacent
import ChainedMultimap.Proofs.Removal
import ChainedMultimap.Proofs.Recency
import ChainedMultimap.Proofs.ConnectionOrder
import ChainedMultimap.Proofs.TotalOrder
import ChainedMultimap.Proofs.DoubleOrder
import ChainedMultimap.Proofs.LcgGroups
import ChainedMultimap.Proofs.LcgBuckets
import ChainedMultimap.Proofs.Copies
import ChainedMultimap.Proofs.Ownership
import ChainedMultimap.Proofs.Writes
import ChainedMultimap.Hash.Checked
import ChainedMultimap.Proofs.Zobrist
import ChainedMultimap.Proofs.Merging
import ChainedMultimap.Proofs.Pool
import ChainedMultimap.Proofs.Gathering
import ChainedMultimap.Proofs.EntropyFold
import ChainedMultimap.Secret.Device
import ChainedMultimap.Proofs.Device
import ChainedMultimap.SizeWord
import ChainedMultimap.Proofs.Rounding
import ChainedMultimap.Proofs.Sizes
