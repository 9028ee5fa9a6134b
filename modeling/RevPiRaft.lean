import RevPiRaft.Ports.Datamodel
import RevPiRaft.Ports.ReplicaCore
import RevPiRaft.Ports.LeaderElection
import RevPiRaft.Verified.Runs
import RevPiRaft.Ports.ConsensusManager
import RevPiRaft.Ports.Process
import RevPiRaft.Ports.Cluster
import RevPiRaft.Ports.Events
import RevPiRaft.Ports.StepInversion
import RevPiRaft.Ports.Pending
import RevPiRaft.Ports.Reactions
import RevPiRaft.Ports.History
import RevPiRaft.Ports.TermMonotone
import RevPiRaft.Ports.Mutex
import RevPiRaft.Ports.VoteValidity
import RevPiRaft.Ports.OutwardSigns
import RevPiRaft.Ports.Heartbeats
import RevPiRaft.Ports.OneVote
import RevPiRaft.Ports.SenderIdentity
import RevPiRaft.Ports.OwnMessages
import RevPiRaft.Ports.Loops
import RevPiRaft.Ports.StaleMessages
import RevPiRaft.Ports.VoteCounting
import RevPiRaft.Ports.ElectionSafety
import RevPiRaft.Ports.Environment
import RevPiRaft.Ports.VotingState
import RevPiRaft.Ports.VoteReplies
import RevPiRaft.Ports.CatchUp
import RevPiRaft.Ports.Log
import RevPiRaft.Ports.LogEntries
import RevPiRaft.Ports.HeartbeatEntries
import RevPiRaft.Ports.Entities
import RevPiRaft.Verified.Contracts
import RevPiRaft.Ports.Threads
import RevPiRaft.Ports.MutexDiscipline
import RevPiRaft.Ports.LoanDiscipline
import RevPiRaft.Ports.Signals
import RevPiRaft.Ports.Ownership
import RevPiRaft.Verified.Tally
import RevPiRaft.Ports.VoteDecision
import RevPiRaft.Verified.Maxima
import RevPiRaft.Ports.AppendReplies
import RevPiRaft.Ports.InputCount
import RevPiRaft.Ports.CandidateState
import RevPiRaft.Ports.GuardLists
import RevPiRaft.Verified.Refinement
import RevPiRaft.Ports.Coverage
import RevPiRaft.Ports.EntityRefinement
import RevPiRaft.Verified.Progress
import RevPiRaft.Ports.Handlers
import RevPiRaft.Ports.Campaigns
import RevPiRaft.Ports.Recovery
import RevPiRaft.Ports.StartedTerms
import RevPiRaft.Ports.AtMostOnce
import RevPiRaft.Ports.DeafReplica
import RevPiRaft.Verified.BitImage
import RevPiRaft.Ports.DIO
import RevPiRaft.Ports.Outputs
import RevPiRaft.Ports.EntryIdentity
import RevPiRaft.Ports.Sections
import RevPiRaft.Ports.ThreadRefinement
import RevPiRaft.Ports.LaterPasses
import RevPiRaft.Ports.Deadlock
import RevPiRaft.Ports.ShownRole
