import RevPiRaft.Verified.Runs
import RevPiRaft.Ports.Process

/-!
# The cluster as a transition system

The replicas of a cluster are indexed by an arbitrary type.  A step is one
action of one replica; what it hands to its data writers is offered at once to
the readers of all replicas, its own included, where it may arrive late or
never.  Every sample is offered once.
-/

namespace RevPiRaft.Ports.Cluster

open RevPiRaft.Verified.Runs
open RevPiRaft.Ports.Datamodel
open RevPiRaft.Ports.Process

/-- `ACTIVE_REPLICAS` and the identifiers the replicas are started with. -/
structure Config (ι : Type) where
  activeReplicas : Nat
  ID : ι → UInt8

/-- State of all replica processes. -/
structure World (ι : Type) where
  node : ι → Node ι

variable {ι : Type} [DecidableEq ι]

/-- One action of replica `r`. -/
def World.step (cfg : Config ι) (w : World ι) (a : ι × Action ι) :
    Option (World ι × List Publication) :=
  ((w.node a.1).step cfg.activeReplicas a.2).map fun result =>
    ({ node := fun h =>
        result.2.foldl (Node.offer a.1)
          (if h = a.1 then result.1 else w.node h) }, result.2)

/-- The cluster right after every replica ran `initialize_replica`. -/
def system (cfg : Config ι) : Lts (World ι) (ι × Action ι) Publication where
  init := { node := fun h => Node.start (cfg.ID h) }
  step := World.step cfg

/-! ## Schedules -/

/-- The index type of three replicas has the numerals 0, 1 and 2. -/
scoped instance (priority := high) neZeroThree : @NeZero Nat Zero.ofOfNat0 3 :=
  ⟨Nat.succ_ne_zero 2⟩

/-- A cluster of the size `replica.h` declares. -/
def threeReplicas : Config (Fin 3) where
  activeReplicas := 3
  ID := fun r => UInt8.ofNat r

/-- The first `k` samples in flight arrive at `r`, the oldest first. -/
def arrivals (r : ι) (t : Topic) (k : Nat) : List (ι × Action ι) :=
  List.replicate k (r, .deliver t 0)

/-- The vote thread of `r` wakes and handles a batch of `k` requests. -/
def handleRequests (r : ι) (k : Nat) : List (ι × Action ι) :=
  (r, .voteWake [.requestVote]) :: (r, .voteEnter) ::
    List.replicate k (r, .voteStep)

/-- The vote thread of `r` wakes and handles `k` replies of its batch. -/
def handleReplies (r : ι) (k : Nat) : List (ι × Action ι) :=
  (r, .voteWake [.requestVoteReply]) :: (r, .voteEnter) ::
    List.replicate k (r, .replyStep)

/-- Replica 2 times out, replica 0 votes for it, and it leads term 1. -/
def electReplica2 : List (Fin 3 × Action (Fin 3)) :=
  [(2, .electionTimeout), (0, .deliver .requestVote 0)] ++
    handleRequests 0 1 ++ [(2, .deliver .requestVoteReply 0)] ++
    handleReplies 2 1

/-- Replica 1 gives up a candidacy and is a candidate in its second term. -/
def replica1Candidate : List (Fin 3 × Action (Fin 3)) :=
  [(1, .electionTimeout), (1, .electionWaitTimeout), (1, .electionTimeout)]

end RevPiRaft.Ports.Cluster
