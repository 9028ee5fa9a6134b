import Mathlib.Logic.Function.Basic
import RevPiRaft.Ports.LeaderElection
import RevPiRaft.Ports.ConsensusManager

/-!
# One replica process: its threads and its DDS readers

A `Node` is the shared replica state together with the control state of the
election thread (`runElectionTimer` with `run_leader_election`), of the vote
thread (`receive_vote_requests`), of the running `SIGALRM` handlers, and the
contents of the four data readers.

One `Action` is one iteration of a handler loop, one wake-up, one election
set-up, one heartbeat section, one arrival of a sample, and so on.  A loop over
a taken batch holds `consensus_mutex` from its first iteration to its last;
no other section of the same replica starts in between (`mutexFree`).

Two places of the source are here only as they are when nothing interferes:
- A later pass of the outer loop of `run_leader_election` sets up an election
  without the mutex, statement by statement.  Here its set-up is one step, at
  which no critical section of the replica is under way (`electionRestart`).
- After `run_leader_election` has returned, `runElectionTimer` unlocks a mutex
  its thread no longer holds, be it another's.  Here that unlock has no effect.

So the runs are those in which no other thread and no handler of the replica is
inside of a critical section, or enters one, while the election thread is at
either place.  `Ports.Threads` and `Ports.Signals` have the statements and the
unlock as they are; that their runs of this kind are runs of the process is
shown in `Ports.LaterPasses`.

DDS is modelled by two lists per reader: `inflight` holds the samples offered
to the reader that have not arrived, in any order and possibly for ever, and
`unread` the arrived ones in the not-read state.  A wait set wakes when a
sample in `unread` satisfies the query condition; a read or take returns all of
`unread`.
-/

namespace RevPiRaft.Ports.Process

open RevPiRaft.Ports.Datamodel
open RevPiRaft.Ports.ReplicaCore
open RevPiRaft.Ports.LeaderElection
open RevPiRaft.Ports.ConsensusManager

/-- The two conditions attached to `collectVotes_WaitSet`. -/
inductive VoteCondition where
  | requestVote
  | requestVoteReply
deriving DecidableEq

/-- Topic whose reader a condition of `collectVotes_WaitSet` watches. -/
def VoteCondition.topic : VoteCondition → Topic
  | .requestVote => .requestVote
  | .requestVoteReply => .requestVoteReply

/-- Control state of the election thread.  `appendWait` and `electionWait` are
the two waits; the loops carry the rest of the taken batch, and the laps of the
`do`-`while` loop of `run_leader_election` its `condition_index` and
`election_finished`.  `electionPass` is the start of another pass of the outer
`while` loop. -/
inductive ElectionThread (ι : Type) where
  | appendWait
  | appendLoop (batch : List (Sample ι AppendEntries))
  | electionWait
  | electionLap (conditionIndex : Nat) (electionFinished : Bool)
  | electionLoop (conditionIndex : Nat) (electionFinished : Bool)
      (batch : List (Sample ι AppendEntries))
  | electionPass

/-- Control state of the vote thread; `guardListIndex` is the lap of its
`do`-`while` loop. -/
inductive VoteThread (ι : Type) where
  | voteWait
  | voteLap (guardListIndex : Nat)
  | voteLoop (guardListIndex : Nat) (voteGranted : Bool)
      (batch : List (Sample ι RequestVote))
  | replyLoop (guardListIndex : Nat)
      (batch : List (Sample ι RequestVoteReply))

/-- A data reader as DDS serves it. -/
structure Reader (ι μ : Type) where
  inflight : List (Sample ι μ)
  unread : List (Sample ι μ)

/-- One replica process.  `alarms` counts the `SIGALRM` handlers waiting for
the mutex, `heartbeats` holds the messages built but not yet written, and
`awaitingReplies` counts the handlers waiting for `AppendEntries` replies. -/
structure Node (ι : Type) where
  replica : Replica
  reader : (t : Topic) → Reader ι t.Msg
  electionThread : ElectionThread ι
  voteThread : VoteThread ι
  collectVotesGuardList : List VoteCondition
  alarms : Nat
  heartbeats : List AppendEntries
  awaitingReplies : Nat

variable {ι : Type}

/-! ## Control flow at the end of a loop -/

/-- The loop of `runElectionTimer` returns to its wait. -/
def endAppendLoop : List (Sample ι AppendEntries) → ElectionThread ι
  | [] => .appendWait
  | x :: batch => .appendLoop (x :: batch)

/-- End of a lap of the `do`-`while` loop of `run_leader_election`.  Its bound
is the length of `collectVotes_GuardList`, which belongs to the vote thread.
The source tests it when it has unlocked the mutex and returned the loan; here
the test is part of the last iteration. -/
def endElectionLap (guardList : List VoteCondition) (conditionIndex : Nat)
    (electionFinished : Bool) : ElectionThread ι :=
  if conditionIndex + 1 < guardList.length then
    .electionLap (conditionIndex + 1) electionFinished
  else if electionFinished then .appendWait
  else .electionPass

def endElectionLoop (guardList : List VoteCondition) (conditionIndex : Nat)
    (electionFinished : Bool) :
    List (Sample ι AppendEntries) → ElectionThread ι
  | [] => endElectionLap guardList conditionIndex electionFinished
  | x :: batch => .electionLoop conditionIndex electionFinished (x :: batch)

/-- End of a lap of the `do`-`while` loop of `receive_vote_requests`. -/
def endVoteLap (guardList : List VoteCondition) (guardListIndex : Nat) :
    VoteThread ι :=
  if guardListIndex + 1 < guardList.length then .voteLap (guardListIndex + 1)
  else .voteWait

def endVoteLoop (guardList : List VoteCondition) (guardListIndex : Nat)
    (voteGranted : Bool) : List (Sample ι RequestVote) → VoteThread ι
  | [] => endVoteLap guardList guardListIndex
  | x :: batch => .voteLoop guardListIndex voteGranted (x :: batch)

def endReplyLoop (guardList : List VoteCondition) (guardListIndex : Nat) :
    List (Sample ι RequestVoteReply) → VoteThread ι
  | [] => endVoteLap guardList guardListIndex
  | x :: batch => .replyLoop guardListIndex (x :: batch)

/-! ## Mutex and readers -/

/-- The election thread is outside its critical sections. -/
def ElectionThread.unlocked : ElectionThread ι → Bool
  | .appendLoop _ => false
  | .electionLoop _ _ _ => false
  | _ => true

/-- The vote thread is outside its critical sections. -/
def VoteThread.unlocked : VoteThread ι → Bool
  | .voteLoop _ _ _ => false
  | .replyLoop _ _ => false
  | _ => true

namespace Node

/-- `consensus_mutex` is not held. -/
def mutexFree (n : Node ι) : Bool :=
  n.electionThread.unlocked && n.voteThread.unlocked

/-- A sample in the reader of `t` satisfies the query condition. -/
def triggered (n : Node ι) (t : Topic) : Bool :=
  (n.reader t).unread.any (queryCondition n.replica.ID t)

/-- What an unconditioned read or take of the reader of `t` returns. -/
def unread (n : Node ι) (t : Topic) : List (Sample ι t.Msg) :=
  (n.reader t).unread

/-- The reader of `t` after a read or take of all its unread samples. -/
def take (n : Node ι) (t : Topic) : Node ι :=
  { n with
    reader := Function.update n.reader t
      { inflight := (n.reader t).inflight
        unread := [] } }

/-- A publication of replica `r` is offered to the reader of its topic. -/
def offer (r : ι) (n : Node ι) (p : Publication) : Node ι :=
  { n with
    reader := Function.update n.reader p.topic
      { inflight := (n.reader p.topic).inflight ++
          [{ validData := true
             publicationHandle := r
             data := p.data }]
        unread := (n.reader p.topic).unread } }

/-- Result of a step: the node and what it handed to its data writers, each of
which publishes on the topic it is named after. -/
abbrev Result (ι : Type) := Option (Node ι × List Publication)

/-! ## Arrivals -/

/-- The `k`-th offered sample of topic `t` arrives. -/
def deliver (n : Node ι) (t : Topic) (k : Nat) : Result ι :=
  (n.reader t).inflight[k]?.map fun x =>
    ({ n with
        reader := Function.update n.reader t
          { inflight := (n.reader t).inflight.eraseIdx k
            unread := (n.reader t).unread ++ [x] } }, [])

/-- A sample without valid data arrives. -/
def dispose (n : Node ι) (t : Topic) (x : Sample ι t.Msg) : Result ι :=
  if x.validData then none
  else
    some ({ n with
      reader := Function.update n.reader t
        { inflight := (n.reader t).inflight
          unread := (n.reader t).unread ++ [x] } }, [])

/-! ## `runElectionTimer` and `run_leader_election` -/

/-- `runElectionTimer` wakes on `AppendEntries`, locks the mutex and reads. -/
def appendWake (n : Node ι) : Result ι :=
  match n.electionThread with
  | .appendWait =>
      if n.triggered .appendEntries && n.mutexFree then
        some ({ n.take .appendEntries with
          electionThread := endAppendLoop (n.unread .appendEntries) }, [])
      else none
  | _ => none

/-- One iteration of the loop of `runElectionTimer`. -/
def appendStep (n : Node ι) : Result ι :=
  match n.electionThread with
  | .appendLoop (x :: batch) =>
      let r := n.replica.appendEntriesIteration x
      some ({ n with
        replica := r.1
        electionThread := endAppendLoop batch },
        r.2.map fun m => ⟨.appendEntriesReply, m⟩)
  | _ => none

/-- One set-up of the outer loop of `run_leader_election`, up to its wait. -/
def electionSetUp (n : Node ι) : Node ι × List Publication :=
  let r := startElection n.replica
  ({ n with
      replica := r.1
      electionThread := .electionWait },
    [⟨.requestVote, r.2⟩])

/-- The wait of `runElectionTimer` times out: a leader goes on waiting, any
other replica enters `run_leader_election`. -/
def electionTimeout (n : Node ι) : Result ι :=
  match n.electionThread with
  | .appendWait =>
      if n.mutexFree then
        if n.replica.role ≠ .follower ∧ n.replica.role ≠ .candidate then
          some (n, [])
        else some n.electionSetUp
      else none
  | _ => none

/-- The wait of `run_leader_election` ends with a triggered condition. -/
def electionWake (n : Node ι) : Result ι :=
  match n.electionThread with
  | .electionWait =>
      if n.triggered .appendEntries then
        some ({ n with electionThread := .electionLap 0 false }, [])
      else none
  | _ => none

/-- A lap that finds `electionTimer_QueryCondition`: it takes all samples and
locks the mutex when there are any. -/
def electionTake (n : Node ι) : Result ι :=
  match n.electionThread with
  | .electionLap conditionIndex electionFinished =>
      if (n.unread .appendEntries).isEmpty || n.mutexFree then
        some ({ n.take .appendEntries with
          electionThread := endElectionLoop n.collectVotesGuardList
            conditionIndex electionFinished (n.unread .appendEntries) }, [])
      else none
  | _ => none

/-- A lap that finds something else.  Only the first entry of
`leaderElection_GuardList` was written by the wait; a later lap reads past its
one entry. -/
def electionSkip (n : Node ι) : Result ι :=
  match n.electionThread with
  | .electionLap conditionIndex electionFinished =>
      if 0 < conditionIndex then
        some ({ n with
          electionThread := endElectionLap n.collectVotesGuardList
            conditionIndex electionFinished }, [])
      else none
  | _ => none

/-- One iteration of the loop of `run_leader_election`. -/
def electionStep (n : Node ι) : Result ι :=
  match n.electionThread with
  | .electionLoop conditionIndex electionFinished (x :: batch) =>
      let r := electionIteration n.replica electionFinished x
      some ({ n with
        replica := r.1
        electionThread := endElectionLoop n.collectVotesGuardList
          conditionIndex r.2 batch }, [])
  | _ => none

/-- Another pass of the outer loop: its set-up runs without the mutex.  Here it
is one step, at which no critical section is under way. -/
def electionRestart (n : Node ι) : Result ι :=
  match n.electionThread with
  | .electionPass => if n.mutexFree then some n.electionSetUp else none
  | _ => none

/-- The wait of `run_leader_election` times out and the function returns. -/
def electionWaitTimeout (n : Node ι) : Result ι :=
  match n.electionThread with
  | .electionWait => some ({ n with electionThread := .appendWait }, [])
  | _ => none

/-! ## `receive_vote_requests` -/

/-- The wait of `receive_vote_requests` ends with triggered conditions. -/
def voteWake (n : Node ι) (conditions : List VoteCondition) : Result ι :=
  match n.voteThread with
  | .voteWait =>
      if conditions ≠ [] ∧ conditions.Nodup ∧
          ∀ c ∈ conditions, n.triggered c.topic = true then
        some ({ n with
          collectVotesGuardList := conditions
          voteThread := .voteLap 0 }, [])
      else none
  | _ => none

/-- One lap: the mutex is locked and the handler takes its batch. -/
def voteEnter (n : Node ι) : Result ι :=
  match n.voteThread with
  | .voteLap guardListIndex =>
      if n.mutexFree then
        match n.collectVotesGuardList[guardListIndex]? with
        | some .requestVote =>
            some ({ n.take .requestVote with
              voteThread := endVoteLoop n.collectVotesGuardList
                guardListIndex false (n.unread .requestVote) }, [])
        | some .requestVoteReply =>
            some ({ n.take .requestVoteReply with
              voteThread := endReplyLoop n.collectVotesGuardList
                guardListIndex (n.unread .requestVoteReply) }, [])
        | none => none
      else none
  | _ => none

/-- One iteration of the loop of `handle_vote_message`. -/
def voteStep (n : Node ι) : Result ι :=
  match n.voteThread with
  | .voteLoop guardListIndex voteGranted (x :: batch) =>
      let r := voteIteration n.replica voteGranted x
      some ({ n with
        replica := r.1
        voteThread := endVoteLoop n.collectVotesGuardList guardListIndex
          r.2.1 batch },
        r.2.2.map fun m => ⟨.requestVoteReply, m⟩)
  | _ => none

/-- One iteration of the loop of `handle_vote_reply_message`; a break drops
the rest of the batch. -/
def replyStep (activeReplicas : Nat) (n : Node ι) : Result ι :=
  match n.voteThread with
  | .replyLoop guardListIndex (x :: batch) =>
      (voteReplyIteration activeReplicas n.replica x).map fun r =>
        ({ n with
            replica := r.1
            voteThread := endReplyLoop n.collectVotesGuardList guardListIndex
              (if r.2 then [] else batch) }, [])
  | _ => none

/-! ## `send_heartbeat` and the main loop -/

/-- The heartbeat timer expires while it is armed and a handler starts. -/
def alarm (n : Node ι) : Result ι :=
  if n.replica.timerArmed then some ({ n with alarms := n.alarms + 1 }, [])
  else none

/-- A handler locks the mutex, builds its message and unlocks. -/
def heartbeatBuild (n : Node ι) (heap : Nat → LogEntry) : Result ι :=
  if 0 < n.alarms ∧ n.mutexFree then
    (n.replica.heartbeatMessage heap).map fun m =>
      ({ n with
          alarms := n.alarms - 1
          heartbeats := n.heartbeats ++ [m] }, [])
  else none

/-- A handler writes the message it has built. -/
def heartbeatWrite (n : Node ι) (k : Nat) : Result ι :=
  n.heartbeats[k]?.map fun m =>
    ({ n with
        heartbeats := n.heartbeats.eraseIdx k
        awaitingReplies := n.awaitingReplies + 1 },
      [⟨.appendEntries, m⟩])

/-- A handler wakes on replies, takes them under the mutex and ends. -/
def heartbeatReplies (n : Node ι) : Result ι :=
  if 0 < n.awaitingReplies ∧ n.triggered .appendEntriesReply ∧ n.mutexFree then
    some ({ n.take .appendEntriesReply with
      replica := n.replica.handleAppendEntriesReplyMessage
        (n.unread .appendEntriesReply)
      awaitingReplies := n.awaitingReplies - 1 }, [])
  else none

/-- A handler's wait for replies times out. -/
def heartbeatTimeout (n : Node ι) : Result ι :=
  if 0 < n.awaitingReplies then
    some ({ n with awaitingReplies := n.awaitingReplies - 1 }, [])
  else none

/-- The main loop wakes on input samples and runs one lap. -/
def input (n : Node ι) (batch : List (Sample ι Input)) : Result ι :=
  if n.mutexFree then
    some ({ n with replica := n.replica.mainInputLap batch }, [])
  else none

end Node

/-! ## Actions -/

/-- One step of one replica process or of its DDS readers. -/
inductive Action (ι : Type) where
  | deliver (t : Topic) (k : Nat)
  | dispose (t : Topic) (x : Sample ι t.Msg)
  | appendWake
  | appendStep
  | electionTimeout
  | electionWake
  | electionTake
  | electionSkip
  | electionStep
  | electionRestart
  | electionWaitTimeout
  | voteWake (conditions : List VoteCondition)
  | voteEnter
  | voteStep
  | replyStep
  | alarm
  | heartbeatBuild (heap : Nat → LogEntry)
  | heartbeatWrite (k : Nat)
  | heartbeatReplies
  | heartbeatTimeout
  | input (batch : List (Sample ι Input))

/-- The step function of one node. -/
def Node.step (activeReplicas : Nat) (n : Node ι) : Action ι → Node.Result ι
  | .deliver t k => n.deliver t k
  | .dispose t x => n.dispose t x
  | .appendWake => n.appendWake
  | .appendStep => n.appendStep
  | .electionTimeout => n.electionTimeout
  | .electionWake => n.electionWake
  | .electionTake => n.electionTake
  | .electionSkip => n.electionSkip
  | .electionStep => n.electionStep
  | .electionRestart => n.electionRestart
  | .electionWaitTimeout => n.electionWaitTimeout
  | .voteWake conditions => n.voteWake conditions
  | .voteEnter => n.voteEnter
  | .voteStep => n.voteStep
  | .replyStep => n.replyStep activeReplicas
  | .alarm => n.alarm
  | .heartbeatBuild heap => n.heartbeatBuild heap
  | .heartbeatWrite k => n.heartbeatWrite k
  | .heartbeatReplies => n.heartbeatReplies
  | .heartbeatTimeout => n.heartbeatTimeout
  | .input batch => n.input batch

/-- The node right after `initialize_replica` has started its threads. -/
def Node.start (ID : UInt8) : Node ι where
  replica := Replica.initializeReplica ID
  reader := fun _ => { inflight := [], unread := [] }
  electionThread := .appendWait
  voteThread := .voteWait
  collectVotesGuardList := []
  alarms := 0
  heartbeats := []
  awaitingReplies := 0

end RevPiRaft.Ports.Process
