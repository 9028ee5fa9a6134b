import RevPiRaft.Ports.StepInversion

/-!
# What one step can do to a replica

A step of a node either leaves the shared replica state alone or performs one
of a few events on it: an election set-up, one iteration of one of the four
message loops, the build or the write of a heartbeat, a lap of the main loop.
`react` is the replica-level meaning of an event, and `step_react` says that
every step of a node acts on the replica by its event.
-/

namespace RevPiRaft.Ports.Events

open RevPiRaft.Ports.Datamodel
open RevPiRaft.Ports.ReplicaCore
open RevPiRaft.Ports.LeaderElection
open RevPiRaft.Ports.Process
open RevPiRaft.Ports.StepInversion

variable {ι : Type}

/-- What happens to the replica state in one step. -/
inductive Event (ι : Type) where
  | quiet
  | start
  | append (x : Sample ι AppendEntries)
  | election (electionFinished : Bool) (x : Sample ι AppendEntries)
  | vote (voteGranted : Bool) (x : Sample ι RequestVote)
  | reply (x : Sample ι RequestVoteReply)
  | build (heap : Nat → LogEntry)
  | write (m : AppendEntries)
  | input (batch : List (Sample ι Input))

/-- The event an action performs on a node. -/
def event (n : Node ι) : Action ι → Event ι
  | .appendStep =>
      match n.electionThread with
      | .appendLoop (x :: _) => .append x
      | _ => .quiet
  | .electionTimeout =>
      if n.replica.role = .leader then .quiet else .start
  | .electionStep =>
      match n.electionThread with
      | .electionLoop _ electionFinished (x :: _) =>
          .election electionFinished x
      | _ => .quiet
  | .electionRestart => .start
  | .voteStep =>
      match n.voteThread with
      | .voteLoop _ voteGranted (x :: _) => .vote voteGranted x
      | _ => .quiet
  | .replyStep =>
      match n.voteThread with
      | .replyLoop _ (x :: _) => .reply x
      | _ => .quiet
  | .heartbeatBuild heap => .build heap
  | .heartbeatWrite k =>
      match n.heartbeats[k]? with
      | some m => .write m
      | none => .quiet
  | .input batch => .input batch
  | _ => .quiet

/-- The replica-level meaning of an event: the next replica state and the
messages handed to the data writers. -/
def react (activeReplicas : Nat) (s : Replica) :
    Event ι → Option (Replica × List Publication)
  | .quiet => some (s, [])
  | .start => some ((startElection s).1, [⟨.requestVote, (startElection s).2⟩])
  | .append x =>
      some ((s.appendEntriesIteration x).1,
        (s.appendEntriesIteration x).2.map fun m => ⟨.appendEntriesReply, m⟩)
  | .election electionFinished x =>
      some ((electionIteration s electionFinished x).1, [])
  | .vote voteGranted x =>
      some ((voteIteration s voteGranted x).1,
        (voteIteration s voteGranted x).2.2.map fun m =>
          ⟨.requestVoteReply, m⟩)
  | .reply x =>
      (voteReplyIteration activeReplicas s x).map fun r => (r.1, [])
  | .build _ => some (s, [])
  | .write m => some (s, [⟨.appendEntries, m⟩])
  | .input batch => some (s.mainInputLap batch, [])

theorem event_electionTimeout {n : Node ι} (h : n.replica.role ≠ .leader) :
    event n .electionTimeout = .start :=
  if_neg h

/-- Every step of a node acts on its replica by the event of the action. -/
theorem step_react {N : Nat} {n n' : Node ι} {a : Action ι}
    {out : List Publication} (h : n.step N a = some (n', out)) :
    react N n.replica (event n a) = some (n'.replica, out) := by
  cases step_cases h <;> simp [event, react, Node.take, Node.electionSetUp,
    Replica.handleAppendEntriesReplyMessage, *]

end RevPiRaft.Ports.Events
