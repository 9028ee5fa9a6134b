import RevPiRaft.Ports.ReplicaCore

/-!
# `leaderElection.c`

The bodies of the loops of `run_leader_election`, `handle_vote_message` and
`handle_vote_reply_message`, one definition per iteration, and the loops over a
whole batch built from them.  The variables that live across iterations
(`election_finished`, `voteGranted`) are explicit arguments and results.
-/

namespace RevPiRaft.Ports.LeaderElection

open RevPiRaft.Ports.Datamodel
open RevPiRaft.Ports.ReplicaCore

variable {ι : Type}

/-! ## `run_leader_election` -/

/-- The message of a pass, as the replica is when it is composed. -/
def requestVoteMessage (s : Replica) : RequestVote :=
  { term := s.currentTerm.toInt32
    senderID := longOfUInt8 s.votedFor }

/-- What one pass of the outer loop does before it waits: the replica becomes
a candidate in the next term and writes its `RequestVote`. -/
def startElection (s : Replica) : Replica × RequestVote :=
  let s := { s with
    role := .candidate
    currentTerm := s.currentTerm + 1 }
  let s := { s with
    electionTerm := some s.currentTerm
    votedFor := s.ID
    votesReceived := 1 }
  (s, requestVoteMessage s)

@[simp] theorem startElection_fields (s : Replica) :
    (startElection s).1.ID = s.ID ∧
      (startElection s).1.role = .candidate ∧
      (startElection s).1.currentTerm = s.currentTerm + 1 ∧
      (startElection s).1.electionTerm = some (s.currentTerm + 1) ∧
      (startElection s).1.votedFor = s.ID ∧
      (startElection s).1.votesReceived = 1 ∧
      (startElection s).1.commitIndex = s.commitIndex ∧
      (startElection s).1.timerArmed = s.timerArmed ∧
      (startElection s).1.O1 = s.O1 ∧
      (startElection s).1.O2 = s.O2 :=
  ⟨rfl, rfl, rfl, rfl, rfl, rfl, rfl, rfl, rfl, rfl⟩

/-- One iteration of the loop over the `AppendEntries` samples taken while
waiting for votes; the flag is `election_finished`. -/
def electionIteration (s : Replica) (electionFinished : Bool)
    (x : Sample ι AppendEntries) : Replica × Bool :=
  if x.validData then
    let receivedTerm := x.data.term.toUInt32
    let s := if receivedTerm > s.currentTerm then s.becomeFollower receivedTerm
      else s
    if receivedTerm = s.currentTerm then
      (if s.role ≠ .follower then s.becomeFollower receivedTerm else s, true)
    else (s, electionFinished)
  else (s, electionFinished)

/-- The whole loop over one batch. -/
def electionBatch (s : Replica) (electionFinished : Bool) :
    List (Sample ι AppendEntries) → Replica × Bool
  | [] => (s, electionFinished)
  | x :: rest =>
      let r := electionIteration s electionFinished x
      electionBatch r.1 r.2 rest

/-! ## `handle_vote_message` -/

/-- The condition under which a request is granted. -/
def grantsVote (s : Replica) (voteTerm : UInt32) (voteCandidate : UInt8) :
    Prop :=
  voteTerm = s.currentTerm ∧
    (s.votedFor = votedNone ∨ s.votedFor = voteCandidate)

instance (s : Replica) (voteTerm : UInt32) (voteCandidate : UInt8) :
    Decidable (grantsVote s voteTerm voteCandidate) := by
  unfold grantsVote
  infer_instance

/-- The reply written for one valid request. -/
def requestVoteReplyMessage (s : Replica) (voteGranted : Bool) :
    RequestVoteReply :=
  { term := s.currentTerm.toInt32
    candidateID := longOfUInt8 s.votedFor
    voteGranted := longOfBool voteGranted
    senderID := longOfUInt8 s.ID }

/-- A request of a newer term makes the replica a follower of that term. -/
def observeVoteTerm (s : Replica) (voteTerm : UInt32) : Replica :=
  if voteTerm > s.currentTerm then s.becomeFollower voteTerm else s

/-- One iteration of the loop.  `voteGranted` is declared outside the loop and
only ever set. -/
def voteIteration (s : Replica) (voteGranted : Bool)
    (x : Sample ι RequestVote) : Replica × Bool × List RequestVoteReply :=
  if x.validData then
    let voteTerm := x.data.term.toUInt32
    let voteCandidate := uint8OfLong x.data.senderID
    let s := observeVoteTerm s voteTerm
    if grantsVote s voteTerm voteCandidate then
      let s := { s with
        votedFor := voteCandidate
        currentTerm := voteTerm }
      (s, true, [requestVoteReplyMessage s true])
    else (s, voteGranted, [requestVoteReplyMessage s voteGranted])
  else (s, voteGranted, [])

/-- The loop over the remaining batch. -/
def voteBatch (s : Replica) (voteGranted : Bool) :
    List (Sample ι RequestVote) → Replica × List RequestVoteReply
  | [] => (s, [])
  | x :: rest =>
      let r := voteIteration s voteGranted x
      let q := voteBatch r.1 r.2.1 rest
      (q.1, r.2.2 ++ q.2)

/-- `handle_vote_message` on the batch its `take` returned. -/
def handleVoteMessage (s : Replica) (batch : List (Sample ι RequestVote)) :
    Replica × List RequestVoteReply :=
  voteBatch s false batch

/-! ## `handle_vote_reply_message` -/

/-- A reply is counted when it grants this replica's current candidacy. -/
def countsVote (s : Replica) (electionTerm : UInt32) (m : RequestVoteReply) :
    Prop :=
  boolOfLong m.voteGranted = true ∧ m.term.toUInt32 = electionTerm ∧
    uint8OfLong m.candidateID = s.ID

instance (s : Replica) (electionTerm : UInt32) (m : RequestVoteReply) :
    Decidable (countsVote s electionTerm m) := by
  unfold countsVote
  infer_instance

/-- Counting one vote: `votes_received++` and, past half of the replicas,
`become_leader` and the end of the loop. -/
def countVote (activeReplicas : Nat) (s : Replica) : Replica × Bool :=
  let s := { s with votesReceived := s.votesReceived + 1 }
  if s.votesReceived.toNat * 2 > activeReplicas then (s.becomeLeader, true)
  else (s, false)

/-- One iteration of the loop; the flag says that the loop breaks.  Without a
result a candidate would have read an unset `election_term`. -/
def voteReplyIteration (activeReplicas : Nat) (s : Replica)
    (x : Sample ι RequestVoteReply) : Option (Replica × Bool) :=
  if x.validData then
    if s.role ≠ .candidate then some (s, true)
    else
      s.electionTerm.map fun electionTerm =>
        if x.data.term.toUInt32 > electionTerm then
          (s.becomeFollower x.data.term.toUInt32, true)
        else if countsVote s electionTerm x.data then countVote activeReplicas s
        else (s, false)
  else some (s, false)

/-- A candidate that has set `election_term` handles any reply. -/
theorem voteReplyIteration_isSome {N : Nat} {s : Replica}
    (hs : s.role = .candidate → s.electionTerm.isSome = true)
    (x : Sample ι RequestVoteReply) :
    (voteReplyIteration N s x).isSome = true := by
  unfold voteReplyIteration
  split
  · split
    · rfl
    · rename_i hrole
      rw [Option.isSome_map]
      exact hs (not_not.mp hrole)
  · rfl

/-- `handle_vote_reply_message` on the batch its `take` returned. -/
def handleVoteReplyMessage (activeReplicas : Nat) (s : Replica) :
    List (Sample ι RequestVoteReply) → Option Replica
  | [] => some s
  | x :: rest =>
      (voteReplyIteration activeReplicas s x).bind fun r =>
        if r.2 then some r.1
        else handleVoteReplyMessage activeReplicas r.1 rest

/-- A replica that is no candidate ignores vote replies. -/
theorem handleVoteReplyMessage_idle {N : Nat} {s : Replica}
    (hrole : s.role ≠ .candidate) (batch : List (Sample ι RequestVoteReply)) :
    handleVoteReplyMessage N s batch = some s := by
  induction batch with
  | nil => rfl
  | cons x batch ih =>
      cases hx : x.validData with
      | false => simpa [handleVoteReplyMessage, voteReplyIteration, hx] using ih
      | true => simp [handleVoteReplyMessage, voteReplyIteration, hx, hrole]

end RevPiRaft.Ports.LeaderElection
