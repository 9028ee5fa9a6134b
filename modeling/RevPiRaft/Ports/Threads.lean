import RevPiRaft.Verified.Contracts
import RevPiRaft.Ports.Loops

/-!
# The threads as stacks of operations

Here the code of `runElectionTimer` with `run_leader_election`, of
`receive_vote_requests`, of the main loop and of `send_heartbeat` is taken
apart below the critical sections: into the calls on `consensus_mutex`, the
assignments to the replica, the waits, the reads and takes with their
`return_loan`, and the tests in between.  An operation that tests the replica
sees it as it is at that moment, so nothing is assumed here about what the
other threads do.

A thread is a stack of such operations.  What DDS returns is the observation
under which the operation on top is performed.  An error that `checkStatus`
ends the process on has no step.  Writes of messages are left to
`Ports.Process`.

Where no other thread comes between them, the operations of a loop do what
`Ports.Loops.consume` says (`alone_consume`).
-/

namespace RevPiRaft.Ports.Threads

open RevPiRaft.Verified.Contracts
open RevPiRaft.Ports.Datamodel
open RevPiRaft.Ports.ReplicaCore
open RevPiRaft.Ports.LeaderElection
open RevPiRaft.Ports.Process
open RevPiRaft.Ports.Loops

/-! ## Assignments -/

/-- An assignment to the shared state of the replica. -/
inductive Assignment where
  | O1 (value : Bool)
  | O2 (value : Bool)
  | currentTerm (value : UInt32)
  | role (value : RaftRole)
  | votedFor (value : UInt8)
  | electionTerm (value : UInt32)
  | votesReceived (value : UInt8)
  | nextIndex (value : UInt32)
  | log (value : List (Option LogEntry))
  | timerArmed (value : Bool)

def Assignment.apply (s : Replica) : Assignment → Replica
  | .O1 value => { s with O1 := value }
  | .O2 value => { s with O2 := value }
  | .currentTerm value => { s with currentTerm := value }
  | .role value => { s with role := value }
  | .votedFor value => { s with votedFor := value }
  | .electionTerm value => { s with electionTerm := some value }
  | .votesReceived value => { s with votesReceived := value }
  | .nextIndex value => { s with nextIndex := some value }
  | .log value => { s with log := value }
  | .timerArmed value => { s with timerArmed := value }

/-! ## Operations -/

/-- The wait sets of the three threads and of the handler. -/
inductive WaitSet where
  | appendEntries
  | leaderElection
  | collectVotes
  | input
  | appendEntriesReply
deriving DecidableEq

/-- The six pairs of sequences that a read or take fills, each in one place. -/
inductive ReadSite where
  | runElectionTimer
  | runLeaderElection
  | handleVoteMessage
  | handleVoteReplyMessage
  | handleAppendEntriesReplyMessage
  | main
deriving DecidableEq

/-- One operation of a thread.  The loops carry the rest of their batch and
`election_finished`; the operations after `returnLoan` that carry no more than
that are single statements that read the replica. -/
inductive Op (ι : Type) where
  | lock
  | unlock
  | leave
  | assign (a : Assignment)
  | wait (w : WaitSet)
  | returnLoan (site : ReadSite)
  | incrementTerm
  | copyTerm
  | voteSelf
  | setNextIndex
  | appendEntry
  | becomeLeader
  | timerTimeout
  | appendRead
  | appendLoop (batch : List (Sample ι AppendEntries))
  | appendTest (receivedTerm : UInt32)
  | electionLap (electionFinished : Bool)
  | electionNext (electionFinished : Bool)
  | electionRead (electionFinished : Bool)
  | electionLoop (electionFinished : Bool)
      (batch : List (Sample ι AppendEntries))
  | electionTest (electionFinished : Bool) (receivedTerm : UInt32)
      (batch : List (Sample ι AppendEntries))
  | voteRead
  | voteLoop (batch : List (Sample ι RequestVote))
  | voteTest (voteTerm : UInt32) (voteCandidate : UInt8)
  | replyRead
  | replyLoop (batch : List (Sample ι RequestVoteReply))
  | majorityTest (batch : List (Sample ι RequestVoteReply))
  | appendReplyRead
  | inputRead
  | roleTest (batch : List (Sample ι Input))

/-- What DDS returns: a wait times out, fails, or ends with triggered
conditions; a read or take yields a batch.  `again` and `found` are the tests
of the `do`-`while` loop of `run_leader_election` on the two guard lists. -/
inductive Result (ι : Type) where
  | done
  | timeout
  | failed
  | triggered (conditions : List VoteCondition)
  | again (value : Bool)
  | found (value : Bool)
  | appendEntries (batch : List (Sample ι AppendEntries))
  | requestVote (batch : List (Sample ι RequestVote))
  | requestVoteReply (batch : List (Sample ι RequestVoteReply))
  | appendEntriesReply (batch : List (Sample ι AppendEntriesReply))
  | input (batch : List (Sample ι Input))

variable {ι : Type}

/-! ## The code -/

/-- The assignments of `become_follower`. -/
def becomeFollowerOps (term : UInt32) : List (Op ι) :=
  [.assign (.O1 true), .assign (.O2 false), .assign (.currentTerm term),
    .assign (.role .follower), .assign (.votedFor votedNone),
    .assign (.timerArmed false)]

/-- `run_leader_election` from the start of a pass to the end of its wait. -/
def electionPass : List (Op ι) :=
  [.assign (.role .candidate), .incrementTerm, .copyTerm, .voteSelf,
    .assign (.votesReceived 1), .unlock, .wait .leaderElection]

/-- A lap of the `do`-`while` loop of `receive_vote_requests`. -/
def voteLap : VoteCondition → List (Op ι)
  | .requestVoteReply => [.lock, .replyRead, .unlock]
  | .requestVote => [.lock, .voteRead, .unlock]

/-- `send_heartbeat`; the message is built between the first two calls. -/
def sendHeartbeat : List (Op ι) := [.lock, .unlock, .wait .appendEntriesReply]

/-- What follows a wait. -/
def afterWait : WaitSet → Result ι → Option (List (Op ι))
  | .appendEntries, .timeout => some [.lock, .timerTimeout]
  | .appendEntries, .triggered _ => some [.lock, .appendRead]
  | .appendEntries, .failed => some [.lock, .appendRead]
  | .leaderElection, .timeout => some []
  | .leaderElection, .triggered _ => some [.electionLap false]
  | .collectVotes, .triggered conditions =>
      some (conditions.flatMap voteLap ++ [.wait .collectVotes])
  | .collectVotes, .timeout => some [.wait .collectVotes]
  | .collectVotes, .failed => some [.wait .collectVotes]
  | .input, .triggered _ => some [.lock, .inputRead]
  | .appendEntriesReply, .triggered _ =>
      some [.lock, .appendReplyRead, .unlock]
  | .appendEntriesReply, .timeout => some []
  | .appendEntriesReply, .failed => some []
  | _, _ => none

/-- The operations that replace one that is performed while the replica is
`s`. -/
def perform (N : Nat) (s : Replica) :
    Op ι → Result ι → Option (List (Op ι))
  | .lock, .done => some []
  | .unlock, .done => some []
  | .leave, .done => some []
  | .assign _, .done => some []
  | .returnLoan _, .done => some []
  | .wait w, r => afterWait w r
  | .incrementTerm, .done => some [.assign (.currentTerm (s.currentTerm + 1))]
  | .copyTerm, .done => some [.assign (.electionTerm s.currentTerm)]
  | .voteSelf, .done => some [.assign (.votedFor s.ID)]
  | .setNextIndex, .done =>
      some [.assign (.nextIndex (UInt32.ofNat (s.logSize + 1)))]
  | .appendEntry, .done =>
      some [.assign (.log (s.appendToLog s.newEntry).log)]
  | .becomeLeader, .done =>
      if s.role = .leader then some []
      else
        some [.assign (.O1 false), .assign (.O2 true), .assign (.role .leader),
          .assign (.votedFor votedNone), .setNextIndex,
          .assign (.timerArmed true)]
  -- `run_leader_election` is called with the mutex locked, and the call is
  -- followed by an unlock
  | .timerTimeout, .done =>
      if s.role ≠ .follower ∧ s.role ≠ .candidate then
        some [.unlock, .wait .appendEntries]
      else
        some (electionPass ++ [.leave, .unlock, .wait .appendEntries])
  | .appendRead, .appendEntries batch =>
      some [.appendLoop batch, .unlock, .returnLoan .runElectionTimer,
        .wait .appendEntries]
  | .appendLoop [], .done => some []
  | .appendLoop (x :: batch), .done =>
      if x.validData then
        some ((if x.data.term.toUInt32 > s.currentTerm then
            becomeFollowerOps x.data.term.toUInt32
          else []) ++ [.appendTest x.data.term.toUInt32, .appendLoop batch])
      else some [.appendLoop batch]
  | .appendTest receivedTerm, .done =>
      if receivedTerm = s.currentTerm ∧ s.role ≠ .follower then
        some (becomeFollowerOps receivedTerm)
      else some []
  | .electionLap electionFinished, .found value =>
      if value then some [.electionRead electionFinished]
      else some [.electionNext electionFinished]
  | .electionNext electionFinished, .again value =>
      if value then some [.electionLap electionFinished]
      else if electionFinished then some []
      else some electionPass
  | .electionRead electionFinished, .appendEntries batch =>
      if batch.isEmpty then some [.electionNext electionFinished]
      else some [.lock, .electionLoop electionFinished batch]
  | .electionLoop electionFinished [], .done =>
      some [.unlock, .returnLoan .runLeaderElection,
        .electionNext electionFinished]
  | .electionLoop electionFinished (x :: batch), .done =>
      if x.validData then
        some ((if x.data.term.toUInt32 > s.currentTerm then
            becomeFollowerOps x.data.term.toUInt32
          else []) ++
            [.electionTest electionFinished x.data.term.toUInt32 batch])
      else some [.electionLoop electionFinished batch]
  | .electionTest electionFinished receivedTerm batch, .done =>
      if receivedTerm = s.currentTerm then
        some ((if s.role ≠ .follower then becomeFollowerOps receivedTerm
          else []) ++ [.electionLoop true batch])
      else some [.electionLoop electionFinished batch]
  | .voteRead, .requestVote batch =>
      some [.voteLoop batch, .returnLoan .handleVoteMessage]
  | .voteLoop [], .done => some []
  | .voteLoop (x :: batch), .done =>
      if x.validData then
        some ((if x.data.term.toUInt32 > s.currentTerm then
            becomeFollowerOps x.data.term.toUInt32
          else []) ++
            [.voteTest x.data.term.toUInt32 (uint8OfLong x.data.senderID),
              .voteLoop batch])
      else some [.voteLoop batch]
  | .voteTest voteTerm voteCandidate, .done =>
      if grantsVote s voteTerm voteCandidate then
        some [.assign (.votedFor voteCandidate),
          .assign (.currentTerm voteTerm)]
      else some []
  | .replyRead, .requestVoteReply batch =>
      some [.replyLoop batch, .returnLoan .handleVoteReplyMessage]
  | .replyLoop [], .done => some []
  -- the two ways to break out of the loop return the loan first
  | .replyLoop (x :: batch), .done =>
      if x.validData then
        if s.role ≠ .candidate then
          some [.returnLoan .handleVoteReplyMessage]
        else
          s.electionTerm.map fun electionTerm =>
            if x.data.term.toUInt32 > electionTerm then
              .returnLoan .handleVoteReplyMessage ::
                becomeFollowerOps x.data.term.toUInt32
            else if countsVote s electionTerm x.data then
              [.assign (.votesReceived (s.votesReceived + 1)),
                .majorityTest batch]
            else [.replyLoop batch]
      else some [.replyLoop batch]
  | .majorityTest batch, .done =>
      if s.votesReceived.toNat * 2 > N then
        some [.returnLoan .handleVoteReplyMessage, .becomeLeader]
      else some [.replyLoop batch]
  | .appendReplyRead, .appendEntriesReply _ =>
      some [.returnLoan .handleAppendEntriesReplyMessage]
  | .inputRead, .input batch => some [.roleTest batch]
  -- `continue` goes on to the test of the `do`-`while` loop, which ends
  | .roleTest _, .done =>
      if s.role ≠ .leader then some [.unlock, .wait .input]
      else
        some [.appendEntry, .unlock, .returnLoan .main, .wait .input]
  | _, _ => none

/-- The code that the process runs. -/
inductive Code where
  | runElectionTimer
  | receiveVoteRequests
  | main
  | sendHeartbeat
deriving DecidableEq

/-- Where it starts: the threads at their first wait. -/
def Code.start : Code → List (Op ι)
  | .runElectionTimer => [.wait .appendEntries]
  | .receiveVoteRequests => [.wait .collectVotes]
  | .main => [.wait .input]
  | .sendHeartbeat => Threads.sendHeartbeat

/-! ## Inversion -/

/-- One constructor for each branch of `perform`. -/
inductive Performed (N : Nat) (s : Replica) :
    Op ι → Result ι → List (Op ι) → Prop where
  | lock : Performed N s .lock .done []
  | unlock : Performed N s .unlock .done []
  | leave : Performed N s .leave .done []
  | assign (a : Assignment) : Performed N s (.assign a) .done []
  | returnLoan (site : ReadSite) : Performed N s (.returnLoan site) .done []
  | wait (w : WaitSet) (r : Result ι) (new : List (Op ι))
      (h : afterWait w r = some new) : Performed N s (.wait w) r new
  | incrementTerm : Performed N s .incrementTerm .done
      [.assign (.currentTerm (s.currentTerm + 1))]
  | copyTerm : Performed N s .copyTerm .done
      [.assign (.electionTerm s.currentTerm)]
  | voteSelf : Performed N s .voteSelf .done [.assign (.votedFor s.ID)]
  | setNextIndex : Performed N s .setNextIndex .done
      [.assign (.nextIndex (UInt32.ofNat (s.logSize + 1)))]
  | appendEntry : Performed N s .appendEntry .done
      [.assign (.log (s.appendToLog s.newEntry).log)]
  | stayLeader (hrole : s.role = .leader) :
      Performed N s .becomeLeader .done []
  | becomeLeader (hrole : s.role ≠ .leader) :
      Performed N s .becomeLeader .done
        [.assign (.O1 false), .assign (.O2 true), .assign (.role .leader),
          .assign (.votedFor votedNone), .setNextIndex,
          .assign (.timerArmed true)]
  | leaderTimeout (hrole : s.role ≠ .follower ∧ s.role ≠ .candidate) :
      Performed N s .timerTimeout .done [.unlock, .wait .appendEntries]
  | electionTimeout (hrole : ¬ (s.role ≠ .follower ∧ s.role ≠ .candidate)) :
      Performed N s .timerTimeout .done
        (electionPass ++ [.leave, .unlock, .wait .appendEntries])
  | appendRead (batch : List (Sample ι AppendEntries)) :
      Performed N s .appendRead (.appendEntries batch)
        [.appendLoop batch, .unlock, .returnLoan .runElectionTimer,
          .wait .appendEntries]
  | appendEnd : Performed N s (.appendLoop []) .done []
  | appendSample (x : Sample ι AppendEntries)
      (batch : List (Sample ι AppendEntries)) (hx : x.validData = true) :
      Performed N s (.appendLoop (x :: batch)) .done
        ((if x.data.term.toUInt32 > s.currentTerm then
            becomeFollowerOps x.data.term.toUInt32
          else []) ++ [.appendTest x.data.term.toUInt32, .appendLoop batch])
  | appendSkip (x : Sample ι AppendEntries)
      (batch : List (Sample ι AppendEntries)) (hx : x.validData = false) :
      Performed N s (.appendLoop (x :: batch)) .done [.appendLoop batch]
  | appendTest (receivedTerm : UInt32) :
      Performed N s (.appendTest receivedTerm) .done
        (if receivedTerm = s.currentTerm ∧ s.role ≠ .follower then
          becomeFollowerOps receivedTerm
        else [])
  | electionFound (f : Bool) :
      Performed N s (.electionLap f) (.found true) [.electionRead f]
  | electionMissed (f : Bool) :
      Performed N s (.electionLap f) (.found false) [.electionNext f]
  | electionAgain (f : Bool) :
      Performed N s (.electionNext f) (.again true) [.electionLap f]
  | electionFinished :
      Performed N s (.electionNext true) (.again false) []
  | electionPass :
      Performed N s (.electionNext false) (.again false) electionPass
  | electionEmpty (f : Bool) :
      Performed N s (.electionRead f) (.appendEntries []) [.electionNext f]
  | electionRead (f : Bool) (x : Sample ι AppendEntries)
      (batch : List (Sample ι AppendEntries)) :
      Performed N s (.electionRead f) (.appendEntries (x :: batch))
        [.lock, .electionLoop f (x :: batch)]
  | electionEnd (f : Bool) :
      Performed N s (.electionLoop f []) .done
        [.unlock, .returnLoan .runLeaderElection, .electionNext f]
  | electionSample (f : Bool) (x : Sample ι AppendEntries)
      (batch : List (Sample ι AppendEntries)) (hx : x.validData = true) :
      Performed N s (.electionLoop f (x :: batch)) .done
        ((if x.data.term.toUInt32 > s.currentTerm then
            becomeFollowerOps x.data.term.toUInt32
          else []) ++ [.electionTest f x.data.term.toUInt32 batch])
  | electionSkip (f : Bool) (x : Sample ι AppendEntries)
      (batch : List (Sample ι AppendEntries)) (hx : x.validData = false) :
      Performed N s (.electionLoop f (x :: batch)) .done
        [.electionLoop f batch]
  | electionCurrent (f : Bool) (receivedTerm : UInt32)
      (batch : List (Sample ι AppendEntries))
      (hterm : receivedTerm = s.currentTerm) :
      Performed N s (.electionTest f receivedTerm batch) .done
        ((if s.role ≠ .follower then becomeFollowerOps receivedTerm else []) ++
          [.electionLoop true batch])
  | electionStale (f : Bool) (receivedTerm : UInt32)
      (batch : List (Sample ι AppendEntries))
      (hterm : receivedTerm ≠ s.currentTerm) :
      Performed N s (.electionTest f receivedTerm batch) .done
        [.electionLoop f batch]
  | voteRead (batch : List (Sample ι RequestVote)) :
      Performed N s .voteRead (.requestVote batch)
        [.voteLoop batch, .returnLoan .handleVoteMessage]
  | voteEnd : Performed N s (.voteLoop []) .done []
  | voteSample (x : Sample ι RequestVote)
      (batch : List (Sample ι RequestVote)) (hx : x.validData = true) :
      Performed N s (.voteLoop (x :: batch)) .done
        ((if x.data.term.toUInt32 > s.currentTerm then
            becomeFollowerOps x.data.term.toUInt32
          else []) ++
            [.voteTest x.data.term.toUInt32 (uint8OfLong x.data.senderID),
              .voteLoop batch])
  | voteSkip (x : Sample ι RequestVote) (batch : List (Sample ι RequestVote))
      (hx : x.validData = false) :
      Performed N s (.voteLoop (x :: batch)) .done [.voteLoop batch]
  | voteTest (voteTerm : UInt32) (voteCandidate : UInt8) :
      Performed N s (.voteTest voteTerm voteCandidate) .done
        (if grantsVote s voteTerm voteCandidate then
          [.assign (.votedFor voteCandidate), .assign (.currentTerm voteTerm)]
        else [])
  | replyRead (batch : List (Sample ι RequestVoteReply)) :
      Performed N s .replyRead (.requestVoteReply batch)
        [.replyLoop batch, .returnLoan .handleVoteReplyMessage]
  | replyEnd : Performed N s (.replyLoop []) .done []
  | replySkip (x : Sample ι RequestVoteReply)
      (batch : List (Sample ι RequestVoteReply)) (hx : x.validData = false) :
      Performed N s (.replyLoop (x :: batch)) .done [.replyLoop batch]
  | replyIdle (x : Sample ι RequestVoteReply)
      (batch : List (Sample ι RequestVoteReply)) (hx : x.validData = true)
      (hrole : s.role ≠ .candidate) :
      Performed N s (.replyLoop (x :: batch)) .done
        [.returnLoan .handleVoteReplyMessage]
  | replyNewer (x : Sample ι RequestVoteReply)
      (batch : List (Sample ι RequestVoteReply)) (electionTerm : UInt32)
      (hx : x.validData = true) (hrole : s.role = .candidate)
      (hterm : s.electionTerm = some electionTerm)
      (hnewer : x.data.term.toUInt32 > electionTerm) :
      Performed N s (.replyLoop (x :: batch)) .done
        (.returnLoan .handleVoteReplyMessage ::
          becomeFollowerOps x.data.term.toUInt32)
  | replyCount (x : Sample ι RequestVoteReply)
      (batch : List (Sample ι RequestVoteReply)) (electionTerm : UInt32)
      (hx : x.validData = true) (hrole : s.role = .candidate)
      (hterm : s.electionTerm = some electionTerm)
      (hnewer : ¬ x.data.term.toUInt32 > electionTerm) :
      Performed N s (.replyLoop (x :: batch)) .done
        (if countsVote s electionTerm x.data then
          [.assign (.votesReceived (s.votesReceived + 1)), .majorityTest batch]
        else [.replyLoop batch])
  | majority (batch : List (Sample ι RequestVoteReply))
      (hvotes : s.votesReceived.toNat * 2 > N) :
      Performed N s (.majorityTest batch) .done
        [.returnLoan .handleVoteReplyMessage, .becomeLeader]
  | noMajority (batch : List (Sample ι RequestVoteReply))
      (hvotes : ¬ s.votesReceived.toNat * 2 > N) :
      Performed N s (.majorityTest batch) .done [.replyLoop batch]
  | appendReplyRead (batch : List (Sample ι AppendEntriesReply)) :
      Performed N s .appendReplyRead (.appendEntriesReply batch)
        [.returnLoan .handleAppendEntriesReplyMessage]
  | inputRead (batch : List (Sample ι Input)) :
      Performed N s .inputRead (.input batch) [.roleTest batch]
  | inputIgnored (batch : List (Sample ι Input)) (hrole : s.role ≠ .leader) :
      Performed N s (.roleTest batch) .done [.unlock, .wait .input]
  | inputAppended (batch : List (Sample ι Input)) (hrole : s.role = .leader) :
      Performed N s (.roleTest batch) .done
        [.appendEntry, .unlock, .returnLoan .main, .wait .input]

theorem replyLoop_cases {N : Nat} {s : Replica}
    {x : Sample ι RequestVoteReply} {batch : List (Sample ι RequestVoteReply)}
    {new : List (Op ι)}
    (h : perform N s (.replyLoop (x :: batch)) .done = some new) :
    Performed N s (.replyLoop (x :: batch)) .done new := by
  rw [perform] at h
  split at h
  · rename_i hx
    split at h
    · rename_i hrole
      cases h
      exact .replyIdle x batch hx hrole
    · rename_i hrole
      obtain ⟨electionTerm, hterm, rfl⟩ := Option.map_eq_some_iff.mp h
      have hcandidate := Decidable.not_not.mp hrole
      by_cases hnewer : x.data.term.toUInt32 > electionTerm
      · rw [if_pos hnewer]
        exact .replyNewer x batch electionTerm hx hcandidate hterm hnewer
      · rw [if_neg hnewer]
        exact .replyCount x batch electionTerm hx hcandidate hterm hnewer
  · rename_i hx
    cases h
    exact .replySkip x batch (Bool.eq_false_iff.mpr hx)

theorem perform_cases {N : Nat} {s : Replica} {o : Op ι} {r : Result ι}
    {new : List (Op ι)} (h : perform N s o r = some new) :
    Performed N s o r new := by
  cases o with
  | wait w => exact .wait w r new h
  | lock => cases r <;> cases h; exact .lock
  | unlock => cases r <;> cases h; exact .unlock
  | leave => cases r <;> cases h; exact .leave
  | assign a => cases r <;> cases h; exact .assign a
  | returnLoan site => cases r <;> cases h; exact .returnLoan site
  | incrementTerm => cases r <;> cases h; exact .incrementTerm
  | copyTerm => cases r <;> cases h; exact .copyTerm
  | voteSelf => cases r <;> cases h; exact .voteSelf
  | setNextIndex => cases r <;> cases h; exact .setNextIndex
  | appendEntry => cases r <;> cases h; exact .appendEntry
  | becomeLeader =>
      cases r with
      | done =>
          rw [perform] at h
          split at h <;> cases h
          · exact .stayLeader ‹_›
          · exact .becomeLeader ‹_›
      | _ => cases h
  | timerTimeout =>
      cases r with
      | done =>
          rw [perform] at h
          split at h <;> cases h
          · exact .leaderTimeout ‹_›
          · exact .electionTimeout ‹_›
      | _ => cases h
  | appendRead => cases r <;> cases h; exact .appendRead _
  | appendLoop batch =>
      cases r with
      | done =>
          cases batch with
          | nil => cases h; exact .appendEnd
          | cons x batch =>
              rw [perform] at h
              split at h <;> cases h
              · exact .appendSample x batch ‹_›
              · exact .appendSkip x batch (Bool.eq_false_iff.mpr ‹_›)
      | _ => cases batch <;> cases h
  | appendTest receivedTerm =>
      cases r with
      | done =>
          have hnew : new = if receivedTerm = s.currentTerm ∧
              s.role ≠ .follower then becomeFollowerOps receivedTerm
            else [] := by
            rw [perform] at h
            split at h <;> cases h <;> simp [*]
          rw [hnew]
          exact .appendTest receivedTerm
      | _ => cases h
  | electionLap f =>
      cases r with
      | found value =>
          cases value <;> cases h
          · exact .electionMissed f
          · exact .electionFound f
      | _ => cases h
  | electionNext f =>
      cases r with
      | again value =>
          cases value
          · cases f <;> cases h
            · exact .electionPass
            · exact .electionFinished
          · cases h
            exact .electionAgain f
      | _ => cases h
  | electionRead f =>
      cases r with
      | appendEntries batch =>
          cases batch <;> cases h
          · exact .electionEmpty f
          · exact .electionRead f _ _
      | _ => cases h
  | electionLoop f batch =>
      cases r with
      | done =>
          cases batch with
          | nil => cases h; exact .electionEnd f
          | cons x batch =>
              rw [perform] at h
              split at h <;> cases h
              · exact .electionSample f x batch ‹_›
              · exact .electionSkip f x batch (Bool.eq_false_iff.mpr ‹_›)
      | _ => cases batch <;> cases h
  | electionTest f receivedTerm batch =>
      cases r with
      | done =>
          rw [perform] at h
          split at h <;> cases h
          · exact .electionCurrent f receivedTerm batch ‹_›
          · exact .electionStale f receivedTerm batch ‹_›
      | _ => cases h
  | voteRead => cases r <;> cases h; exact .voteRead _
  | voteLoop batch =>
      cases r with
      | done =>
          cases batch with
          | nil => cases h; exact .voteEnd
          | cons x batch =>
              rw [perform] at h
              split at h <;> cases h
              · exact .voteSample x batch ‹_›
              · exact .voteSkip x batch (Bool.eq_false_iff.mpr ‹_›)
      | _ => cases batch <;> cases h
  | voteTest voteTerm voteCandidate =>
      cases r with
      | done =>
          have hnew : new = if grantsVote s voteTerm voteCandidate then
              [.assign (.votedFor voteCandidate),
                .assign (.currentTerm voteTerm)]
            else [] := by
            rw [perform] at h
            split at h <;> cases h <;> simp [*]
          rw [hnew]
          exact .voteTest voteTerm voteCandidate
      | _ => cases h
  | replyRead => cases r <;> cases h; exact .replyRead _
  | replyLoop batch =>
      cases r with
      | done =>
          cases batch with
          | nil => cases h; exact .replyEnd
          | cons x batch => exact replyLoop_cases h
      | _ => cases batch <;> cases h
  | majorityTest batch =>
      cases r with
      | done =>
          rw [perform] at h
          split at h <;> cases h
          · exact .majority batch ‹_›
          · exact .noMajority batch ‹_›
      | _ => cases h
  | appendReplyRead => cases r <;> cases h; exact .appendReplyRead _
  | inputRead => cases r <;> cases h; exact .inputRead _
  | roleTest batch =>
      cases r with
      | done =>
          rw [perform] at h
          split at h <;> cases h
          · exact .inputIgnored batch ‹_›
          · exact .inputAppended batch (Decidable.not_not.mp ‹_›)
      | _ => cases h

/-- The conditional calls of `become_follower` only assign. -/
theorem all_becomeFollowerIf {P : Op ι → Bool}
    (hP : ∀ a, P (.assign a) = true) (c : Prop) [Decidable c] (term : UInt32) :
    (if c then becomeFollowerOps term else []).all P = true := by
  split
  · simp [becomeFollowerOps, hP]
  · rfl

/-! ## Undisturbed execution -/

/-- The replica after an operation. -/
def runOp (s : Replica) : Op ι → Replica
  | .assign a => a.apply s
  | _ => s

/-- Performing operations one after another, with no other thread between
them. -/
inductive Alone (N : Nat) :
    Replica → List (Op ι) → Replica → List (Op ι) → Prop where
  | refl (s : Replica) (ops : List (Op ι)) : Alone N s ops s ops
  | step {s s' : Replica} {o : Op ι} {rest ops : List (Op ι)} (r : Result ι)
      (new : List (Op ι)) (ho : perform N s o r = some new)
      (h : Alone N (runOp s o) (new ++ rest) s' ops) :
      Alone N s (o :: rest) s' ops

/-- What a thread observes while no other thread runs, given the results of
its operations. -/
def undisturbed (N : Nat) (s : Replica) :
    List (Op ι) → List (Result ι) → List (Replica × Result ι)
  | o :: rest, r :: results =>
      (s, r) ::
        match perform N s o r with
        | none => []
        | some new => undisturbed N (runOp s o) (new ++ rest) results
  | _, _ => []

variable {N : Nat} {s u : Replica} {zs rest : List (Op ι)}

theorem Alone.trans {t : Replica} {xs ys : List (Op ι)} (h : Alone N s xs t ys)
    (h' : Alone N t ys u zs) : Alone N s xs u zs := by
  induction h with
  | refl => exact h'
  | step r new ho _ ih => exact .step r new ho (ih h')

/-- Any other operation whose result is not of DDS leaves the replica. -/
theorem alone_test {o : Op ι} (new : List (Op ι)) (hs : runOp s o = s)
    (ho : perform N s o .done = some new)
    (h : Alone N s (new ++ rest) u zs) :
    Alone N s (o :: rest) u zs :=
  .step .done new ho (by rw [hs]; exact h)

theorem alone_assign (a : Assignment) (h : Alone N (a.apply s) rest u zs) :
    Alone N s (.assign a :: rest) u zs :=
  .step .done [] rfl h

theorem alone_becomeFollower (term : UInt32)
    (h : Alone N (s.becomeFollower term) rest u zs) :
    Alone N s (becomeFollowerOps term ++ rest) u zs := by
  unfold becomeFollowerOps
  apply alone_assign
  apply alone_assign
  apply alone_assign
  apply alone_assign
  apply alone_assign
  apply alone_assign
  exact h

theorem alone_becomeLeader (h : Alone N s.becomeLeader rest u zs) :
    Alone N s (.becomeLeader :: rest) u zs := by
  by_cases hrole : s.role = .leader
  · rw [Replica.becomeLeader, if_pos hrole] at h
    exact alone_test [] rfl (by rw [perform, if_pos hrole]) h
  · rw [Replica.becomeLeader, if_neg hrole] at h
    apply alone_test _ rfl (by rw [perform, if_neg hrole])
    apply alone_assign
    apply alone_assign
    apply alone_assign
    apply alone_assign
    apply alone_test _ rfl rfl
    apply alone_assign
    apply alone_assign
    exact h

/-- The assignments of an election set-up. -/
theorem alone_setUp (h : Alone N (startElection s).1 rest u zs) :
    Alone N s (.assign (.role .candidate) :: .incrementTerm :: .copyTerm ::
      .voteSelf :: .assign (.votesReceived 1) :: rest) u zs := by
  apply alone_assign
  apply alone_test _ rfl rfl
  apply alone_assign
  apply alone_test _ rfl rfl
  apply alone_assign
  apply alone_test _ rfl rfl
  apply alone_assign
  apply alone_assign
  exact h

/-- A pass of `run_leader_election` up to its wait is its set-up. -/
theorem alone_electionPass :
    Alone N s (electionPass ++ rest) (startElection s).1
      (.wait .leaderElection :: rest) := by
  unfold electionPass
  apply alone_setUp
  apply alone_test _ rfl rfl
  exact .refl _ _

/-- The conditional calls of `become_follower` in the loops. -/
theorem alone_becomeFollowerIf (c : Prop) [Decidable c] (term : UInt32)
    (h : Alone N (if c then s.becomeFollower term else s) rest u zs) :
    Alone N s ((if c then becomeFollowerOps term else []) ++ rest) u zs := by
  by_cases hc : c
  · rw [if_pos hc] at h
    rw [if_pos hc]
    exact alone_becomeFollower term h
  · rw [if_neg hc] at h
    rw [if_neg hc]
    exact h

/-- The loop of `runElectionTimer`. -/
theorem alone_appendLoop (batch : List (Sample ι AppendEntries))
    (h : Alone N (s.runElectionTimerBatch batch).1 rest u zs) :
    Alone N s (.appendLoop batch :: rest) u zs := by
  induction batch generalizing s with
  | nil => exact alone_test [] rfl rfl h
  | cons x batch ih =>
      rw [Replica.runElectionTimerBatch, Replica.appendEntriesIteration] at h
      by_cases hx : x.validData
      · rw [if_pos hx] at h
        dsimp only at h
        apply alone_test _ rfl (by rw [perform, if_pos hx])
        rw [List.append_assoc]
        apply alone_becomeFollowerIf
        show Alone N _ (.appendTest x.data.term.toUInt32 ::
          .appendLoop batch :: rest) u zs
        generalize (if x.data.term.toUInt32 > s.currentTerm then
          s.becomeFollower x.data.term.toUInt32 else s) = t at h ⊢
        by_cases htest : x.data.term.toUInt32 = t.currentTerm ∧
          t.role ≠ .follower
        · rw [if_pos htest] at h
          apply alone_test _ rfl (by rw [perform, if_pos htest])
          apply alone_becomeFollower
          exact ih h
        · rw [if_neg htest] at h
          apply alone_test _ rfl (by rw [perform, if_neg htest])
          exact ih h
      · rw [if_neg hx] at h
        apply alone_test _ rfl (by rw [perform, if_neg hx])
        exact ih h

/-- The loop of `run_leader_election`. -/
theorem alone_electionLoop (f : Bool) (batch : List (Sample ι AppendEntries))
    (h : Alone N (electionBatch s f batch).1
      (.electionLoop (electionBatch s f batch).2 [] :: rest) u zs) :
    Alone N s (.electionLoop f batch :: rest) u zs := by
  induction batch generalizing s f with
  | nil => exact h
  | cons x batch ih =>
      rw [electionBatch, electionIteration] at h
      by_cases hx : x.validData
      · rw [if_pos hx] at h
        dsimp only at h
        apply alone_test _ rfl (by rw [perform, if_pos hx])
        rw [List.append_assoc]
        apply alone_becomeFollowerIf
        show Alone N _ (.electionTest f x.data.term.toUInt32 batch :: rest) u zs
        generalize (if x.data.term.toUInt32 > s.currentTerm then
          s.becomeFollower x.data.term.toUInt32 else s) = t at h ⊢
        by_cases htest : x.data.term.toUInt32 = t.currentTerm
        · rw [if_pos htest] at h
          apply alone_test _ rfl (by rw [perform, if_pos htest])
          rw [List.append_assoc]
          apply alone_becomeFollowerIf
          exact ih true h
        · rw [if_neg htest] at h
          apply alone_test _ rfl (by rw [perform, if_neg htest])
          exact ih f h
      · rw [if_neg hx] at h
        apply alone_test _ rfl (by rw [perform, if_neg hx])
        exact ih f h

/-- The loop of `handle_vote_message`. -/
theorem alone_voteLoop (g : Bool) (batch : List (Sample ι RequestVote))
    (h : Alone N (voteBatch s g batch).1 rest u zs) :
    Alone N s (.voteLoop batch :: rest) u zs := by
  induction batch generalizing s g with
  | nil => exact alone_test [] rfl rfl h
  | cons x batch ih =>
      rw [voteBatch, voteIteration] at h
      by_cases hx : x.validData
      · rw [if_pos hx] at h
        dsimp only [observeVoteTerm] at h
        apply alone_test _ rfl (by rw [perform, if_pos hx])
        rw [List.append_assoc]
        apply alone_becomeFollowerIf
        show Alone N _ (.voteTest x.data.term.toUInt32
          (uint8OfLong x.data.senderID) :: .voteLoop batch :: rest) u zs
        generalize (if x.data.term.toUInt32 > s.currentTerm then
          s.becomeFollower x.data.term.toUInt32 else s) = t at h ⊢
        by_cases hgrant : grantsVote t x.data.term.toUInt32
          (uint8OfLong x.data.senderID)
        · rw [if_pos hgrant] at h
          apply alone_test _ rfl (by rw [perform, if_pos hgrant])
          apply alone_assign
          apply alone_assign
          exact ih true h
        · rw [if_neg hgrant] at h
          apply alone_test _ rfl (by rw [perform, if_neg hgrant])
          exact ih g h
      · rw [if_neg hx] at h
        apply alone_test _ rfl (by rw [perform, if_neg hx])
        exact ih g h

/-- The loop of `handle_vote_reply_message`. -/
theorem alone_replyLoop (batch : List (Sample ι RequestVoteReply))
    {t : Replica} (ht : handleVoteReplyMessage N s batch = some t)
    (h : Alone N t rest u zs) :
    Alone N s (.replyLoop batch :: rest) u zs := by
  induction batch generalizing s with
  | nil =>
      cases ht
      exact alone_test [] rfl rfl h
  | cons x batch ih =>
      rw [handleVoteReplyMessage, voteReplyIteration] at ht
      by_cases hx : x.validData
      · rw [if_pos hx] at ht
        by_cases hrole : s.role ≠ .candidate
        · rw [if_pos hrole] at ht
          cases ht
          apply alone_test _ rfl (by rw [perform, if_pos hx, if_pos hrole])
          exact alone_test [] rfl rfl h
        · rw [if_neg hrole] at ht
          cases helection : s.electionTerm with
          | none =>
              rw [helection] at ht
              cases ht
          | some electionTerm =>
              rw [helection] at ht
              apply alone_test _ rfl
                (by rw [perform, if_pos hx, if_neg hrole, helection]; rfl)
              simp only [Option.map_some, Option.bind_some] at ht
              dsimp only
              by_cases hnewer : x.data.term.toUInt32 > electionTerm
              · rw [if_pos hnewer] at ht
                rw [if_pos hnewer]
                cases ht
                apply alone_test [] rfl rfl
                exact alone_becomeFollower _ h
              · rw [if_neg hnewer] at ht
                rw [if_neg hnewer]
                by_cases hcount : countsVote s electionTerm x.data
                · rw [if_pos hcount, countVote] at ht
                  rw [if_pos hcount]
                  apply alone_assign
                  dsimp only at ht
                  by_cases hmajority : (s.votesReceived + 1).toNat * 2 > N
                  · rw [if_pos hmajority] at ht
                    cases ht
                    apply alone_test _ rfl
                      (by rw [perform]; exact if_pos hmajority)
                    apply alone_test [] rfl rfl
                    exact alone_becomeLeader h
                  · rw [if_neg hmajority] at ht
                    apply alone_test _ rfl
                      (by rw [perform]; exact if_neg hmajority)
                    exact ih ht
                · rw [if_neg hcount] at ht
                  rw [if_neg hcount]
                  exact ih ht
      · rw [if_neg hx] at ht
        apply alone_test _ rfl (by rw [perform, if_neg hx])
        exact ih ht

/-- The read or take before each of the loops. -/
def readOf : Loop → Op ι
  | .runElectionTimer => .appendRead
  | .runLeaderElection => .electionRead false
  | .handleVoteMessage => .voteRead
  | .handleVoteReplyMessage => .replyRead
  | .handleAppendEntriesReplyMessage => .appendReplyRead

/-- The wait after it, where one follows. -/
def waitAfter (round : Bool) : Loop → List (Op ι)
  | .runElectionTimer => [.wait .appendEntries]
  | .runLeaderElection => if round then [.wait .leaderElection] else []
  | _ => []

/-- Undisturbed, the operations of a loop and of the election set-up after it
do to the replica what consuming the batch is. -/
theorem alone_consume (loop : Loop) (batch : List (Sample ι loop.topic.Msg))
    {round : Bool} (hs : consume N s loop batch = some (u, round)) :
    Alone N s (readOf loop :: rest) u (waitAfter round loop ++ rest) := by
  cases loop with
  | runElectionTimer =>
      cases hs
      apply Alone.step (.appendEntries batch) _ rfl
      apply alone_appendLoop
      apply alone_test [] rfl rfl
      apply alone_test [] rfl rfl
      exact .refl _ _
  | runLeaderElection =>
      have hend : Alone N s (readOf .runLeaderElection :: rest)
          (electionBatch s false batch).1
          (.electionNext (electionBatch s false batch).2 :: rest) := by
        cases batch with
        | nil =>
            exact .step (.appendEntries []) [.electionNext false] rfl
              (.refl _ _)
        | cons x batch =>
            apply Alone.step (.appendEntries (x :: batch)) _ rfl
            apply alone_test [] rfl rfl
            apply alone_electionLoop
            apply alone_test _ rfl rfl
            apply alone_test [] rfl rfl
            apply alone_test [] rfl rfl
            exact .refl _ _
      simp only [consume, Option.some.injEq] at hs
      apply hend.trans
      cases hfinished : (electionBatch s false batch).2 with
      | true =>
          simp only [hfinished, if_true, Prod.mk.injEq] at hs
          obtain ⟨rfl, rfl⟩ := hs
          exact .step (.again false) [] rfl (.refl _ _)
      | false =>
          simp only [hfinished, Bool.false_eq_true, if_false,
            Prod.mk.injEq] at hs
          obtain ⟨rfl, rfl⟩ := hs
          exact .step (.again false) electionPass rfl alone_electionPass
  | handleVoteMessage =>
      cases hs
      apply Alone.step (.requestVote batch) _ rfl
      apply alone_voteLoop false
      exact alone_test [] rfl rfl (.refl _ _)
  | handleVoteReplyMessage =>
      obtain ⟨s', hs', heq⟩ := Option.map_eq_some_iff.mp hs
      cases heq
      apply Alone.step (.requestVoteReply batch) _ rfl
      apply alone_replyLoop batch hs'
      exact alone_test [] rfl rfl (.refl _ _)
  | handleAppendEntriesReplyMessage =>
      cases hs
      apply Alone.step (.appendEntriesReply batch) _ rfl
      exact alone_test [] rfl rfl (.refl _ _)

/-- A lap of the main loop, from its read to its wait. -/
theorem alone_roleTest (batch : List (Sample ι Input)) :
    Alone N s [.roleTest batch] (s.mainInputLap batch) [.wait .input] := by
  by_cases hrole : s.role ≠ .leader
  · rw [Replica.mainInputLap_idle hrole]
    apply alone_test _ rfl (by rw [perform, if_pos hrole])
    exact alone_test [] rfl rfl (.refl _ _)
  · rw [Replica.mainInputLap_leader (not_not.mp hrole)]
    apply alone_test _ rfl (by rw [perform, if_neg hrole])
    apply alone_test _ rfl rfl
    apply alone_assign
    apply alone_test [] rfl rfl
    exact alone_test [] rfl rfl (.refl _ _)

end RevPiRaft.Ports.Threads
