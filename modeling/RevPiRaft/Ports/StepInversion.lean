import RevPiRaft.Ports.Process

/-!
# Inversion of the step function of a node

`Step` says once what every branch of `Node.step` requires and results in.
Every later fact about steps is a case analysis on it.
-/

namespace RevPiRaft.Ports.StepInversion

open RevPiRaft.Ports.Datamodel
open RevPiRaft.Ports.ReplicaCore
open RevPiRaft.Ports.LeaderElection
open RevPiRaft.Ports.Process

variable {ι : Type}

/-- One constructor for each branch of `Node.step`, with the conditions under
which the branch is taken, the resulting node and its publications. -/
inductive Step (N : Nat) (n : Node ι) :
    Action ι → Node ι → List Publication → Prop where
  | deliver (t : Topic) (k : Nat) (x : Sample ι t.Msg)
      (hx : (n.reader t).inflight[k]? = some x) :
      Step N n (.deliver t k)
        { n with
          reader := Function.update n.reader t
            { inflight := (n.reader t).inflight.eraseIdx k
              unread := (n.reader t).unread ++ [x] } } []
  | dispose (t : Topic) (x : Sample ι t.Msg) (hx : x.validData = false) :
      Step N n (.dispose t x)
        { n with
          reader := Function.update n.reader t
            { inflight := (n.reader t).inflight
              unread := (n.reader t).unread ++ [x] } } []
  | appendWake (hthread : n.electionThread = .appendWait)
      (hwake : n.triggered .appendEntries = true)
      (hfree : n.mutexFree = true) :
      Step N n .appendWake
        { n.take .appendEntries with
          electionThread := endAppendLoop (n.unread .appendEntries) } []
  | appendStep (x : Sample ι AppendEntries)
      (batch : List (Sample ι AppendEntries))
      (hthread : n.electionThread = .appendLoop (x :: batch)) :
      Step N n .appendStep
        { n with
          replica := (n.replica.appendEntriesIteration x).1
          electionThread := endAppendLoop batch }
        ((n.replica.appendEntriesIteration x).2.map fun m =>
          ⟨.appendEntriesReply, m⟩)
  | leaderTimeout (hthread : n.electionThread = .appendWait)
      (hfree : n.mutexFree = true) (hrole : n.replica.role = .leader) :
      Step N n .electionTimeout n []
  | electionTimeout (hthread : n.electionThread = .appendWait)
      (hfree : n.mutexFree = true) (hrole : n.replica.role ≠ .leader) :
      Step N n .electionTimeout n.electionSetUp.1 n.electionSetUp.2
  | electionWake (hthread : n.electionThread = .electionWait)
      (hwake : n.triggered .appendEntries = true) :
      Step N n .electionWake { n with electionThread := .electionLap 0 false } []
  | electionTake (conditionIndex : Nat) (electionFinished : Bool)
      (hthread : n.electionThread =
        .electionLap conditionIndex electionFinished)
      (hfree : n.unread .appendEntries = [] ∨ n.mutexFree = true) :
      Step N n .electionTake
        { n.take .appendEntries with
          electionThread := endElectionLoop n.collectVotesGuardList
            conditionIndex electionFinished (n.unread .appendEntries) } []
  | electionSkip (conditionIndex : Nat) (electionFinished : Bool)
      (hthread : n.electionThread =
        .electionLap conditionIndex electionFinished)
      (hindex : 0 < conditionIndex) :
      Step N n .electionSkip
        { n with
          electionThread := endElectionLap n.collectVotesGuardList
            conditionIndex electionFinished } []
  | electionStep (conditionIndex : Nat) (electionFinished : Bool)
      (x : Sample ι AppendEntries) (batch : List (Sample ι AppendEntries))
      (hthread : n.electionThread =
        .electionLoop conditionIndex electionFinished (x :: batch)) :
      Step N n .electionStep
        { n with
          replica := (electionIteration n.replica electionFinished x).1
          electionThread := endElectionLoop n.collectVotesGuardList
            conditionIndex (electionIteration n.replica electionFinished x).2
            batch } []
  | electionRestart (hthread : n.electionThread = .electionPass)
      (hfree : n.mutexFree = true) :
      Step N n .electionRestart n.electionSetUp.1 n.electionSetUp.2
  | electionWaitTimeout (hthread : n.electionThread = .electionWait) :
      Step N n .electionWaitTimeout
        { n with electionThread := .appendWait } []
  | voteWake (conditions : List VoteCondition)
      (hthread : n.voteThread = .voteWait) (hnonempty : conditions ≠ [])
      (hnodup : conditions.Nodup)
      (hwake : ∀ c ∈ conditions, n.triggered c.topic = true) :
      Step N n (.voteWake conditions)
        { n with
          collectVotesGuardList := conditions
          voteThread := .voteLap 0 } []
  | voteEnter (guardListIndex : Nat)
      (hthread : n.voteThread = .voteLap guardListIndex)
      (hfree : n.mutexFree = true)
      (hguard : n.collectVotesGuardList[guardListIndex]? =
        some .requestVote) :
      Step N n .voteEnter
        { n.take .requestVote with
          voteThread := endVoteLoop n.collectVotesGuardList guardListIndex
            false (n.unread .requestVote) } []
  | replyEnter (guardListIndex : Nat)
      (hthread : n.voteThread = .voteLap guardListIndex)
      (hfree : n.mutexFree = true)
      (hguard : n.collectVotesGuardList[guardListIndex]? =
        some .requestVoteReply) :
      Step N n .voteEnter
        { n.take .requestVoteReply with
          voteThread := endReplyLoop n.collectVotesGuardList guardListIndex
            (n.unread .requestVoteReply) } []
  | voteStep (guardListIndex : Nat) (voteGranted : Bool)
      (x : Sample ι RequestVote) (batch : List (Sample ι RequestVote))
      (hthread : n.voteThread =
        .voteLoop guardListIndex voteGranted (x :: batch)) :
      Step N n .voteStep
        { n with
          replica := (voteIteration n.replica voteGranted x).1
          voteThread := endVoteLoop n.collectVotesGuardList guardListIndex
            (voteIteration n.replica voteGranted x).2.1 batch }
        ((voteIteration n.replica voteGranted x).2.2.map fun m =>
          ⟨.requestVoteReply, m⟩)
  | replyStep (guardListIndex : Nat) (x : Sample ι RequestVoteReply)
      (batch : List (Sample ι RequestVoteReply)) (r : Replica × Bool)
      (hthread : n.voteThread = .replyLoop guardListIndex (x :: batch))
      (hr : voteReplyIteration N n.replica x = some r) :
      Step N n .replyStep
        { n with
          replica := r.1
          voteThread := endReplyLoop n.collectVotesGuardList guardListIndex
            (if r.2 then [] else batch) } []
  | alarm (harmed : n.replica.timerArmed = true) :
      Step N n .alarm { n with alarms := n.alarms + 1 } []
  | heartbeatBuild (heap : Nat → LogEntry) (m : AppendEntries)
      (halarms : 0 < n.alarms) (hfree : n.mutexFree = true)
      (hm : n.replica.heartbeatMessage heap = some m) :
      Step N n (.heartbeatBuild heap)
        { n with
          alarms := n.alarms - 1
          heartbeats := n.heartbeats ++ [m] } []
  | heartbeatWrite (k : Nat) (m : AppendEntries)
      (hm : n.heartbeats[k]? = some m) :
      Step N n (.heartbeatWrite k)
        { n with
          heartbeats := n.heartbeats.eraseIdx k
          awaitingReplies := n.awaitingReplies + 1 }
        [⟨.appendEntries, m⟩]
  | heartbeatReplies (hawaiting : 0 < n.awaitingReplies)
      (hwake : n.triggered .appendEntriesReply = true)
      (hfree : n.mutexFree = true) :
      Step N n .heartbeatReplies
        { n.take .appendEntriesReply with
          replica := n.replica.handleAppendEntriesReplyMessage
            (n.unread .appendEntriesReply)
          awaitingReplies := n.awaitingReplies - 1 } []
  | heartbeatTimeout (hawaiting : 0 < n.awaitingReplies) :
      Step N n .heartbeatTimeout
        { n with awaitingReplies := n.awaitingReplies - 1 } []
  | input (batch : List (Sample ι Input)) (hfree : n.mutexFree = true) :
      Step N n (.input batch)
        { n with replica := n.replica.mainInputLap batch } []

theorem step_cases {N : Nat} {n n' : Node ι} {a : Action ι}
    {out : List Publication} (h : n.step N a = some (n', out)) :
    Step N n a n' out := by
  cases a with
  | deliver t k =>
      obtain ⟨x, hx, heq⟩ := Option.map_eq_some_iff.mp h
      cases heq
      exact .deliver t k x hx
  | dispose t x =>
      simp only [Node.step, Node.dispose] at h
      split at h <;> cases h
      rename_i hx
      exact .dispose t x (by simpa using hx)
  | appendWake =>
      simp only [Node.step, Node.appendWake, Bool.and_eq_true] at h
      repeat' split at h
      all_goals cases h
      rename_i hthread hwake
      exact .appendWake hthread hwake.1 hwake.2
  | appendStep =>
      simp only [Node.step, Node.appendStep] at h
      split at h <;> cases h
      exact .appendStep _ _ ‹_›
  | electionTimeout =>
      simp only [Node.step, Node.electionTimeout] at h
      repeat' split at h
      all_goals cases h
      · rename_i hthread hfree hrole
        refine .leaderTimeout hthread hfree ?_
        cases hr : n.replica.role <;> simp_all
      · rename_i hthread hfree hrole
        refine .electionTimeout hthread hfree ?_
        intro hr
        simp [hr] at hrole
  | electionWake =>
      simp only [Node.step, Node.electionWake] at h
      repeat' split at h
      all_goals cases h
      exact .electionWake ‹_› ‹_›
  | electionTake =>
      simp only [Node.step, Node.electionTake, Bool.or_eq_true,
        List.isEmpty_iff] at h
      repeat' split at h
      all_goals cases h
      exact .electionTake _ _ ‹_› ‹_›
  | electionSkip =>
      simp only [Node.step, Node.electionSkip] at h
      repeat' split at h
      all_goals cases h
      exact .electionSkip _ _ ‹_› ‹_›
  | electionStep =>
      simp only [Node.step, Node.electionStep] at h
      split at h <;> cases h
      exact .electionStep _ _ _ _ ‹_›
  | electionRestart =>
      simp only [Node.step, Node.electionRestart] at h
      repeat' split at h
      all_goals cases h
      exact .electionRestart ‹_› ‹_›
  | electionWaitTimeout =>
      simp only [Node.step, Node.electionWaitTimeout] at h
      split at h <;> cases h
      exact .electionWaitTimeout ‹_›
  | voteWake conditions =>
      simp only [Node.step, Node.voteWake] at h
      repeat' split at h
      all_goals cases h
      rename_i hthread hwake
      exact .voteWake conditions hthread hwake.1 hwake.2.1 hwake.2.2
  | voteEnter =>
      simp only [Node.step, Node.voteEnter] at h
      repeat' split at h
      all_goals cases h
      · exact .voteEnter _ ‹_› ‹_› ‹_›
      · exact .replyEnter _ ‹_› ‹_› ‹_›
  | voteStep =>
      simp only [Node.step, Node.voteStep] at h
      split at h <;> cases h
      exact .voteStep _ _ _ _ ‹_›
  | replyStep =>
      simp only [Node.step, Node.replyStep] at h
      split at h
      · obtain ⟨r, hr, heq⟩ := Option.map_eq_some_iff.mp h
        cases heq
        exact .replyStep _ _ _ r ‹_› hr
      · cases h
  | alarm =>
      simp only [Node.step, Node.alarm] at h
      split at h <;> cases h
      exact .alarm ‹_›
  | heartbeatBuild heap =>
      simp only [Node.step, Node.heartbeatBuild] at h
      split at h
      · obtain ⟨m, hm, heq⟩ := Option.map_eq_some_iff.mp h
        cases heq
        rename_i hpos
        exact .heartbeatBuild heap m hpos.1 hpos.2 hm
      · cases h
  | heartbeatWrite k =>
      obtain ⟨m, hm, heq⟩ := Option.map_eq_some_iff.mp h
      cases heq
      exact .heartbeatWrite k m hm
  | heartbeatReplies =>
      simp only [Node.step, Node.heartbeatReplies] at h
      split at h <;> cases h
      rename_i hpos
      exact .heartbeatReplies hpos.1 hpos.2.1 hpos.2.2
  | heartbeatTimeout =>
      simp only [Node.step, Node.heartbeatTimeout] at h
      split at h <;> cases h
      exact .heartbeatTimeout ‹_›
  | input batch =>
      simp only [Node.step, Node.input] at h
      split at h <;> cases h
      exact .input batch ‹_›

/-- The conditions of a branch are enough to take it. -/
theorem Step.step_eq {N : Nat} {n n' : Node ι} {a : Action ι}
    {out : List Publication} (h : Step N n a n' out) :
    n.step N a = some (n', out) := by
  cases h with
  | electionTimeout hthread hfree hrole =>
      have hloser : ¬ (n.replica.role ≠ .follower ∧
          n.replica.role ≠ .candidate) := by
        cases hr : n.replica.role <;> simp_all
      simp [Node.step, Node.electionTimeout, hthread, hfree, hloser]
  | _ =>
      simp_all [Node.step, Node.deliver, Node.dispose, Node.appendWake,
        Node.appendStep, Node.electionTimeout, Node.electionWake,
        Node.electionTake, Node.electionSkip, Node.electionStep,
        Node.electionRestart, Node.electionWaitTimeout, Node.voteWake,
        Node.voteEnter, Node.voteStep, Node.replyStep, Node.alarm,
        Node.heartbeatBuild, Node.heartbeatWrite, Node.heartbeatReplies,
        Node.heartbeatTimeout, Node.input]

end RevPiRaft.Ports.StepInversion
