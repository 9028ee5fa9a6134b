import RevPiRaft.Verified.Runs
import RevPiRaft.Ports.Process

/-!
# The loops as batch functions

A loop over a taken batch is one step per sample in the model of a process.
Here the steps of each loop are put together again: they compute the batch
function that `replica.c` or `leaderElection.c` is, and end where its loop
ends.
-/

namespace RevPiRaft.Ports.Loops

open RevPiRaft.Verified.Runs
open RevPiRaft.Ports.Datamodel
open RevPiRaft.Ports.ReplicaCore
open RevPiRaft.Ports.LeaderElection
open RevPiRaft.Ports.Process

variable {ι : Type} {N : Nat}

/-- One process on its own. -/
def process (N : Nat) (ID : UInt8) : Lts (Node ι) (Action ι) Publication where
  init := Node.start ID
  step := Node.step N

theorem appendLoop_step (ID : UInt8) (n : Node ι) (x : Sample ι AppendEntries)
    (batch : List (Sample ι AppendEntries))
    (h : n.electionThread = endAppendLoop (x :: batch)) :
    (process N ID).step n .appendStep = some
      ({ n with
        replica := (n.replica.appendEntriesIteration x).1
        electionThread := endAppendLoop batch },
      (n.replica.appendEntriesIteration x).2.map fun m =>
        ⟨.appendEntriesReply, m⟩) := by
  simp [process, Node.step, Node.appendStep, h, endAppendLoop]

theorem appendLoop_exec (ID : UInt8) (n : Node ι)
    (batch : List (Sample ι AppendEntries))
    (h : n.electionThread = endAppendLoop batch) :
    (process N ID).exec n (List.replicate batch.length .appendStep) =
      some { n with
        replica := (n.replica.runElectionTimerBatch batch).1
        electionThread := .appendWait } := by
  induction batch generalizing n with
  | nil =>
      have hwait : n.electionThread = .appendWait := h
      rw [← hwait]
      rfl
  | cons x batch ih =>
      rw [List.length_cons, List.replicate_succ, Lts.exec,
        appendLoop_step ID n x batch h]
      exact ih _ rfl

theorem electionLoop_step (ID : UInt8) (n : Node ι) (k : Nat) (f : Bool)
    (x : Sample ι AppendEntries) (batch : List (Sample ι AppendEntries))
    (h : n.electionThread =
      endElectionLoop n.collectVotesGuardList k f (x :: batch)) :
    (process N ID).step n .electionStep = some
      ({ n with
        replica := (electionIteration n.replica f x).1
        electionThread := endElectionLoop n.collectVotesGuardList k
          (electionIteration n.replica f x).2 batch }, []) := by
  simp [process, Node.step, Node.electionStep, h, endElectionLoop]

theorem electionLoop_exec (ID : UInt8) (n : Node ι) (k : Nat) (f : Bool)
    (batch : List (Sample ι AppendEntries))
    (h : n.electionThread =
      endElectionLoop n.collectVotesGuardList k f batch) :
    (process N ID).exec n (List.replicate batch.length .electionStep) =
      some { n with
        replica := (electionBatch n.replica f batch).1
        electionThread := endElectionLap n.collectVotesGuardList k
          (electionBatch n.replica f batch).2 } := by
  induction batch generalizing n f with
  | nil =>
      have hlap : n.electionThread =
          endElectionLap n.collectVotesGuardList k f := h
      rw [electionBatch, ← hlap]
      rfl
  | cons x batch ih =>
      rw [List.length_cons, List.replicate_succ, Lts.exec,
        electionLoop_step ID n k f x batch h]
      exact ih _ _ rfl

theorem voteLoop_exec (ID : UInt8) (n : Node ι) (k : Nat) (g : Bool)
    (batch : List (Sample ι RequestVote))
    (h : n.voteThread = endVoteLoop n.collectVotesGuardList k g batch) :
    (process N ID).exec n (List.replicate batch.length .voteStep) =
      some { n with
        replica := (voteBatch n.replica g batch).1
        voteThread := endVoteLap n.collectVotesGuardList k } := by
  induction batch generalizing n g with
  | nil =>
      have hlap : n.voteThread = endVoteLap n.collectVotesGuardList k := h
      rw [voteBatch, ← hlap]
      rfl
  | cons x batch ih =>
      have hstep : (process N ID).step n .voteStep = some
          ({ n with
            replica := (voteIteration n.replica g x).1
            voteThread := endVoteLoop n.collectVotesGuardList k
              (voteIteration n.replica g x).2.1 batch },
          (voteIteration n.replica g x).2.2.map fun m =>
            ⟨.requestVoteReply, m⟩) := by
        simp [process, Node.step, Node.voteStep, h, endVoteLoop]
      rw [List.length_cons, List.replicate_succ, Lts.exec, hstep]
      exact ih _ _ rfl

/-- The loop over replies may break before the end of its batch. -/
theorem replyLoop_exec (ID : UInt8) (n : Node ι) (k : Nat)
    (batch : List (Sample ι RequestVoteReply)) {s : Replica}
    (h : n.voteThread = endReplyLoop n.collectVotesGuardList k batch)
    (hs : handleVoteReplyMessage N n.replica batch = some s) :
    ∃ m ≤ batch.length,
      (process N ID).exec n (List.replicate m .replyStep) =
        some { n with
          replica := s
          voteThread := endVoteLap n.collectVotesGuardList k } := by
  induction batch generalizing n with
  | nil =>
      have hlap : n.voteThread = endVoteLap n.collectVotesGuardList k := h
      cases hs
      refine ⟨0, Nat.le_refl _, ?_⟩
      rw [← hlap]
      rfl
  | cons x batch ih =>
      obtain ⟨q, hq, hrest⟩ := Option.bind_eq_some_iff.mp hs
      have hstep : (process N ID).step n .replyStep = some
          ({ n with
            replica := q.1
            voteThread := endReplyLoop n.collectVotesGuardList k
              (if q.2 then [] else batch) }, []) := by
        simp [process, Node.step, Node.replyStep, h, endReplyLoop, hq]
      cases hbreak : q.2 with
      | true =>
          simp only [hbreak, if_true, Option.some.injEq] at hrest hstep
          refine ⟨1, by simp, ?_⟩
          rw [List.replicate_one, Lts.exec, hstep, ← hrest]
          rfl
      | false =>
          simp only [hbreak, Bool.false_eq_true, if_false] at hrest hstep
          obtain ⟨m, hm, hexec⟩ := ih
            { n with
              replica := q.1
              voteThread := endReplyLoop n.collectVotesGuardList k batch }
            rfl hrest
          refine ⟨m + 1, by simp [hm], ?_⟩
          rw [List.replicate_succ, Lts.exec, hstep]
          exact hexec

/-- The consuming loops of the five message handlers. -/
inductive Loop where
  | runElectionTimer
  | runLeaderElection
  | handleVoteMessage
  | handleVoteReplyMessage
  | handleAppendEntriesReplyMessage
deriving DecidableEq

/-- The topic whose samples a loop consumes. -/
@[reducible]
def Loop.topic : Loop → Topic
  | .runElectionTimer => .appendEntries
  | .runLeaderElection => .appendEntries
  | .handleVoteMessage => .requestVote
  | .handleVoteReplyMessage => .requestVoteReply
  | .handleAppendEntriesReplyMessage => .appendEntriesReply

/-- Consuming one batch: the replica afterwards, and whether a new election
round has been started.  `run_leader_election` goes on to its next pass unless
a sample has set `election_finished`. -/
def consume (N : Nat) (s : Replica) : (loop : Loop) →
    List (Sample ι loop.topic.Msg) → Option (Replica × Bool)
  | .runElectionTimer, batch => some ((s.runElectionTimerBatch batch).1, false)
  | .runLeaderElection, batch =>
      let r := electionBatch s false batch
      some (if r.2 then (r.1, false) else ((startElection r.1).1, true))
  | .handleVoteMessage, batch => some ((handleVoteMessage s batch).1, false)
  | .handleVoteReplyMessage, batch =>
      (handleVoteReplyMessage N s batch).map fun s => (s, false)
  | .handleAppendEntriesReplyMessage, batch =>
      some (s.handleAppendEntriesReplyMessage batch, false)

/-- The step of a process that is one iteration of the loop. -/
def Loop.iteration : Loop → Action ι
  | .runElectionTimer => .appendStep
  | .runLeaderElection => .electionStep
  | .handleVoteMessage => .voteStep
  | .handleVoteReplyMessage => .replyStep
  | .handleAppendEntriesReplyMessage => .heartbeatReplies

/-- The process is about to walk a batch in the loop, `run_leader_election` in
the last lap of its wake-up. -/
def Holds (n : Node ι) : (loop : Loop) →
    List (Sample ι loop.topic.Msg) → Prop
  | .runElectionTimer, batch => n.electionThread = endAppendLoop batch
  | .runLeaderElection, batch =>
      ∃ k, n.collectVotesGuardList.length ≤ k + 1 ∧
        n.electionThread =
          endElectionLoop n.collectVotesGuardList k false batch ∧
        n.voteThread.unlocked = true
  | .handleVoteMessage, batch =>
      ∃ k, n.voteThread = endVoteLoop n.collectVotesGuardList k false batch
  | .handleVoteReplyMessage, batch =>
      ∃ k, n.voteThread = endReplyLoop n.collectVotesGuardList k batch
  | .handleAppendEntriesReplyMessage, batch =>
      0 < n.awaitingReplies ∧ n.triggered .appendEntriesReply = true ∧
        n.mutexFree = true ∧ n.unread .appendEntriesReply = batch

theorem exec_noRound {S : Lts (Node ι) (Action ι) Publication} {n n' : Node ι}
    {as bs : List (Action ι)} (h : S.exec n as = some n') :
    S.exec n (as ++ if false then bs else []) = some n' := by
  simpa using h

/-- The iterations of a loop, followed by an election set-up where the loop
starts a new round, do to the replica what consuming the batch is. -/
theorem consume_exec (ID : UInt8) (n : Node ι) (loop : Loop)
    (batch : List (Sample ι loop.topic.Msg)) (h : Holds n loop batch)
    {s : Replica} {round : Bool}
    (hs : consume N n.replica loop batch = some (s, round)) :
    ∃ m n', (process N ID).exec n (List.replicate m loop.iteration ++
        if round then [.electionRestart] else []) = some n' ∧
      n'.replica = s := by
  cases loop with
  | runElectionTimer =>
      cases hs
      exact ⟨_, _, exec_noRound (appendLoop_exec ID n batch h), rfl⟩
  | runLeaderElection =>
      obtain ⟨k, hlast, hthread, hunlocked⟩ := h
      have hexec := electionLoop_exec (N := N) ID n k false batch hthread
      have hlap : ¬ k + 1 < n.collectVotesGuardList.length := by omega
      simp only [consume, Option.some.injEq] at hs
      cases hfinished : (electionBatch n.replica false batch).2 with
      | true =>
          simp only [hfinished, if_true, Prod.mk.injEq] at hs
          obtain ⟨rfl, rfl⟩ := hs
          exact ⟨_, _, exec_noRound hexec, rfl⟩
      | false =>
          simp only [hfinished, Bool.false_eq_true, if_false,
            Prod.mk.injEq] at hs
          obtain ⟨rfl, rfl⟩ := hs
          rw [hfinished] at hexec
          have hpass : (endElectionLap n.collectVotesGuardList k false :
              ElectionThread ι) = .electionPass := by
            simp [endElectionLap, hlap]
          rw [hpass] at hexec
          have hrestart := Lts.exec_append (process N ID) n
            (List.replicate batch.length .electionStep) [.electionRestart]
          rw [hexec] at hrestart
          simp only [Option.bind_some, Lts.exec, process, Node.step,
            Node.electionRestart, Node.mutexFree, ElectionThread.unlocked,
            hunlocked, Bool.and_self, if_true] at hrestart
          exact ⟨batch.length, _, hrestart, rfl⟩
  | handleVoteMessage =>
      obtain ⟨k, hthread⟩ := h
      cases hs
      exact ⟨_, _, exec_noRound (voteLoop_exec ID n k false batch hthread), rfl⟩
  | handleVoteReplyMessage =>
      obtain ⟨k, hthread⟩ := h
      obtain ⟨s', hs', heq⟩ := Option.map_eq_some_iff.mp hs
      cases heq
      obtain ⟨m, -, hexec⟩ := replyLoop_exec ID n k batch hthread hs'
      exact ⟨_, _, exec_noRound hexec, rfl⟩
  | handleAppendEntriesReplyMessage =>
      obtain ⟨hawaiting, hwake, hfree, rfl⟩ := h
      cases hs
      have hstep : (process N ID).exec n
          (List.replicate 1 .heartbeatReplies) =
          some { n.take .appendEntriesReply with
            replica := n.replica
            awaitingReplies := n.awaitingReplies - 1 } := by
        simp [Lts.exec, process, Node.step, Node.heartbeatReplies, hawaiting,
          hwake, hfree, Replica.handleAppendEntriesReplyMessage]
      exact ⟨_, _, exec_noRound hstep, rfl⟩

end RevPiRaft.Ports.Loops
