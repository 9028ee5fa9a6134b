import RevPiRaft.Ports.Heartbeats
import RevPiRaft.Ports.VoteDecision
import RevPiRaft.Ports.HeartbeatEntries

/-!
# The bookkeeping of a candidacy

What the other invariants rest on, for one replica among arbitrary publishers: a
candidate is in the term of its candidacy, has voted for itself and has fewer
votes than a majority, and a leader is in the term of its candidacy.  So the
8-bit vote counter does not overflow and `election_term` is not read unset.  The
heartbeat timer is armed where `nextIndex` is assigned, so no handler reads
`nextIndex` unset.

The vote of a candidate stays its own because a recorded vote is given again
only to the same candidate.  This needs an identifier that counts as a recorded
vote: a replica with the identifier `VOTED_NONE` votes for itself and still has
its vote to give (`votedNoneCandidate`).
-/

namespace RevPiRaft.Ports.CandidateState

open RevPiRaft.Verified.Runs
open RevPiRaft.Ports.Datamodel
open RevPiRaft.Ports.ReplicaCore
open RevPiRaft.Ports.LeaderElection
open RevPiRaft.Ports.Process
open RevPiRaft.Ports.StepInversion
open RevPiRaft.Ports.Events
open RevPiRaft.Ports.Reactions
open RevPiRaft.Ports.TermMonotone
open RevPiRaft.Ports.Heartbeats
open RevPiRaft.Ports.Environment
open RevPiRaft.Ports.VoteDecision
open RevPiRaft.Ports.HeartbeatEntries
open scoped RevPiRaft.Ports.Cluster

variable {ι : Type}

/-! ## One event -/

section React

variable {N : Nat} {s s' : Replica} {e : Event ι} {out : List Publication}

/-- A candidate has voted for itself. -/
def OwnVote (s : Replica) : Prop := s.role = .candidate → s.votedFor = s.ID

theorem React.ownVote (h : React N s e s' out) (hID : s.ID ≠ votedNone)
    (hs : OwnVote s) : OwnVote s' := by
  intro hrole
  cases h with
  | start => simp
  | voteGrant g x hx hterm hvote =>
      have hown : s.votedFor = s.ID := hs (by simpa using hrole)
      rw [hown] at hvote
      have hagain : s.ID = uint8OfLong x.data.senderID := hvote.resolve_left hID
      simpa using hagain.symm
  | replyCounted x t hx hcandidate => exact hs hcandidate
  | input => simpa using hs (by simpa using hrole)
  | appendNewer | appendStepDown | electionNewer | electionStepDown
  | voteNewer | replyNewer | replyWon => simp at hrole
  | _ => exact hs hrole

/-- The vote counter is set to one or counts one more. -/
theorem React.votesReceived (h : React N s e s' out) :
    s'.votesReceived = s.votesReceived ∨ s'.votesReceived = 1 ∨
      (s.role = .candidate ∧ s'.votesReceived = s.votesReceived + 1) := by
  cases h with
  | start => exact .inr (.inl rfl)
  | replyCounted x t hx hrole => exact .inr (.inr ⟨hrole, rfl⟩)
  | replyWon x t hx hrole => exact .inr (.inr ⟨hrole, by simp⟩)
  | voteNewer | voteGrant | input => exact .inl (by simp)
  | _ => exact .inl rfl

/-- Only the role change of `become_leader` arms the timer. -/
theorem React.timerArmed (h : React N s e s' out)
    (harmed : s'.timerArmed = true) :
    s.timerArmed = true ∨ (s.role ≠ .leader ∧ s'.role = .leader) := by
  cases h with
  | replyWon x t hx hrole => exact .inr ⟨by simp [hrole], by simp⟩
  | appendNewer | appendStepDown | electionNewer | electionStepDown
  | voteNewer | replyNewer => simp at harmed
  | start | voteGrant | input => exact .inl (by simpa using harmed)
  | _ => exact .inl harmed

/-- `nextIndex` stays assigned, and arming the timer assigns it. -/
theorem React.nextIndex_isSome (h : React N s e s' out) :
    (s.nextIndex.isSome = true → s'.nextIndex.isSome = true) ∧
      (s'.timerArmed = true →
        s.timerArmed = true ∨ s'.nextIndex.isSome = true) := by
  have hnext := React.nextIndex h
  constructor
  · intro hassigned
    rw [hnext]
    split
    · rfl
    · exact hassigned
  · intro harmed
    rcases React.timerArmed h harmed with hold | hwon
    · exact .inl hold
    · rw [hnext, if_pos hwon]
      exact .inr rfl

end React

/-! ## One replica -/

/-- The bookkeeping of a replica. -/
structure Bookkeeping (N : Nat) (s : Replica) : Prop where
  candidateTerm : s.role = .candidate → s.electionTerm = some s.currentTerm
  candidateVote : s.ID ≠ votedNone → s.role = .candidate → s.votedFor = s.ID
  candidateVotes : s.role = .candidate →
    1 ≤ s.votesReceived.toNat ∧ 2 * s.votesReceived.toNat ≤ N
  leaderTerm : s.role = .leader → s.electionTerm = some s.currentTerm

variable {N : Nat} {ID : UInt8}

theorem run_bookkeeping (htwo : 2 ≤ N) (hN : N < 510)
    (run : ReplicaRun ι N ID) {i : Nat} (hi : i ≤ run.length) :
    Bookkeeping N (run.replica i) := by
  have hterm : Candidacy (run.replica i) := ReplicaRun.candidacy hi
  have hvotes : CandidateVotes N (run.replica i) :=
    ReplicaRun.invariant (P := fun _ => CandidateVotes N) (fun h => by cases h)
      (fun _ _ _ hreact hs => React.candidateVotes hreact hs) i hi
  have hvote : (run.replica i).ID ≠ votedNone → OwnVote (run.replica i) :=
    ReplicaRun.invariant (P := fun _ s => s.ID ≠ votedNone → OwnVote s)
      (fun _ h => by cases h)
      (fun _ _ _ hreact hs hID => by
        rw [React.ID_eq hreact] at hID
        exact React.ownVote hreact hID (hs hID)) i hi
  constructor
  · intro hrole
    exact hterm (by simp [hrole])
  · exact hvote
  · intro hrole
    rcases hvotes hrole with hone | ⟨hmore, hfew⟩ | hmany <;> omega
  · intro hrole
    exact hterm (by simp [hrole])

/-! ## The heartbeat handlers -/

/-- A handler starts while the timer is armed. -/
theorem move_alarms {n n' : Node ι} {a : Move ι} {out : List Publication}
    (h : (openProcess N ID).step n a = some (n', out)) :
    n'.alarms ≤ n.alarms ∨ n.replica.timerArmed = true := by
  cases a with
  | offer r p =>
      cases h
      exact .inl (Nat.le_refl _)
  | act a =>
      have hstep : Step N n a n' out := step_cases h
      cases hstep with
      | alarm harmed => exact .inr harmed
      | heartbeatBuild => exact .inl (Nat.sub_le _ _)
      | _ => exact .inl (Nat.le_refl _)

/-- A timer that is armed or has expired has an assigned `nextIndex`. -/
theorem run_nextIndex (run : ReplicaRun ι N ID) {i : Nat}
    (hi : i ≤ run.length)
    (h : (run.replica i).timerArmed = true ∨ 0 < (run.state i).alarms) :
    (run.replica i).nextIndex.isSome = true := by
  revert h
  refine run.induction (P := fun i =>
    (run.replica i).timerArmed = true ∨ 0 < (run.state i).alarms →
      (run.replica i).nextIndex.isSome = true) ?_ ?_ i hi
  · rw [ReplicaRun.replica, Run.state_zero]
    intro h
    rcases h with h | h <;> cases h
  · intro i hi hnext ih h
    obtain ⟨hkept, harmed⟩ := React.nextIndex_isSome (move_react hnext)
    have halarms := move_alarms hnext
    rcases h with h | h
    · rcases harmed h with hold | hset
      · exact hkept (ih (.inl hold))
      · exact hset
    · rcases halarms with hle | harmed
      · exact hkept (ih (.inr (by omega)))
      · exact hkept (ih (.inl harmed))

/-! ## Reachable replicas -/

theorem reachable_bookkeeping (htwo : 2 ≤ N) (hN : N < 510) {n : Node ι}
    (h : (openProcess N ID).Reachable n) : Bookkeeping N n.replica := by
  obtain ⟨run, rfl⟩ := Run.exists_of_reachable h
  exact run_bookkeeping htwo hN run (Nat.le_refl _)

/-- In every reachable state the bookkeeping is right, a move sets the vote
counter to one or counts without overflow, no loop over replies reads an unset
`election_term` and no waiting handler an unset `nextIndex`. -/
theorem candidate_bookkeeping (htwo : 2 ≤ N) (hN : N < 510) {n : Node ι}
    (h : (openProcess N ID).Reachable n) :
    Bookkeeping N n.replica ∧
    (∀ a n' out, (openProcess N ID).step n a = some (n', out) →
      n'.replica.votesReceived = n.replica.votesReceived ∨
        n'.replica.votesReceived = 1 ∨
        n'.replica.votesReceived.toNat =
          n.replica.votesReceived.toNat + 1) ∧
    (∀ x : Sample ι RequestVoteReply,
      (voteReplyIteration N n.replica x).isSome = true) ∧
    (0 < n.alarms →
      ∀ heap, (n.replica.heartbeatMessage heap).isSome = true) := by
  have hbook : Bookkeeping N n.replica := reachable_bookkeeping htwo hN h
  refine ⟨hbook, ?_, voteReplyIteration_isSome fun hrole => ?_, ?_⟩
  · intro a n' out hstep
    rcases React.votesReceived (move_react hstep) with hsame | hone |
      ⟨hrole, hsucc⟩
    · exact .inl hsame
    · exact .inr (.inl hone)
    · rw [hsucc]
      exact .inr (.inr (votes_succ hN (hbook.candidateVotes hrole).2))
  · rw [hbook.candidateTerm hrole]
    rfl
  · intro halarms heap
    obtain ⟨run, rfl⟩ := Run.exists_of_reachable h
    have hnext : (run.state run.length).replica.nextIndex.isSome = true :=
      run_nextIndex run (Nat.le_refl _) (.inr halarms)
    simpa [Replica.heartbeatMessage] using hnext

/-- The candidates of all reachable states decide by the first decisive sample
of a batch of vote replies. -/
theorem reachable_decided (htwo : 2 ≤ N) (hN : N < 510) {n : Node ι}
    (h : (openProcess N ID).Reachable n) (hrole : n.replica.role = .candidate)
    (batch : List (Sample ι RequestVoteReply)) :
    ∃ s', handleVoteReplyMessage N n.replica batch = some s' ∧
      Decided N n.replica batch s' := by
  have hbook : Bookkeeping N n.replica := reachable_bookkeeping htwo hN h
  exact handleVoteReplyMessage_decided hN hrole (hbook.candidateTerm hrole)
    (hbook.candidateVotes hrole).2 batch

/-- Replica 1 starts an election and handles its own request, which has arrived
together with a stale one of replica 2. -/
def ownRequestFirst : ReplicaRun (Fin 3) 3 1 where
  labels :=
    [.act .electionTimeout,
      .offer 1 ⟨.requestVote, { term := 1, senderID := 1 }⟩,
      .offer 2 ⟨.requestVote, { term := 0, senderID := 2 }⟩,
      .act (.deliver .requestVote 0), .act (.deliver .requestVote 0),
      .act (.voteWake [.requestVote]), .act .voteEnter, .act .voteStep]
  executes := by decide +kernel

theorem candidate_bookkeeping_ownRequestFirst :
    (ownRequestFirst.replica 8).role = .candidate ∧
      (ownRequestFirst.replica 8).votedFor = 1 := by
  have hrole : (ownRequestFirst.replica 8).role = .candidate := by
    decide +kernel
  obtain ⟨hbook, -⟩ := candidate_bookkeeping (by decide) (by decide)
    (ownRequestFirst.reachable 8)
  exact ⟨hrole, (hbook.candidateVote (by decide +kernel) hrole).trans
    (by decide +kernel)⟩

/-- In every reachable state a candidate has voted for itself. -/
def CandidatesVoteSelf (ι : Type) (N : Nat) (ID : UInt8) : Prop :=
  ∀ n : Node ι, (openProcess N ID).Reachable n → OwnVote n.replica

/-- The replica with the identifier `VOTED_NONE` is a candidate of term 1 and
handles the request of replica 0 for that term. -/
def votedNoneCandidate : ReplicaRun (Fin 3) 3 votedNone where
  labels :=
    [.act .electionTimeout,
      .offer 0 ⟨.requestVote, { term := 1, senderID := 0 }⟩,
      .act (.deliver .requestVote 0),
      .act (.voteWake [.requestVote]), .act .voteEnter, .act .voteStep]
  executes := by decide +kernel

/-- It gives its vote to replica 0 and stays a candidate. -/
theorem votedNoneCandidate_not_self :
    ¬ CandidatesVoteSelf (Fin 3) 3 votedNone := by
  intro h
  have hown := h _ (votedNoneCandidate.reachable 6)
  revert hown
  unfold OwnVote
  decide +kernel

end RevPiRaft.Ports.CandidateState
