import RevPiRaft.Ports.TermMonotone
import RevPiRaft.Ports.Mutex

/-!
# The role and its outward signs

`become_leader` and `become_follower` set the role, the heartbeat timer and the
two digital outputs together.  An election set-up sets only the role.  The
signs agree with the role as long as no set-up runs on a leader, and they
disagree right after one that does.
-/

namespace RevPiRaft.Ports.OutwardSigns

open RevPiRaft.Ports.Datamodel
open RevPiRaft.Ports.ReplicaCore
open RevPiRaft.Ports.Events
open RevPiRaft.Ports.Reactions
open RevPiRaft.Ports.Cluster
open RevPiRaft.Ports.History
open RevPiRaft.Ports.Mutex
open Execution

/-- The timer is armed exactly on a leader, and the outputs show the role. -/
def Signs (s : Replica) : Prop :=
  (s.timerArmed = true ↔ s.role = .leader) ∧
    (s.O1, s.O2) = if s.role = .leader then (false, true) else (true, false)

instance (s : Replica) : Decidable (Signs s) := by
  unfold Signs
  infer_instance

theorem signs_becomeFollower (s : Replica) (term : UInt32) :
    Signs (s.becomeFollower term) := by
  simp [Signs]

/-- Every event but an election set-up keeps the signs in step. -/
theorem React.signs {ι : Type} {N : Nat} {s s' : Replica} {e : Event ι}
    {out : List Publication} (h : React N s e s' out) (hs : Signs s)
    (hstart : e = .start → s.role ≠ .leader) : Signs s' := by
  cases h with
  | start =>
      have hrole := hstart rfl
      simpa [Signs, hrole] using hs
  | appendNewer | appendStepDown | electionNewer | electionStepDown
  | replyNewer => exact signs_becomeFollower _ _
  | voteNewer => simp [Signs]
  | replyWon x t hx hrole =>
      rw [Replica.becomeLeader_of_ne (by simp [hrole])]
      simp [Signs]
  | voteGrant | replyCounted | input => simpa [Signs] using hs
  | _ => exact hs

variable {ι : Type} [DecidableEq ι] {cfg : Config ι} {run : Execution cfg}

/-- The signs agree with the role outside the critical sections. -/
def SignsAgree (run : Execution cfg) : Prop :=
  ∀ i r, i ≤ run.length → (run.node i r).mutexFree = true →
    Signs (run.replica i r)

/-- The signs agree with the role throughout a run exactly when no election
set-up of the run starts on a leader. -/
theorem signs_agree_iff (run : Execution cfg) :
    SignsAgree run ↔
      ∀ i r, run.Occurs i r .start → (run.replica i r).role ≠ .leader := by
  constructor
  · intro h i r he hrole
    obtain ⟨hbefore, hafter⟩ := start_mutexFree he
    have hold := h i r (Nat.le_of_lt he.lt) hbefore
    have hnew := h (i + 1) r he.lt hafter
    have hreact := he.react
    generalize run.replica (i + 1) r = s' at hreact hnew
    generalize run.output i = out at hreact
    cases hreact with
    | start => simp [Signs, hrole] at hold hnew; simp [hold] at hnew
  · intro h i r hi _
    refine replica_invariant r (signs_becomeFollower _ _) ?_ i hi
    intro i e he hreact hs
    refine React.signs hreact hs ?_
    rintro rfl
    exact h i r he

/-- Replica 2 leads term 1 and publishes a heartbeat.  Replica 1 wins term 2
while it waits in `run_leader_election`; the old heartbeat then ends its wait
without ending the election, and the next pass makes the leader a candidate. -/
def leaderCandidacy : Execution threeReplicas where
  labels := electReplica2 ++
    [(2, .alarm), (2, .heartbeatBuild fun _ => ⟨0, 0⟩),
      (2, .heartbeatWrite 0)] ++
    replica1Candidate ++ [(0, .deliver .requestVote 1)] ++
    handleRequests 0 1 ++ [(1, .deliver .requestVoteReply 1)] ++
    handleReplies 1 1 ++
    [(1, .deliver .appendEntries 0), (1, .electionWake), (1, .electionTake),
      (1, .electionStep), (1, .electionRestart)]
  executes := by decide +kernel

/-- At its end replica 1 is a candidate with the signs of a leader. -/
theorem leaderCandidacy_not_signsAgree : ¬ SignsAgree leaderCandidacy := by
  intro h
  have hsigns := h leaderCandidacy.length 1 (Nat.le_refl _)
    (by decide +kernel)
  revert hsigns
  decide +kernel

end RevPiRaft.Ports.OutwardSigns
