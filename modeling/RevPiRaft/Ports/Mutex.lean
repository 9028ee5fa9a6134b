import RevPiRaft.Ports.History

/-!
# Mutual exclusion of the two loops

At most one of the election thread and the vote thread is inside a loop, so
nothing but the loop itself changes the replica between two iterations.  This
carries the flag `voteGranted` of `handle_vote_message`: while it is set, the
replica has a vote on record.
-/

namespace RevPiRaft.Ports.Mutex

open RevPiRaft.Ports.Datamodel
open RevPiRaft.Ports.ReplicaCore
open RevPiRaft.Ports.LeaderElection
open RevPiRaft.Ports.Process
open RevPiRaft.Ports.StepInversion
open RevPiRaft.Ports.Events
open RevPiRaft.Ports.Reactions
open RevPiRaft.Ports.Pending
open RevPiRaft.Ports.Cluster
open RevPiRaft.Ports.History
open Execution

section Step

variable {ι : Type} {N : Nat} {n n' : Node ι} {a : Action ι}
  {out : List Publication}

/-- One of the two threads is outside its loops. -/
def Exclusive (n : Node ι) : Prop :=
  n.electionThread.unlocked = true ∨ n.voteThread.unlocked = true

theorem mutexFree_iff (n : Node ι) :
    n.mutexFree = true ↔
      n.electionThread.unlocked = true ∧ n.voteThread.unlocked = true :=
  Bool.and_eq_true_iff

theorem endElectionLap_unlocked (g : List VoteCondition) (k : Nat) (f : Bool) :
    (endElectionLap g k f : ElectionThread ι).unlocked = true := by
  unfold endElectionLap
  repeat' split
  all_goals rfl

theorem exclusive_step (h : n.step N a = some (n', out))
    (hn : Exclusive n) : Exclusive n' := by
  cases step_cases h with
  | appendWake _ _ hfree => exact .inr ((mutexFree_iff n).mp hfree).2
  | appendStep x b hthread =>
      exact .inr (hn.resolve_left (by simp [hthread, ElectionThread.unlocked]))
  | electionTake k f hthread hfree =>
      rcases hfree with hempty | hfree
      · exact .inl (by simp [hempty, endElectionLoop, endElectionLap_unlocked])
      · exact .inr ((mutexFree_iff n).mp hfree).2
  | electionStep k f x b hthread =>
      exact .inr (hn.resolve_left (by simp [hthread, ElectionThread.unlocked]))
  | electionSkip => exact .inl (endElectionLap_unlocked _ _ _)
  | electionTimeout | electionWake | electionRestart
  | electionWaitTimeout => exact .inl rfl
  | voteWake => exact .inr rfl
  | voteEnter k hthread hfree | replyEnter k hthread hfree =>
      exact .inl ((mutexFree_iff n).mp hfree).1
  | voteStep k g x b hthread | replyStep k x b r hthread =>
      exact .inl (hn.resolve_right (by simp [hthread, VoteThread.unlocked]))
  | _ => exact hn

theorem electionSetUp_mutexFree (h : n.mutexFree = true) :
    n.electionSetUp.1.mutexFree = true :=
  (mutexFree_iff _).mpr ⟨rfl, ((mutexFree_iff n).mp h).2⟩

/-- An election set-up starts and ends outside the loops. -/
theorem step_start_mutexFree (h : n.step N a = some (n', out))
    (hevent : event n a = .start) :
    n.mutexFree = true ∧ n'.mutexFree = true := by
  revert hevent
  cases step_cases h with
  | electionTimeout hthread hfree | electionRestart hthread hfree =>
      exact fun _ => ⟨hfree, electionSetUp_mutexFree hfree⟩
  | leaderTimeout hthread hfree =>
      exact fun _ => ⟨hfree, hfree⟩
  | _ =>
      intro hevent
      simp only [event] at hevent
      first
        | cases hevent
        | split at hevent <;> cases hevent

/-- The flag an event of the vote loop starts from is that of its thread. -/
theorem event_granted {x : Sample ι RequestVote}
    (h : event n a = .vote true x) : threadGranted n.voteThread = true := by
  obtain ⟨k, b, hthread⟩ := event_vote h
  rw [hthread]
  rfl

/-- The flag after an iteration was set before, or the iteration granted. -/
theorem voteIteration_granted {s : Replica} {g : Bool}
    {x : Sample ι RequestVote} (h : (voteIteration s g x).2.1 = true) :
    (g = true ∧ (voteIteration s g x).1.votedFor = s.votedFor) ∨
      (x.validData = true ∧ (voteIteration s g x).1.votedFor =
        uint8OfLong x.data.senderID) := by
  cases hx : x.validData with
  | false => exact .inl (by simpa [voteIteration, hx] using h)
  | true =>
      by_cases hterm : s.currentTerm < x.data.term.toUInt32
      · rw [voteIteration_newer g hx hterm]
        exact .inr ⟨rfl, rfl⟩
      · by_cases hvote : grantsVote s x.data.term.toUInt32
          (uint8OfLong x.data.senderID)
        · rw [voteIteration_grant g hx hvote.1 hvote.2]
          exact .inr ⟨rfl, rfl⟩
        · rw [voteIteration_refuse g hx (UInt32.not_lt.mp hterm) hvote] at h ⊢
          exact .inl ⟨h, rfl⟩

/-- While `voteGranted` is set, only a grant changes the recorded vote. -/
theorem granted_step (h : n.step N a = some (n', out)) (hn : Exclusive n)
    (hg : threadGranted n'.voteThread = true) :
    (threadGranted n.voteThread = true ∧
      n'.replica.votedFor = n.replica.votedFor) ∨
    ∃ g x, event n a = .vote g x ∧ x.validData = true ∧
      n'.replica.votedFor = uint8OfLong x.data.senderID := by
  have hlocked : ∀ t : VoteThread ι, threadGranted t = true →
      t.unlocked = false := by
    intro t ht
    cases t <;> first | rfl | cases ht
  cases step_cases h with
  | appendStep x b hthread | electionStep k f x b hthread =>
      have hvote := hn.resolve_left
        (by simp [hthread, ElectionThread.unlocked])
      rw [hlocked _ hg] at hvote
      cases hvote
  | electionTimeout hthread hfree | electionRestart hthread hfree =>
      have hvote := ((mutexFree_iff n).mp hfree).2
      have hlock : n.voteThread.unlocked = false := hlocked _ hg
      rw [hlock] at hvote
      cases hvote
  | voteWake => cases hg
  | voteEnter k => exact absurd (granted_endVoteLoop _ _ _ _ hg) (by simp)
  | replyEnter k | replyStep k => simp at hg
  | voteStep k g x b hthread =>
      have hflag := granted_endVoteLoop _ _ _ _ hg
      rcases voteIteration_granted hflag with ⟨hold, hvote⟩ | ⟨hx, hvote⟩
      · exact .inl ⟨by rw [hthread]; exact hold, hvote⟩
      · exact .inr ⟨g, x, by simp [event, hthread], hx, hvote⟩
  | input batch => exact .inl ⟨hg, by simp⟩
  | _ => exact .inl ⟨hg, rfl⟩

end Step

/-! ## Along a run -/

variable {ι : Type} [DecidableEq ι] {cfg : Config ι} {run : Execution cfg}

theorem exclusive {i : Nat} (hi : i ≤ run.length) (r : ι) :
    Exclusive (run.node i r) :=
  node_invariant r (.inl rfl) (fun _ _ _ _ hstep hn => exclusive_step hstep hn)
    (fun _ _ _ hn => hn) i hi

theorem start_mutexFree {i : Nat} {r : ι} (he : run.Occurs i r .start) :
    (run.node i r).mutexFree = true ∧
      (run.node (i + 1) r).mutexFree = true := by
  obtain ⟨a, hlabel, hevent⟩ := he
  obtain ⟨n, hstep, hnode⟩ := step_node hlabel
  have hfree := step_start_mutexFree hstep hevent
  refine ⟨hfree.1, ?_⟩
  rw [hnode r, if_pos rfl, mutexFree_iff, (offers_control _ _ _).2.1,
    (offers_control _ _ _).2.2.1, ← mutexFree_iff]
  exact hfree.2

end RevPiRaft.Ports.Mutex
