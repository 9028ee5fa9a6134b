import RevPiRaft.Ports.TermMonotone

/-!
# Who may send heartbeats

`send_heartbeat` puts the current term into its message without looking at the
role, and a handler that started under a leader may get the mutex after the
replica has been deposed or has become a candidate again.  `Elected` is what
the replica's own bookkeeping can tell: its last candidacy is of the current
term and has collected a majority.  A handler that builds its message only then
announces a term its replica has won.
-/

namespace RevPiRaft.Ports.Heartbeats

open RevPiRaft.Ports.Datamodel
open RevPiRaft.Ports.ReplicaCore
open RevPiRaft.Ports.Process
open RevPiRaft.Ports.Events
open RevPiRaft.Ports.Reactions
open RevPiRaft.Ports.Cluster
open RevPiRaft.Ports.History
open RevPiRaft.Ports.TermMonotone
open Execution

/-- The last candidacy of the replica has collected a majority of votes; the
vote it counts for itself at the set-up is not enough. -/
def Majority (activeReplicas : Nat) (s : Replica) : Prop :=
  2 ≤ s.votesReceived.toNat ∧ activeReplicas < s.votesReceived.toNat * 2

/-- The last candidacy was in the current term and is won. -/
def Elected (activeReplicas : Nat) (s : Replica) : Prop :=
  s.electionTerm = some s.currentTerm ∧ Majority activeReplicas s

instance (activeReplicas : Nat) (s : Replica) :
    Decidable (Elected activeReplicas s) := by
  unfold Elected Majority
  infer_instance

variable {ι : Type}

/-- A majority is there before the event, or the event wins the election. -/
theorem React.majority {N : Nat} {s s' : Replica} {e : Event ι}
    {out : List Publication} (h : React N s e s' out)
    (hs : Majority N s') :
    (Majority N s ∧ s'.electionTerm = s.electionTerm) ∨
      (s.role ≠ .leader ∧ s'.role = .leader ∧
        s'.electionTerm = s.electionTerm) := by
  cases h with
  | start => exact absurd hs.1 (by simp)
  | replyCounted x t hx hrole helection hcount hfew =>
      exact absurd hs.2 (Nat.not_lt.mpr hfew)
  | replyWon x t hx hrole => exact .inr ⟨by simp [hrole], by simp, by simp⟩
  | input => exact .inl ⟨by simpa [Majority] using hs, by simp⟩
  | _ => exact .inl ⟨hs, rfl⟩

/-- Votes of a candidate: only its own, or more but too few for a majority.
From 510 replicas on, the counter overflows before it reaches a majority. -/
def CandidateVotes (N : Nat) (s : Replica) : Prop :=
  s.role = .candidate → s.votesReceived.toNat = 1 ∨
    (2 ≤ s.votesReceived.toNat ∧ s.votesReceived.toNat * 2 ≤ N) ∨ 510 ≤ N

theorem votesReceived_succ (s : Replica) :
    (s.votesReceived + 1).toNat = (s.votesReceived.toNat + 1) % 256 :=
  UInt8.toNat_add _ _

theorem React.candidateVotes {N : Nat} {s s' : Replica} {e : Event ι}
    {out : List Publication} (h : React N s e s' out)
    (hs : CandidateVotes N s) : CandidateVotes N s' := by
  intro hrole
  cases h with
  | start => exact .inl (by simp)
  | replyCounted x t hx hcandidate helection hcount hfew =>
      have hold := hs hcandidate
      have hsucc := votesReceived_succ s
      have hlt := s.votesReceived.toNat_lt
      simp only
      omega
  | voteGrant | input => simpa using hs (by simpa using hrole)
  | appendNewer | appendStepDown | electionNewer | electionStepDown
  | voteNewer | replyNewer | replyWon => simp at hrole
  | _ => exact hs hrole

/-- A candidate has no majority. -/
theorem CandidateVotes.not_majority {N : Nat} {s : Replica}
    (h : CandidateVotes N s) (hrole : s.role = .candidate) :
    ¬ Majority N s := by
  rintro ⟨htwo, hmost⟩
  have hlt := s.votesReceived.toNat_lt
  rcases h hrole with hone | ⟨-, hfew⟩ | hmany <;> omega

/-- The vote that wins the election is at least the second one. -/
theorem CandidateVotes.majority_succ {N : Nat} {s : Replica}
    (h : CandidateVotes N s) (hrole : s.role = .candidate)
    (hmost : N < (s.votesReceived + 1).toNat * 2) :
    2 ≤ (s.votesReceived + 1).toNat := by
  have hsucc := votesReceived_succ s
  have hlt := s.votesReceived.toNat_lt
  rcases h hrole with hone | ⟨htwo, hfew⟩ | hmany <;> omega

/-- Votes and candidacies change in set-ups and on candidates only. -/
theorem React.votes {N : Nat} {s s' : Replica} {e : Event ι}
    {out : List Publication} (h : React N s e s' out)
    (hstart : e ≠ .start) (hrole : s.role ≠ .candidate) :
    s'.electionTerm = s.electionTerm ∧
      s'.votesReceived = s.votesReceived := by
  cases h with
  | start => exact absurd rfl hstart
  | replyCounted x t hx hcandidate | replyWon x t hx hcandidate =>
      exact absurd hcandidate hrole
  | input => simp
  | _ => exact ⟨rfl, rfl⟩

variable [DecidableEq ι] {cfg : Config ι} {run : Execution cfg}

/-- A majority has been counted by a role change to leader in the term of the
candidacy. -/
theorem majority_becomesLeader {i : Nat} (hi : i ≤ run.length) {r : ι}
    {t : UInt32} (ht : (run.replica i r).electionTerm = some t)
    (hmajority : Majority cfg.activeReplicas (run.replica i r)) :
    ∃ j < i, run.BecomesLeader j r t := by
  refine origin (P := fun i => (run.replica i r).electionTerm = some t ∧
    Majority cfg.activeReplicas (run.replica i r)) ?_ ?_ hi ⟨ht, hmajority⟩
  · rintro ⟨ht, -⟩
    rw [replica_zero] at ht
    cases ht
  · rintro i r' e he ⟨ht, hmajority⟩
    by_cases hr : r = r'
    · subst hr
      rcases React.majority he.react hmajority with ⟨hold, hterm⟩ |
        ⟨hbefore, hafter, hterm⟩
      · exact .inl ⟨hterm ▸ ht, hold⟩
      · have hcandidate : (run.replica i r).role ≠ .follower := by
          obtain ⟨x, u, -, hwon⟩ := React.won he.react hbefore hafter
          simp [hwon.role]
        have hcurrent := candidacy (Nat.le_of_lt he.lt) r hcandidate
        refine .inr ⟨he.lt, hbefore, hafter, ?_⟩
        rw [← hterm, ht] at hcurrent
        exact (Option.some.inj hcurrent).symm
    · rw [he.frame hr] at ht hmajority
      exact .inl ⟨ht, hmajority⟩

theorem candidateVotes {i : Nat} (hi : i ≤ run.length) (r : ι) :
    CandidateVotes cfg.activeReplicas (run.replica i r) :=
  replica_invariant r (fun h => by cases h)
    (fun _ _ _ hreact hs => React.candidateVotes hreact hs) i hi

/-- A replica that has won its current term counts as elected. -/
theorem becomesLeader_elected (hwrap : NoTermWrap run) {i j : Nat}
    (hi : i ≤ run.length) (hj : j < i) {r : ι}
    (hleader : run.BecomesLeader j r (run.replica i r).currentTerm) :
    Elected cfg.activeReplicas (run.replica i r) := by
  revert hj hleader
  refine induction_on (P := fun i => j < i →
    run.BecomesLeader j r (run.replica i r).currentTerm →
    Elected cfg.activeReplicas (run.replica i r)) ?_
    (fun i r' e he ih hj hleader => ?_) i hi
  · intro hj
    omega
  · have hi := Nat.le_of_lt he.lt
    by_cases hji : j = i
    · subst hji
      obtain ⟨x, t, hreply, hwon⟩ := hleader.won
      have hrole : (run.replica (j + 1) r).role ≠ .follower := by
        rw [hleader.2.2.1]
        decide
      have hvotes : (run.replica (j + 1) r).votesReceived =
          (run.replica j r).votesReceived + 1 := by
        rw [hwon.leader]
        simp
      refine ⟨candidacy he.lt r hrole, ?_⟩
      rw [Majority, hvotes]
      exact ⟨(candidateVotes hi r).majority_succ hwon.role hwon.majority,
        hwon.majority⟩
    · by_cases hr : r = r'
      · subst hr
        -- the term has not moved since the win, so neither has the candidacy
        have hterm : (run.replica i r).currentTerm =
            (run.replica (i + 1) r).currentTerm := by
          have hlow := term_le hwrap (show j ≤ i by omega) hi r
          rw [hleader.2.2.2] at hlow
          exact UInt32.le_antisymm (term_le_succ hwrap he.lt r) hlow
        obtain ⟨helection, hmajority⟩ := ih (by omega) (hterm ▸ hleader)
        have hrole : (run.replica i r).role ≠ .candidate := fun hrole =>
          (candidateVotes hi r).not_majority hrole hmajority
        have hstart : e ≠ .start := by
          rintro rfl
          have hlt := start_lt hwrap he
          rw [hterm] at hlt
          exact UInt32.lt_irrefl _ hlt
        obtain ⟨hsame, hvotes⟩ := React.votes he.react hstart hrole
        refine ⟨by rw [hsame, helection, hterm], ?_⟩
        rw [Majority, hvotes]
        exact hmajority
      · rw [he.frame hr] at hleader ⊢
        exact ih (by omega) hleader

/-- A handler that builds a message has been waiting for the mutex. -/
theorem build_alarms {i : Nat} {r : ι} {heap : Nat → LogEntry}
    (he : run.Occurs i r (.build heap)) : 0 < (run.node i r).alarms := by
  obtain ⟨a, hlabel, hevent⟩ := he
  obtain ⟨n, hstep, -⟩ := step_node hlabel
  have ha : a = .heartbeatBuild heap := by
    cases a <;> grind [event]
  subst ha
  simp only [Node.step, Node.heartbeatBuild] at hstep
  split at hstep
  · rename_i hwaiting
    exact hwaiting.1
  · cases hstep

/-- Handlers build on elected replicas if no other replica has one waiting. -/
theorem builds_elected (h : ∀ i < run.length, ∀ r,
    (run.node i r).alarms = 0 ∨
      Elected cfg.activeReplicas (run.replica i r))
    {i : Nat} {r : ι} {heap : Nat → LogEntry}
    (he : run.Occurs i r (.build heap)) :
    Elected cfg.activeReplicas (run.replica i r) := by
  have hwaiting := build_alarms he
  rcases h i he.lt r with hnone | helected
  · omega
  · exact helected

/-- Every published heartbeat carries a term its publisher has won before. -/
def HeartbeatAuthority (run : Execution cfg) : Prop :=
  ∀ i r m, run.Publishes i r ⟨.appendEntries, m⟩ →
    ∃ j < i, run.BecomesLeader j r m.term.toUInt32

/-- Heartbeat authority holds in every run in which handlers build their
messages only on replicas that count as elected; and without term overflow a
replica counts as elected exactly when it has won its current term. -/
theorem heartbeat_authority (run : Execution cfg) :
    ((∀ i r heap, run.Occurs i r (.build heap) →
        Elected cfg.activeReplicas (run.replica i r)) →
      HeartbeatAuthority run) ∧
    (NoTermWrap run → ∀ i r, i ≤ run.length →
      (Elected cfg.activeReplicas (run.replica i r) ↔
        ∃ j < i, run.BecomesLeader j r (run.replica i r).currentTerm)) := by
  refine ⟨fun hbuild i r m hp => ?_, fun hwrap i r hi => ⟨?_, ?_⟩⟩
  · obtain ⟨e, he, hmem⟩ := hp.occurs
    cases published_cases he.react hmem with
    | heartbeat =>
        obtain ⟨k, hk, heap, hbuilt, hm⟩ := write_built he
        obtain ⟨hterm, hmajority⟩ := hbuild k r heap hbuilt
        obtain ⟨j, hj, hleader⟩ :=
          majority_becomesLeader (Nat.le_of_lt hbuilt.lt) hterm hmajority
        rw [Replica.heartbeatMessage_term hm]
        exact ⟨j, by omega, hleader⟩
  · rintro ⟨hterm, hmajority⟩
    exact majority_becomesLeader hi hterm hmajority
  · rintro ⟨j, hj, hleader⟩
    exact becomesLeader_elected hwrap hi hj hleader

/-- What a handler of replica 2 sends while the log is empty and nothing has
been committed; the difference of sizes wraps to a payload of 255. -/
def emptyLogMessage (term : Int32) : AppendEntries :=
  { term := term
    senderID := 0
    prevLogIndex := 0
    prevLogTerm := 0
    entries := List.replicate 255 0 }

/-- Replica 2 leads term 1 and publishes a heartbeat, which reaches
replica 0. -/
def wonHeartbeat : Execution threeReplicas where
  labels := electReplica2 ++ [(2, .alarm),
    (2, .heartbeatBuild fun _ => ⟨0, 0⟩), (2, .heartbeatWrite 0),
    (0, .deliver .appendEntries 0)]
  executes := by decide +kernel

/-- Its handler finds an elected replica, so the heartbeat has authority. -/
theorem heartbeat_authority_wonHeartbeat :
    wonHeartbeat.Publishes 11 2 ⟨.appendEntries, emptyLogMessage 1⟩ ∧
      ∃ j < 11, wonHeartbeat.BecomesLeader j 2 1 := by
  have hpublishes :
      wonHeartbeat.Publishes 11 2 ⟨.appendEntries, emptyLogMessage 1⟩ :=
    ⟨.heartbeatWrite 0, rfl, by decide +kernel⟩
  have helected : ∀ i < wonHeartbeat.length, ∀ r,
      (wonHeartbeat.node i r).alarms = 0 ∨
        Elected threeReplicas.activeReplicas (wonHeartbeat.replica i r) := by
    decide +kernel
  exact ⟨hpublishes, (heartbeat_authority wonHeartbeat).1
    (fun _ _ _ he => builds_elected helected he) 11 2 _ hpublishes⟩

/-- Replica 2 leads term 1 and a handler waits for the mutex.  It then votes
for replica 1 in term 2, and the handler announces that term. -/
def deposedHeartbeat : Execution threeReplicas where
  labels := electReplica2 ++ [(2, .alarm)] ++ replica1Candidate ++
    [(2, .deliver .requestVote 2)] ++ handleRequests 2 1 ++
    [(2, .heartbeatBuild fun _ => ⟨0, 0⟩), (2, .heartbeatWrite 0)]
  executes := by decide +kernel

/-- Its last step publishes a heartbeat of term 2, which nobody has won. -/
theorem deposedHeartbeat_not_authority :
    ¬ HeartbeatAuthority deposedHeartbeat := by
  intro h
  have hpublishes :
      deposedHeartbeat.Publishes 18 2 ⟨.appendEntries, emptyLogMessage 2⟩ :=
    ⟨.heartbeatWrite 0, rfl, by decide +kernel⟩
  obtain ⟨j, hj, hleader⟩ := h 18 2 (emptyLogMessage 2) hpublishes
  have hnone : ∀ j < 18, ¬ deposedHeartbeat.BecomesLeader j 2 2 := by
    decide +kernel
  exact hnone j hj hleader

end RevPiRaft.Ports.Heartbeats
