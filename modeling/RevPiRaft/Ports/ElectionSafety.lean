import RevPiRaft.Ports.OneVote
import RevPiRaft.Ports.VoteCounting

/-!
# Election safety

Two leaders of one term would have majorities behind them, and a voter in both
would have had two votes on record in that term.  The three ways the code loses
track of votes each break this: the own reply that is counted, the granted flag
that outlives its request, and the vote that a role change forgets.
-/

namespace RevPiRaft.Ports.ElectionSafety

open RevPiRaft.Verified.Election
open RevPiRaft.Ports.Cluster
open RevPiRaft.Ports.History
open RevPiRaft.Ports.TermMonotone
open RevPiRaft.Ports.OneVote
open RevPiRaft.Ports.VoteCounting

variable {ι : Type} [DecidableEq ι] {cfg : Config ι} {run : Execution cfg}

/-- At most one replica becomes leader in a term. -/
def OneLeaderPerTerm (run : Execution cfg) : Prop :=
  ∀ i j r r' t, run.BecomesLeader i r t → run.BecomesLeader j r' t → r = r'

/-- The votes of a term elect every replica that becomes leader in it. -/
theorem leader_elected [Fintype ι] (hcfg : Deployed cfg)
    (hwrap : NoTermWrap run) (hown : NoOwnReply run)
    (hsticky : NoStickyGrant run) {i : Nat} {r : ι} {t : UInt32}
    (hleader : run.BecomesLeader i r t) :
    Elects (fun v c => Voted run run.length c t v) r := by
  obtain ⟨voters, -, hmost, hvoted⟩ :=
    leader_backing hcfg hwrap hown hsticky hleader
  refine ⟨voters, by rw [hcfg.card]; exact hmost, fun v hv => ?_⟩
  exact (hvoted v hv).mono hleader.1

/-- Election safety holds in every run in which no candidate counts its own
reply, no granted flag reaches a later, refused request and no replica votes
again after it has cleared its own vote. -/
theorem election_safety [Fintype ι] (hcfg : Deployed cfg)
    (run : Execution cfg) (hwrap : NoTermWrap run) (hown : NoOwnReply run)
    (hsticky : NoStickyGrant run) (hrevote : NoRevote run) :
    OneLeaderPerTerm run := by
  intro i j r r' t hr hr'
  have hone : ∀ v c d, Voted run run.length c t v →
      Voted run run.length d t v → c = d := by
    rintro v c d ⟨k, hk, hkterm, hkvote⟩ ⟨l, hl, hlterm, hlvote⟩
    have hsame := votes_agree hwrap hrevote v k l hk hl
      (hkterm.trans hlterm.symm) (by rw [hkvote]; exact hcfg.ID_ne c)
      (by rw [hlvote]; exact hcfg.ID_ne d)
    rw [hkvote, hlvote] at hsame
    exact hcfg.distinct hsame
  exact (leader_elected hcfg hwrap hown hsticky hr).unique hone
    (leader_elected hcfg hwrap hown hsticky hr')

/-- Replica 2 is elected by replica 0 in term 1, replica 1 afterwards in
term 2. -/
def twoElections : Execution threeReplicas where
  labels := electReplica2 ++ replica1Candidate ++
    [(0, .deliver .requestVote 1)] ++ handleRequests 0 1 ++
    [(1, .deliver .requestVoteReply 1)] ++ handleReplies 1 1
  executes := by decide +kernel

/-- The hypotheses hold of a run with a leader in each of two terms. -/
theorem election_safety_twoElections :
    (∃ j, twoElections.BecomesLeader j 1 2) ∧
      ∀ j r, twoElections.BecomesLeader j r 1 → r = 2 := by
  have hleader : twoElections.BecomesLeader 8 2 1 := by decide +kernel
  have hleader' : twoElections.BecomesLeader 19 1 2 := by decide +kernel
  refine ⟨⟨19, hleader'⟩, fun j r hr => ?_⟩
  exact election_safety threeReplicas_deployed twoElections
    (noTermWrap_of_terms (by decide +kernel))
    (noOwnReply_of_batches (by decide +kernel))
    (noStickyGrant_of_flags (by decide +kernel))
    (noRevote_of_states (by decide +kernel)) j 8 r 2 1 hr hleader

/-- Replicas 1 and 2 are candidates of term 1, take both requests, and each
counts the granted replies it has written for its own request. -/
def twoLeaders : Execution threeReplicas where
  labels := [(1, .electionTimeout), (2, .electionTimeout)] ++
    arrivals 1 .requestVote 2 ++ handleRequests 1 2 ++
    arrivals 2 .requestVote 2 ++ handleRequests 2 2 ++
    arrivals 1 .requestVoteReply 3 ++ handleReplies 1 1 ++
    arrivals 2 .requestVoteReply 4 ++ handleReplies 2 4
  executes := by decide +kernel

theorem twoLeaders_not_oneLeaderPerTerm : ¬ OneLeaderPerTerm twoLeaders := by
  intro h
  have hsame := h 19 29 1 2 1 (by decide +kernel) (by decide +kernel)
  exact absurd hsame (by decide)

end RevPiRaft.Ports.ElectionSafety
