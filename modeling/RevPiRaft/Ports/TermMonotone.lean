import RevPiRaft.Ports.History

/-!
# Terms of a run

`become_follower` assigns its argument without comparing it, and
`handle_vote_reply_message` compares a reply with `election_term` rather than
with `current_term`.  A candidate or leader has `election_term` equal to
`current_term` (`electionTerm_eq`), so every assignment still moves forward as
long as no election starts in the last term.
-/

namespace RevPiRaft.Ports.TermMonotone

open RevPiRaft.Ports.Datamodel
open RevPiRaft.Ports.ReplicaCore
open RevPiRaft.Ports.LeaderElection
open RevPiRaft.Ports.Events
open RevPiRaft.Ports.Reactions
open RevPiRaft.Ports.Cluster
open RevPiRaft.Ports.History
open Execution

/-! ## One event -/

section React

variable {ι : Type} {N : Nat} {s s' : Replica} {e : Event ι}
  {out : List Publication}

/-- `election_term` of a candidate or leader is its `current_term`. -/
def Candidacy (s : Replica) : Prop :=
  s.role ≠ .follower → s.electionTerm = some s.currentTerm

theorem Candidacy.isSome {s : Replica} (hs : Candidacy s)
    (hrole : s.role = .candidate) : s.electionTerm.isSome = true := by
  rw [hs (by simp [hrole])]
  rfl

theorem React.candidacy (h : React N s e s' out) (hs : Candidacy s) :
    Candidacy s' := by
  intro hrole
  cases h with
  | start => simp
  | voteNewer => simp at hrole
  | voteGrant => simpa using hs (by simpa using hrole)
  | replyCounted x t hx hcandidate => exact hs (by simp [hcandidate])
  | replyWon x t hx hcandidate =>
      simpa using hs (by simp [hcandidate])
  | input => simpa using hs (by simpa using hrole)
  | appendNewer | appendStepDown | electionNewer | electionStepDown
  | replyNewer => simp at hrole
  | _ => exact hs hrole

theorem React.ID_eq (h : React N s e s' out) : s'.ID = s.ID := by
  cases h <;> simp

/-- The last value of `current_term`. -/
def lastTerm : UInt32 := 4294967295

theorem UInt32.lt_succ {t : UInt32} (h : t ≠ lastTerm) : t < t + 1 := by
  unfold lastTerm at h
  grind

/-- No event decreases `current_term` unless an election wraps it. -/
theorem React.term_le (h : React N s e s' out) (hs : Candidacy s)
    (hwrap : e = .start → s.currentTerm ≠ lastTerm) :
    s.currentTerm ≤ s'.currentTerm := by
  cases h with
  | start => simpa using UInt32.le_of_lt (UInt32.lt_succ (hwrap rfl))
  | appendNewer x hx hterm | electionNewer f x hx hterm
  | voteNewer g x hx hterm => simpa using UInt32.le_of_lt hterm
  | replyNewer x t hx hrole helection hterm =>
      have ht : t = s.currentTerm := by
        simpa [helection] using hs (by simp [hrole])
      rw [ht] at hterm
      simpa using UInt32.le_of_lt hterm
  | _ => simp

end React

variable {ι : Type} [DecidableEq ι] {cfg : Config ι} {run : Execution cfg}

/-- No replica starts an election in the last term. -/
def NoTermWrap (run : Execution cfg) : Prop :=
  ∀ i r, run.Occurs i r .start → (run.replica i r).currentTerm ≠ lastTerm

/-- A run that never reaches the last term starts no election in it. -/
theorem noTermWrap_of_terms (h : ∀ i < run.length, ∀ r,
    (run.replica i r).currentTerm ≠ lastTerm) : NoTermWrap run :=
  fun i r he => h i he.lt r

theorem candidacy {i : Nat} (hi : i ≤ run.length) (r : ι) :
    Candidacy (run.replica i r) :=
  replica_invariant r (fun h => absurd rfl h)
    (fun _ _ _ hreact hs => React.candidacy hreact hs) i hi

theorem ID_eq {i : Nat} (hi : i ≤ run.length) (r : ι) :
    (run.replica i r).ID = cfg.ID r :=
  replica_invariant (P := fun s => s.ID = cfg.ID r) r rfl
    (fun _ _ _ hreact hs => (React.ID_eq hreact).trans hs) i hi

theorem term_le_succ (hwrap : NoTermWrap run) {i : Nat} (hi : i < run.length)
    (r : ι) :
    (run.replica i r).currentTerm ≤ (run.replica (i + 1) r).currentTerm := by
  obtain ⟨r', e, he⟩ := exists_occurs hi
  by_cases hr : r = r'
  · subst hr
    refine React.term_le he.react (candidacy (Nat.le_of_lt hi) r) ?_
    rintro rfl
    exact hwrap i r he
  · rw [he.frame hr]
    exact UInt32.le_refl _

/-- `current_term` never decreases. -/
theorem term_le (hwrap : NoTermWrap run) {i j : Nat} (hij : i ≤ j)
    (hj : j ≤ run.length) (r : ι) :
    (run.replica i r).currentTerm ≤ (run.replica j r).currentTerm :=
  run.monotone (fun w => (w.node r).replica.currentTerm) UInt32.le_refl
    (fun _ _ _ => UInt32.le_trans)
    (fun _ hi => term_le_succ hwrap hi r) i j hij hj

/-- A publication never carries a term above the publisher's. -/
theorem published_term_le (hwrap : NoTermWrap run) {i : Nat} {r : ι}
    {p : Publication} (hp : run.Publishes i r p) {j : Nat} (hij : i < j)
    (hj : j ≤ run.length) :
    p.term ≤ (run.replica j r).currentTerm := by
  obtain ⟨e, he, hmem⟩ := hp.occurs
  refine UInt32.le_trans ?_ (term_le hwrap hij hj r)
  cases published_cases he.react hmem with
  | requestVote | appendReply | voteGranted | voteRefused =>
      simp [Publication.term, Topic.term, appendReply, voteReply,
        Replica.appendEntriesReplyMessage, requestVoteMessage,
        requestVoteReplyMessage]
  | heartbeat m =>
      obtain ⟨k, hk, heap, hbuild, hm⟩ := write_built he
      have hterm : Publication.term ⟨.appendEntries, m⟩ =
          (run.replica k r).currentTerm :=
        Replica.heartbeatMessage_term hm
      rw [hterm]
      exact term_le hwrap (by omega) (by omega) r

/-- A `RequestVote` is published by an election set-up, in its new term. -/
theorem requestVote_start {i : Nat} {r : ι} {m : RequestVote}
    (hp : run.Publishes i r ⟨.requestVote, m⟩) :
    run.Occurs i r .start ∧ m.term.toUInt32 =
      (run.replica (i + 1) r).currentTerm ∧
      m.senderID = longOfUInt8 (cfg.ID r) := by
  obtain ⟨e, he, hmem⟩ := hp.occurs
  cases published_cases he.react hmem with
  | requestVote hvote =>
      rw [ID_eq he.lt r] at hvote
      exact ⟨he, by simp [requestVoteMessage],
        by simp [requestVoteMessage, hvote]⟩

/-- An election set-up moves to a new term. -/
theorem start_lt (hwrap : NoTermWrap run) {i : Nat} {r : ι}
    (he : run.Occurs i r .start) :
    (run.replica i r).currentTerm < (run.replica (i + 1) r).currentTerm := by
  have hreact := he.react
  generalize run.replica (i + 1) r = s', run.output i = out at hreact
  cases hreact with
  | start => simpa using UInt32.lt_succ (hwrap i r he)

/-- Two set-ups of one replica are in different terms. -/
theorem start_injective (hwrap : NoTermWrap run) {i j : Nat} {r : ι}
    (hi : run.Occurs i r .start) (hj : run.Occurs j r .start)
    (hterm : (run.replica (i + 1) r).currentTerm =
      (run.replica (j + 1) r).currentTerm) : i = j := by
  have hlt : ∀ {k l}, run.Occurs k r .start → run.Occurs l r .start → k < l →
      (run.replica (k + 1) r).currentTerm <
        (run.replica (l + 1) r).currentTerm :=
    fun _ hl hkl => UInt32.lt_of_le_of_lt
      (term_le hwrap hkl (Nat.le_of_lt hl.lt) r) (start_lt hwrap hl)
  rcases Nat.lt_trichotomy i j with hij | hij | hij
  · exact absurd (hterm ▸ hlt hi hj hij) (UInt32.lt_irrefl _)
  · exact hij
  · exact absurd (hterm ▸ hlt hj hi hij) (UInt32.lt_irrefl _)

/-- Monotone terms: every replica's term only grows, by every election set-up
strictly, and bounds the terms of all its publications; so no two set-ups of a
replica publish a `RequestVote` of the same term. -/
theorem term_monotone (run : Execution cfg) (hwrap : NoTermWrap run) :
    (∀ r i j, i ≤ j → j ≤ run.length →
      (run.replica i r).currentTerm ≤ (run.replica j r).currentTerm) ∧
    (∀ r i, run.Occurs i r .start →
      (run.replica i r).currentTerm < (run.replica (i + 1) r).currentTerm) ∧
    (∀ r i j p, run.Publishes i r p → i < j → j ≤ run.length →
      p.term ≤ (run.replica j r).currentTerm) ∧
    (∀ r i j m m', run.Publishes i r ⟨.requestVote, m⟩ →
      run.Publishes j r ⟨.requestVote, m'⟩ → m.term = m'.term →
      i = j ∧ run.output i = [⟨.requestVote, m⟩]) := by
  refine ⟨fun r i j hij hj => term_le hwrap hij hj r,
    fun r i he => start_lt hwrap he,
    fun r i j p hp hij hj => published_term_le hwrap hp hij hj, ?_⟩
  intro r i j m m' hm hm' hterm
  have hi := requestVote_start hm
  have hj := requestVote_start hm'
  have hterms : (run.replica (i + 1) r).currentTerm =
      (run.replica (j + 1) r).currentTerm := by
    rw [← hi.2.1, ← hj.2.1, hterm]
  exact ⟨start_injective hwrap hi.1 hj.1 hterms,
    output_singleton hi.1.react (hi.1.publishes_iff.mp hm).2⟩

/-- Replica 1 gives up its first wait and then its first candidacy. -/
def twoCandidacies : Execution threeReplicas where
  labels := [(1, .electionTimeout), (1, .electionWaitTimeout),
    (1, .electionTimeout)]
  executes := by decide

theorem term_monotone_twoCandidacies :
    (twoCandidacies.replica 2 1).currentTerm <
        (twoCandidacies.replica 3 1).currentTerm ∧
      ∀ j m m', twoCandidacies.Publishes 0 1 ⟨.requestVote, m⟩ →
        twoCandidacies.Publishes j 1 ⟨.requestVote, m'⟩ → m.term = m'.term →
        0 = j :=
  have h := term_monotone twoCandidacies
    (noTermWrap_of_terms (by decide +kernel))
  ⟨h.2.1 1 2 ⟨.electionTimeout, rfl,
      event_electionTimeout (by decide +kernel)⟩,
    fun j m m' hm hm' hterm => (h.2.2.2 1 0 j m m' hm hm' hterm).1⟩

end RevPiRaft.Ports.TermMonotone
