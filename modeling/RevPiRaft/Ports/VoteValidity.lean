import RevPiRaft.Ports.TermMonotone
import RevPiRaft.Ports.Mutex

/-!
# Recorded votes and granted replies

`voted_for` is written by an election set-up, by the vote handler and by the
two role changes, which clear it.  Whoever it names has started an election in
the very term of the replica, and a granted reply names the vote its publisher
has on record when it writes it.
-/

namespace RevPiRaft.Ports.VoteValidity

open RevPiRaft.Ports.Datamodel
open RevPiRaft.Ports.ReplicaCore
open RevPiRaft.Ports.LeaderElection
open RevPiRaft.Ports.Events
open RevPiRaft.Ports.Reactions
open RevPiRaft.Ports.Pending
open RevPiRaft.Ports.Cluster
open RevPiRaft.Ports.History
open RevPiRaft.Ports.TermMonotone
open RevPiRaft.Ports.Mutex
open Execution

/-- The four ways an event can leave `voted_for`: cleared, untouched together
with the term, set to the own identifier, or set to a candidate in the term of
its request. -/
theorem React.votedFor {ι : Type} {N : Nat} {s s' : Replica} {e : Event ι}
    {out : List Publication} (h : React N s e s' out) :
    s'.votedFor = votedNone ∨
      (s'.votedFor = s.votedFor ∧ s'.currentTerm = s.currentTerm) ∨
      (e = .start ∧ s'.votedFor = s.ID) ∨
      ∃ g x, e = .vote g x ∧ x.validData = true ∧
        s'.votedFor = uint8OfLong x.data.senderID ∧
        s'.currentTerm = x.data.term.toUInt32 := by
  cases h with
  | start => exact .inr (.inr (.inl ⟨rfl, rfl⟩))
  | voteNewer g x hx =>
      exact .inr (.inr (.inr ⟨g, x, rfl, hx, rfl, rfl⟩))
  | voteGrant g x hx hterm =>
      exact .inr (.inr (.inr ⟨g, x, rfl, hx, rfl, hterm.symm⟩))
  | appendNewer | appendStepDown | electionNewer | electionStepDown
  | replyNewer => exact .inl rfl
  | replyWon x t hx hrole =>
      rw [Replica.becomeLeader_of_ne (by simp [hrole])]
      exact .inl rfl
  | input => exact .inr (.inl (by simp))
  | _ => exact .inr (.inl ⟨rfl, rfl⟩)

variable {ι : Type} [DecidableEq ι] {cfg : Config ι} {run : Execution cfg}

/-- Within the first `i` steps replica `c` started an election in term `t`. -/
def StartedIn (run : Execution cfg) (i : Nat) (c : ι) (t : UInt32) : Prop :=
  ∃ j < i, run.Occurs j c .start ∧ (run.replica (j + 1) c).currentTerm = t

theorem StartedIn.mono {i j : Nat} {c : ι} {t : UInt32}
    (h : StartedIn run i c t) (hij : i ≤ j) : StartedIn run j c t := by
  obtain ⟨k, hk, hstart⟩ := h
  exact ⟨k, by omega, hstart⟩

/-- A pending request was written by an election set-up of its publisher. -/
theorem request_started {i : Nat} (hi : i ≤ run.length) {r : ι}
    {x : Sample ι RequestVote} (hx : x ∈ run.pending i r .requestVote) :
    StartedIn run i x.publicationHandle x.data.term.toUInt32 ∧
      x.data.senderID = longOfUInt8 (cfg.ID x.publicationHandle) := by
  obtain ⟨j, hj, hp⟩ := mem_pending hi hx
  obtain ⟨hstart, hterm, hsender⟩ := requestVote_start hp
  exact ⟨⟨j, hj, hstart, hterm.symm⟩, hsender⟩

/-- Whoever `voted_for` names has started an election in the same term. -/
theorem votedFor_started {i : Nat} (hi : i ≤ run.length) {r : ι}
    (hvote : (run.replica i r).votedFor ≠ votedNone) :
    ∃ c, cfg.ID c = (run.replica i r).votedFor ∧
      StartedIn run i c (run.replica i r).currentTerm := by
  revert r
  refine induction_on (P := fun i => ∀ {r : ι},
    (run.replica i r).votedFor ≠ votedNone →
    ∃ c, cfg.ID c = (run.replica i r).votedFor ∧
      StartedIn run i c (run.replica i r).currentTerm) ?_
    (fun i r' e he ih r hvote => ?_) i hi
  · intro r hvote
    rw [replica_zero] at hvote
    exact absurd rfl hvote
  · by_cases hr : r = r'
    · subst hr
      rcases React.votedFor he.react with hnone | ⟨hsame, hterm⟩ |
        ⟨hstart, hown⟩ | ⟨g, x, hevent, hx, hcandidate, hterm⟩
      · exact absurd hnone hvote
      · rw [hsame] at hvote
        obtain ⟨c, hc, hstarted⟩ := ih hvote
        rw [hsame, hterm]
        exact ⟨c, hc, hstarted.mono (by omega)⟩
      · subst hstart
        rw [ID_eq (Nat.le_of_lt he.lt)] at hown
        exact ⟨r, hown.symm, i, by omega, he, rfl⟩
      · subst hevent
        have hpending := handled_pending he (t := .requestVote)
          (List.mem_singleton_self x) hx
        obtain ⟨hstarted, hsender⟩ :=
          request_started (Nat.le_of_lt he.lt) hpending
        rw [hcandidate, hterm, hsender, uint8OfLong_longOfUInt8]
        exact ⟨_, rfl, hstarted.mono (by omega)⟩
    · rw [he.frame hr] at hvote ⊢
      obtain ⟨c, hc, hstarted⟩ := ih hvote
      exact ⟨c, hc, hstarted.mono (by omega)⟩

/-- A running vote loop that has granted still has a vote on record. -/
theorem granted_votedFor (hID : ∀ r, cfg.ID r ≠ votedNone) {i : Nat}
    (hi : i ≤ run.length) (r : ι)
    (hg : threadGranted (run.node i r).voteThread = true) :
    (run.replica i r).votedFor ≠ votedNone := by
  revert hg
  refine node_invariant (P := fun n => threadGranted n.voteThread = true →
    n.replica.votedFor ≠ votedNone) r (fun hg => by cases hg) ?_
    (fun _ _ _ hn => hn) i hi
  intro i a n hlabel hstep hn hg
  have hi : i < run.length := (List.getElem?_eq_some_iff.mp hlabel).1
  rcases granted_step hstep (exclusive (Nat.le_of_lt hi) r) hg with
    ⟨hold, hvote⟩ | ⟨g, x, hevent, hx, hvote⟩
  · rw [hvote]
    exact hn hold
  · have hpending := handled_pending (t := .requestVote) ⟨a, hlabel, hevent⟩
      (List.mem_singleton_self x) hx
    have hsender := (request_started (Nat.le_of_lt hi) hpending).2
    rw [hvote, hsender, uint8OfLong_longOfUInt8]
    exact hID _

/-- A granted reply names the vote its publisher has on record. -/
theorem granted_reply (hID : ∀ r, cfg.ID r ≠ votedNone) {i : Nat} {r : ι}
    {m : RequestVoteReply} (hp : run.Publishes i r ⟨.requestVoteReply, m⟩)
    (hgranted : boolOfLong m.voteGranted = true) :
    m.term = (run.replica (i + 1) r).currentTerm.toInt32 ∧
      m.candidateID = longOfUInt8 (run.replica (i + 1) r).votedFor ∧
      (run.replica (i + 1) r).votedFor ≠ votedNone := by
  obtain ⟨e, he, hmem⟩ := hp.occurs
  cases published_cases he.react hmem with
  | voteGranted g x hx hterm hvote =>
      refine ⟨rfl, rfl, ?_⟩
      have hpending := handled_pending he (t := .requestVote)
        (List.mem_singleton_self x) hx
      rw [hvote, (request_started (Nat.le_of_lt he.lt) hpending).2,
        uint8OfLong_longOfUInt8]
      exact hID _
  | voteRefused g x hx hterm hvote hsame =>
      have hflag : g = true := by
        simpa [requestVoteReplyMessage] using hgranted
      subst hflag
      obtain ⟨a, hlabel, hevent⟩ := id he
      refine ⟨rfl, rfl, ?_⟩
      rw [hsame]
      exact granted_votedFor hID (Nat.le_of_lt he.lt) r (event_granted hevent)

/-- A granted reply still pending was a recorded vote of its publisher. -/
theorem pending_reply (hID : ∀ r, cfg.ID r ≠ votedNone) {i : Nat}
    (hi : i ≤ run.length) {r : ι} {x : Sample ι RequestVoteReply}
    (hx : x ∈ run.pending i r .requestVoteReply)
    (hgranted : boolOfLong x.data.voteGranted = true) :
    ∃ j < i, x.data.term.toUInt32 =
        (run.replica (j + 1) x.publicationHandle).currentTerm ∧
      uint8OfLong x.data.candidateID =
        (run.replica (j + 1) x.publicationHandle).votedFor ∧
      uint8OfLong x.data.candidateID ≠ votedNone := by
  obtain ⟨j, hj, hp⟩ := mem_pending hi hx
  obtain ⟨hterm, hcandidate, hvote⟩ := granted_reply hID hp hgranted
  refine ⟨j, hj, by simp [hterm], by simp [hcandidate], ?_⟩
  rw [hcandidate, uint8OfLong_longOfUInt8]
  exact hvote

/-- A vote reply is written by the vote loop. -/
theorem reply_vote {i : Nat} {r : ι} {m : RequestVoteReply}
    (hp : run.Publishes i r ⟨.requestVoteReply, m⟩) :
    ∃ g x, run.Occurs i r (.vote g x) := by
  obtain ⟨e, he, hmem⟩ := hp.occurs
  cases published_cases he.react hmem with
  | voteGranted g x => exact ⟨g, x, he⟩
  | voteRefused g x => exact ⟨g, x, he⟩

/-- Vote validity: a recorded vote names a replica that earlier started an
election in the voter's current term, and a granted reply carries the current
term and the recorded vote of its publisher, so it names such a replica too. -/
theorem vote_valid (run : Execution cfg) (hID : ∀ r, cfg.ID r < votedNone) :
    (∀ i r, i ≤ run.length → (run.replica i r).votedFor ≠ votedNone →
      ∃ c, cfg.ID c = (run.replica i r).votedFor ∧
        StartedIn run i c (run.replica i r).currentTerm) ∧
    (∀ i r m, run.Publishes i r ⟨.requestVoteReply, m⟩ →
      boolOfLong m.voteGranted = true →
      m.term = (run.replica (i + 1) r).currentTerm.toInt32 ∧
      m.candidateID = longOfUInt8 (run.replica (i + 1) r).votedFor ∧
      (run.replica (i + 1) r).votedFor ≠ votedNone ∧
      ∃ c, longOfUInt8 (cfg.ID c) = m.candidateID ∧
        StartedIn run i c m.term.toUInt32) := by
  have hne : ∀ r, cfg.ID r ≠ votedNone := fun r => by
    have hr := hID r
    grind
  refine ⟨fun i r hi hvote => votedFor_started hi hvote, ?_⟩
  intro i r m hp hgranted
  obtain ⟨hterm, hcandidate, hvote⟩ := granted_reply hne hp hgranted
  obtain ⟨g, x, he⟩ := reply_vote hp
  obtain ⟨c, hc, j, hj, hstart, hstartTerm⟩ := votedFor_started he.lt hvote
  have hji : j ≠ i := by
    rintro rfl
    cases (he.unique hstart).2
  exact ⟨hterm, hcandidate, hvote, c, by rw [hc, hcandidate], j, by omega,
    hstart, by rw [hstartTerm, hterm, UInt32.toUInt32_toInt32]⟩

/-- Replica 1 votes for replica 2 and says so. -/
def oneGrant : Execution threeReplicas where
  labels := [(2, .electionTimeout), (1, .deliver .requestVote 0)] ++
    handleRequests 1 1
  executes := by decide +kernel

theorem vote_valid_oneGrant :
    (oneGrant.replica 5 1).votedFor = 2 ∧
      StartedIn oneGrant 5 2 (oneGrant.replica 5 1).currentTerm := by
  have hID : ∀ r, threeReplicas.ID r < votedNone := by decide
  have hvote : (oneGrant.replica 5 1).votedFor = 2 := by decide +kernel
  obtain ⟨c, hc, hstarted⟩ :=
    (vote_valid oneGrant hID).1 5 1 (by decide) (by rw [hvote]; decide)
  have hunique : ∀ c, threeReplicas.ID c = 2 → c = 2 := by decide
  rw [hunique c (hc.trans hvote)] at hstarted
  exact ⟨hvote, hstarted⟩

end RevPiRaft.Ports.VoteValidity
