import RevPiRaft.Verified.Voting
import RevPiRaft.Ports.Reactions

/-!
# The voting state after a batch of requests

`handle_vote_message` may adopt several terms and grant several times within
one batch.  Seen through `voter`, which forgets everything but the term and the
recorded vote, one iteration of its loop is the step of a voter with one vote
per term (`voter_voteIteration`), so the closed form of
`RevPiRaft.Verified.Voting` carries over to the whole batch.
-/

namespace RevPiRaft.Ports.VotingState

open RevPiRaft.Verified.Voting
open RevPiRaft.Ports.Datamodel
open RevPiRaft.Ports.ReplicaCore
open RevPiRaft.Ports.LeaderElection
open RevPiRaft.Ports.Reactions

variable {ι : Type}

/-! ## A replica as a voter -/

/-- A recorded identifier as a vote. -/
def voteOf (votedFor : UInt8) : Option UInt8 :=
  if votedFor = votedNone then none else some votedFor

@[simp] theorem voteOf_none : voteOf votedNone = none := if_pos rfl

theorem voteOf_some {candidate : UInt8} (h : candidate < votedNone) :
    voteOf candidate = some candidate :=
  if_neg (UInt8.ne_of_lt h)

/-- No vote is lost in `voteOf`. -/
theorem voteOf_getD (votedFor : UInt8) :
    (voteOf votedFor).getD votedNone = votedFor := by
  unfold voteOf
  split
  · exact Eq.symm ‹_›
  · rfl

/-- The term and the recorded vote of a replica. -/
def voter (s : Replica) : Voter UInt32 UInt8 :=
  { term := s.currentTerm
    vote := voteOf s.votedFor }

/-- `voteTerm` and `voteCandidate` as the loop reads them. -/
def request (x : Sample ι RequestVote) : UInt32 × UInt8 :=
  (x.data.term.toUInt32, uint8OfLong x.data.senderID)

/-! ## One iteration -/

/-- One iteration of the loop is one request to the voter. -/
theorem voter_voteIteration (s : Replica) (g : Bool)
    {x : Sample ι RequestVote} (hx : x.validData = true)
    (hcandidate : uint8OfLong x.data.senderID < votedNone) :
    voter (voteIteration s g x).1 = (voter s).receive (request x) := by
  by_cases hterm : s.currentTerm < x.data.term.toUInt32
  · rw [voteIteration_newer g hx hterm]
    simp [voter, Voter.receive, request, hterm, voteOf_some hcandidate]
  by_cases hvote : grantsVote s x.data.term.toUInt32
    (uint8OfLong x.data.senderID)
  · obtain ⟨hsame, hvote⟩ := hvote
    rw [voteIteration_grant g hx hsame hvote]
    rcases hvote with hnone | hagain
    · simp [voter, Voter.receive, request, hsame, hnone,
        voteOf_some hcandidate]
    · simp [voter, Voter.receive, request, hsame, hagain,
        voteOf_some hcandidate]
  · rw [voteIteration_refuse g hx (UInt32.not_lt.mp hterm) hvote]
    by_cases hsame : x.data.term.toUInt32 = s.currentTerm
    · have hgiven : s.votedFor ≠ votedNone :=
        fun h => hvote ⟨hsame, .inl h⟩
      simp [voter, Voter.receive, request, hsame, voteOf, hgiven]
    · simp [voter, Voter.receive, request, hterm, hsame]

/-- The role is lost exactly with the term. -/
theorem role_voteIteration (s : Replica) (g : Bool)
    (x : Sample ι RequestVote) :
    s.currentTerm ≤ (voteIteration s g x).1.currentTerm ∧
      (voteIteration s g x).1.role =
        if s.currentTerm < (voteIteration s g x).1.currentTerm then .follower
        else s.role := by
  cases hx : x.validData with
  | false => simp [voteIteration, hx]
  | true =>
      by_cases hterm : s.currentTerm < x.data.term.toUInt32
      · rw [voteIteration_newer g hx hterm]
        simp [hterm, UInt32.le_of_lt hterm]
      by_cases hvote : grantsVote s x.data.term.toUInt32
        (uint8OfLong x.data.senderID)
      · rw [voteIteration_grant g hx hvote.1 hvote.2]
        simp
      · rw [voteIteration_refuse g hx (UInt32.not_lt.mp hterm) hvote]
        simp

/-! ## The whole batch -/

theorem voter_voteBatch (s : Replica) (g : Bool)
    (batch : List (Sample ι RequestVote))
    (hvalid : ∀ x ∈ batch, x.validData = true)
    (hcandidate : ∀ x ∈ batch, uint8OfLong x.data.senderID < votedNone) :
    voter (voteBatch s g batch).1 =
      (voter s).receiveAll (batch.map request) := by
  induction batch generalizing s g with
  | nil => rfl
  | cons x batch ih =>
      obtain ⟨hx, hvalid⟩ := List.forall_mem_cons.mp hvalid
      obtain ⟨hc, hcandidate⟩ := List.forall_mem_cons.mp hcandidate
      have hrest := ih (voteIteration s g x).1 (voteIteration s g x).2.1
        hvalid hcandidate
      rw [voter_voteIteration s g hx hc] at hrest
      exact hrest

theorem role_voteBatch (s : Replica) (g : Bool)
    (batch : List (Sample ι RequestVote)) :
    s.currentTerm ≤ (voteBatch s g batch).1.currentTerm ∧
      (voteBatch s g batch).1.role =
        if s.currentTerm < (voteBatch s g batch).1.currentTerm then .follower
        else s.role := by
  induction batch generalizing s g with
  | nil => simp [voteBatch]
  | cons x batch ih =>
      obtain ⟨hle, hrole⟩ := role_voteIteration s g x
      obtain ⟨hle', hrole'⟩ := ih (voteIteration s g x).1
        (voteIteration s g x).2.1
      rw [hrole] at hrole'
      rw [voteBatch]
      exact ⟨UInt32.le_trans hle hle', hrole'.trans (by grind)⟩

/-! ## First come, first served -/

/-- `M` is the maximum of the term `t` and the terms of a batch. -/
structure MaxTerm (t : UInt32) (batch : List (Sample ι RequestVote))
    (M : UInt32) : Prop where
  start : t ≤ M
  sample : ∀ x ∈ batch, x.data.term.toUInt32 ≤ M
  attained : M = t ∨ ∃ x ∈ batch, x.data.term.toUInt32 = M

/-- The first sample of a batch with term `t`. -/
def firstSample (t : UInt32) (batch : List (Sample ι RequestVote)) :
    Option (Sample ι RequestVote) :=
  batch.find? fun x => x.data.term.toUInt32 = t

theorem maxTerm_latest (t : UInt32) (batch : List (Sample ι RequestVote)) :
    MaxTerm t batch (latest t (batch.map request)) where
  start := le_latest t _
  sample := fun x hx =>
    term_le_latest t _ (request x) (List.mem_map_of_mem hx)
  attained := by
    rcases latest_mem t (batch.map request) with hkept | ⟨r, hr, hterm⟩
    · exact .inl hkept
    · obtain ⟨x, hx, rfl⟩ := List.mem_map.mp hr
      exact .inr ⟨x, hx, hterm⟩

theorem first_request (t : UInt32) (batch : List (Sample ι RequestVote)) :
    first t (batch.map request) =
      (firstSample t batch).map fun x => uint8OfLong x.data.senderID := by
  simp only [first, firstSample, List.find?_map, Option.map_map]
  rfl

/-- A term of the batch has a first sample. -/
theorem firstSample_exists {t : UInt32} {batch : List (Sample ι RequestVote)}
    (h : ∃ x ∈ batch, x.data.term.toUInt32 = t) :
    ∃ x, firstSample t batch = some x := by
  rw [← Option.isSome_iff_exists, firstSample, List.find?_isSome]
  simpa using h

/-- The vote at the end of a batch. -/
theorem handleVoteMessage_votedFor (s : Replica)
    (batch : List (Sample ι RequestVote))
    (hvalid : ∀ x ∈ batch, x.validData = true)
    (hcandidate : ∀ x ∈ batch, uint8OfLong x.data.senderID < votedNone)
    {M : UInt32} (hM : latest s.currentTerm (batch.map request) = M) :
    (handleVoteMessage s batch).1.votedFor =
      ((if s.currentTerm = M then voteOf s.votedFor else none).or
        ((firstSample M batch).map fun x =>
          uint8OfLong x.data.senderID)).getD votedNone := by
  subst hM
  have hvoter := voter_voteBatch s false batch hvalid hcandidate
  have hvote := (congrArg Voter.vote hvoter).trans (receiveAll_vote _ _)
  rw [← voteOf_getD (handleVoteMessage s batch).1.votedFor, ← first_request]
  exact congrArg (Option.getD · votedNone) hvote

/-- After any batch the replica is in the latest term it has heard of.  A newer
term makes it a follower that has voted for the first candidate of that term;
otherwise it keeps its role and its vote, and a missing vote goes to the first
candidate of the current term. -/
theorem handleVoteMessage_state (s : Replica)
    (batch : List (Sample ι RequestVote))
    (hvalid : ∀ x ∈ batch, x.validData = true)
    (hcandidate : ∀ x ∈ batch, uint8OfLong x.data.senderID < votedNone) :
    ∃ M, MaxTerm s.currentTerm batch M ∧
      (handleVoteMessage s batch).1.currentTerm = M ∧
      (s.currentTerm < M →
        (handleVoteMessage s batch).1.role = .follower ∧
        ∃ x, firstSample M batch = some x ∧
          (handleVoteMessage s batch).1.votedFor =
            uint8OfLong x.data.senderID) ∧
      (M = s.currentTerm →
        (handleVoteMessage s batch).1.role = s.role ∧
        (handleVoteMessage s batch).1.votedFor =
          if s.votedFor ≠ votedNone then s.votedFor
          else
            match firstSample s.currentTerm batch with
            | some x => uint8OfLong x.data.senderID
            | none => votedNone) := by
  have hvoter := voter_voteBatch s false batch hvalid hcandidate
  have hterm : (handleVoteMessage s batch).1.currentTerm =
      latest s.currentTerm (batch.map request) :=
    (congrArg Voter.term hvoter).trans (receiveAll_term _ _)
  have hrole : (handleVoteMessage s batch).1.role =
      if s.currentTerm < (handleVoteMessage s batch).1.currentTerm then
        .follower
      else s.role :=
    (role_voteBatch s false batch).2
  have hvote := handleVoteMessage_votedFor s batch hvalid hcandidate rfl
  have hmax := maxTerm_latest s.currentTerm batch
  rw [hterm] at hrole
  generalize latest s.currentTerm (batch.map request) = M at *
  refine ⟨M, hmax, hterm, ?_, ?_⟩
  · intro hnewer
    have hne : s.currentTerm ≠ M := UInt32.ne_of_lt hnewer
    obtain ⟨x, hx⟩ := firstSample_exists (hmax.attained.resolve_left hne.symm)
    refine ⟨hrole.trans (if_pos hnewer), x, hx, ?_⟩
    rw [hvote, if_neg hne, hx]
    rfl
  · rintro rfl
    refine ⟨hrole.trans (if_neg (UInt32.lt_irrefl _)), ?_⟩
    rw [hvote, if_pos rfl]
    by_cases hgiven : s.votedFor = votedNone
    · rw [hgiven, voteOf_none, if_neg (not_not.mpr rfl)]
      cases firstSample s.currentTerm batch <;> rfl
    · rw [if_pos hgiven, voteOf, if_neg hgiven]
      rfl

/-- Valid requests, each by its candidate and term. -/
def requests (cs : List (UInt8 × UInt32)) : List (Sample Unit RequestVote) :=
  cs.map fun c =>
    { validData := true
      publicationHandle := ()
      data :=
        { term := c.2.toInt32
          senderID := longOfUInt8 c.1 } }

/-- A batch with two terms, a stale request between them: replica 0, the first
candidate of the second term, gets the vote. -/
theorem handleVoteMessage_state_mixed :
    ∃ M x, MaxTerm 0 (requests [(2, 1), (0, 2), (2, 1), (2, 2)]) M ∧
      firstSample M (requests [(2, 1), (0, 2), (2, 1), (2, 2)]) = some x ∧
      (handleVoteMessage (Replica.initializeReplica 1)
        (requests [(2, 1), (0, 2), (2, 1), (2, 2)])).1.votedFor =
          uint8OfLong x.data.senderID := by
  obtain ⟨M, hmax, -, hnewer, -⟩ := handleVoteMessage_state
    (Replica.initializeReplica 1)
    (requests [(2, 1), (0, 2), (2, 1), (2, 2)]) (by decide) (by decide)
  have hlt : (0 : UInt32) < M := by
    have hsecond := hmax.sample _ (List.mem_of_mem_head? rfl)
    exact Std.lt_of_lt_of_le (by decide) hsecond
  obtain ⟨-, x, hx, hvote⟩ := hnewer hlt
  exact ⟨M, x, hmax, hx, hvote⟩

end RevPiRaft.Ports.VotingState
