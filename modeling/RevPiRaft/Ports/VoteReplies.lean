import Mathlib.Data.List.Chain
import RevPiRaft.Ports.VotingState

/-!
# Vote replies and batching

`handle_vote_message` declares `voteGranted` before its loop and only ever sets
it.  The replica does not depend on the flag (`voteBatch_flag`), the replies
do: from the first granted request of a call on, every reply of that call
grants.  They tell the truth exactly when no later request of the call is to be
refused, and then the batching does not matter.
-/

namespace RevPiRaft.Ports.VoteReplies

open RevPiRaft.Ports.Datamodel
open RevPiRaft.Ports.ReplicaCore
open RevPiRaft.Ports.LeaderElection
open RevPiRaft.Ports.Reactions
open RevPiRaft.Ports.VotingState

variable {ι : Type}

/-! ## One request -/

/-- A replica in state `s` grants the request `x`. -/
def WouldGrant (s : Replica) (x : Sample ι RequestVote) : Prop :=
  s.currentTerm < x.data.term.toUInt32 ∨
    grantsVote s x.data.term.toUInt32 (uint8OfLong x.data.senderID)

instance (s : Replica) (x : Sample ι RequestVote) :
    Decidable (WouldGrant s x) :=
  inferInstanceAs (Decidable (_ ∨ _))

/-- Having granted `x`, a replica grants `y`: the term is newer, or it is the
same and so is the candidate.  A vote for the identifier `VOTED_NONE` is no
vote on record. -/
def Follows (x y : Sample ι RequestVote) : Prop :=
  x.data.term.toUInt32 < y.data.term.toUInt32 ∨
    (y.data.term.toUInt32 = x.data.term.toUInt32 ∧
      (uint8OfLong x.data.senderID = votedNone ∨
        uint8OfLong x.data.senderID = uint8OfLong y.data.senderID))

instance (x y : Sample ι RequestVote) : Decidable (Follows x y) :=
  inferInstanceAs (Decidable (_ ∨ _))

/-- The replica after one request, whatever `voteGranted` is. -/
def afterRequest (s : Replica) (x : Sample ι RequestVote) : Replica :=
  (voteIteration s false x).1

theorem voteIteration_flag (s : Replica) (g : Bool)
    (x : Sample ι RequestVote) : (voteIteration s g x).1 = afterRequest s x := by
  unfold afterRequest voteIteration
  split
  · dsimp only
    split <;> rfl
  · rfl

/-- A granted request is recorded. -/
theorem afterRequest_grant {s : Replica} {x : Sample ι RequestVote}
    (hx : x.validData = true) (h : WouldGrant s x) :
    (afterRequest s x).currentTerm = x.data.term.toUInt32 ∧
      (afterRequest s x).votedFor = uint8OfLong x.data.senderID := by
  unfold afterRequest
  rcases h with hterm | ⟨hterm, hvote⟩
  · rw [voteIteration_newer false hx hterm]
    exact ⟨rfl, rfl⟩
  · rw [voteIteration_grant false hx hterm hvote]
    exact ⟨hterm.symm, rfl⟩

/-- A refused request changes nothing. -/
theorem afterRequest_refuse {s : Replica} {x : Sample ι RequestVote}
    (hx : x.validData = true) (h : ¬ WouldGrant s x) :
    afterRequest s x = s := by
  obtain ⟨hterm, hvote⟩ := not_or.mp h
  rw [afterRequest,
    voteIteration_refuse false hx (UInt32.not_lt.mp hterm) hvote]

/-- A request is granted if and only if it is on record afterwards. -/
theorem wouldGrant_iff {s : Replica} {x : Sample ι RequestVote}
    (hx : x.validData = true) :
    WouldGrant s x ↔
      x.data.term.toUInt32 = (afterRequest s x).currentTerm ∧
        (afterRequest s x).votedFor = uint8OfLong x.data.senderID := by
  constructor
  · intro h
    obtain ⟨hterm, hvote⟩ := afterRequest_grant hx h
    exact ⟨hterm.symm, hvote⟩
  · rintro ⟨hterm, hvote⟩
    by_contra h
    rw [afterRequest_refuse hx h] at hterm hvote
    exact h (.inr ⟨hterm, .inr hvote⟩)

/-- What is granted next depends on the granted request alone. -/
theorem wouldGrant_next {s : Replica} {x : Sample ι RequestVote}
    (hx : x.validData = true) (h : WouldGrant s x)
    (y : Sample ι RequestVote) :
    WouldGrant (afterRequest s x) y ↔ Follows x y := by
  obtain ⟨hterm, hvote⟩ := afterRequest_grant hx h
  rw [WouldGrant, grantsVote, hterm, hvote, Follows]

/-- The flag and the reply of one iteration. -/
theorem voteIteration_reply (s : Replica) (g : Bool)
    {x : Sample ι RequestVote} (hx : x.validData = true) :
    (voteIteration s g x).2 =
      (g || decide (WouldGrant s x),
        [requestVoteReplyMessage (afterRequest s x)
          (g || decide (WouldGrant s x))]) := by
  unfold afterRequest
  by_cases hterm : s.currentTerm < x.data.term.toUInt32
  · rw [voteIteration_newer g hx hterm, voteIteration_newer false hx hterm]
    simp [WouldGrant, hterm]
  by_cases hvote : grantsVote s x.data.term.toUInt32
    (uint8OfLong x.data.senderID)
  · rw [voteIteration_grant g hx hvote.1 hvote.2,
      voteIteration_grant false hx hvote.1 hvote.2]
    simp [WouldGrant, hvote]
  · have hle := UInt32.not_lt.mp hterm
    rw [voteIteration_refuse g hx hle hvote,
      voteIteration_refuse false hx hle hvote]
    simp [WouldGrant, hterm, hvote]

/-! ## Batches -/

/-- The replica at the end of a batch does not depend on the flag. -/
theorem voteBatch_flag (s : Replica) (g : Bool)
    (batch : List (Sample ι RequestVote)) :
    (voteBatch s g batch).1 = (handleVoteMessage s batch).1 := by
  unfold handleVoteMessage
  induction batch generalizing s g with
  | nil => rfl
  | cons x batch ih =>
      simp only [voteBatch]
      rw [ih, ih _ (voteIteration s false x).2.1, voteIteration_flag,
        voteIteration_flag]

theorem handleVoteMessage_cons (s : Replica) (x : Sample ι RequestVote)
    (batch : List (Sample ι RequestVote)) :
    (handleVoteMessage s (x :: batch)).1 =
      (handleVoteMessage (afterRequest s x) batch).1 :=
  voteBatch_flag _ _ batch

theorem handleVoteMessage_foldl (s : Replica)
    (batch : List (Sample ι RequestVote)) :
    (handleVoteMessage s batch).1 = batch.foldl afterRequest s := by
  induction batch generalizing s with
  | nil => rfl
  | cons x batch ih => rw [handleVoteMessage_cons, ih, List.foldl_cons]

/-- Two parts of a batch are walked one after the other, the flag carried
over. -/
theorem voteBatch_append (s : Replica) (g : Bool)
    (xs : List (Sample ι RequestVote)) :
    ∃ g', ∀ ys, (voteBatch s g (xs ++ ys)).2 =
      (voteBatch s g xs).2 ++
        (voteBatch (handleVoteMessage s xs).1 g' ys).2 := by
  induction xs generalizing s g with
  | nil => exact ⟨g, fun ys => rfl⟩
  | cons x xs ih =>
      obtain ⟨g', hparts⟩ := ih (voteIteration s g x).1 (voteIteration s g x).2.1
      refine ⟨g', fun ys => ?_⟩
      rw [handleVoteMessage_cons, ← voteIteration_flag s g]
      simp only [List.cons_append, voteBatch, hparts, List.append_assoc]

theorem voteBatch_cons (s : Replica) (g : Bool) {x : Sample ι RequestVote}
    (hx : x.validData = true) (batch : List (Sample ι RequestVote)) :
    (voteBatch s g (x :: batch)).2 =
      requestVoteReplyMessage (afterRequest s x)
          (g || decide (WouldGrant s x)) ::
        (voteBatch (afterRequest s x) (g || decide (WouldGrant s x))
          batch).2 := by
  simp only [voteBatch, voteIteration_reply s g hx, voteIteration_flag,
    List.cons_append, List.nil_append]

/-- One reply for each valid sample. -/
theorem voteBatch_length (s : Replica) (g : Bool)
    (batch : List (Sample ι RequestVote))
    (hvalid : ∀ x ∈ batch, x.validData = true) :
    (voteBatch s g batch).2.length = batch.length := by
  induction batch generalizing s g with
  | nil => rfl
  | cons x batch ih =>
      obtain ⟨hx, hvalid⟩ := List.forall_mem_cons.mp hvalid
      rw [voteBatch_cons s g hx, List.length_cons, ih _ _ hvalid,
        List.length_cons]

/-! ## Truthful replies -/

/-- One reply for each sample of a batch, in order, and the `k`-th grants if
and only if the replica then has the vote for the `k`-th sample on record. -/
structure Truthful (s : Replica) (batch : List (Sample ι RequestVote))
    (replies : List RequestVoteReply) : Prop where
  one : replies.length = batch.length
  granted : ∀ k x m, batch[k]? = some x → replies[k]? = some m →
    (boolOfLong m.voteGranted = true ↔
      x.data.term.toUInt32 =
          (handleVoteMessage s (batch.take (k + 1))).1.currentTerm ∧
        (handleVoteMessage s (batch.take (k + 1))).1.votedFor =
          uint8OfLong x.data.senderID)

theorem truthful_cons {s : Replica} {x : Sample ι RequestVote}
    (hx : x.validData = true) {batch : List (Sample ι RequestVote)}
    {m : RequestVoteReply} {replies : List RequestVoteReply} :
    Truthful s (x :: batch) (m :: replies) ↔
      (boolOfLong m.voteGranted = true ↔ WouldGrant s x) ∧
        Truthful (afterRequest s x) batch replies := by
  constructor
  · intro h
    refine ⟨?_, Nat.succ.inj h.one, fun k y n hy hn => ?_⟩
    · rw [wouldGrant_iff hx]
      exact h.granted 0 x m rfl rfl
    · rw [← handleVoteMessage_cons]
      exact h.granted (k + 1) y n hy hn
  · rintro ⟨hfirst, hrest⟩
    refine ⟨congrArg (· + 1) hrest.one, fun k y n hy hn => ?_⟩
    rw [List.take_succ_cons, handleVoteMessage_cons]
    cases k with
    | zero =>
        cases hy
        cases hn
        exact hfirst.trans (wouldGrant_iff hx)
    | succ k => exact hrest.granted k y n hy hn

/-- The replies of a replica that takes each sample in a call of its own. -/
def truthfulReplies (s : Replica) :
    List (Sample ι RequestVote) → List RequestVoteReply
  | [] => []
  | x :: batch =>
      requestVoteReplyMessage (afterRequest s x) (decide (WouldGrant s x)) ::
        truthfulReplies (afterRequest s x) batch

theorem truthfulReplies_length (s : Replica)
    (batch : List (Sample ι RequestVote)) :
    (truthfulReplies s batch).length = batch.length := by
  induction batch generalizing s with
  | nil => rfl
  | cons x batch ih => exact congrArg (· + 1) (ih (afterRequest s x))

theorem truthfulReplies_append (s : Replica)
    (xs ys : List (Sample ι RequestVote)) :
    truthfulReplies s (xs ++ ys) =
      truthfulReplies s xs ++
        truthfulReplies (handleVoteMessage s xs).1 ys := by
  induction xs generalizing s with
  | nil => rfl
  | cons x xs ih =>
      rw [handleVoteMessage_cons, List.cons_append, truthfulReplies,
        truthfulReplies, ih, List.cons_append]

/-- Two replies of one state with different flags differ. -/
theorem requestVoteReplyMessage_inj {s : Replica} {f g : Bool} :
    requestVoteReplyMessage s f = requestVoteReplyMessage s g ↔ f = g := by
  refine ⟨fun h => ?_, fun h => by rw [h]⟩
  have hflag := congrArg (fun m => boolOfLong m.voteGranted) h
  simpa [requestVoteReplyMessage] using hflag

/-- The truthful replies of a batch are unique. -/
theorem truthful_voteBatch (s : Replica) (g : Bool)
    (batch : List (Sample ι RequestVote))
    (hvalid : ∀ x ∈ batch, x.validData = true) :
    Truthful s batch (voteBatch s g batch).2 ↔
      (voteBatch s g batch).2 = truthfulReplies s batch := by
  induction batch generalizing s g with
  | nil =>
      refine ⟨fun _ => rfl, fun _ => ⟨rfl, fun k x m hx => ?_⟩⟩
      cases hx
  | cons x batch ih =>
      obtain ⟨hx, hvalid⟩ := List.forall_mem_cons.mp hvalid
      rw [voteBatch_cons s g hx, truthful_cons hx, ih _ _ hvalid,
        truthfulReplies, List.cons.injEq, requestVoteReplyMessage_inj]
      refine and_congr_left' ?_
      cases g <;> simp [requestVoteReplyMessage]

/-- Once the flag is set, the replies are truthful only while every request is
granted. -/
theorem voteBatch_granting (s : Replica) (batch : List (Sample ι RequestVote))
    (hvalid : ∀ x ∈ batch, x.validData = true) :
    (voteBatch s true batch).2 = truthfulReplies s batch ↔
      (∀ x ∈ batch.head?, WouldGrant s x) ∧ batch.IsChain Follows := by
  induction batch generalizing s with
  | nil => simp [voteBatch, truthfulReplies]
  | cons x batch ih =>
      obtain ⟨hx, hvalid⟩ := List.forall_mem_cons.mp hvalid
      rw [voteBatch_cons s true hx, truthfulReplies, List.cons.injEq,
        requestVoteReplyMessage_inj, Bool.true_or, ih _ hvalid,
        List.isChain_cons]
      by_cases h : WouldGrant s x
      · simp only [wouldGrant_next hx h]
        simp [h]
      · simp [h]

/-- The part of a batch from the first request that the replica, as it is
before the call, would grant. -/
def fromFirstGrant (s : Replica) (batch : List (Sample ι RequestVote)) :
    List (Sample ι RequestVote) :=
  batch.dropWhile fun x => ¬ WouldGrant s x

/-- The replies of a call are truthful if and only if each request after the
first granted one follows the request before it. -/
theorem handleVoteMessage_replies (s : Replica)
    (batch : List (Sample ι RequestVote))
    (hvalid : ∀ x ∈ batch, x.validData = true) :
    (handleVoteMessage s batch).2 = truthfulReplies s batch ↔
      (fromFirstGrant s batch).IsChain Follows := by
  unfold handleVoteMessage
  induction batch with
  | nil => simp [voteBatch, truthfulReplies, fromFirstGrant]
  | cons x batch ih =>
      obtain ⟨hx, hrest⟩ := List.forall_mem_cons.mp hvalid
      rw [voteBatch_cons s false hx, truthfulReplies, List.cons.injEq,
        requestVoteReplyMessage_inj, Bool.false_or, fromFirstGrant,
        List.dropWhile_cons]
      by_cases h : WouldGrant s x
      · simp only [h, decide_true, voteBatch_granting _ _ hrest,
          wouldGrant_next hx h]
        simp [List.isChain_cons]
      · rw [afterRequest_refuse hx h]
        simpa [h, fromFirstGrant] using ih hrest

/-! ## Batching -/

/-- Replies that are truthful with the flag set are so without it. -/
theorem voteBatch_unflagged {s : Replica} {g : Bool}
    {batch : List (Sample ι RequestVote)}
    (hvalid : ∀ x ∈ batch, x.validData = true)
    (h : (voteBatch s g batch).2 = truthfulReplies s batch) :
    (handleVoteMessage s batch).2 = truthfulReplies s batch := by
  cases g with
  | false => exact h
  | true =>
      obtain ⟨-, hchain⟩ := (voteBatch_granting s batch hvalid).mp h
      refine (handleVoteMessage_replies s batch hvalid).mpr ?_
      exact hchain.suffix (List.dropWhile_suffix _)

/-- Truthful replies of a batch are truthful for its two parts. -/
theorem truthful_parts {s : Replica} {xs ys : List (Sample ι RequestVote)}
    (hvalid : ∀ x ∈ xs ++ ys, x.validData = true)
    (h : (handleVoteMessage s (xs ++ ys)).2 = truthfulReplies s (xs ++ ys)) :
    (handleVoteMessage s xs).2 = truthfulReplies s xs ∧
      (handleVoteMessage (handleVoteMessage s xs).1 ys).2 =
        truthfulReplies (handleVoteMessage s xs).1 ys := by
  obtain ⟨hxs, hys⟩ := List.forall_mem_append.mp hvalid
  obtain ⟨g, hparts⟩ := voteBatch_append s false xs
  have hwhole := (hparts ys).symm.trans h
  rw [truthfulReplies_append] at hwhole
  obtain ⟨hleft, hright⟩ := List.append_inj hwhole
    ((voteBatch_length s false xs hxs).trans
      (truthfulReplies_length s xs).symm)
  exact ⟨hleft, voteBatch_unflagged hys hright⟩

/-- The replica and the replies of consecutive calls, one batch each. -/
def handleVoteCalls (s : Replica) :
    List (List (Sample ι RequestVote)) → Replica × List RequestVoteReply
  | [] => (s, [])
  | batch :: rest =>
      let r := handleVoteMessage s batch
      let q := handleVoteCalls r.1 rest
      (q.1, r.2 ++ q.2)

/-- Truthful replies do not depend on the batching. -/
theorem handleVoteCalls_flatten (s : Replica)
    (batches : List (List (Sample ι RequestVote)))
    (hvalid : ∀ x ∈ batches.flatten, x.validData = true)
    (h : (handleVoteMessage s batches.flatten).2 =
      truthfulReplies s batches.flatten) :
    handleVoteCalls s batches =
      ((handleVoteMessage s batches.flatten).1,
        truthfulReplies s batches.flatten) := by
  induction batches generalizing s with
  | nil => rfl
  | cons batch batches ih =>
      rw [List.flatten_cons] at hvalid h ⊢
      obtain ⟨hfirst, hrest⟩ := truthful_parts hvalid h
      obtain ⟨-, hvalid⟩ := List.forall_mem_append.mp hvalid
      rw [handleVoteCalls, ih _ hvalid hrest, truthfulReplies_append, hfirst]
      simp only [handleVoteMessage_foldl, List.foldl_append]

/-- The replies of a call are truthful, and taking the samples in several calls
would have given the same, if and only if no request is to be refused after
one of the call was granted. -/
theorem voteReplies_truthful_iff (s : Replica)
    (batch : List (Sample ι RequestVote))
    (hvalid : ∀ x ∈ batch, x.validData = true) :
    (Truthful s batch (handleVoteMessage s batch).2 ∧
      ∀ batches, batches.flatten = batch →
        handleVoteCalls s batches = handleVoteMessage s batch) ↔
      (fromFirstGrant s batch).IsChain Follows := by
  have htruth := truthful_voteBatch s false batch hvalid
  rw [← handleVoteMessage_replies s batch hvalid]
  constructor
  · rintro ⟨h, -⟩
    exact htruth.mp h
  · intro h
    refine ⟨htruth.mpr h, ?_⟩
    rintro batches rfl
    rw [handleVoteCalls_flatten s batches hvalid h]
    exact Prod.ext rfl h.symm

/-- A repeated request and one of a newer term after it. -/
theorem voteReplies_truthful_repeated :
    Truthful (Replica.initializeReplica 1)
      (requests [(0, 1), (0, 1), (2, 2)])
      (handleVoteMessage (Replica.initializeReplica 1)
        (requests [(0, 1), (0, 1), (2, 2)])).2 :=
  ((voteReplies_truthful_iff (Replica.initializeReplica 1)
    (requests [(0, 1), (0, 1), (2, 2)]) (by decide)).mpr (by decide)).1

/-- Replica 1 takes the requests of replicas 0 and 2 for term 1 in one batch:
its vote is with replica 0, and both replies grant.  In two calls the second
reply would have refused. -/
theorem voteReplies_not_truthful :
    ¬ Truthful (Replica.initializeReplica 1) (requests [(0, 1), (2, 1)])
        (handleVoteMessage (Replica.initializeReplica 1)
          (requests [(0, 1), (2, 1)])).2 ∧
      (handleVoteCalls (Replica.initializeReplica 1)
          [requests [(0, 1)], requests [(2, 1)]]).2 ≠
        (handleVoteMessage (Replica.initializeReplica 1)
          (requests [(0, 1), (2, 1)])).2 := by
  refine ⟨fun h => ?_, by decide⟩
  have hsecond := h.granted 1 _ _ rfl rfl
  revert hsecond
  decide

end RevPiRaft.Ports.VoteReplies
