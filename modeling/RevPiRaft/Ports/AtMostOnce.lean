import RevPiRaft.Ports.VoteCounting

/-!
# Every message is handled at most once

Along a run the samples that a replica has handled and those still pending at
it are counted against what the cluster has published: with multiplicities
there are never more.  So every message is handled at most once by each
replica, and a replica writes at most one reply to each request for votes and
to each heartbeat (`at_most_once`).
-/

namespace RevPiRaft.Ports.AtMostOnce

open RevPiRaft.Verified.Runs
open RevPiRaft.Ports.Datamodel
open RevPiRaft.Ports.ReplicaCore
open RevPiRaft.Ports.Process
open RevPiRaft.Ports.Events
open RevPiRaft.Ports.Reactions
open RevPiRaft.Ports.Pending
open RevPiRaft.Ports.Cluster
open RevPiRaft.Ports.History
open RevPiRaft.Ports.VoteCounting
open Execution

variable {ι : Type} [DecidableEq ι] {cfg : Config ι}

/-! ## What has been published and handled -/

/-- The samples of topic `t` that the first steps have offered to every
replica, one for each publication. -/
def published (run : Execution cfg) (t : Topic) : Nat → List (Sample ι t.Msg)
  | 0 => []
  | i + 1 =>
      match run.labels[i]? with
      | none => published run t i
      | some a => published run t i ++ offered a.1 t (run.output i)

/-- What replica `r` handles in a step. -/
def handles (r : ι) (t : Topic) (w : World ι) (a : ι × Action ι) :
    List (Sample ι t.Msg) :=
  if a.1 = r then valid (handled (event (w.node r) a.2) t) else []

/-- The valid samples of topic `t` that replica `r` has handled. -/
def handledBy (run : Execution cfg) (r : ι) (t : Topic) :
    Nat → List (Sample ι t.Msg) :=
  run.history [] fun w a before => before ++ handles r t w a

variable {run : Execution cfg}

theorem published_succ {i : Nat} {r : ι} {e : Event ι} (he : run.Occurs i r e)
    (t : Topic) :
    published run t (i + 1) =
      published run t i ++ offered r t (run.output i) := by
  obtain ⟨a, hlabel, -⟩ := he
  rw [published, hlabel]

theorem handledBy_succ {i : Nat} {a : ι} {e : Event ι} (he : run.Occurs i a e)
    (r : ι) (t : Topic) :
    handledBy run r t (i + 1) =
      handledBy run r t i ++ (if r = a then valid (handled e t) else []) := by
  obtain ⟨b, hlabel, rfl⟩ := he
  obtain ⟨hi, hget⟩ := List.getElem?_eq_some_iff.mp hlabel
  rw [handledBy, Run.history_succ _ _ _ _ hi,
    show run.label i hi = (a, b) from hget, handles]
  by_cases hr : r = a
  · subst hr
    rw [if_pos rfl, if_pos rfl]
    rfl
  · rw [if_neg hr, if_neg fun heq => hr heq.symm]

/-! ## Nothing is handled twice -/

/-- With multiplicities, what has been handled and what is pending has been
published. -/
theorem handled_subperm {i : Nat} (hi : i ≤ run.length) (r : ι) (t : Topic) :
    (handledBy run r t i ++ run.pending i r t).Subperm (published run t i) := by
  refine induction_on (P := fun i =>
    (handledBy run r t i ++ run.pending i r t).Subperm (published run t i))
    ?_ (fun i a e he ih => ?_) i hi
  · have hnone : run.pending 0 r t = [] := by
      rw [Execution.pending, node_zero]
      cases t <;> rfl
    rw [hnone]
    exact List.Subperm.refl _
  · rw [handledBy_succ he, published_succ he, List.append_assoc]
    refine ((List.Subperm.refl _).append (he.pending r t)).trans ?_
    rw [← List.append_assoc]
    exact ih.append (List.Subperm.refl _)

/-! ## Replies -/

/-- The topic of the replies to the messages of a topic. -/
def replyTopic : Topic → Option Topic
  | .appendEntries => some .appendEntriesReply
  | .requestVote => some .requestVoteReply
  | _ => none

omit [DecidableEq ι] in
theorem offered_publicationHandle {r : ι} {t : Topic} {out : List Publication} :
    ∀ x ∈ offered r t out, x.publicationHandle = r :=
  fun _ hx => (mem_offered hx).2.1

omit [DecidableEq ι] in
/-- An event writes at most one reply to what it handles. -/
theorem React.replies {N : Nat} {s s' : Replica} {e : Event ι}
    {out : List Publication} (h : React N s e s' out) (r : ι) {t u : Topic}
    (hu : replyTopic t = some u) :
    (offered r u out).length ≤ (valid (handled e t)).length := by
  cases t with
  | appendEntriesReply | requestVoteReply => cases hu
  | appendEntries | requestVote =>
      cases hu
      cases h <;> simp_all [offered, handled, valid, appendReply, voteReply]

/-- The replies that replica `r` has written on topic `u`. -/
def repliesOf (run : Execution cfg) (r : ι) (u : Topic) (i : Nat) :
    List (Sample ι u.Msg) :=
  (published run u i).filter fun x => x.publicationHandle = r

theorem replies_le {i : Nat} (hi : i ≤ run.length) (r : ι) {t u : Topic}
    (hu : replyTopic t = some u) :
    (repliesOf run r u i).length ≤ (handledBy run r t i).length := by
  refine induction_on (P := fun i => (repliesOf run r u i).length ≤
    (handledBy run r t i).length) (Nat.le_refl 0) (fun i a e he ih => ?_) i hi
  rw [repliesOf, published_succ he, handledBy_succ he, List.filter_append,
    List.length_append, List.length_append]
  refine Nat.add_le_add ih ?_
  by_cases hr : r = a
  · subst hr
    rw [if_pos rfl]
    exact Nat.le_trans (List.length_filter_le _ _) (React.replies he.react r hu)
  · have hnone : ((offered a u (run.output i)).filter fun x =>
        x.publicationHandle = r) = [] := by
      refine List.filter_eq_nil_iff.mpr fun x hx => ?_
      rw [offered_publicationHandle x hx]
      simpa using fun heq => hr heq.symm
    rw [hnone]
    exact Nat.zero_le _

/-- In every run, counted with multiplicities, what a replica has handled and
what is pending at it has been published, and it has written at most as many
replies as messages of the kind have been published. -/
theorem at_most_once (run : Execution cfg) {i : Nat} (hi : i ≤ run.length)
    (r : ι) (t : Topic) :
    (handledBy run r t i ++ run.pending i r t).Subperm (published run t i) ∧
    ∀ u, replyTopic t = some u →
      (repliesOf run r u i).length ≤ (handledBy run r t i).length ∧
      (handledBy run r t i).length ≤ (published run t i).length := by
  have hsubperm := handled_subperm hi r t
  refine ⟨hsubperm, fun u hu => ⟨replies_le hi r hu, ?_⟩⟩
  have hlength := hsubperm.length_le
  rw [List.length_append] at hlength
  omega

/-- Replica 0 has answered the one request of an election once. -/
theorem at_most_once_election :
    (repliesOf election 0 .requestVoteReply election.length).length ≤ 1 := by
  obtain ⟨-, hreplies⟩ := at_most_once election (Nat.le_refl _) 0 .requestVote
  obtain ⟨hhandled, hpublished⟩ := hreplies .requestVoteReply rfl
  have hone : (published election .requestVote election.length).length = 1 := by
    decide +kernel
  omega

end RevPiRaft.Ports.AtMostOnce
