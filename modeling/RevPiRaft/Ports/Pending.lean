import Mathlib.Data.List.Perm.Subperm
import RevPiRaft.Ports.Events

/-!
# Samples still to be handled

`pending` collects, for one node and topic, every sample that was offered to
the node and that no loop has reached: still in flight, unread in the reader,
or in the rest of a taken batch.  A step never adds a valid sample to it, and
the sample an event handles leaves it (`step_pending`); only a publication of
some replica adds one (`offer_pending`).
-/

namespace RevPiRaft.Ports.Pending

open RevPiRaft.Ports.Datamodel
open RevPiRaft.Ports.Process
open RevPiRaft.Ports.StepInversion
open RevPiRaft.Ports.Events

variable {ι : Type}

/-- Rest of the batch the election thread walks. -/
def threadAppends :
    ElectionThread ι → List (Sample ι AppendEntries)
  | .appendLoop batch => batch
  | .electionLoop _ _ batch => batch
  | _ => []

/-- Rest of the request batch the vote thread walks. -/
def threadRequests : VoteThread ι → List (Sample ι RequestVote)
  | .voteLoop _ _ batch => batch
  | _ => []

/-- Rest of the reply batch the vote thread walks. -/
def threadReplies : VoteThread ι → List (Sample ι RequestVoteReply)
  | .replyLoop _ batch => batch
  | _ => []

/-- `voteGranted` of a running `handle_vote_message`. -/
def threadGranted : VoteThread ι → Bool
  | .voteLoop _ voteGranted _ => voteGranted
  | _ => false

/-- Rest of the batch of topic `t` that some thread walks. -/
def batch (n : Node ι) : (t : Topic) → List (Sample ι t.Msg)
  | .appendEntries => threadAppends n.electionThread
  | .appendEntriesReply => []
  | .requestVote => threadRequests n.voteThread
  | .requestVoteReply => threadReplies n.voteThread

/-- All samples of topic `t` that were offered to the node and that no loop
has reached yet. -/
def pending (n : Node ι) (t : Topic) : List (Sample ι t.Msg) :=
  (n.reader t).inflight ++ (n.reader t).unread ++ batch n t

/-- The sample of topic `t` that an event handles, if any. -/
def handled : Event ι → (t : Topic) → List (Sample ι t.Msg)
  | .append x, .appendEntries => [x]
  | .election _ x, .appendEntries => [x]
  | .vote _ x, .requestVote => [x]
  | .reply x, .requestVoteReply => [x]
  | _, _ => []

@[simp] theorem threadAppends_thread :
    (∀ l : List (Sample ι AppendEntries),
      threadAppends (.appendLoop l) = l) ∧
    (∀ (k : Nat) (f : Bool) (l : List (Sample ι AppendEntries)),
      threadAppends (.electionLoop k f l) = l) ∧
    (∀ (k : Nat) (f : Bool),
      threadAppends (.electionLap k f : ElectionThread ι) = []) ∧
    threadAppends (.appendWait : ElectionThread ι) = [] ∧
    threadAppends (.electionWait : ElectionThread ι) = [] ∧
    threadAppends (.electionPass : ElectionThread ι) = [] := by
  simp [threadAppends]

@[simp] theorem threadRequests_thread :
    (∀ (k : Nat) (v : Bool) (l : List (Sample ι RequestVote)),
      threadRequests (.voteLoop k v l) = l) ∧
    (∀ (k : Nat) (l : List (Sample ι RequestVoteReply)),
      threadRequests (.replyLoop k l) = []) ∧
    (∀ k : Nat, threadRequests (.voteLap k : VoteThread ι) = []) ∧
    threadRequests (.voteWait : VoteThread ι) = [] := by
  simp [threadRequests]

@[simp] theorem threadReplies_thread :
    (∀ (k : Nat) (v : Bool) (l : List (Sample ι RequestVote)),
      threadReplies (.voteLoop k v l) = []) ∧
    (∀ (k : Nat) (l : List (Sample ι RequestVoteReply)),
      threadReplies (.replyLoop k l) = l) ∧
    (∀ k : Nat, threadReplies (.voteLap k : VoteThread ι) = []) ∧
    threadReplies (.voteWait : VoteThread ι) = [] := by
  simp [threadReplies]

@[simp] theorem batch_endAppendLoop (l : List (Sample ι AppendEntries)) :
    threadAppends (endAppendLoop l) = l := by
  cases l <;> rfl

@[simp] theorem batch_endElectionLap (g : List VoteCondition) (k : Nat)
    (f : Bool) :
    threadAppends (endElectionLap g k f : ElectionThread ι) = [] := by
  unfold endElectionLap
  repeat' split
  all_goals rfl

@[simp] theorem batch_endElectionLoop (g : List VoteCondition) (k : Nat)
    (f : Bool) (l : List (Sample ι AppendEntries)) :
    threadAppends (endElectionLoop g k f l) = l := by
  cases l with
  | nil => exact batch_endElectionLap g k f
  | cons x l => rfl

@[simp] theorem endVoteLap_fields (g : List VoteCondition) (k : Nat) :
    threadRequests (endVoteLap g k : VoteThread ι) = [] ∧
      threadReplies (endVoteLap g k : VoteThread ι) = [] ∧
      threadGranted (endVoteLap g k : VoteThread ι) = false := by
  unfold endVoteLap
  split <;> exact ⟨rfl, rfl, rfl⟩

@[simp] theorem requests_endVoteLoop (g : List VoteCondition) (k : Nat)
    (v : Bool) (l : List (Sample ι RequestVote)) :
    threadRequests (endVoteLoop g k v l) = l ∧
      threadReplies (endVoteLoop g k v l) = [] := by
  cases l with
  | nil => exact ⟨(endVoteLap_fields g k).1, (endVoteLap_fields g k).2.1⟩
  | cons x l => exact ⟨rfl, rfl⟩

@[simp] theorem replies_endReplyLoop (g : List VoteCondition) (k : Nat)
    (l : List (Sample ι RequestVoteReply)) :
    threadReplies (endReplyLoop g k l) = l ∧
      threadRequests (endReplyLoop g k l) = [] ∧
      threadGranted (endReplyLoop g k l) = false := by
  cases l with
  | nil =>
      exact ⟨(endVoteLap_fields g k).2.1, (endVoteLap_fields g k).1,
        (endVoteLap_fields g k).2.2⟩
  | cons x l => exact ⟨rfl, rfl, rfl⟩

theorem granted_endVoteLoop (g : List VoteCondition) (k : Nat) (v : Bool)
    (l : List (Sample ι RequestVote))
    (h : threadGranted (endVoteLoop g k v l) = true) : v = true := by
  cases l with
  | nil => simp [endVoteLoop] at h
  | cons x l => exact h

/-- The vote loop handles the head of its batch with its flag. -/
theorem event_vote {n : Node ι} {a : Action ι} {g : Bool}
    {x : Sample ι RequestVote} (h : event n a = .vote g x) :
    ∃ k b, n.voteThread = .voteLoop k g (x :: b) := by
  cases a with
  | voteStep =>
      simp only [event] at h
      split at h
      · rename_i hthread
        cases h
        exact ⟨_, _, hthread⟩
      · cases h
  | _ => grind [event]

/-- Its next iteration handles that head. -/
theorem event_voteStep {n : Node ι} {x : Sample ι RequestVote}
    (h : (threadRequests n.voteThread).head? = some x) :
    event n .voteStep = .vote (threadGranted n.voteThread) x := by
  cases hthread : n.voteThread with
  | voteLoop k g b =>
      cases b with
      | nil => simp [hthread] at h
      | cons y b =>
          have hy : y = x := by simpa [hthread] using h
          simp [event, hthread, hy, threadGranted]
  | _ => simp [hthread] at h

/-- The reply loop handles samples of its batch. -/
theorem event_reply {n : Node ι} {a : Action ι} {x : Sample ι RequestVoteReply}
    (h : event n a = .reply x) : x ∈ threadReplies n.voteThread := by
  cases a with
  | replyStep =>
      simp only [event] at h
      split at h
      · rename_i hthread
        cases h
        simp [hthread]
      · cases h
  | _ => grind [event]

/-- The samples with data. -/
def valid {μ : Type} (l : List (Sample ι μ)) : List (Sample ι μ) :=
  l.filter fun x => x.validData

@[simp] theorem valid_append {μ : Type} (l m : List (Sample ι μ)) :
    valid (l ++ m) = valid l ++ valid m :=
  List.filter_append l m

/-- A loop that moves on to the next sample, or drops more of its batch. -/
theorem valid_iteration {μ : Type} (x : Sample ι μ)
    (inflight unread batch rest : List (Sample ι μ)) (h : rest.Subperm batch) :
    (valid (x :: (inflight ++ (unread ++ rest)))).Subperm
      (valid (inflight ++ (unread ++ x :: batch))) := by
  have hperm : (x :: (inflight ++ (unread ++ batch))).Perm
      (inflight ++ (unread ++ x :: batch)) := by
    rw [← List.append_assoc, ← List.append_assoc]
    exact List.perm_middle.symm
  refine List.Subperm.trans ?_ (hperm.filter _).subperm
  have hrest : (x :: (inflight ++ (unread ++ rest))).Subperm
      (x :: (inflight ++ (unread ++ batch))) :=
    (List.subperm_cons x).mpr
      ((List.Subperm.refl _).append ((List.Subperm.refl _).append h))
  exact hrest.filter _

/-- Moving samples inside one reader, or dropping some, keeps the valid pending
samples among the old ones. -/
theorem valid_pending_update {n : Node ι} {t : Topic} {r : Reader ι t.Msg}
    (hr : (valid (r.inflight ++ r.unread)).Subperm
      (valid ((n.reader t).inflight ++ (n.reader t).unread))) (u : Topic) :
    (valid
      (pending { n with reader := Function.update n.reader t r } u)).Subperm
      (valid (pending n u)) := by
  by_cases hu : u = t
  · subst hu
    have hbatch : batch { n with reader := Function.update n.reader u r } u =
        batch n u := by cases u <;> rfl
    simp only [pending, Function.update_self, hbatch]
    rw [valid_append, valid_append _ (batch n u)]
    exact hr.append (List.Subperm.refl _)
  · have hpending :
        pending { n with reader := Function.update n.reader t r } u =
          pending n u := by
      simp only [pending, Function.update_of_ne hu]
      cases u <;> rfl
    rw [hpending]

/-- A step takes the handled sample out of the pending ones and adds no sample
with data. -/
theorem step_pending {N : Nat} {n n' : Node ι} {a : Action ι}
    {out : List Publication} (h : n.step N a = some (n', out)) (t : Topic) :
    (valid (handled (event n a) t ++ pending n' t)).Subperm
      (valid (pending n t)) := by
  cases step_cases h with
  | deliver u k x hx =>
      refine valid_pending_update (List.Perm.subperm ?_) t
      obtain ⟨hk, hget⟩ := List.getElem?_eq_some_iff.mp hx
      have hperm := List.getElem_cons_eraseIdx_perm hk
      rw [hget] at hperm
      have hmoved : ((n.reader u).inflight.eraseIdx k ++
          ((n.reader u).unread ++ [x])).Perm
          ((n.reader u).inflight ++ (n.reader u).unread) := by
        rw [← List.append_assoc]
        refine (List.perm_append_singleton x _).trans ?_
        exact hperm.append_right (n.reader u).unread
      exact hmoved.filter _
  | dispose u x hx =>
      refine valid_pending_update (List.Perm.subperm ?_) t
      simp [valid, hx]
  | appendStep x b hthread =>
      cases t with
      | appendEntries =>
          simpa [event, handled, pending, batch, hthread] using
            valid_iteration x _ _ b b (List.Subperm.refl _)
      | _ => simp [event, handled, pending, batch, hthread, List.Subperm.refl]
  | electionStep k f x b hthread =>
      cases t with
      | appendEntries =>
          simpa [event, handled, pending, batch, hthread] using
            valid_iteration x _ _ b b (List.Subperm.refl _)
      | _ => simp [event, handled, pending, batch, hthread, List.Subperm.refl]
  | voteStep k v x b hthread =>
      cases t with
      | requestVote =>
          simpa [event, handled, pending, batch, hthread] using
            valid_iteration x _ _ b b (List.Subperm.refl _)
      | _ => simp [event, handled, pending, batch, hthread, List.Subperm.refl]
  | replyStep k x b r hthread =>
      cases t with
      | requestVoteReply =>
          have hrest : (if r.2 = true then [] else b).Subperm b := by
            split
            · exact List.nil_subperm
            · exact List.Subperm.refl _
          simpa [event, handled, pending, batch, hthread] using
            valid_iteration x _ _ b _ hrest
      | _ => simp [event, handled, pending, batch, hthread, List.Subperm.refl]
  | heartbeatReplies =>
      cases t with
      | appendEntriesReply =>
          simpa [event, handled, pending, batch, Node.take] using
            (List.sublist_append_left _ _).subperm
      | _ => simp [event, handled, pending, batch, Node.take, List.Subperm.refl]
  | _ =>
      cases t <;>
        simp [event, handled, pending, batch, Node.take, Node.unread,
          Node.electionSetUp, List.Subperm.refl, *]

/-! ## Heartbeats built and not yet written -/

/-- A waiting heartbeat was waiting before or is built by the step. -/
theorem step_heartbeats {N : Nat} {n n' : Node ι} {a : Action ι}
    {out : List Publication} (h : n.step N a = some (n', out))
    {m : AppendEntries} (hm : m ∈ n'.heartbeats) :
    m ∈ n.heartbeats ∨ ∃ heap, event n a = .build heap ∧
      n.replica.heartbeatMessage heap = some m := by
  cases step_cases h with
  | heartbeatBuild heap b _ _ hb =>
      rcases List.mem_append.mp hm with hold | hnew
      · exact .inl hold
      · rw [List.mem_singleton.mp hnew]
        exact .inr ⟨heap, rfl, hb⟩
  | heartbeatWrite k b hb => exact .inl (List.mem_of_mem_eraseIdx hm)
  | _ => exact .inl hm

/-- A written heartbeat was waiting. -/
theorem write_heartbeats {n : Node ι} {a : Action ι} {m : AppendEntries}
    (h : event n a = .write m) : m ∈ n.heartbeats := by
  cases a with
  | heartbeatWrite k =>
      simp only [event] at h
      split at h <;> cases h
      exact List.mem_of_getElem? ‹_›
  | _ => grind [event]

/-! ## Offering publications to a reader -/

/-- The samples of topic `t` that a step of `r` offers to every replica. -/
def offered (r : ι) (t : Topic) : List Publication → List (Sample ι t.Msg)
  | [] => []
  | p :: out =>
      if h : p.topic = t then
        { validData := true
          publicationHandle := r
          data := h ▸ p.data } :: offered r t out
      else offered r t out

@[simp] theorem offer_control (r : ι) (n : Node ι) (p : Publication) :
    (n.offer r p).replica = n.replica ∧
      (n.offer r p).electionThread = n.electionThread ∧
      (n.offer r p).voteThread = n.voteThread ∧
      (n.offer r p).alarms = n.alarms ∧
      (n.offer r p).heartbeats = n.heartbeats :=
  ⟨rfl, rfl, rfl, rfl, rfl⟩

/-- Offered samples change no replica and no control state. -/
@[simp] theorem offers_control (r : ι) (n : Node ι) (out : List Publication) :
    (out.foldl (Node.offer r) n).replica = n.replica ∧
      (out.foldl (Node.offer r) n).electionThread = n.electionThread ∧
      (out.foldl (Node.offer r) n).voteThread = n.voteThread ∧
      (out.foldl (Node.offer r) n).alarms = n.alarms ∧
      (out.foldl (Node.offer r) n).heartbeats = n.heartbeats := by
  induction out generalizing n with
  | nil => exact ⟨rfl, rfl, rfl, rfl, rfl⟩
  | cons p out ih =>
      rw [List.foldl_cons]
      simpa only [offer_control] using ih (n.offer r p)

theorem offer_batch (r : ι) (n : Node ι) (p : Publication) (t : Topic) :
    batch (n.offer r p) t = batch n t := by
  cases t <;> rfl

/-- An offer adds its sample to the pending ones of its topic. -/
theorem offer_pending (r : ι) (n : Node ι) (p : Publication) (t : Topic) :
    (valid (pending (n.offer r p) t)).Perm
      (valid (pending n t) ++ offered r t [p]) := by
  by_cases h : p.topic = t
  · subst h
    simp only [pending, offer_batch r n p, offered, dite_true]
    rw [Node.offer]
    simp only [Function.update_self, valid_append, List.append_assoc]
    refine List.Perm.append_left _ (List.perm_append_comm.trans ?_)
    rw [List.append_assoc]
    exact List.Perm.refl _
  · have hreader : (n.offer r p).reader t = n.reader t :=
      Function.update_of_ne (Ne.symm h) _ _
    simp only [pending, offer_batch, offered, hreader, dif_neg h,
      List.append_nil, List.Perm.refl]

theorem offers_pending (r : ι) (n : Node ι) (out : List Publication)
    (t : Topic) :
    (valid (pending (out.foldl (Node.offer r) n) t)).Perm
      (valid (pending n t) ++ offered r t out) := by
  induction out generalizing n with
  | nil => simp [offered]
  | cons p out ih =>
      have hsplit : offered r t (p :: out) =
          offered r t [p] ++ offered r t out := by
        simp only [offered]
        split <;> rfl
      rw [List.foldl_cons, hsplit, ← List.append_assoc]
      exact (ih (n.offer r p)).trans ((offer_pending r n p t).append_right _)

/-- An offered sample carries a publication of the step and its publisher. -/
theorem mem_offered {r : ι} {t : Topic} {out : List Publication}
    {x : Sample ι t.Msg} (hx : x ∈ offered r t out) :
    x.validData = true ∧ x.publicationHandle = r ∧ ⟨t, x.data⟩ ∈ out := by
  induction out with
  | nil => cases hx
  | cons p out ih =>
      simp only [offered] at hx
      split at hx
      case isTrue h =>
        subst h
        rcases List.mem_cons.mp hx with hx | hx
        · subst hx
          exact ⟨rfl, rfl, List.mem_cons_self ..⟩
        · have hmem := ih hx
          exact ⟨hmem.1, hmem.2.1, List.mem_cons_of_mem _ hmem.2.2⟩
      case isFalse h =>
        have hmem := ih hx
        exact ⟨hmem.1, hmem.2.1, List.mem_cons_of_mem _ hmem.2.2⟩

end RevPiRaft.Ports.Pending
