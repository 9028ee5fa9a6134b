import RevPiRaft.Ports.Environment

/-!
# The walks over the guard lists

A wait stores the triggered conditions of its wait set in a guard list, and the
thread walks the list in a `do`-`while` loop.  `receive_vote_requests` walks
`collectVotes_GuardList` up to its own length.  `run_leader_election` walks
`leaderElection_GuardList`, which has one entry, up to the length of
`collectVotes_GuardList`, which the vote thread refills at any time.  Its walk
stays within the list exactly where that length is at most one whenever the
bound is tested.
-/

namespace RevPiRaft.Ports.GuardLists

open RevPiRaft.Verified.Runs
open RevPiRaft.Ports.Datamodel
open RevPiRaft.Ports.Process
open RevPiRaft.Ports.StepInversion
open RevPiRaft.Ports.Environment

variable {ι : Type} {N : Nat} {ID : UInt8}

/-- Every condition of the list has been handled once, and no other. -/
def HandledOnce {α : Type} [DecidableEq α] (handled guardList : List α) :
    Prop :=
  ∀ c, handled.count c = if c ∈ guardList then 1 else 0

theorem handledOnce_self {α : Type} [DecidableEq α] {guardList : List α}
    (h : guardList.Nodup) : HandledOnce guardList guardList :=
  fun _ => h.count

/-! ## `receive_vote_requests` -/

/-- The conditions the vote thread has handled since its wait last returned. -/
def updateVoteHandled (n : Node ι) :
    Move ι → List VoteCondition → List VoteCondition
  | .act (.voteWake _), _ => []
  | .act .voteEnter, handled =>
      match n.voteThread with
      | .voteLap k => handled ++ n.collectVotesGuardList[k]?.toList
      | _ => handled
  | _, handled => handled

def voteHandled (run : ReplicaRun ι N ID) : Nat → List VoteCondition :=
  run.history [] updateVoteHandled

/-- Where the vote thread is in its walk: lap `k` comes after the first `k`
conditions, and the wait after all of them. -/
def VoteWalk (guardList handled : List VoteCondition) : VoteThread ι → Prop
  | .voteWait => handled = guardList
  | .voteLap k => k < guardList.length ∧ handled = guardList.take k
  | .voteLoop k _ _ => k < guardList.length ∧ handled = guardList.take (k + 1)
  | .replyLoop k _ => k < guardList.length ∧ handled = guardList.take (k + 1)

theorem VoteWalk.afterLap {guardList handled : List VoteCondition} {k : Nat}
    (h : handled = guardList.take (k + 1)) :
    VoteWalk guardList handled (endVoteLap guardList k : VoteThread ι) := by
  unfold endVoteLap
  by_cases hmore : k + 1 < guardList.length
  · rw [if_pos hmore]
    exact ⟨hmore, h⟩
  · rw [if_neg hmore]
    exact h.trans (List.take_of_length_le (by omega))

theorem VoteWalk.afterRequests {guardList handled : List VoteCondition}
    {k : Nat} (hk : k < guardList.length) (h : handled = guardList.take (k + 1))
    (g : Bool) (batch : List (Sample ι RequestVote)) :
    VoteWalk guardList handled (endVoteLoop guardList k g batch) := by
  cases batch with
  | nil => exact .afterLap h
  | cons x batch => exact ⟨hk, h⟩

theorem VoteWalk.afterReplies {guardList handled : List VoteCondition} {k : Nat}
    (hk : k < guardList.length) (h : handled = guardList.take (k + 1))
    (batch : List (Sample ι RequestVoteReply)) :
    VoteWalk guardList handled (endReplyLoop guardList k batch) := by
  cases batch with
  | nil => exact .afterLap h
  | cons x batch => exact ⟨hk, h⟩

/-- A lap handles the condition at its position. -/
theorem take_handled {guardList : List VoteCondition} {k : Nat}
    {c : VoteCondition} (hc : guardList[k]? = some c) :
    k < guardList.length ∧
      guardList.take k ++ guardList[k]?.toList = guardList.take (k + 1) :=
  ⟨(List.getElem?_eq_some_iff.mp hc).1, List.take_add_one.symm⟩

theorem VoteWalk.step {n n' : Node ι} {a : Move ι} {out : List Publication}
    (hnext : (openProcess N ID).step n a = some (n', out))
    {handled : List VoteCondition}
    (h : n.collectVotesGuardList.Nodup ∧
      VoteWalk n.collectVotesGuardList handled n.voteThread) :
    n'.collectVotesGuardList.Nodup ∧
      VoteWalk n'.collectVotesGuardList (updateVoteHandled n a handled)
        n'.voteThread := by
  obtain ⟨hnodup, hwalk⟩ := h
  cases a with
  | offer r p =>
      cases hnext
      exact ⟨hnodup, hwalk⟩
  | act a =>
      have hstep : Step N n a n' out := step_cases hnext
      cases hstep with
      | voteWake conditions hthread hnonempty hnodup' =>
          exact ⟨hnodup', List.length_pos_of_ne_nil hnonempty, rfl⟩
      | voteEnter k hthread hfree hguard =>
          rw [hthread] at hwalk
          obtain ⟨hk, htake⟩ := take_handled hguard
          refine ⟨hnodup, .afterRequests hk ?_ _ _⟩
          rw [updateVoteHandled, hthread, hwalk.2]
          exact htake
      | replyEnter k hthread hfree hguard =>
          rw [hthread] at hwalk
          obtain ⟨hk, htake⟩ := take_handled hguard
          refine ⟨hnodup, .afterReplies hk ?_ _⟩
          rw [updateVoteHandled, hthread, hwalk.2]
          exact htake
      | voteStep k g x batch hthread =>
          rw [hthread] at hwalk
          exact ⟨hnodup, .afterRequests hwalk.1 hwalk.2 _ _⟩
      | replyStep k x batch r hthread hr =>
          rw [hthread] at hwalk
          exact ⟨hnodup, .afterReplies hwalk.1 hwalk.2 _⟩
      | _ => exact ⟨hnodup, hwalk⟩

/-! ## `run_leader_election` -/

/-- The one condition attached to `leaderElection_WaitSet`. -/
inductive ElectionCondition where
  | electionTimer
deriving DecidableEq

/-- `leaderElection_GuardList`, and the conditions that the election thread has
handled since its wait last returned with triggered conditions. -/
structure WakeUp where
  guardList : List ElectionCondition
  handled : List ElectionCondition

/-- A wait that ends with at least one and at most as many conditions as are
attached stores the one condition.  A lap that finds it takes the samples. -/
def updateElectionWakeUp : Node ι → Move ι → WakeUp → WakeUp
  | _, .act .electionWake, _ =>
      { guardList := [.electionTimer]
        handled := [] }
  | _, .act .electionTake, w =>
      { w with handled := w.handled ++ [.electionTimer] }
  | _, _, w => w

def electionWakeUp (run : ReplicaRun ι N ID) : Nat → WakeUp :=
  run.history ⟨[], []⟩ updateElectionWakeUp

/-- The election thread is in no lap of its walk. -/
def OutsideWalk : ElectionThread ι → Prop
  | .electionLap _ _ => False
  | .electionLoop _ _ _ => False
  | _ => True

/-- Where the election thread is in a walk of one lap. -/
def ElectionWalk (w : WakeUp) : ElectionThread ι → Prop
  | .electionLap k _ =>
      k = 0 ∧ w.guardList = [.electionTimer] ∧ w.handled = []
  | .electionLoop k _ _ =>
      k = 0 ∧ w.guardList = [.electionTimer] ∧ w.handled = [.electionTimer]
  | _ => w.guardList.Nodup ∧ w.handled = w.guardList

/-- The action ends a lap, so the bound of the loop is tested. -/
def TestsBound (n : Node ι) : Action ι → Prop
  | .electionTake => n.unread .appendEntries = []
  | .electionSkip => True
  | .electionStep => ∃ k f x, n.electionThread = .electionLoop k f [x]
  | _ => False

theorem ElectionWalk.afterLap {w : WakeUp}
    {guardList : List VoteCondition} (hshort : guardList.length ≤ 1)
    (hw : w.guardList = [.electionTimer] ∧ w.handled = [.electionTimer])
    (f : Bool) :
    ElectionWalk w (endElectionLap guardList 0 f : ElectionThread ι) := by
  have hlast : ¬ 0 + 1 < guardList.length := by omega
  have hdone : w.guardList.Nodup ∧ w.handled = w.guardList := by
    rw [hw.1, hw.2]
    exact ⟨by simp, rfl⟩
  rw [endElectionLap, if_neg hlast]
  cases f <;> exact hdone

/-- A walk stays one of a single lap if the vote thread's list is short enough
where the bound is tested. -/
theorem ElectionWalk.step {n n' : Node ι} {a : Move ι} {out : List Publication}
    (hnext : (openProcess N ID).step n a = some (n', out)) {w : WakeUp}
    (hshort : ∀ b, a = .act b → TestsBound n b →
      n.collectVotesGuardList.length ≤ 1)
    (h : ElectionWalk w n.electionThread) :
    ElectionWalk (updateElectionWakeUp n a w) n'.electionThread := by
  cases a with
  | offer r p =>
      cases hnext
      exact h
  | act a =>
      have hstep : Step N n a n' out := step_cases hnext
      have hshort := hshort a rfl
      cases hstep with
      | appendWake hthread =>
          rw [hthread] at h
          show ElectionWalk w (endAppendLoop _)
          cases n.unread .appendEntries <;> exact h
      | appendStep x batch hthread =>
          rw [hthread] at h
          show ElectionWalk w (endAppendLoop _)
          cases batch <;> exact h
      | electionTimeout hthread | electionRestart hthread
      | electionWaitTimeout hthread =>
          rw [hthread] at h
          exact h
      | electionWake hthread => exact ⟨rfl, rfl, rfl⟩
      | electionTake k f hthread hfree =>
          rw [hthread] at h
          obtain ⟨rfl, hlist, hnone⟩ := h
          have hw : (updateElectionWakeUp n (.act .electionTake) w).guardList =
                [.electionTimer] ∧
              (updateElectionWakeUp n (.act .electionTake) w).handled =
                [.electionTimer] := by
            simp [updateElectionWakeUp, hlist, hnone]
          show ElectionWalk _ (endElectionLoop _ _ _ _)
          cases hbatch : n.unread .appendEntries with
          | nil => exact .afterLap (hshort hbatch) hw f
          | cons x batch => exact ⟨rfl, hw⟩
      | electionSkip k f hthread hindex =>
          rw [hthread] at h
          have hfirst : k = 0 := h.1
          omega
      | electionStep k f x batch hthread =>
          rw [hthread] at h
          obtain ⟨rfl, hw⟩ := h
          show ElectionWalk w (endElectionLoop _ _ _ _)
          cases batch with
          | nil => exact .afterLap (hshort ⟨0, f, x, hthread⟩) hw _
          | cons y batch => exact ⟨rfl, hw⟩
      | _ => exact h

/-- The list is short enough where the bound is tested if no second lap
follows. -/
theorem ElectionWalk.short {n n' : Node ι} {a : Action ι}
    {out : List Publication} (hnext : n.step N a = some (n', out)) {w : WakeUp}
    (h : ElectionWalk w n.electionThread) (htest : TestsBound n a)
    (hlap : ∀ k f, n'.electionThread = .electionLap k f → k = 0) :
    n.collectVotesGuardList.length ≤ 1 := by
  by_contra hlong
  have hmore : 0 + 1 < n.collectVotesGuardList.length := by omega
  have hend : ∀ f, (endElectionLap n.collectVotesGuardList 0 f :
      ElectionThread ι) = .electionLap 1 f := fun f => if_pos hmore
  have hstep : Step N n a n' out := step_cases hnext
  cases hstep with
  | electionTake k f hthread hfree =>
      rw [hthread] at h
      obtain ⟨rfl, -⟩ := h
      have hbatch : n.unread .appendEntries = [] := htest
      have hzero := hlap 1 f (by
        show endElectionLoop _ _ _ (n.unread .appendEntries) = _
        rw [hbatch]
        exact hend f)
      omega
  | electionSkip k f hthread hindex =>
      rw [hthread] at h
      have hfirst : k = 0 := h.1
      omega
  | electionStep k f x batch hthread =>
      obtain ⟨k', f', x', hlast⟩ := htest
      rw [hthread] at h hlast
      obtain ⟨rfl, -⟩ := h
      cases hlast
      have hzero := hlap 1 _ (hend _)
      omega
  | _ => exact htest.elim

/-! ## Along a run -/

/-- In every state of the run both loops are about to read within the list they
walk, and when a walk is over every condition of its list has been handled
once. -/
structure GuardListsWalked (run : ReplicaRun ι N ID) : Prop where
  votePosition : ∀ i, i ≤ run.length → ∀ k,
    (run.state i).voteThread = .voteLap k →
    k < (run.state i).collectVotesGuardList.length
  voteOnce : ∀ i, i ≤ run.length → (run.state i).voteThread = .voteWait →
    HandledOnce (voteHandled run i) (run.state i).collectVotesGuardList
  electionPosition : ∀ i, i ≤ run.length → ∀ k f,
    (run.state i).electionThread = .electionLap k f →
    k < (electionWakeUp run i).guardList.length
  electionOnce : ∀ i, i ≤ run.length →
    OutsideWalk (run.state i).electionThread →
    HandledOnce (electionWakeUp run i).handled (electionWakeUp run i).guardList

/-- Wherever the bound of the loop of `run_leader_election` is tested,
`collectVotes_GuardList` has at most one entry. -/
def ShortWhereTested (run : ReplicaRun ι N ID) : Prop :=
  ∀ i a, run.labels[i]? = some (.act a) → TestsBound (run.state i) a →
    (run.state i).collectVotesGuardList.length ≤ 1

variable (run : ReplicaRun ι N ID)

theorem vote_walk {i : Nat} (hi : i ≤ run.length) :
    (run.state i).collectVotesGuardList.Nodup ∧
      VoteWalk (run.state i).collectVotesGuardList (voteHandled run i)
        (run.state i).voteThread := by
  refine run.induction (P := fun i =>
    (run.state i).collectVotesGuardList.Nodup ∧
      VoteWalk (run.state i).collectVotesGuardList (voteHandled run i)
        (run.state i).voteThread) ?_ ?_ i hi
  · rw [Run.state_zero]
    exact ⟨List.nodup_nil, rfl⟩
  · intro i hi hnext ih
    rw [voteHandled, Run.history_succ _ _ _ _ hi]
    exact VoteWalk.step hnext ih

/-- `leaderElection_GuardList` has one entry at most. -/
theorem electionWakeUp_length {i : Nat} (hi : i ≤ run.length) :
    (electionWakeUp run i).guardList.length ≤ 1 := by
  refine run.induction (P := fun i =>
    (electionWakeUp run i).guardList.length ≤ 1) (Nat.zero_le 1) ?_ i hi
  intro i hi _ ih
  rw [electionWakeUp, Run.history_succ _ _ _ _ hi]
  unfold updateElectionWakeUp
  split
  · exact Nat.le_refl _
  · exact ih
  · exact ih

/-- Without a second lap every walk of `run_leader_election` is complete. -/
theorem election_walk
    (hshort : ∀ i, (hi : i < run.length) →
      ElectionWalk (electionWakeUp run i) (run.state i).electionThread →
      ∀ a, run.label i hi = .act a → TestsBound (run.state i) a →
        (run.state i).collectVotesGuardList.length ≤ 1)
    {i : Nat} (hi : i ≤ run.length) :
    ElectionWalk (electionWakeUp run i) (run.state i).electionThread := by
  refine run.induction (P := fun i =>
    ElectionWalk (electionWakeUp run i) (run.state i).electionThread)
    ?_ ?_ i hi
  · rw [Run.state_zero]
    exact ⟨List.nodup_nil, rfl⟩
  · intro i hi hnext ih
    rw [electionWakeUp, Run.history_succ _ _ _ _ hi]
    exact ElectionWalk.step hnext (hshort i hi ih) ih

theorem label_getElem? {i : Nat} (hi : i < run.length) {a : Move ι}
    (h : run.label i hi = a) : run.labels[i]? = some a := by
  rw [← h]
  exact List.getElem?_eq_getElem hi

/-- A second lap reads past the list, so there is none. -/
theorem GuardListsWalked.short {run : ReplicaRun ι N ID}
    (h : GuardListsWalked run) {i : Nat} (hi : i < run.length)
    (hwalk : ElectionWalk (electionWakeUp run i) (run.state i).electionThread)
    {a : Action ι} (ha : run.label i hi = .act a)
    (htest : TestsBound (run.state i) a) :
    (run.state i).collectVotesGuardList.length ≤ 1 := by
  have hnext := run.next i hi
  rw [ha] at hnext
  refine ElectionWalk.short hnext hwalk htest ?_
  intro k f hlap
  have hread := h.electionPosition (i + 1) hi k f hlap
  have hone := electionWakeUp_length run (i := i + 1) hi
  omega

/-- The walk of `receive_vote_requests` is always within its list and complete.
Both walks are, exactly where `collectVotes_GuardList` has at most one entry
whenever `run_leader_election` tests its bound. -/
theorem guardLists_walked_iff :
    GuardListsWalked run ↔ ShortWhereTested run := by
  constructor
  · intro h i a hlabel htest
    obtain ⟨hi, hget⟩ := List.getElem?_eq_some_iff.mp hlabel
    have hwalk := election_walk run
      (fun i hi hwalk a => h.short hi hwalk) (Nat.le_of_lt hi)
    exact h.short hi hwalk hget htest
  · intro hshort
    have hwalk : ∀ i, i ≤ run.length →
        ElectionWalk (electionWakeUp run i) (run.state i).electionThread :=
      fun i hi => election_walk run
        (fun i hi _ a ha => hshort i a (label_getElem? run hi ha)) hi
    constructor
    case votePosition =>
      intro i hi k hthread
      obtain ⟨-, hvote⟩ := vote_walk run hi
      rw [hthread] at hvote
      exact hvote.1
    case voteOnce =>
      intro i hi hthread
      obtain ⟨hnodup, hvote⟩ := vote_walk run hi
      rw [hthread] at hvote
      have hall : voteHandled run i = (run.state i).collectVotesGuardList :=
        hvote
      rw [hall]
      exact handledOnce_self hnodup
    case electionPosition =>
      intro i hi k f hthread
      have helection := hwalk i hi
      rw [hthread] at helection
      obtain ⟨rfl, hlist, -⟩ := helection
      rw [hlist]
      exact Nat.zero_lt_one
    case electionOnce =>
      intro i hi houtside
      have helection := hwalk i hi
      have hdone : (electionWakeUp run i).guardList.Nodup ∧
          (electionWakeUp run i).handled =
            (electionWakeUp run i).guardList := by
        cases hthread : (run.state i).electionThread <;>
          rw [hthread] at helection houtside <;>
          first
            | exact helection
            | exact houtside.elim
      rw [hdone.2]
      exact handledOnce_self hdone.1

/-- The vote thread of the candidate 1 wakes on a request and a reply.  Then a
heartbeat wakes its election thread, which tests its bound against the two
entries of the other list. -/
def secondLap : ReplicaRun (Fin 3) 3 1 where
  labels :=
    [.act .electionTimeout,
      .offer 2 ⟨.requestVote, { term := 1, senderID := 2 }⟩,
      .offer 2 ⟨.requestVoteReply,
        { senderID := 2
          term := 1
          candidateID := 2
          voteGranted := 0 }⟩,
      .offer 2 ⟨.appendEntries,
        { term := 1
          senderID := 2
          prevLogIndex := 0
          prevLogTerm := 0
          entries := [] }⟩,
      .act (.deliver .requestVote 0), .act (.deliver .requestVoteReply 0),
      .act (.deliver .appendEntries 0),
      .act (.voteWake [.requestVote, .requestVoteReply]),
      .act .electionWake, .act .electionTake, .act .electionStep,
      .act .electionSkip]
  executes := by decide +kernel

/-- It reads position 1 of a list of one entry. -/
theorem secondLap_not_walked : ¬ GuardListsWalked secondLap := by
  intro h
  have hread : 1 < (electionWakeUp secondLap 11).guardList.length :=
    h.electionPosition 11 (by decide) 1 true (by rfl)
  revert hread
  decide +kernel

end RevPiRaft.Ports.GuardLists
