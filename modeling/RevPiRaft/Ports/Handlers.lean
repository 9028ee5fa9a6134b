import RevPiRaft.Verified.Progress
import RevPiRaft.Ports.GuardLists
import RevPiRaft.Ports.Mutex
import RevPiRaft.Ports.Loops

/-!
# The handlers return

A thread that has woken up goes through its laps and loops back to its wait.
The steps of this kind make `work` smaller, so only so many of them follow one
another, and in a reachable process one of them is enabled until both threads
are back at their waits: neither waits for the other for ever
(`handlers_return`).

This is about the two threads of `Ports.Process`.  No `SIGALRM` interrupts them
here; `Ports.Deadlock` has the threads with their handlers on top.  Nor may
`run_leader_election` be about to walk past its guard list, which
`Ports.GuardLists` has.
-/

namespace RevPiRaft.Ports.Handlers

open RevPiRaft.Verified.Progress
open RevPiRaft.Ports.Datamodel
open RevPiRaft.Ports.LeaderElection
open RevPiRaft.Ports.Process
open RevPiRaft.Ports.StepInversion
open RevPiRaft.Ports.TermMonotone
open RevPiRaft.Ports.Mutex
open RevPiRaft.Ports.Loops
open RevPiRaft.Ports.Environment
open scoped RevPiRaft.Ports.Cluster

variable {ι : Type} {N : Nat} {ID : UInt8}

/-- The steps by which a thread goes on with what it has begun.  Arrivals,
wake-ups, the time-out of the wait of `runElectionTimer`, the heartbeat
handlers and the main loop are none of them. -/
def Handling : Action ι → Prop
  | .appendStep => True
  | .electionTake => True
  | .electionSkip => True
  | .electionStep => True
  | .electionRestart => True
  | .electionWaitTimeout => True
  | .voteEnter => True
  | .voteStep => True
  | .replyStep => True
  | _ => False

/-! ## What is left to do -/

/-- What is left to the election thread.  A lap may take its batch, and the
last one may be followed by an election set-up and its wait. -/
def electionWork (guardList : List VoteCondition) : ElectionThread ι → Nat
  | .appendWait => 0
  | .appendLoop batch => batch.length
  | .electionWait => 1
  | .electionLap k _ => 2 * (guardList.length - k) + 4
  | .electionLoop k _ batch => 2 * (guardList.length - k) + 3 + batch.length
  | .electionPass => 3

/-- What is left to the vote thread. -/
def voteWork (guardList : List VoteCondition) : VoteThread ι → Nat
  | .voteWait => 0
  | .voteLap k => 2 * (guardList.length - k) + 1
  | .voteLoop k _ batch => 2 * (guardList.length - k) + batch.length
  | .replyLoop k batch => 2 * (guardList.length - k) + batch.length

/-- The unread samples that the two threads may still take. -/
def unreadWork (n : Node ι) : Nat :=
  (n.unread .appendEntries).length + (n.unread .requestVote).length +
    (n.unread .requestVoteReply).length

/-- What is left to both threads. -/
def work (n : Node ι) : Nat :=
  electionWork n.collectVotesGuardList n.electionThread +
    voteWork n.collectVotesGuardList n.voteThread + unreadWork n

theorem electionWork_endAppendLoop (g : List VoteCondition)
    (batch : List (Sample ι AppendEntries)) :
    electionWork g (endAppendLoop batch) = batch.length := by
  cases batch <;> rfl

theorem electionWork_endElectionLap (g : List VoteCondition) (k : Nat)
    (f : Bool) :
    electionWork g (endElectionLap g k f : ElectionThread ι) ≤
      2 * (g.length - k) + 3 := by
  unfold endElectionLap
  split
  · show 2 * (g.length - (k + 1)) + 4 ≤ 2 * (g.length - k) + 3
    omega
  · split
    · exact Nat.zero_le _
    · exact Nat.le_add_left 3 _

theorem electionWork_endElectionLoop (g : List VoteCondition) (k : Nat)
    (f : Bool) (batch : List (Sample ι AppendEntries)) :
    electionWork g (endElectionLoop g k f batch) ≤
      2 * (g.length - k) + 3 + batch.length := by
  cases batch with
  | nil => exact electionWork_endElectionLap g k f
  | cons x batch => exact Nat.le_refl _

theorem voteWork_endVoteLap (g : List VoteCondition) (k : Nat) :
    voteWork g (endVoteLap g k : VoteThread ι) ≤ 2 * (g.length - k) := by
  unfold endVoteLap
  split
  · show 2 * (g.length - (k + 1)) + 1 ≤ 2 * (g.length - k)
    omega
  · exact Nat.zero_le _

theorem voteWork_endVoteLoop (g : List VoteCondition) (k : Nat) (v : Bool)
    (batch : List (Sample ι RequestVote)) :
    voteWork g (endVoteLoop g k v batch) ≤
      2 * (g.length - k) + batch.length := by
  cases batch with
  | nil => exact voteWork_endVoteLap g k
  | cons x batch => exact Nat.le_refl _

theorem voteWork_endReplyLoop (g : List VoteCondition) (k : Nat)
    (batch : List (Sample ι RequestVoteReply)) :
    voteWork g (endReplyLoop g k batch) ≤
      2 * (g.length - k) + batch.length := by
  cases batch with
  | nil => exact voteWork_endVoteLap g k
  | cons x batch => exact Nat.le_refl _

theorem take_unread (n : Node ι) (t u : Topic) :
    (n.take t).unread u = if u = t then [] else n.unread u := by
  unfold Node.unread Node.take
  by_cases hu : u = t
  · subst hu
    simp
  · simp [hu]

theorem unreadWork_take (n : Node ι) {t : Topic}
    (ht : t ≠ .appendEntriesReply) :
    unreadWork (n.take t) + (n.unread t).length = unreadWork n := by
  cases t with
  | appendEntriesReply => exact absurd rfl ht
  | _ =>
      simp only [unreadWork, take_unread, if_true, reduceCtorEq, if_false,
        List.length_nil]
      omega

/-- The election thread has come closer to its wait. -/
theorem work_election {n n' : Node ι}
    (hguard : n'.collectVotesGuardList = n.collectVotesGuardList)
    (hvote : n'.voteThread = n.voteThread)
    (h : electionWork n.collectVotesGuardList n'.electionThread +
        unreadWork n' <
      electionWork n.collectVotesGuardList n.electionThread + unreadWork n) :
    work n' < work n := by
  rw [work, work, hguard, hvote]
  omega

/-- The vote thread has come closer to its wait. -/
theorem work_vote {n n' : Node ι}
    (hguard : n'.collectVotesGuardList = n.collectVotesGuardList)
    (helection : n'.electionThread = n.electionThread)
    (h : voteWork n.collectVotesGuardList n'.voteThread + unreadWork n' <
      voteWork n.collectVotesGuardList n.voteThread + unreadWork n) :
    work n' < work n := by
  rw [work, work, hguard, helection]
  omega

/-- Every step of a handler leaves less to do. -/
theorem work_step {n n' : Node ι} {a : Action ι} {out : List Publication}
    (ha : Handling a) (h : n.step N a = some (n', out)) : work n' < work n := by
  cases step_cases h with
  | appendStep x batch hthread =>
      refine work_election rfl rfl ?_
      rw [hthread, electionWork_endAppendLoop]
      show batch.length + unreadWork n < batch.length + 1 + unreadWork n
      omega
  | electionTake k f hthread hfree =>
      have hloop := electionWork_endElectionLoop n.collectVotesGuardList k f
        (n.unread .appendEntries)
      have htake := unreadWork_take n (t := .appendEntries) (by decide)
      refine work_election rfl rfl ?_
      rw [hthread]
      show electionWork n.collectVotesGuardList (endElectionLoop
          n.collectVotesGuardList k f (n.unread .appendEntries)) +
          unreadWork (n.take .appendEntries) <
        2 * (n.collectVotesGuardList.length - k) + 4 + unreadWork n
      omega
  | electionSkip k f hthread hindex =>
      have hlap := electionWork_endElectionLap (ι := ι)
        n.collectVotesGuardList k f
      refine work_election rfl rfl ?_
      rw [hthread]
      show electionWork n.collectVotesGuardList
          (endElectionLap n.collectVotesGuardList k f : ElectionThread ι) +
          unreadWork n <
        2 * (n.collectVotesGuardList.length - k) + 4 + unreadWork n
      omega
  | electionStep k f x batch hthread =>
      have hloop := electionWork_endElectionLoop n.collectVotesGuardList k
        (electionIteration n.replica f x).2 batch
      refine work_election rfl rfl ?_
      rw [hthread]
      show electionWork n.collectVotesGuardList (endElectionLoop
          n.collectVotesGuardList k (electionIteration n.replica f x).2 batch) +
          unreadWork n <
        2 * (n.collectVotesGuardList.length - k) + 3 + (batch.length + 1) +
          unreadWork n
      omega
  | electionRestart hthread hfree =>
      refine work_election rfl rfl ?_
      rw [hthread]
      show 1 + unreadWork n < 3 + unreadWork n
      omega
  | electionWaitTimeout hthread =>
      refine work_election rfl rfl ?_
      rw [hthread]
      show 0 + unreadWork n < 1 + unreadWork n
      omega
  | voteEnter k hthread hfree hguard =>
      have hloop := voteWork_endVoteLoop n.collectVotesGuardList k false
        (n.unread .requestVote)
      have htake := unreadWork_take n (t := .requestVote) (by decide)
      refine work_vote rfl rfl ?_
      rw [hthread]
      show voteWork n.collectVotesGuardList (endVoteLoop
          n.collectVotesGuardList k false (n.unread .requestVote)) +
          unreadWork (n.take .requestVote) <
        2 * (n.collectVotesGuardList.length - k) + 1 + unreadWork n
      omega
  | replyEnter k hthread hfree hguard =>
      have hloop := voteWork_endReplyLoop n.collectVotesGuardList k
        (n.unread .requestVoteReply)
      have htake := unreadWork_take n (t := .requestVoteReply) (by decide)
      refine work_vote rfl rfl ?_
      rw [hthread]
      show voteWork n.collectVotesGuardList (endReplyLoop
          n.collectVotesGuardList k (n.unread .requestVoteReply)) +
          unreadWork (n.take .requestVoteReply) <
        2 * (n.collectVotesGuardList.length - k) + 1 + unreadWork n
      omega
  | voteStep k v x batch hthread =>
      have hloop := voteWork_endVoteLoop n.collectVotesGuardList k
        (voteIteration n.replica v x).2.1 batch
      refine work_vote rfl rfl ?_
      rw [hthread]
      show voteWork n.collectVotesGuardList (endVoteLoop
          n.collectVotesGuardList k (voteIteration n.replica v x).2.1 batch) +
          unreadWork n <
        2 * (n.collectVotesGuardList.length - k) + (batch.length + 1) +
          unreadWork n
      omega
  | replyStep k x batch r hthread hr =>
      have hloop := voteWork_endReplyLoop n.collectVotesGuardList k
        (if r.2 = true then [] else batch)
      have hrest : (if r.2 = true then [] else batch).length ≤
          batch.length := by
        split
        · exact Nat.zero_le _
        · exact Nat.le_refl _
      refine work_vote rfl rfl ?_
      rw [hthread]
      show voteWork n.collectVotesGuardList (endReplyLoop
          n.collectVotesGuardList k (if r.2 = true then [] else batch)) +
          unreadWork n <
        2 * (n.collectVotesGuardList.length - k) + (batch.length + 1) +
          unreadWork n
      omega
  | _ => exact absurd ha id

/-! ## Where the threads are -/

/-- A loop of the election thread has a sample left. -/
def ElectionUnderway : ElectionThread ι → Prop
  | .appendLoop batch => batch ≠ []
  | .electionLoop _ _ batch => batch ≠ []
  | _ => True

/-- A lap of the vote thread has a condition to look at, and its loops have a
sample left. -/
def VoteUnderway (guardList : List VoteCondition) : VoteThread ι → Prop
  | .voteWait => True
  | .voteLap k => k < guardList.length
  | .voteLoop _ _ batch => batch ≠ []
  | .replyLoop _ batch => batch ≠ []

/-- Neither thread is at a place where it has nothing to go on with. -/
def Underway (n : Node ι) : Prop :=
  ElectionUnderway n.electionThread ∧
    VoteUnderway n.collectVotesGuardList n.voteThread

theorem underway_endAppendLoop (batch : List (Sample ι AppendEntries)) :
    ElectionUnderway (endAppendLoop batch) := by
  cases batch with
  | nil => trivial
  | cons x batch => exact List.cons_ne_nil x batch

theorem underway_endElectionLap (g : List VoteCondition) (k : Nat) (f : Bool) :
    ElectionUnderway (endElectionLap g k f : ElectionThread ι) := by
  unfold endElectionLap
  repeat' split
  all_goals trivial

theorem underway_endElectionLoop (g : List VoteCondition) (k : Nat) (f : Bool)
    (batch : List (Sample ι AppendEntries)) :
    ElectionUnderway (endElectionLoop g k f batch) := by
  cases batch with
  | nil => exact underway_endElectionLap g k f
  | cons x batch => exact List.cons_ne_nil x batch

theorem underway_endVoteLap (g : List VoteCondition) (k : Nat) :
    VoteUnderway g (endVoteLap g k : VoteThread ι) := by
  unfold endVoteLap
  split
  · rename_i hmore
    exact hmore
  · trivial

theorem underway_endVoteLoop (g : List VoteCondition) (k : Nat) (v : Bool)
    (batch : List (Sample ι RequestVote)) :
    VoteUnderway g (endVoteLoop g k v batch) := by
  cases batch with
  | nil => exact underway_endVoteLap g k
  | cons x batch => exact List.cons_ne_nil x batch

theorem underway_endReplyLoop (g : List VoteCondition) (k : Nat)
    (batch : List (Sample ι RequestVoteReply)) :
    VoteUnderway g (endReplyLoop g k batch) := by
  cases batch with
  | nil => exact underway_endVoteLap g k
  | cons x batch => exact List.cons_ne_nil x batch

theorem underway_step {n n' : Node ι} {a : Action ι} {out : List Publication}
    (h : n.step N a = some (n', out)) (hn : Underway n) : Underway n' := by
  obtain ⟨helection, hvote⟩ := hn
  cases step_cases h with
  | appendWake | appendStep => exact ⟨underway_endAppendLoop _, hvote⟩
  | electionTimeout | electionRestart | electionWake | electionWaitTimeout =>
      exact ⟨trivial, hvote⟩
  | electionTake | electionStep =>
      exact ⟨underway_endElectionLoop _ _ _ _, hvote⟩
  | electionSkip => exact ⟨underway_endElectionLap _ _ _, hvote⟩
  | voteWake conditions hthread hnonempty =>
      exact ⟨helection, List.length_pos_of_ne_nil hnonempty⟩
  | voteEnter | voteStep => exact ⟨helection, underway_endVoteLoop _ _ _ _⟩
  | replyEnter | replyStep => exact ⟨helection, underway_endReplyLoop _ _ _⟩
  | _ => exact ⟨helection, hvote⟩

/-- A fact about the node that steps keep and offers do not touch. -/
theorem reachable_invariant {I : Node ι → Prop} (hstart : I (Node.start ID))
    (hstep : ∀ n a n' out, I n → n.step N a = some (n', out) → I n')
    (hoffer : ∀ n r p, I n → I (n.offer r p)) {n : Node ι}
    (h : (openProcess N ID).Reachable n) : I n := by
  obtain ⟨labels, hexec⟩ := h
  have hleads : Leads (openProcess N ID) (fun _ => True)
      (openProcess N ID).init n := ⟨labels, fun _ _ => trivial, hexec⟩
  refine hleads.invariant (fun n a n' out _ hn hnext => ?_) hstart
  cases a with
  | act a => exact hstep n a n' out hn hnext
  | offer r p =>
      cases hnext
      exact hoffer n r p hn

theorem reachable_underway {n : Node ι} (h : (openProcess N ID).Reachable n) :
    Underway n :=
  reachable_invariant ⟨trivial, trivial⟩
    (fun _ _ _ _ hn hstep => underway_step hstep hn) (fun _ _ _ hn => hn) h

/-! ## The guard list of `run_leader_election` -/

/-- A walk of `leaderElection_GuardList` is at its one entry, and its bound,
the length of the other list, does not make it go on. -/
def InBounds (n : Node ι) : Prop :=
  match n.electionThread with
  | .electionLap k _ | .electionLoop k _ _ =>
      k = 0 ∧ n.collectVotesGuardList.length ≤ 1
  | _ => True

/-- So the walk ends with its first lap. -/
theorem inBounds_endElectionLap {n : Node ι} {f : Bool}
    (hshort : n.collectVotesGuardList.length ≤ 1)
    (hthread : n.electionThread = endElectionLap n.collectVotesGuardList 0 f) :
    InBounds n := by
  rw [InBounds, hthread, endElectionLap, if_neg (by omega)]
  cases f <;> trivial

theorem inBounds_endElectionLoop {n : Node ι} {f : Bool}
    {batch : List (Sample ι AppendEntries)}
    (hshort : n.collectVotesGuardList.length ≤ 1)
    (hthread : n.electionThread =
      endElectionLoop n.collectVotesGuardList 0 f batch) : InBounds n := by
  cases batch with
  | nil => exact inBounds_endElectionLap hshort hthread
  | cons x batch =>
      rw [InBounds, hthread]
      exact ⟨rfl, hshort⟩

theorem inBounds_step {n n' : Node ι} {a : Action ι} {out : List Publication}
    (ha : Handling a) (h : n.step N a = some (n', out)) (hn : InBounds n) :
    InBounds n' := by
  cases step_cases h with
  | appendStep x batch =>
      cases batch <;> trivial
  | electionTake k f hthread =>
      rw [InBounds, hthread] at hn
      obtain ⟨rfl, hshort⟩ := hn
      exact inBounds_endElectionLoop hshort rfl
  | electionSkip k f hthread hindex =>
      rw [InBounds, hthread] at hn
      omega
  | electionStep k f x batch hthread =>
      rw [InBounds, hthread] at hn
      obtain ⟨rfl, hshort⟩ := hn
      exact inBounds_endElectionLoop hshort rfl
  | electionRestart | electionWaitTimeout => trivial
  | voteEnter | replyEnter | voteStep | replyStep => exact hn
  | _ => exact absurd ha id

/-! ## The handlers return -/

/-- Both threads are at the waits of their outer loops. -/
def Waiting (n : Node ι) : Prop :=
  n.electionThread = .appendWait ∧ n.voteThread = .voteWait

/-- Waiting threads do not hold the mutex. -/
theorem Waiting.mutexFree {n : Node ι} (h : Waiting n) :
    n.mutexFree = true := by
  rw [Node.mutexFree, h.1, h.2]
  rfl

/-- A step that is enabled contradicts that no handler can go on. -/
theorem not_stuck {n n' : Node ι} {a : Action ι} {out : List Publication}
    (hstuck : ∀ a, Handling a → n.step N a = none) (ha : Handling a)
    (h : Step N n a n' out) : False := by
  have henabled := h.step_eq
  rw [hstuck a ha] at henabled
  cases henabled

/-- Where no handler can go on, both threads are at their waits. -/
theorem stuck_waiting {n : Node ι} (hunderway : Underway n)
    (hcandidacy : Candidacy n.replica)
    (hstuck : ∀ a, Handling a → n.step N a = none) : Waiting n := by
  obtain ⟨helection, hvote⟩ := hunderway
  -- no thread is inside a loop, so the mutex is free
  have hunlocked : n.electionThread.unlocked = true := by
    cases hthread : n.electionThread with
    | appendLoop batch =>
        rw [hthread] at helection
        obtain ⟨x, rest, rfl⟩ := List.exists_cons_of_ne_nil helection
        exact (not_stuck (a := .appendStep) hstuck trivial
          (.appendStep x rest hthread)).elim
    | electionLoop k f batch =>
        rw [hthread] at helection
        obtain ⟨x, rest, rfl⟩ := List.exists_cons_of_ne_nil helection
        exact (not_stuck (a := .electionStep) hstuck trivial
          (.electionStep k f x rest hthread)).elim
    | _ => rfl
  have hwait : n.voteThread = .voteWait := by
    cases hthread : n.voteThread with
    | voteWait => rfl
    | voteLap k =>
        have hfree : n.mutexFree = true := by
          rw [mutexFree_iff, hthread]
          exact ⟨hunlocked, rfl⟩
        rw [hthread] at hvote
        have hguard := List.getElem?_eq_getElem hvote
        cases hc : n.collectVotesGuardList[k] with
        | requestVote =>
            rw [hc] at hguard
            exact (not_stuck (a := .voteEnter) hstuck trivial
              (.voteEnter k hthread hfree hguard)).elim
        | requestVoteReply =>
            rw [hc] at hguard
            exact (not_stuck (a := .voteEnter) hstuck trivial
              (.replyEnter k hthread hfree hguard)).elim
    | voteLoop k g batch =>
        rw [hthread] at hvote
        obtain ⟨x, rest, rfl⟩ := List.exists_cons_of_ne_nil hvote
        exact (not_stuck (a := .voteStep) hstuck trivial
          (.voteStep k g x rest hthread)).elim
    | replyLoop k batch =>
        rw [hthread] at hvote
        obtain ⟨x, rest, rfl⟩ := List.exists_cons_of_ne_nil hvote
        obtain ⟨r, hr⟩ := Option.isSome_iff_exists.mp
          (voteReplyIteration_isSome (N := N) hcandidacy.isSome x)
        exact (not_stuck (a := .replyStep) hstuck trivial
          (.replyStep k x rest r hthread hr)).elim
  have hfree : n.mutexFree = true := by
    rw [mutexFree_iff, hwait]
    exact ⟨hunlocked, rfl⟩
  refine ⟨?_, hwait⟩
  cases hthread : n.electionThread with
  | appendWait => rfl
  | electionWait =>
      exact (not_stuck (a := .electionWaitTimeout) hstuck trivial
        (.electionWaitTimeout hthread)).elim
  | electionLap k f =>
      exact (not_stuck (a := .electionTake) hstuck trivial
        (.electionTake k f hthread (.inr hfree))).elim
  | electionPass =>
      exact (not_stuck (a := .electionRestart) hstuck trivial
        (.electionRestart hthread hfree)).elim
  | appendLoop batch | electionLoop k f batch =>
      rw [hthread] at hunlocked
      cases hunlocked

/-- Steps of the process on its own are moves among arbitrary publishers. -/
theorem reachable_leads {ID' : UInt8} {P : Action ι → Prop} {n n' : Node ι}
    (h : (openProcess N ID).Reachable n)
    (hleads : Leads (process N ID') P n n') :
    (openProcess N ID).Reachable n' :=
  hleads.invariant (fun _ a _ _ _ hn hstep => hn.next (a := .act a) hstep) h

/-- From every reachable state of a process that is not about to walk past its
guard list, the handlers take at most `work` steps and stay within the list,
where none of them can go on both threads are at their waits, and so they all
come to return. -/
theorem handlers_return {n : Node ι} (h : (openProcess N ID).Reachable n)
    (hbounds : InBounds n) :
    (∀ as n', (∀ a ∈ as, Handling a) →
      (process N ID).exec n as = some n' → as.length ≤ work n) ∧
    (∀ n', Leads (process N ID) Handling n n' →
      InBounds n' ∧
        ((∀ a, Handling a → n'.step N a = none) → Waiting n')) ∧
    ∃ n', Leads (process N ID) Handling n n' ∧ Waiting n' := by
  have hwork : ∀ (n : Node ι) a n' out, Handling a →
      (process N ID).step n a = some (n', out) → work n' < work n :=
    fun n a n' out ha hstep => work_step ha hstep
  have hwaiting : ∀ n', Leads (process N ID) Handling n n' →
      (∀ a, Handling a → n'.step N a = none) → Waiting n' := by
    intro n' hleads hstuck
    have hreachable := reachable_leads h hleads
    exact stuck_waiting (reachable_underway hreachable)
      (reachable_candidacy hreachable) hstuck
  have hinside : ∀ n', Leads (process N ID) Handling n n' → InBounds n' :=
    fun _ hleads => hleads.invariant (I := InBounds)
      (fun _ _ _ _ ha hm hstep => inBounds_step ha hstep hm) hbounds
  refine ⟨fun as n' has hexec => ?_,
    fun n' hleads => ⟨hinside n' hleads, hwaiting n' hleads⟩, ?_⟩
  · have hbound := exec_length_le work hwork has hexec
    omega
  · obtain ⟨n', hleads, hstuck⟩ := exists_stuck work hwork n
    exact ⟨n', hleads, hwaiting n' hleads hstuck⟩

/-- A request and a heartbeat wake the two threads of the candidate 1. -/
def bothAwake : ReplicaRun (Fin 3) 3 1 where
  labels :=
    [.act .electionTimeout,
      .offer 2 ⟨.requestVote, { term := 1, senderID := 2 }⟩,
      .offer 2 ⟨.appendEntries,
        { term := 1
          senderID := 2
          prevLogIndex := 0
          prevLogTerm := 0
          entries := [] }⟩,
      .act (.deliver .requestVote 0), .act (.deliver .appendEntries 0),
      .act (.voteWake [.requestVote]), .act .electionWake]
  executes := by decide +kernel

/-- Both return. -/
theorem handlers_return_bothAwake :
    ∃ n', Leads (process 3 1) Handling (bothAwake.state 7) n' ∧ Waiting n' :=
  (handlers_return (bothAwake.reachable 7)
    (show 0 = 0 ∧ 1 ≤ 1 from ⟨rfl, Nat.le_refl 1⟩)).2.2

end RevPiRaft.Ports.Handlers
