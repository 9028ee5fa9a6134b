import Mathlib.Data.List.Nodup
import RevPiRaft.Verified.Refinement
import RevPiRaft.Ports.Environment
import RevPiRaft.Ports.StepInversion
import RevPiRaft.Ports.Sections

/-!
# The threads refine the process

`Ports.Process` holds the mutex from the first iteration of a loop to its last
and lets nothing come in between; the threads of `Ports.Signals` interleave
operation by operation.  Every critical section of `Ports.Sections` is
something that a waiting process among arbitrary publishers does: they offer
the samples that the section reads (`exists_section`).  So, as long as no wait
of `run_leader_election` comes back, the replica of the threads is, whenever
the mutex is free, that of a run of the process (`threads_refine`).
-/

namespace RevPiRaft.Ports.ThreadRefinement

open RevPiRaft.Verified.Runs
open RevPiRaft.Verified.Progress
open RevPiRaft.Verified.Refinement
open RevPiRaft.Ports.Datamodel
open RevPiRaft.Ports.ReplicaCore
open RevPiRaft.Ports.LeaderElection
open RevPiRaft.Ports.ConsensusManager
open RevPiRaft.Ports.Process
open RevPiRaft.Ports.StepInversion
open RevPiRaft.Ports.Environment
open RevPiRaft.Ports.Loops
open RevPiRaft.Ports.Ownership
open RevPiRaft.Ports.Sections

variable {ι : Type} {N : Nat} {ID : UInt8}

/-- Some moves among arbitrary publishers lead from `n` to `n'`. -/
abbrev Does (N : Nat) (ID : UInt8) (n n' : Node ι) : Prop :=
  Leads (openProcess N ID) (fun _ => True) n n'

theorem does_step {n n' : Node ι} {a : Action ι} {out : List Publication}
    (h : Step N n a n' out) : Does N ID n n' :=
  Leads.step (a := .act a) trivial h.step_eq

theorem does_exec {n n' : Node ι} {as : List (Action ι)}
    (h : (Loops.process N ID).exec n as = some n') : Does N ID n n' := by
  have hleads : Leads (Loops.process N ID) (fun _ => True) n n' :=
    ⟨as, fun _ _ => trivial, h⟩
  apply hleads.invariant (I := Does N ID n)
  · intro m a m' out _ hm hstep
    exact hm.trans (Leads.step (a := .act a) trivial hstep)
  · exact .refl n

/-! ## Waiting processes -/

/-- The election thread is at `e`, the vote thread waits, and the readers are
empty.  The wake-ups of the vote thread have had one lap. -/
structure Idle (e : ElectionThread ι) (n : Node ι) : Prop where
  election : n.electionThread = e
  vote : n.voteThread = .voteWait
  guardList : n.collectVotesGuardList.length ≤ 1
  reader : n.reader = fun _ => { inflight := [], unread := [] }

section Idle

variable {e : ElectionThread ι} {n : Node ι}

theorem Idle.mutexFree (hn : Idle e n) (he : e.unlocked = true) :
    n.mutexFree = true := by
  rw [Node.mutexFree, hn.election, hn.vote, he]
  rfl

/-- The node with `batch` to be read from the reader of `t`. -/
def withUnread (n : Node ι) (t : Topic) (batch : List (Sample ι t.Msg)) :
    Node ι :=
  { n with
    reader := Function.update n.reader t
      { inflight := []
        unread := batch } }

@[simp] theorem withUnread_unread (n : Node ι) (t : Topic)
    (batch : List (Sample ι t.Msg)) :
    (withUnread n t batch).unread t = batch := by
  simp [withUnread, Node.unread]

theorem Idle.withUnread_nil (hn : Idle e n) (t : Topic) :
    withUnread n t [] = n := by
  rw [withUnread, hn.reader, Function.update_eq_self_iff.mpr rfl, ← hn.reader]

/-- Reading empties the reader again. -/
theorem Idle.take_withUnread (hn : Idle e n) (t : Topic)
    (batch : List (Sample ι t.Msg)) : (withUnread n t batch).take t = n := by
  have htake : (withUnread n t batch).take t = withUnread n t [] := by
    simp [withUnread, Node.take]
  rw [htake, hn.withUnread_nil]

/-- Samples with any contents arrive in any order. -/
theorem does_arrive (n : Node ι) (t : Topic) (l batch : List (Sample ι t.Msg)) :
    Does N ID (withUnread n t l) (withUnread n t (l ++ batch)) := by
  induction batch generalizing l with
  | nil =>
      rw [List.append_nil]
      exact .refl _
  | cons x batch ih =>
      have hnext :
          Does N ID (withUnread n t l) (withUnread n t (l ++ [x])) := by
        cases hx : x.validData with
        | false =>
            have hstep : Does N ID (withUnread n t l) _ :=
              does_step (.dispose t x hx)
            simpa [withUnread] using hstep
        | true =>
            have hoffer : Does N ID (withUnread n t l)
                ((withUnread n t l).offer x.publicationHandle ⟨t, x.data⟩) :=
              Leads.step (a := .offer _ _) trivial rfl
            have hdeliver : Does N ID
                ((withUnread n t l).offer x.publicationHandle ⟨t, x.data⟩) _ :=
              does_step (.deliver t 0 x (by
                simp [withUnread, Node.offer, ← hx]))
            simpa [withUnread, Node.offer] using hoffer.trans hdeliver
      have hrest := ih (l ++ [x])
      rw [List.append_assoc] at hrest
      exact hnext.trans hrest

/-- The sample of `x` without its data. -/
def disposed {t : Topic} (x : Sample ι t.Msg) : Sample ι t.Msg :=
  { x with validData := false }

/-- Where `n` waits, `m` is about to read `batch` from the reader of `t`. -/
structure Ready (e : ElectionThread ι) (t : Topic)
    (batch : List (Sample ι t.Msg)) (n m : Node ι) : Prop where
  election : m.electionThread = e
  vote : m.voteThread = .voteWait
  guardList : m.collectVotesGuardList = n.collectVotesGuardList
  wake : m.triggered t = true
  unread : m.unread t = batch
  take : m.take t = n

/-- A waiting process comes to read any batch that is not empty, with a sample
before it that wakes the process and is skipped. -/
theorem Idle.exists_ready (hn : Idle e n) (t : Topic)
    (x : Sample ι t.Msg) (batch : List (Sample ι t.Msg)) :
    ∃ m, Does N ID n m ∧ Ready e t (disposed x :: batch) n m := by
  have harrive : Does N ID (withUnread n t []) _ :=
    does_arrive n t [] (disposed x :: batch)
  rw [hn.withUnread_nil] at harrive
  refine ⟨_, harrive, hn.election, hn.vote, rfl, ?_, ?_,
    hn.take_withUnread t _⟩
  · rw [Node.triggered]
    simp [withUnread, queryCondition, disposed]
  · exact withUnread_unread n t _

theorem Ready.mutexFree {t : Topic} {batch : List (Sample ι t.Msg)}
    {m : Node ι} (h : Ready e t batch n m) (he : e.unlocked = true) :
    m.mutexFree = true := by
  rw [Node.mutexFree, h.election, h.vote, he]
  rfl

/-! ## Sections -/

/-- `runElectionTimer` handles its batch. -/
theorem Ready.does_runElectionTimer {batch : List (Sample ι AppendEntries)}
    {m : Node ι} (h : Ready .appendWait .appendEntries batch n m) :
    Does N ID m { n with
      replica := (n.replica.runElectionTimerBatch batch).1
      electionThread := .appendWait } := by
  have hwake : Does N ID m _ :=
    does_step (.appendWake h.election h.wake (h.mutexFree rfl))
  rw [h.take, h.unread] at hwake
  exact hwake.trans (does_exec (appendLoop_exec ID _ batch rfl))

/-- `handle_vote_message` handles its batch in the only lap of a wake-up. -/
theorem Ready.does_handleVoteMessage {batch : List (Sample ι RequestVote)}
    {m : Node ι} (h : Ready e .requestVote batch n m)
    (he : e.unlocked = true) :
    Does N ID m { n with
      replica := (handleVoteMessage n.replica batch).1
      collectVotesGuardList := [.requestVote]
      voteThread := .voteWait } := by
  have hwake : Does N ID m { m with
      collectVotesGuardList := [.requestVote]
      voteThread := .voteLap 0 } :=
    does_step (.voteWake [.requestVote] h.vote (List.cons_ne_nil _ _)
      (List.nodup_singleton _) (List.forall_mem_singleton.mpr h.wake))
  have henter : Does N ID { m with
      collectVotesGuardList := [.requestVote]
      voteThread := .voteLap 0 } { m.take .requestVote with
      collectVotesGuardList := [.requestVote]
      voteThread := endVoteLoop [.requestVote] 0 false
        (m.unread .requestVote) } :=
    does_step (.voteEnter 0 rfl
      (by rw [Node.mutexFree, h.election, he]; rfl) rfl)
  rw [h.take, h.unread] at henter
  exact hwake.trans (henter.trans
    (does_exec (voteLoop_exec ID _ 0 false batch rfl)))

/-- `handle_vote_reply_message` likewise. -/
theorem Ready.does_handleVoteReplyMessage
    {batch : List (Sample ι RequestVoteReply)} {m : Node ι} {s : Replica}
    (h : Ready e .requestVoteReply batch n m) (he : e.unlocked = true)
    (hs : handleVoteReplyMessage N n.replica batch = some s) :
    Does N ID m { n with
      replica := s
      collectVotesGuardList := [.requestVoteReply]
      voteThread := .voteWait } := by
  have hwake : Does N ID m { m with
      collectVotesGuardList := [.requestVoteReply]
      voteThread := .voteLap 0 } :=
    does_step (.voteWake [.requestVoteReply] h.vote (List.cons_ne_nil _ _)
      (List.nodup_singleton _) (List.forall_mem_singleton.mpr h.wake))
  have henter : Does N ID { m with
      collectVotesGuardList := [.requestVoteReply]
      voteThread := .voteLap 0 } { m.take .requestVoteReply with
      collectVotesGuardList := [.requestVoteReply]
      voteThread := endReplyLoop [.requestVoteReply] 0
        (m.unread .requestVoteReply) } :=
    does_step (.replyEnter 0 rfl
      (by rw [Node.mutexFree, h.election, he]; rfl) rfl)
  rw [h.take, h.unread] at henter
  obtain ⟨k, -, hexec⟩ := replyLoop_exec ID { n with
    collectVotesGuardList := [.requestVoteReply]
    voteThread := endReplyLoop [.requestVoteReply] 0 batch } 0 batch rfl hs
  exact hwake.trans (henter.trans (does_exec hexec))

/-- What a section of the vote thread or of the main thread does to the
replica, a process does wherever its election thread is unlocked. -/
theorem Idle.exists_section (hn : Idle e n) (he : e.unlocked = true)
    {c : Threads.Code} {s : Replica} (hc : c ≠ .runElectionTimer)
    (h : Section ι N n.replica c s) :
    ∃ n', Does N ID n n' ∧ Idle e n' ∧ n'.replica = s := by
  cases h with
  | runElectionTimer | runLeaderElection => exact absurd rfl hc
  | handleVoteMessage batch =>
      cases batch with
      | nil => exact ⟨n, .refl n, hn, rfl⟩
      | cons x batch =>
          obtain ⟨m, harrive, hready⟩ :=
            hn.exists_ready .requestVote x (x :: batch)
          exact ⟨_, harrive.trans (hready.does_handleVoteMessage he),
            ⟨hn.election, rfl, Nat.le_refl 1, hn.reader⟩, rfl⟩
  | handleVoteReplyMessage batch s hs =>
      cases batch with
      | nil =>
          cases hs
          exact ⟨n, .refl n, hn, rfl⟩
      | cons x batch =>
          obtain ⟨m, harrive, hready⟩ :=
            hn.exists_ready .requestVoteReply x (x :: batch)
          exact ⟨_, harrive.trans (hready.does_handleVoteReplyMessage he hs),
            ⟨hn.election, rfl, Nat.le_refl 1, hn.reader⟩, rfl⟩
  | main batch =>
      exact ⟨_, does_step (.input batch (hn.mutexFree he)),
        ⟨hn.election, hn.vote, hn.guardList, hn.reader⟩, rfl⟩

/-- The loop of `runElectionTimer`, from its wait to its wait. -/
theorem Idle.exists_runElectionTimer (hn : Idle .appendWait n)
    (batch : List (Sample ι AppendEntries)) :
    ∃ n', Does N ID n n' ∧ Idle .appendWait n' ∧
      n'.replica = (n.replica.runElectionTimerBatch batch).1 := by
  cases batch with
  | nil => exact ⟨n, .refl n, hn, rfl⟩
  | cons x batch =>
      obtain ⟨m, harrive, hready⟩ :=
        hn.exists_ready .appendEntries x (x :: batch)
      exact ⟨_, harrive.trans hready.does_runElectionTimer,
        ⟨rfl, hn.vote, hn.guardList, hn.reader⟩, rfl⟩

/-- The first set-up of `run_leader_election`. -/
theorem Idle.exists_setUp (hn : Idle .appendWait n)
    (hrole : n.replica.role ≠ .leader) :
    ∃ n', Does N ID n n' ∧ Idle .electionWait n' ∧
      n'.replica = (startElection n.replica).1 :=
  ⟨_, does_step (.electionTimeout hn.election (hn.mutexFree rfl) hrole),
    ⟨rfl, hn.vote, hn.guardList, hn.reader⟩, rfl⟩

/-- The wait of `run_leader_election` times out. -/
theorem Idle.exists_return (hn : Idle .electionWait n) :
    ∃ n', Does N ID n n' ∧ Idle .appendWait n' ∧ n'.replica = n.replica :=
  ⟨_, does_step (.electionWaitTimeout hn.election),
    ⟨rfl, hn.vote, hn.guardList, hn.reader⟩, rfl⟩

end Idle

/-- A waiting process does what a section does to the replica. -/
theorem exists_section {n : Node ι} {c : Threads.Code} {s : Replica}
    (hn : Idle .appendWait n) (h : Section ι N n.replica c s) :
    ∃ n', Does N ID n n' ∧ Idle .appendWait n' ∧ n'.replica = s := by
  cases h with
  | runElectionTimer batch => exact hn.exists_runElectionTimer batch
  | runLeaderElection hrole =>
      obtain ⟨m, hstart, hm, hreplica⟩ := hn.exists_setUp hrole
      obtain ⟨n', hreturn, hn', hsame⟩ := hm.exists_return
      exact ⟨n', hstart.trans hreturn, hn', hsame.trans hreplica⟩
  | handleVoteMessage batch =>
      exact hn.exists_section rfl (by decide) (.handleVoteMessage batch)
  | handleVoteReplyMessage batch s hs =>
      exact hn.exists_section rfl (by decide)
        (.handleVoteReplyMessage batch s hs)
  | main batch => exact hn.exists_section rfl (by decide) (.main batch)

/-! ## Runs -/

/-- The threads among which no wait of `run_leader_election` comes back are
simulated by the process: sections in order, and nothing to read. -/
def threadSimulation (ι : Type) (N : Nat) (ID : UInt8) :
    WeakSimulation (Signals.process (ι := ι) N ID) (openProcess (ι := ι) N ID)
      (fun p e => ∀ t r, e = .run t r →
        nextOp p t ≠ some (.wait .leaderElection)) where
  Rel := fun p n => Idle .appendWait n ∧ Ordered N n.replica p
  init := ⟨⟨rfl, rfl, Nat.zero_le 1, rfl⟩, .start N ID⟩
  step := by
    intro p n e q out hquiet hstep hrel
    obtain ⟨hn, hordered⟩ := hrel
    obtain ⟨q', hq', heq⟩ := Option.map_eq_some_iff.mp hstep
    cases heq
    rcases hordered.step (Signals.step_cases hq') hquiet with
      hsame | ⟨c, s, hsection, hnext⟩
    · exact ⟨n, .refl n, hn, hsame⟩
    · obtain ⟨n', hdoes, hidle, rfl⟩ := exists_section hn hsection
      exact ⟨n', hdoes, hidle, hnext⟩

section Runs

variable (run : Run (Signals.process (ι := ι) N ID))

theorem run_behind
    (hquiet : ∀ i t r, run.labels[i]? = some (.run t r) →
      nextOp (run.state i) t ≠ some (.wait .leaderElection)) :
    ∃ run' f, (threadSimulation ι N ID).Behind run run.length run' f :=
  (threadSimulation ι N ID).exists_behind run fun i hi t r hlabel => by
    apply hquiet i t r
    rw [← hlabel]
    exact List.getElem?_eq_getElem hi

/-- The sections start from what the replica of a process comes to be. -/
theorem run_ordered
    (hquiet : ∀ i t r, run.labels[i]? = some (.run t r) →
      nextOp (run.state i) t ≠ some (.wait .leaderElection))
    {i : Nat} (hi : i ≤ run.length) :
    ∃ n, (openProcess (ι := ι) N ID).Reachable n ∧
      Ordered N n.replica (run.state i) := by
  obtain ⟨run', f, hbehind⟩ := run_behind run hquiet
  exact ⟨_, run'.reachable (f i), (hbehind.state i hi).2⟩

/-- However the operations of the threads and of their handlers are
interleaved, as long as no wait of `run_leader_election` comes back there is a
run of the process that passes, in the same order, the states of the replica in
which the mutex is free. -/
theorem threads_refine
    (hquiet : ∀ i t r, run.labels[i]? = some (.run t r) →
      nextOp (run.state i) t ≠ some (.wait .leaderElection)) :
    ∃ (run' : ReplicaRun ι N ID) (f : Nat → Nat),
      (∀ i j, i ≤ j → f i ≤ f j) ∧ ∀ i, i ≤ run.length →
        f i ≤ run'.length ∧ ((run.state i).owner = none →
          run'.replica (f i) = (run.state i).replica) := by
  obtain ⟨run', f, hbehind⟩ := run_behind run hquiet
  refine ⟨run', f, hbehind.monotone, fun i hi => ⟨hbehind.le_length i, ?_⟩⟩
  intro hfree
  obtain ⟨-, hordered⟩ := hbehind.state i hi
  cases hordered with
  | between howner hreplica houtside => exact hreplica.symm
  | within self howner hinside houtside =>
      rw [howner] at hfree
      cases hfree

end Runs

/-- Replica 2 wins term 1, its main thread waking in the middle of the
election set-up, and the thread that has won unlocks the mutex. -/
def wonTerm : Run (Signals.process (ι := Unit) 3 2) where
  labels := .run .electionTimer .timeout ::
    List.replicate 5 (.run .electionTimer .done) ++
    [.run .main (.triggered [])] ++
    List.replicate 6 (.run .electionTimer .done) ++
    [.run .requestVote (.triggered [.requestVoteReply]),
      .run .requestVote .done,
      .run .requestVote (.requestVoteReply Signals.grantForTwo)] ++
    List.replicate 14 (.run .requestVote .done)
  executes := by decide +kernel

/-- So the process wins it too. -/
theorem threads_refine_wonTerm :
    ∃ (run' : ReplicaRun Unit 3 2) (j : Nat),
      j ≤ run'.length ∧ (run'.replica j).role = .leader := by
  obtain ⟨run', f, -, hstate⟩ :=
    threads_refine wonTerm (quiet_of_check wonTerm (by decide +kernel))
  obtain ⟨hlength, hreplica⟩ := hstate 30 (by decide)
  refine ⟨run', f 30, hlength, ?_⟩
  rw [hreplica (by decide +kernel)]
  decide +kernel

end RevPiRaft.Ports.ThreadRefinement
