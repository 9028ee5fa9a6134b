import RevPiRaft.Ports.AppendReplies
import RevPiRaft.Ports.ThreadRefinement

/-!
# The later passes of `run_leader_election`

Behind its wait `run_leader_election` does not hold the mutex.  Another pass
assigns and unlocks all the same, and the caller unlocks once more when the
function has returned.  `Ports.Process` has the set-up of such a pass as one
step, and that unlock without effect.

This is what the threads do as long as nobody else owns the mutex while the
election thread is at these places (`Undisturbed`).  Then the replica is,
whenever the mutex is free and the election thread is at none of them, that of
a run of the process (`undisturbed_refines`).
-/

namespace RevPiRaft.Ports.LaterPasses

open RevPiRaft.Verified.Runs
open RevPiRaft.Verified.Refinement
open RevPiRaft.Ports.Datamodel
open RevPiRaft.Ports.ReplicaCore
open RevPiRaft.Ports.LeaderElection
open RevPiRaft.Ports.Process
open RevPiRaft.Ports.Environment
open RevPiRaft.Ports.Loops
open RevPiRaft.Ports.AppendReplies
open RevPiRaft.Ports.Threads
open RevPiRaft.Ports.Signals
open RevPiRaft.Ports.Ownership
open RevPiRaft.Ports.Sections
open RevPiRaft.Ports.ThreadRefinement

variable {ι : Type} {N : Nat} {ID : UInt8}

/-! ## The condition -/

/-- The election thread, without a handler on top of it. -/
abbrev electionCode : Thread × Layer := (.electionTimer, .code)

/-- The operations of an election set-up. -/
def setsUp : Op ι → Bool
  | .assign _ | .incrementTerm | .copyTerm | .voteSelf => true
  | _ => false

/-- The operations of the election thread that disturb others, and are disturbed
by them, if they are performed without the mutex. -/
def exposed : Op ι → Bool
  | .unlock => true
  | o => setsUp o

/-- The election thread is next to perform such an operation. -/
def Exposed (p : Signals.Process ι) : Prop :=
  (p.code .electionTimer).head?.any exposed = true

instance (p : Signals.Process ι) : Decidable (Exposed p) :=
  inferInstanceAs (Decidable (_ = _))

/-- Then nobody else owns the mutex. -/
def Undisturbed (p : Signals.Process ι) : Prop :=
  Exposed p → p.owner = none ∨ p.owner = some electionCode

instance (p : Signals.Process ι) : Decidable (Undisturbed p) :=
  inferInstanceAs (Decidable (_ → _))

/-! ## The election thread outside of its sections -/

/-- What follows the call of `run_leader_election`. -/
def returned : List (Op ι) := [.leave, .unlock, .wait .appendEntries]

/-- What follows an election set-up. -/
def waitForVotes : List (Op ι) := .unlock :: .wait .leaderElection :: returned

/-- Where the process is while the threads are in `run_leader_election` with
`election_finished`: it leaves the function with the sample that sets the
flag. -/
def place (electionFinished : Bool) : ElectionThread ι :=
  if electionFinished then .appendWait else .electionWait

theorem place_unlocked (f : Bool) :
    (place f : ElectionThread ι).unlocked = true := by
  cases f <;> rfl

/-- The code of the election thread outside of its sections, with the place of
the process. -/
inductive Outer : ElectionThread ι → List (Op ι) → Prop where
  | appendWait : Outer .appendWait [.wait .appendEntries]
  | timeout : Outer .appendWait [.lock, .timerTimeout]
  | read : Outer .appendWait [.lock, .appendRead]
  | returnLoan : Outer .appendWait
      [.returnLoan .runElectionTimer, .wait .appendEntries]
  | electionWait : Outer .electionWait (.wait .leaderElection :: returned)
  | electionLap (f : Bool) : Outer (place f) (.electionLap f :: returned)
  | electionNext (f : Bool) : Outer (place f) (.electionNext f :: returned)
  | electionRead (f : Bool) : Outer (place f) (.electionRead f :: returned)
  | electionLock (f : Bool) (batch : List (Sample ι AppendEntries)) :
      Outer (place f) (.lock :: .electionLoop f batch :: returned)
  | electionLoan (f : Bool) :
      Outer (place f)
        (.returnLoan .runLeaderElection :: .electionNext f :: returned)
  | leave : Outer .appendWait returned
  | unlock : Outer .appendWait [.unlock, .wait .appendEntries]

theorem Outer.unlocked {e : ElectionThread ι} {ops : List (Op ι)}
    (h : Outer e ops) : e.unlocked = true := by
  cases h <;> first | rfl | exact place_unlocked _

/-- What the process does meanwhile, from one of its places to another. -/
inductive Advance (ι : Type) (s : Replica) :
    Replica → ElectionThread ι → ElectionThread ι → Prop where
  | stay (e : ElectionThread ι) : Advance ι s s e e
  | giveUp : Advance ι s s .electionWait .appendWait
  | setUp (hrole : s.role ≠ .leader) :
      Advance ι s (startElection s).1 .appendWait .electionWait
  | restart : Advance ι s (startElection s).1 .electionWait .electionWait
  | runElectionTimer (batch : List (Sample ι AppendEntries)) :
      Advance ι s (s.runElectionTimerBatch batch).1 .appendWait .appendWait
  | runLeaderElection (f : Bool) (batch : List (Sample ι AppendEntries)) :
      Advance ι s (electionBatch s f batch).1 (place f)
        (place (electionBatch s f batch).2)

/-- Outside of its sections the election thread goes on, gives up, or starts
another pass. -/
theorem Outer.perform (p : Signals.Process ι) (s₀ : Replica)
    {e : ElectionThread ι} {s : Replica} {o : Op ι} {r : Threads.Result ι}
    {new rest : List (Op ι)} (h : Outer e (o :: rest)) (hlock : o ≠ .lock)
    (hunlock : o = .unlock → p.owner = none)
    (ho : perform N s o r = some new) :
    runOp s o = s ∧ p.ownerAfter electionCode o = p.owner ∧
      ((∃ e', Advance ι s₀ s₀ e e' ∧ Outer e' (new ++ rest)) ∨
        (e = .electionWait ∧ new ++ rest = electionPass ++ returned)) := by
  cases h with
  | timeout | read | electionLock => exact absurd rfl hlock
  | appendWait =>
      refine ⟨rfl, rfl, .inl ⟨_, .stay _, ?_⟩⟩
      cases perform_cases ho with
      | wait w r new h =>
          cases r <;> cases h
          · exact .timeout
          · exact .read
          · exact .read
  | returnLoan =>
      cases perform_cases ho
      exact ⟨rfl, rfl, .inl ⟨_, .stay _, .appendWait⟩⟩
  | electionWait =>
      refine ⟨rfl, rfl, .inl ?_⟩
      cases perform_cases ho with
      | wait w r new h =>
          cases r <;> cases h
          · exact ⟨_, .giveUp, .leave⟩
          · exact ⟨_, .stay _, .electionLap false⟩
  | electionLap f =>
      refine ⟨rfl, rfl, .inl ⟨_, .stay _, ?_⟩⟩
      cases perform_cases ho with
      | electionFound => exact .electionRead f
      | electionMissed => exact .electionNext f
  | electionNext f =>
      refine ⟨rfl, rfl, ?_⟩
      cases perform_cases ho with
      | electionAgain => exact .inl ⟨_, .stay _, .electionLap f⟩
      | electionFinished => exact .inl ⟨_, .stay _, .leave⟩
      | electionPass => exact .inr ⟨rfl, rfl⟩
  | electionRead f =>
      refine ⟨rfl, rfl, .inl ⟨_, .stay _, ?_⟩⟩
      cases perform_cases ho with
      | electionEmpty => exact .electionNext f
      | electionRead _ x batch => exact .electionLock f (x :: batch)
  | electionLoan f =>
      cases perform_cases ho
      exact ⟨rfl, rfl, .inl ⟨_, .stay _, .electionNext f⟩⟩
  | leave =>
      cases perform_cases ho
      exact ⟨rfl, rfl, .inl ⟨_, .stay _, .unlock⟩⟩
  | unlock =>
      cases perform_cases ho
      exact ⟨rfl, (hunlock rfl).symm, .inl ⟨_, .stay _, .appendWait⟩⟩

/-! ## Inside of its sections -/

/-- An election set-up. -/
def electionSetUp : List (Op ι) :=
  [.assign (.role .candidate), .incrementTerm, .copyTerm, .voteSelf,
    .assign (.votesReceived 1)]

/-- What is left of an election set-up that the replica entered as `s₀` and that
has made `s` of it so far. -/
structure SettingUp (N : Nat) (s₀ s : Replica) (left : List (Op ι)) : Prop where
  all : left.all setsUp = true
  alone : Alone N s left (startElection s₀).1 []

theorem settingUp_start (N : Nat) (s : Replica) :
    SettingUp (ι := ι) N s s electionSetUp where
  all := rfl
  alone := alone_setUp (.refl _ _)

theorem inner_of_setsUp {o : Op ι} (h : setsUp o = true) : inner o = true := by
  cases o <;> first | rfl | cases h

theorem exposed_of_setsUp {o : Op ι} (h : setsUp o = true) :
    exposed o = true := by
  cases o <;> first | rfl | cases h

theorem setsUp_perform {s : Replica} {o : Op ι} {r : Threads.Result ι}
    {new : List (Op ι)} (ho : setsUp o = true)
    (h : perform N s o r = some new) : new.all setsUp = true := by
  cases perform_cases h <;> first | rfl | cases ho

theorem SettingUp.head {s₀ s : Replica} {o : Op ι} {left : List (Op ι)}
    (h : SettingUp N s₀ s (o :: left)) : setsUp o = true := by
  have hall := h.all
  rw [List.all_cons, Bool.and_eq_true] at hall
  exact hall.1

theorem SettingUp.perform {s₀ s : Replica} {o : Op ι} {r : Threads.Result ι}
    {left new : List (Op ι)} (h : SettingUp N s₀ s (o :: left))
    (ho : perform N s o r = some new) :
    SettingUp N s₀ (runOp s o) (new ++ left) := by
  have hall := h.all
  rw [List.all_cons, h.head] at hall
  constructor
  · rw [List.all_append, setsUp_perform h.head ho]
    exact hall
  · exact (alone_perform (inner_of_setsUp h.head) h.alone ho).1

/-- With nothing left the set-up is done. -/
theorem SettingUp.done {s₀ s : Replica}
    (h : SettingUp (ι := ι) N s₀ s []) : s = (startElection s₀).1 := by
  cases h.alone
  rfl

/-- The test of a term in the loop of `run_leader_election`. -/
def testTerm (s : Replica) (electionFinished : Bool) (receivedTerm : UInt32) :
    Replica × Bool :=
  if receivedTerm = s.currentTerm then
    (if s.role ≠ .follower then s.becomeFollower receivedTerm else s, true)
  else (s, electionFinished)

/-- What is left of a loop of `run_leader_election` and of the unlock behind
it, with the replica and `election_finished` that it ends with. -/
inductive Looping (u : Replica × Bool) : Replica → List (Op ι) → Prop where
  | loop {s : Replica} (f : Bool) (batch : List (Sample ι AppendEntries))
      (h : electionBatch s f batch = u) :
      Looping u s (.electionLoop f batch :: returned)
  | test {s : Replica} (f : Bool) (receivedTerm : UInt32)
      (batch : List (Sample ι AppendEntries))
      (h : electionBatch (testTerm s f receivedTerm).1
        (testTerm s f receivedTerm).2 batch = u) :
      Looping u s (.electionTest f receivedTerm batch :: returned)
  | assign {s : Replica} (a : Assignment) {left : List (Op ι)}
      (h : Looping u (a.apply s) left) : Looping u s (.assign a :: left)
  | unlock : Looping u u.1 (.unlock :: .returnLoan .runLeaderElection ::
      .electionNext u.2 :: returned)

theorem looping_becomeFollowerIf {u : Replica × Bool} {s : Replica} (c : Prop)
    [Decidable c] (term : UInt32) {left : List (Op ι)}
    (h : Looping u (if c then s.becomeFollower term else s) left) :
    Looping u s ((if c then becomeFollowerOps term else []) ++ left) := by
  by_cases hc : c
  · rw [if_pos hc] at h
    rw [if_pos hc, becomeFollowerOps]
    apply Looping.assign
    apply Looping.assign
    apply Looping.assign
    apply Looping.assign
    apply Looping.assign
    apply Looping.assign
    exact h
  · rw [if_neg hc] at h
    rw [if_neg hc]
    exact h

/-- The loop goes on until the unlock. -/
theorem Looping.perform (p : Signals.Process ι) {u : Replica × Bool}
    {s : Replica} {o : Op ι} {r : Threads.Result ι} {new rest : List (Op ι)}
    (h : Looping u s (o :: rest)) (ho : perform N s o r = some new) :
    (Looping u (runOp s o) (new ++ rest) ∧
        p.ownerAfter electionCode o = p.owner) ∨
      (o = .unlock ∧ s = u.1 ∧ new ++ rest =
        .returnLoan .runLeaderElection :: .electionNext u.2 :: returned) := by
  cases h with
  | loop f batch h =>
      left
      refine ⟨?_, rfl⟩
      cases perform_cases ho with
      | electionEnd =>
          cases h
          exact .unlock
      | electionSample _ x batch hx =>
          rw [List.append_assoc]
          apply looping_becomeFollowerIf
          apply Looping.test
          rw [electionBatch, electionIteration, if_pos hx] at h
          exact h
      | electionSkip _ x batch hx =>
          apply Looping.loop
          rw [electionBatch, electionIteration, if_neg (by simp [hx])] at h
          exact h
  | test f receivedTerm batch h =>
      left
      refine ⟨?_, rfl⟩
      cases perform_cases ho with
      | electionCurrent _ _ _ hterm =>
          rw [List.append_assoc]
          apply looping_becomeFollowerIf
          apply Looping.loop
          rw [testTerm, if_pos hterm] at h
          exact h
      | electionStale _ _ _ hterm =>
          apply Looping.loop
          rw [testTerm, if_neg hterm] at h
          exact h
  | assign a h =>
      left
      cases perform_cases ho
      exact ⟨h, rfl⟩
  | unlock =>
      right
      cases perform_cases ho
      exact ⟨rfl, rfl, rfl⟩

/-- The code of the election thread inside of a section that the replica
entered as `s₀` and that has made `s` of it so far, with the place of the
process. -/
inductive Inner (N : Nat) (s₀ s : Replica) :
    ElectionThread ι → List (Op ι) → Prop where
  | timerTimeout (hs : s = s₀) : Inner N s₀ s .appendWait [.timerTimeout]
  | leader (hs : s = s₀) :
      Inner N s₀ s .appendWait [.unlock, .wait .appendEntries]
  | appendRead (hs : s = s₀) : Inner N s₀ s .appendWait [.appendRead]
  | appendLoop (batch : List (Sample ι AppendEntries)) {left : List (Op ι)}
      (hall : left.all inner = true)
      (halone : Alone N s left (s₀.runElectionTimerBatch batch).1 []) :
      Inner N s₀ s .appendWait (left ++
        [.unlock, .returnLoan .runElectionTimer, .wait .appendEntries])
  | setUp (hrole : s₀.role ≠ .leader) {left : List (Op ι)}
      (h : SettingUp N s₀ s left) :
      Inner N s₀ s .appendWait (left ++ waitForVotes)
  | electionLoop (f : Bool) (batch : List (Sample ι AppendEntries))
      {ops : List (Op ι)} (h : Looping (electionBatch s₀ f batch) s ops) :
      Inner N s₀ s (place f) ops

theorem Inner.unlocked {s₀ s : Replica} {e : ElectionThread ι}
    {ops : List (Op ι)} (h : Inner N s₀ s e ops) : e.unlocked = true := by
  cases h <;> first | rfl | exact place_unlocked _

/-- A lock enters a section. -/
theorem Outer.lock {s : Replica} {e : ElectionThread ι} {rest : List (Op ι)}
    (h : Outer e (.lock :: rest)) : Inner N s s e rest := by
  cases h with
  | timeout => exact .timerTimeout rfl
  | read => exact .appendRead rfl
  | electionLock f batch => exact .electionLoop f batch (.loop f batch rfl)

/-- Inside of a section the election thread goes on until its unlock, at which
the process does the same. -/
theorem Inner.perform (p : Signals.Process ι) {s₀ s : Replica}
    {e : ElectionThread ι} {o : Op ι} {r : Threads.Result ι}
    {new rest : List (Op ι)} (h : Inner N s₀ s e (o :: rest))
    (ho : perform N s o r = some new) :
    (Inner N s₀ (runOp s o) e (new ++ rest) ∧
        p.ownerAfter electionCode o = p.owner) ∨
      (o = .unlock ∧ ∃ e', Advance ι s₀ s e e' ∧ Outer e' (new ++ rest)) := by
  generalize hops : o :: rest = ops at h
  cases h with
  | timerTimeout hs =>
      subst hs
      cases hops
      left
      cases perform_cases ho with
      | leaderTimeout => exact ⟨.leader rfl, rfl⟩
      | electionTimeout hrole =>
          have hrole' : s.role ≠ .leader := by
            intro heq
            apply hrole
            rw [heq]
            exact ⟨RaftRole.noConfusion, RaftRole.noConfusion⟩
          have hsetUp := Inner.setUp hrole' (settingUp_start (ι := ι) N s)
          exact ⟨hsetUp, rfl⟩
  | leader hs =>
      subst hs
      cases hops
      right
      cases perform_cases ho
      exact ⟨rfl, _, .stay _, .appendWait⟩
  | appendRead hs =>
      subst hs
      cases hops
      left
      cases perform_cases ho with
      | appendRead batch =>
          have hloop : Inner N s s .appendWait ([.appendLoop batch] ++ _) :=
            .appendLoop batch rfl (alone_appendLoop batch (.refl _ _))
          exact ⟨hloop, rfl⟩
  | @appendLoop batch left hall halone =>
      cases left with
      | nil =>
          cases hops
          cases halone
          right
          cases perform_cases ho
          exact ⟨rfl, _, .runElectionTimer batch, .returnLoan⟩
      | cons x left =>
          cases hops
          rw [List.all_cons, Bool.and_eq_true] at hall
          left
          obtain ⟨halone, hnew⟩ := alone_perform hall.1 halone ho
          constructor
          · show Inner N s₀ (runOp s o) .appendWait (new ++ (left ++ _))
            rw [← List.append_assoc]
            apply Inner.appendLoop batch _ halone
            rw [List.all_append, hnew, hall.2]
            rfl
          · exact ownerAfter_inner p electionCode hall.1
  | @setUp hrole left h =>
      cases left with
      | nil =>
          cases hops
          right
          rw [h.done]
          cases perform_cases ho
          exact ⟨rfl, _, .setUp hrole, .electionWait⟩
      | cons x left =>
          cases hops
          left
          constructor
          · show Inner N s₀ (runOp s o) .appendWait (new ++ (left ++ _))
            rw [← List.append_assoc]
            exact .setUp hrole (h.perform ho)
          · exact ownerAfter_inner p electionCode (inner_of_setsUp h.head)
  | electionLoop f batch h =>
      subst hops
      rcases h.perform p ho with ⟨hloop, hown⟩ | ⟨rfl, rfl, hrest⟩
      · exact .inl ⟨.electionLoop f batch hloop, hown⟩
      · right
        rw [hrest]
        exact ⟨rfl, _, .runLeaderElection f batch, .electionLoan _⟩

/-! ## All threads -/

/-- Where the owner of the mutex and the election thread are, when the process
has made the replica `s` and is at `e`. -/
inductive Stage (N : Nat) (e : ElectionThread ι) (s : Replica)
    (p : Signals.Process ι) : Prop where
  | between (howner : p.owner = none) (hreplica : p.replica = s)
      (hcode : Outer e (p.code .electionTimer))
  | within (owner : Thread × Layer) (hne : owner ≠ electionCode)
      (howner : p.owner = some owner)
      (hinside : Inside N (codeOf owner) s p.replica (stack p owner))
      (hcode : Outer e (p.code .electionTimer))
  | election (howner : p.owner = some electionCode)
      (hcode : Inner N s p.replica e (p.code .electionTimer))
  | setUp (howner : p.owner = none) (he : e = .electionWait)
      (left : List (Op ι))
      (hleft : p.code .electionTimer = left ++ waitForVotes)
      (h : SettingUp N s p.replica left)

/-- The other threads and the handlers are outside of their sections, the owner
of the mutex apart. -/
structure Together (N : Nat) (e : ElectionThread ι) (s : Replica)
    (p : Signals.Process ι) : Prop where
  stage : Stage N e s p
  outside : ∀ other, other ≠ electionCode → p.owner ≠ some other →
    Outside (codeOf other) (stack p other)

theorem Stage.unlocked {e : ElectionThread ι} {s : Replica}
    {p : Signals.Process ι} (h : Stage N e s p) : e.unlocked = true := by
  cases h with
  | between _ _ hcode => exact hcode.unlocked
  | within _ _ _ _ hcode => exact hcode.unlocked
  | election _ hcode => exact hcode.unlocked
  | setUp _ he => rw [he]; rfl

theorem codeOf_ne {self : Thread × Layer} (h : self ≠ electionCode) :
    codeOf self ≠ .runElectionTimer := by
  obtain ⟨t, l⟩ := self
  cases l with
  | handler => exact Code.noConfusion
  | code =>
      cases t with
      | electionTimer => exact absurd rfl h
      | main | requestVote => exact Code.noConfusion

theorem together_start (N : Nat) (ID : UInt8) :
    Together N .appendWait (.initializeReplica ID)
      (Process.start ID : Signals.Process ι) := by
  constructor
  · exact .between rfl rfl .appendWait
  · rintro ⟨t, l⟩ - -
    cases l with
    | code => exact outside_start t
    | handler => exact .nil

/-- A set-up that is not done is exposed. -/
theorem SettingUp.exposed {s₀ s : Replica} {left : List (Op ι)}
    (h : SettingUp N s₀ s left) {p : Signals.Process ι}
    (hleft : p.code .electionTimer = left ++ waitForVotes) : Exposed p := by
  rw [Exposed, hleft]
  cases left with
  | nil => rfl
  | cons o left =>
      exact exposed_of_setsUp h.head

/-- What a step of another thread leaves alone. -/
theorem Stage.congr {e : ElectionThread ι} {s : Replica}
    {p q : Signals.Process ι} (h : Stage N e s p)
    (hreplica' : q.replica = p.replica) (howner' : q.owner = p.owner)
    (hcode' : q.code .electionTimer = p.code .electionTimer)
    (hstack : ∀ owner, p.owner = some owner → stack q owner = stack p owner) :
    Stage N e s q := by
  cases h with
  | between howner hreplica hcode =>
      apply Stage.between
      · rw [howner', howner]
      · rw [hreplica', hreplica]
      · rw [hcode']
        exact hcode
  | within owner hne howner hinside hcode =>
      apply Stage.within owner hne
      · rw [howner', howner]
      · rw [hreplica', hstack owner howner]
        exact hinside
      · rw [hcode']
        exact hcode
  | election howner hcode =>
      apply Stage.election
      · rw [howner', howner]
      · rw [hreplica', hcode']
        exact hcode
  | setUp howner he left hleft h =>
      apply Stage.setUp _ he left
      · rw [hcode', hleft]
      · rw [hreplica']
        exact h
      · rw [howner', howner]

/-- A handler starts outside. -/
theorem Together.interrupted {e : ElectionThread ι} {s : Replica}
    {p q : Signals.Process ι} {t : Thread} (h : Together N e s p)
    (hstack : stack p (t, .handler) = [])
    (hself : stack q (t, .handler) = sendHeartbeat)
    (hother : ∀ other, other ≠ (t, .handler) → stack q other = stack p other)
    (hreplica : q.replica = p.replica) (howner : q.owner = p.owner) :
    Together N e s q := by
  constructor
  · apply h.stage.congr hreplica howner
    · exact hother electionCode (by simp)
    · intro owner hown
      apply hother
      rintro rfl
      cases h.stage with
      | between hnone => rw [hnone] at hown; cases hown
      | setUp hnone => rw [hnone] at hown; cases hown
      | election hsome => rw [hsome] at hown; cases hown
      | within owner hne hsome hinside =>
          rw [hsome] at hown
          cases hown
          rw [hstack] at hinside
          exact hinside.ne_nil rfl
  · intro other hne hown
    by_cases heq : other = (t, .handler)
    · rw [heq, hself]
      exact outside_sendHeartbeat
    · rw [hother other heq]
      rw [howner] at hown
      exact h.outside other hne hown

/-- Another thread or a handler performs an operation. -/
theorem Together.other_performed {e : ElectionThread ι} {s : Replica}
    {p q : Signals.Process ι} {self : Thread × Layer} {o : Op ι}
    {r : Threads.Result ι} {rest new : List (Op ι)} (h : Together N e s p)
    (hne : self ≠ electionCode) (hstack : stack p self = o :: rest)
    (hfree : p.waits o = false) (ho : perform N p.replica o r = some new)
    (hself : stack q self = new ++ rest)
    (hother : ∀ other, other ≠ self → stack q other = stack p other)
    (hreplica : q.replica = runOp p.replica o)
    (howner : q.owner = p.ownerAfter self o) (hq : Undisturbed q) :
    ∃ s', (s' = s ∨ ∃ c, c ≠ .runElectionTimer ∧ Section ι N s c s') ∧
      Together N e s' q := by
  have hcode : q.code .electionTimer = p.code .electionTimer :=
    hother electionCode hne.symm
  have hrest : ∀ other, other ≠ electionCode → other ≠ self →
      p.owner ≠ some other → Outside (codeOf other) (stack q other) := by
    intro other hne' hother' hown
    rw [hother other hother']
    exact h.outside other hne' hown
  by_cases hown : p.owner = some self
  · -- the owner goes on with its section
    cases h.stage with
    | between hnone => rw [hnone] at hown; cases hown
    | setUp hnone => rw [hnone] at hown; cases hown
    | election hsome =>
        rw [hsome] at hown
        cases hown
        exact absurd rfl hne
    | within owner hne' hsome hinside hout =>
        rw [hsome] at hown
        cases hown
        rw [hstack] at hinside
        rcases hinside.perform p self ho with
          ⟨hnew, hown⟩ | ⟨rfl, hdone, hnew⟩
        · refine ⟨s, .inl rfl, ?_, ?_⟩
          · apply Stage.within self hne
            · rw [howner, hown, hsome]
            · rw [hreplica, hself]
              exact hnew
            · rw [hcode]
              exact hout
          · intro other hne' hown'
            have hother' : other ≠ self := by
              rintro rfl
              rw [howner, hown, hsome] at hown'
              exact hown' rfl
            apply hrest other hne' hother'
            rw [hsome]
            intro heq
            exact hother' (Option.some.inj heq).symm
        · have hafter : Together N e p.replica q := by
            constructor
            · apply Stage.between howner hreplica
              rw [hcode]
              exact hout
            · intro other hne' _
              by_cases heq : other = self
              · rw [heq, hself]
                exact hnew
              · apply hrest other hne' heq
                rw [hsome]
                intro heq'
                exact heq (Option.some.inj heq').symm
          rcases hdone with heq | hsection
          · rw [heq] at hafter
            exact ⟨s, .inl rfl, hafter⟩
          · exact ⟨_, .inr ⟨_, codeOf_ne hne, hsection⟩, hafter⟩
  · have hout := h.outside self hne hown
    rw [hstack] at hout
    refine ⟨s, .inl rfl, ?_⟩
    by_cases hlock : o = .lock
    · subst hlock
      have hnone : p.owner = none := by
        simpa [Process.waits] using hfree
      cases perform_cases ho
      constructor
      · cases h.stage with
        | between _ hreplica' hout' =>
            apply Stage.within self hne howner
            · rw [hself, hreplica]
              cases hout with
              | lock hhead h =>
                  have hentered := Inside.entered (N := N) hreplica' hhead h
                  exact hentered
            · rw [hcode]
              exact hout'
        | within owner _ hsome => rw [hnone] at hsome; cases hsome
        | election hsome => rw [hnone] at hsome; cases hsome
        | setUp _ he left hleft h =>
            -- nobody locks the mutex while an election is set up
            rw [← hcode] at hleft
            rcases hq (h.exposed hleft) with heq | heq
            · rw [howner] at heq
              cases heq
            · rw [howner] at heq
              cases heq
              exact absurd rfl hne
      · intro other hne' hown'
        have hother' : other ≠ self := by
          rintro rfl
          exact hown' howner
        apply hrest other hne' hother'
        rw [hnone]
        exact (Option.some_ne_none other).symm
    · obtain ⟨hnew, hrun, hown'⟩ :=
        hout.perform p self hlock (hout.quiet (codeOf_ne hne)) ho
      constructor
      · apply h.stage.congr
        · rw [hreplica, hrun]
        · rw [howner, hown']
        · exact hcode
        · intro owner hsome
          apply hother
          rintro rfl
          exact hown hsome
      · intro other hne' hown''
        by_cases heq : other = self
        · rw [heq, hself]
          exact hnew
        · rw [howner, hown'] at hown''
          exact hrest other hne' heq hown''

/-- An operation of the election thread leaves the mutex to another owner. -/
theorem Undisturbed.owner_kept {p : Signals.Process ι} {o : Op ι}
    {rest : List (Op ι)} (hp : Undisturbed p)
    (hstack : p.code .electionTimer = o :: rest) (hfree : p.waits o = false)
    {owner : Thread × Layer} (hne : owner ≠ electionCode)
    (howner : p.owner = some owner) :
    p.ownerAfter electionCode o = some owner ∧ o ≠ .lock ∧ o ≠ .unlock := by
  have hlock : o ≠ .lock := by
    rintro rfl
    rw [Process.waits, howner] at hfree
    cases hfree
  have hunlock : o ≠ .unlock := by
    rintro rfl
    have hexposed : Exposed p := by
      rw [Exposed, hstack]
      rfl
    rcases hp hexposed with heq | heq
    · rw [howner] at heq
      cases heq
    · rw [howner] at heq
      exact hne (Option.some.inj heq)
  refine ⟨?_, hlock, hunlock⟩
  rw [← howner]
  cases o <;> first | rfl | exact absurd rfl hlock | exact absurd rfl hunlock

/-- The election thread performs an operation. -/
theorem Together.election_performed {e : ElectionThread ι} {s : Replica}
    {p q : Signals.Process ι} {o : Op ι} {r : Threads.Result ι}
    {rest new : List (Op ι)} (h : Together N e s p)
    (hstack : p.code .electionTimer = o :: rest) (hfree : p.waits o = false)
    (ho : perform N p.replica o r = some new)
    (hself : q.code .electionTimer = new ++ rest)
    (hother : ∀ other, other ≠ electionCode → stack q other = stack p other)
    (hreplica : q.replica = runOp p.replica o)
    (howner : q.owner = p.ownerAfter electionCode o)
    (hp : Undisturbed p) (hq : Undisturbed q) :
    ∃ e' s', Advance ι s s' e e' ∧ Together N e' s' q := by
  have houtside : ∀ other, other ≠ electionCode → q.owner ≠ some other →
      Outside (codeOf other) (stack q other) := by
    intro other hne hown
    rw [hother other hne]
    apply h.outside other hne
    intro hsome
    apply hown
    rw [howner]
    exact (hp.owner_kept hstack hfree hne hsome).1
  suffices hstage : ∃ e' s', Advance ι s s' e e' ∧ Stage N e' s' q by
    obtain ⟨e', s', hadvance, hstage⟩ := hstage
    exact ⟨e', s', hadvance, hstage, houtside⟩
  cases h.stage with
  | between hnone hsame hout =>
      rw [hstack] at hout
      by_cases hlock : o = .lock
      · subst hlock
        cases perform_cases ho
        refine ⟨e, s, .stay e, .election howner ?_⟩
        rw [hself, hreplica]
        have hinner := hout.lock (N := N) (s := p.replica)
        rw [hsame] at hinner ⊢
        exact hinner
      · obtain ⟨hrun, hown, ⟨e', hadvance, hnext⟩ | ⟨he, hpass⟩⟩ :=
          hout.perform p s hlock (fun _ => hnone) ho
        · refine ⟨e', s, hadvance, .between ?_ ?_ ?_⟩
          · rw [howner, hown, hnone]
          · rw [hreplica, hrun, hsame]
          · rw [hself]
            exact hnext
        · refine ⟨e, s, .stay e,
            .setUp ?_ he electionSetUp (hself.trans hpass) ?_⟩
          · rw [howner, hown, hnone]
          · rw [hreplica, hrun, hsame]
            exact settingUp_start N s
  | within owner hne hsome hinside hout =>
      rw [hstack] at hout
      obtain ⟨hkept, hlock, hunlock⟩ :=
        hp.owner_kept hstack hfree hne hsome
      obtain ⟨hrun, -, ⟨e', hadvance, hnext⟩ | ⟨-, hpass⟩⟩ :=
        hout.perform p s hlock (fun heq => absurd heq hunlock) ho
      · refine ⟨e', s, hadvance, .within owner hne ?_ ?_ ?_⟩
        · rw [howner, hkept]
        · rw [hreplica, hrun, hother owner hne]
          exact hinside
        · rw [hself]
          exact hnext
      · -- no election is set up while another thread owns the mutex
        have hexposed : Exposed q := by
          rw [Exposed, hself, hpass]
          rfl
        rw [Undisturbed, howner, hkept] at hq
        rcases hq hexposed with heq | heq
        · cases heq
        · exact absurd (Option.some.inj heq) hne
  | election hsome hinner =>
      rw [hstack] at hinner
      rcases hinner.perform p ho with ⟨hnew, hown⟩ | ⟨rfl, e', hadvance, hnew⟩
      · refine ⟨e, s, .stay e, .election ?_ ?_⟩
        · rw [howner, hown, hsome]
        · rw [hreplica, hself]
          exact hnew
      · refine ⟨e', p.replica, hadvance, .between howner hreplica ?_⟩
        rw [hself]
        exact hnew
  | setUp hnone he left hleft hsetUp =>
      rw [hstack] at hleft
      cases left with
      | nil =>
          cases hleft
          cases perform_cases ho
          refine ⟨.electionWait, p.replica, ?_, .between howner hreplica ?_⟩
          · rw [hsetUp.done, he]
            exact .restart
          · rw [hself]
            exact .electionWait
      | cons x left =>
          cases hleft
          refine ⟨e, s, .stay e, .setUp ?_ he (new ++ left) ?_ ?_⟩
          · rw [howner, ownerAfter_inner p electionCode
              (inner_of_setsUp hsetUp.head), hnone]
          · rw [hself, List.append_assoc]
            rfl
          · rw [hreplica]
            exact hsetUp.perform ho

/-! ## The process -/

/-- Only a sample of the current term, or of a newer one, changes the replica,
and it sets `election_finished`. -/
theorem electionIteration_unfinished {s : Replica} {x : Sample ι AppendEntries}
    (h : (electionIteration s false x).2 = false) :
    (electionIteration s false x).1 = s := by
  rw [electionIteration] at h ⊢
  by_cases hx : x.validData
  · rw [if_pos hx] at h ⊢
    dsimp only at h ⊢
    by_cases hnewer : x.data.term.toUInt32 > s.currentTerm
    · simp [hnewer] at h
    · rw [if_neg hnewer] at h ⊢
      by_cases hterm : x.data.term.toUInt32 = s.currentTerm
      · rw [if_pos hterm] at h
        cases h
      · rw [if_neg hterm]
  · rw [if_neg hx]

theorem electionBatch_unfinished {s : Replica}
    {batch : List (Sample ι AppendEntries)}
    (h : (electionBatch s false batch).2 = false) :
    (electionBatch s false batch).1 = s := by
  induction batch with
  | nil => rfl
  | cons x batch ih =>
      rw [electionBatch] at h ⊢
      cases hflag : (electionIteration s false x).2 with
      | true =>
          rw [hflag, (electionBatch_finished_iff _ true batch).mpr
            (.inl rfl)] at h
          cases h
      | false =>
          have hsame := electionIteration_unfinished hflag
          rw [hsame, hflag] at h
          rw [hsame]
          exact ih h

/-- The loop of `run_leader_election` handles its batch in the only lap of a
wake-up. -/
theorem does_runLeaderElection {batch : List (Sample ι AppendEntries)}
    {n m : Node ι} (hn : Idle .electionWait n)
    (h : Ready .electionWait .appendEntries batch n m) :
    Does N ID m { n with
      replica := (electionBatch n.replica false batch).1
      electionThread :=
        if (electionBatch n.replica false batch).2 then .appendWait
        else .electionPass } := by
  have hwake : Does N ID m { m with electionThread := .electionLap 0 false } :=
    does_step (.electionWake h.election h.wake)
  have htake : Does N ID { m with electionThread := .electionLap 0 false }
      { m.take .appendEntries with
        electionThread := endElectionLoop m.collectVotesGuardList 0 false
          (m.unread .appendEntries) } :=
    does_step (.electionTake 0 false rfl (.inr (by
      rw [Node.mutexFree, h.vote]
      rfl)))
  rw [h.take, h.unread] at htake
  have hloop := does_exec (N := N) (electionLoop_exec ID
    { n with
      electionThread :=
        endElectionLoop m.collectVotesGuardList 0 false batch }
    0 false batch (by rw [h.guardList]))
  have hlast : ¬ 0 + 1 < n.collectVotesGuardList.length :=
    Nat.not_lt.mpr hn.guardList
  simp only [endElectionLap, if_neg hlast] at hloop
  exact hwake.trans (htake.trans hloop)

/-- A sample without data comes first, and the loop passes over it. -/
theorem electionBatch_disposed (s : Replica) (f : Bool)
    (x : Sample ι AppendEntries) (batch : List (Sample ι AppendEntries)) :
    electionBatch s f ((disposed x : Sample ι Topic.appendEntries.Msg) ::
      batch) = electionBatch s f batch := rfl

variable [Nonempty ι]

/-- The process does what the election thread has done. -/
theorem exists_advance {n : Node ι} {s : Replica} {e e' : ElectionThread ι}
    (hn : Idle e n) (h : Advance ι n.replica s e e') :
    ∃ n', Does N ID n n' ∧ Idle e' n' ∧ n'.replica = s := by
  cases h with
  | stay => exact ⟨n, .refl n, hn, rfl⟩
  | giveUp => exact hn.exists_return
  | setUp hrole => exact hn.exists_setUp hrole
  | runElectionTimer batch => exact hn.exists_runElectionTimer batch
  | restart =>
      -- any sample without data wakes the process
      let x : Sample ι AppendEntries :=
        { validData := false
          publicationHandle := Classical.arbitrary ι
          data :=
            { term := 0
              senderID := 0
              prevLogIndex := 0
              prevLogTerm := 0
              entries := [] } }
      obtain ⟨m, harrive, hready⟩ :=
        hn.exists_ready .appendEntries x []
      have hloop : Does N ID m _ := does_runLeaderElection hn hready
      refine ⟨_, harrive.trans (hloop.trans (does_step
        (.electionRestart rfl ?_))), ⟨rfl, hn.vote, hn.guardList, hn.reader⟩,
        rfl⟩
      rw [Node.mutexFree, hn.vote]
      rfl
  | runLeaderElection f batch =>
      cases f with
      | true =>
          have hfinished := (electionBatch_finished_iff n.replica true
            batch).mpr (.inl rfl)
          rw [hfinished, electionBatch_replica]
          exact hn.exists_runElectionTimer batch
      | false =>
          cases hflag : (electionBatch n.replica false batch).2 with
          | false =>
              rw [electionBatch_unfinished hflag]
              exact ⟨n, .refl n, hn, rfl⟩
          | true =>
              cases batch with
              | nil => cases hflag
              | cons x batch =>
                  obtain ⟨m, harrive, hready⟩ :=
                    hn.exists_ready .appendEntries x (x :: batch)
                  have hloop : Does N ID m _ :=
                    does_runLeaderElection hn hready
                  rw [electionBatch_disposed, hflag] at hloop
                  exact ⟨_, harrive.trans hloop,
                    ⟨rfl, hn.vote, hn.guardList, hn.reader⟩, rfl⟩

/-! ## Runs -/

/-- A step from an undisturbed state to an undisturbed state. -/
theorem together_step {e : ElectionThread ι} {n : Node ι}
    {p q : Signals.Process ι} {a : Signals.Event ι} (hn : Idle e n)
    (h : Together N e n.replica p) (hstep : Signals.Step N p a q)
    (hp : Undisturbed p) (hq : Undisturbed q) :
    ∃ e' n', Does N ID n n' ∧ Idle e' n' ∧ Together N e' n'.replica q := by
  cases move_of_step (P := fun _ => True) hstep fun _ _ _ _ _ => trivial with
  | @performed self o r rest new htop hstack _ hfree ho hself hother hreplica
      howner =>
      by_cases heq : self = electionCode
      · subst heq
        obtain ⟨e', s', hadvance, hnext⟩ := h.election_performed hstack hfree
          ho hself hother hreplica howner hp hq
        obtain ⟨n', hdoes, hn', rfl⟩ := exists_advance hn hadvance
        exact ⟨e', n', hdoes, hn', hnext⟩
      · obtain ⟨s', rfl | ⟨c, hc, hsection⟩, hnext⟩ := h.other_performed heq
          hstack hfree ho hself hother hreplica howner hq
        · exact ⟨e, n, .refl n, hn, hnext⟩
        · obtain ⟨n', hdoes, hn', rfl⟩ :=
            hn.exists_section h.stage.unlocked hc hsection
          exact ⟨e, n', hdoes, hn', hnext⟩
  | interrupted t hstack hself hother hreplica howner =>
      exact ⟨e, n, .refl n, hn,
        h.interrupted hstack hself hother hreplica howner⟩

/-- The undisturbed threads are simulated by the process. -/
def undisturbedSimulation (ι : Type) [Nonempty ι] (N : Nat) (ID : UInt8) :
    WeakSimulation (Signals.process (ι := ι) N ID) (openProcess (ι := ι) N ID)
      (fun p a => Undisturbed p ∧
        ∀ q, p.step N a = some q → Undisturbed q) where
  Rel := fun p n => ∃ e, Idle e n ∧ Together N e n.replica p
  init := ⟨_, ⟨rfl, rfl, Nat.zero_le 1, rfl⟩, together_start N ID⟩
  step := by
    intro p n a q out hallowed hstep hrel
    obtain ⟨e, hn, htogether⟩ := hrel
    obtain ⟨q', hq', heq⟩ := Option.map_eq_some_iff.mp hstep
    cases heq
    obtain ⟨e', n', hdoes, hn', hnext⟩ := together_step hn htogether
      (Signals.step_cases hq') hallowed.1 (hallowed.2 _ hq')
    exact ⟨n', hdoes, e', hn', hnext⟩

/-- However the operations of the threads and of their handlers are
interleaved, as long as nobody else owns the mutex while the election thread is
next to assign or to unlock, there is a run of the process that passes, in the
same order, the states of the replica in which the mutex is free and the
election thread is not. -/
theorem undisturbed_refines (run : Run (Signals.process (ι := ι) N ID))
    (hundisturbed : ∀ i, i ≤ run.length → Undisturbed (run.state i)) :
    ∃ (run' : ReplicaRun ι N ID) (f : Nat → Nat),
      (∀ i j, i ≤ j → f i ≤ f j) ∧ ∀ i, i ≤ run.length →
        f i ≤ run'.length ∧
          ((run.state i).owner = none → ¬ Exposed (run.state i) →
            run'.replica (f i) = (run.state i).replica) := by
  obtain ⟨run', f, hbehind⟩ :=
    (undisturbedSimulation ι N ID).exists_behind run fun i hi => by
      refine ⟨hundisturbed i (Nat.le_of_lt hi), fun q hq => ?_⟩
      have hnext := run.next i hi
      obtain ⟨q', hq', heq⟩ := Option.map_eq_some_iff.mp hnext
      rw [hq] at hq'
      cases hq'
      have hstate : q = run.state (i + 1) := congrArg Prod.fst heq
      rw [hstate]
      exact hundisturbed (i + 1) hi
  refine ⟨run', f, hbehind.monotone, fun i hi => ⟨hbehind.le_length i, ?_⟩⟩
  intro hfree hcalm
  obtain ⟨e, -, htogether⟩ := hbehind.state i hi
  cases htogether.stage with
  | between _ hreplica => exact hreplica.symm
  | within owner _ hsome => rw [hfree] at hsome; cases hsome
  | election hsome => rw [hfree] at hsome; cases hsome
  | setUp _ _ left hleft h => exact absurd (h.exposed hleft) hcalm

omit [Nonempty ι]

/-- Replica 2 starts two passes and gives up, its main thread waking in the
middle of the second set-up. -/
def secondPass : Run (Signals.process (ι := Unit) 3 2) where
  labels := .run .electionTimer .timeout ::
    List.replicate 11 (.run .electionTimer .done) ++
    [.run .electionTimer (.triggered []), .run .electionTimer (.found true),
      .run .electionTimer (.appendEntries []),
      .run .electionTimer (.again false)] ++
    List.replicate 3 (.run .electionTimer .done) ++
    [.run .main (.triggered [])] ++
    List.replicate 6 (.run .electionTimer .done) ++
    [.run .electionTimer .timeout] ++
    List.replicate 2 (.run .electionTimer .done)
  executes := by decide +kernel

/-- So does the process. -/
theorem undisturbed_refines_secondPass :
    ∃ (run' : ReplicaRun Unit 3 2) (j : Nat),
      j ≤ run'.length ∧ (run'.replica j).currentTerm = 2 := by
  obtain ⟨run', f, -, hstate⟩ :=
    undisturbed_refines secondPass (by decide +kernel)
  obtain ⟨hlength, hreplica⟩ := hstate 29 (by decide)
  refine ⟨run', f 29, hlength, ?_⟩
  rw [hreplica (by decide +kernel) (by decide +kernel)]
  decide +kernel

/-- The vote thread of replica 2 counts a vote of term 1 when the second set-up
has raised the term and has not copied it yet. -/
def lateWin : Run (Signals.process (ι := Unit) 3 2) where
  labels := .run .electionTimer .timeout ::
    List.replicate 11 (.run .electionTimer .done) ++
    [.run .electionTimer (.triggered []), .run .electionTimer (.found true),
      .run .electionTimer (.appendEntries []),
      .run .electionTimer (.again false)] ++
    List.replicate 3 (.run .electionTimer .done) ++
    [.run .requestVote (.triggered [.requestVoteReply]),
      .run .requestVote .done,
      .run .requestVote (.requestVoteReply Signals.grantForTwo)] ++
    List.replicate 14 (.run .requestVote .done)
  executes := by decide +kernel

/-- No process leads a term that is not its last candidacy's, so disturbed
threads have runs that the process does not have. -/
theorem lateWin_not_process :
    ¬ ∃ (run' : ReplicaRun Unit 3 2) (j : Nat), j ≤ run'.length ∧
      run'.replica j = (lateWin.state lateWin.length).replica := by
  rintro ⟨run', j, hj, hsame⟩
  have hcandidacy := ReplicaRun.candidacy hj
  rw [hsame] at hcandidacy
  have hterm := hcandidacy (by decide +kernel)
  revert hterm
  decide +kernel

end RevPiRaft.Ports.LaterPasses
