import RevPiRaft.Ports.Threads

/-!
# The discipline of `consensus_mutex`

A thread runs under arbitrary results of its waits and reads, and every
operation sees a replica that the other threads may have changed at will.
`run_leader_election` is called with the mutex locked and unlocks it before it
waits.  When that wait comes back the function either starts another pass, with
its assignments and its unlock, or returns to a caller that unlocks; neither
locks the mutex again.  This is the only place where a thread breaks the
discipline.
-/

namespace RevPiRaft.Ports.MutexDiscipline

open RevPiRaft.Verified.Runs
open RevPiRaft.Verified.Contracts
open RevPiRaft.Ports.Datamodel
open RevPiRaft.Ports.ReplicaCore
open RevPiRaft.Ports.Process
open RevPiRaft.Ports.Threads

variable {ι : Type} {N : Nat}

/-! ## The discipline -/

/-- Whether the thread holds the mutex after an operation: whether its last
call on the mutex was a lock. -/
def holds : Op ι → Bool → Bool
  | .lock, _ => true
  | .unlock, _ => false
  | _, held => held

/-- A thread with its own view of the mutex. -/
def thread (N : Nat) : Machine (Op ι) (Replica × Result ι) Bool where
  perform := fun o a _ => perform N a.1 o a.2
  effect := fun o _ held => holds o held

/-- The fields that only the holder of the mutex may assign. -/
def Assignment.guarded : Assignment → Prop
  | .currentTerm _ | .role _ | .votedFor _ | .electionTerm _
  | .votesReceived _ | .log _ => True
  | .O1 _ | .O2 _ | .nextIndex _ | .timerArmed _ => False

/-- What the mutex has to be for an operation.  `leave` is the return of
`run_leader_election`, whose caller unlocks. -/
def mutexAllowed : Op ι → Bool → Prop
  | .lock, held => held = false
  | .unlock, held => held = true
  | .leave, held => held = true
  | .assign a, held => Assignment.guarded a → held = true
  | _, _ => True

/-- The wait of `run_leader_election`. -/
def waitsForVotes : Op ι → Bool
  | .wait .leaderElection => true
  | _ => false

/-- The discipline.  Its cause of failure is the wait of `run_leader_election`
coming back, with data or by a timeout. -/
def mutexMonitor : Monitor (Op ι) (Replica × Result ι) Bool where
  allowed := mutexAllowed
  cause := fun o _ => waitsForVotes o = true

instance (o : Op ι) (a : Replica × Result ι) :
    Decidable (mutexMonitor.cause o a) :=
  inferInstanceAs (Decidable (waitsForVotes o = true))

/-- A thread, or a call of `send_heartbeat`, from its first operation on. -/
abbrev ThreadRun (ι : Type) (N : Nat) (code : Code) : Type :=
  Run ((thread (ι := ι) N).lts code.start false)

/-- The run ends in a wait, or with the code at its end. -/
def Rests {code : Code} (run : ThreadRun ι N code) : Prop :=
  (run.state run.length).1 = [] ∨
    ∃ w rest, (run.state run.length).1 = .wait w :: rest

/-! ## Contracts -/

/-- At rest the mutex is not held, and a wait of `run_leader_election` that
came back has already done its harm. -/
abbrev Released : Watch Bool → Prop :=
  Watch.Due (fun _ => False) (· = false)

/-- Inside the critical sections. -/
abbrev Locked : Watch Bool → Prop :=
  Watch.Due (fun _ => False) (· = true)

/-- In `run_leader_election` behind its wait, outside the loop. -/
abbrev Returning : Watch Bool → Prop :=
  Watch.Due (· = false) fun _ => False

/-- In the loop of `run_leader_election`. -/
abbrev ReturningLocked : Watch Bool → Prop :=
  Watch.Due (· = true) fun _ => False

/-- Where something forbidden has already been performed. -/
abbrev Broken : Watch Bool → Prop :=
  Watch.Due (fun _ => False) fun _ => False

/-- One call on the mutex or assignment has been performed. -/
abbrev Single (o : Op ι) : Watch Bool → Watch Bool → Prop :=
  Watch.Did (holds o) (mutexAllowed o)

/-- What each operation requires and ensures.  Those not named run inside a
critical section. -/
def contract : Contract (Op ι) (Watch Bool) where
  pre
    | .lock, w => w.cause ∨ mutexAllowed (ι := ι) .lock w.state
    | .unlock, w => w.cause ∨ mutexAllowed (ι := ι) .unlock w.state
    | .leave, w => w.cause ∨ mutexAllowed (ι := ι) .leave w.state
    | .assign a, w => w.cause ∨ mutexAllowed (ι := ι) (.assign a) w.state
    | .returnLoan _, _ => True
    | .wait _, w => Released w
    | .timerTimeout, w => Locked w
    | .appendRead, w => Locked w
    | .inputRead, w => Locked w
    | .roleTest _, w => Locked w
    | .electionLap _, w => Returning w
    | .electionNext _, w => Returning w
    | .electionRead _, w => Returning w
    | .electionLoop _ _, w => ReturningLocked w
    | .electionTest _ _ _, w => ReturningLocked w
    | _, w => w.cause ∨ w.state = true
  post
    | .lock, w, w' => Single (ι := ι) .lock w w'
    | .unlock, w, w' => Single (ι := ι) .unlock w w'
    | .leave, w, w' => Single (ι := ι) .leave w w'
    | .assign a, w, w' => Single (ι := ι) (.assign a) w w'
    | .wait .leaderElection, _, w' => Returning w'
    | .wait _, _, w' => Released w'
    | .timerTimeout, _, w' => Released w'
    | .appendRead, _, w' => Released w'
    | .inputRead, _, w' => Released w'
    | .roleTest _, _, w' => Released w'
    | .electionLap _, _, w' => Returning w'
    | .electionNext _, _, w' => Returning w'
    | .electionRead _, _, w' => Returning w'
    | .electionLoop _ _, _, w' => Returning w'
    | .electionTest _ _ _, _, w' => Returning w'
    | _, w, w' => Watch.Same w w'

/-! ## Calls on the mutex -/

/-- The calls and the assignments have exact contracts. -/
theorem exact_lock :
    contract.Exact (.lock : Op ι) (fun _ => true) (· = false) :=
  ⟨fun _ h => h, fun _ _ h => h⟩

theorem exact_unlock :
    contract.Exact (.unlock : Op ι) (fun _ => false) (· = true) :=
  ⟨fun _ h => h, fun _ _ h => h⟩

theorem exact_leave : contract.Exact (.leave : Op ι) id (· = true) :=
  ⟨fun _ h => h, fun _ _ h => h⟩

theorem exact_assign (a : Assignment) :
    contract.Exact (.assign a : Op ι) id
      (Assignment.guarded a → · = true) :=
  ⟨fun _ h => h, fun _ _ h => h⟩

section Calls

variable {ops : List (Op ι)} {Q : Watch Bool → Prop} {w : Watch Bool}

theorem wp_lock (h : Released w)
    (hops : ∀ w', Locked w' → contract.Wp ops Q w') :
    contract.Wp (.lock :: ops) Q w := by
  apply exact_lock.wp _ _ h _ _ hops
  · exact fun _ hx => .inr hx
  · exact fun _ hy => ⟨hy, rfl⟩

theorem wp_unlock (h : Locked w)
    (hops : ∀ w', Released w' → contract.Wp ops Q w') :
    contract.Wp (.unlock :: ops) Q w := by
  apply exact_unlock.wp _ _ h _ _ hops
  · exact fun _ hx => .inr hx
  · exact fun _ hy => ⟨hy, rfl⟩

theorem wp_lock_returning (h : Returning w)
    (hops : ∀ w', ReturningLocked w' → contract.Wp ops Q w') :
    contract.Wp (.lock :: ops) Q w := by
  apply exact_lock.wp _ _ h _ _ hops
  · exact fun _ _ => .inr rfl
  · exact fun _ hy => hy.elim

theorem wp_unlock_returning (h : ReturningLocked w)
    (hops : ∀ w', Returning w' → contract.Wp ops Q w') :
    contract.Wp (.unlock :: ops) Q w := by
  apply exact_unlock.wp _ _ h _ _ hops
  · exact fun _ _ => .inr rfl
  · exact fun _ hy => hy.elim

theorem wp_unlock_broken (h : Broken w)
    (hops : ∀ w', Broken w' → contract.Wp ops Q w') :
    contract.Wp (.unlock :: ops) Q w := by
  apply exact_unlock.wp _ _ h _ _ hops
  · exact fun _ hx => .inr hx
  · exact fun _ hy => hy.elim

/-- A wait other than that of `run_leader_election`. -/
theorem wp_wait {v : WaitSet} (hv : v ≠ .leaderElection) (h : Released w) :
    (contract (ι := ι)).Wp [.wait v] Released w := by
  constructor
  · exact h
  · intro w' hw'
    cases v with
    | leaderElection => exact absurd rfl hv
    | appendEntries | collectVotes | input | appendEntriesReply => exact hw'

theorem Broken.released (h : Broken w) : Released w :=
  h.mono (fun _ hx => hx) fun _ hy => hy.elim

end Calls

/-! ## Inside the critical sections -/

/-- The operations that neither call the mutex nor leave a section. -/
def inside : Op ι → Bool
  | .assign _ | .returnLoan _ | .incrementTerm | .copyTerm | .voteSelf
  | .setNextIndex | .appendEntry | .becomeLeader | .appendLoop _
  | .appendTest _ | .voteRead | .voteLoop _ | .voteTest _ _ | .replyRead
  | .replyLoop _ | .majorityTest _ | .appendReplyRead => true
  | _ => false

/-- They are replaced by such operations only. -/
theorem perform_inside {s : Replica} {o : Op ι} {r : Result ι}
    {new : List (Op ι)} (ho : inside o = true)
    (h : perform N s o r = some new) : new.all inside = true := by
  cases perform_cases h with
  | lock | unlock | leave | wait | leaderTimeout | electionTimeout
  | appendRead | electionFound | electionMissed | electionAgain
  | electionFinished | electionPass | electionEmpty | electionRead
  | electionEnd | electionSample | electionSkip | electionCurrent
  | electionStale | inputRead | inputIgnored | inputAppended => cases ho
  | appendSample | voteSample =>
      rw [List.all_append, all_becomeFollowerIf fun _ => rfl]
      rfl
  | appendTest => exact all_becomeFollowerIf (fun _ => rfl) _ _
  | voteTest | replyCount => split <;> rfl
  | _ => rfl

/-- For the holder of the mutex they do nothing that matters. -/
theorem neutral_inside {o : Op ι} (ho : inside o = true) :
    contract.Neutral (· = true) o := by
  cases o with
  | assign a =>
      exact ⟨fun _ h => h.imp_right fun hheld _ => hheld, fun _ _ h => h.same⟩
  | returnLoan site => exact ⟨fun _ _ => trivial, fun _ _ h => h⟩
  | lock | unlock | leave | wait | timerTimeout | appendRead | electionLap
  | electionNext | electionRead | electionLoop | electionTest | inputRead
  | roleTest => cases ho
  | _ => exact ⟨fun _ h => h, fun _ _ h => h⟩

theorem wp_inside {P : Watch Bool → Prop} {ops : List (Op ι)} {w : Watch Bool}
    (hP : Watch.Stable (· = true) P) (hops : ops.all inside = true) (h : P w) :
    contract.Wp ops P w :=
  Contract.wp_stable
    (fun o ho => neutral_inside (List.all_eq_true.mp hops o ho)) hP h

theorem stable_locked : Watch.Stable (· = true) Locked :=
  Watch.stable_due fun _ hy => hy

theorem stable_returningLocked : Watch.Stable (· = true) ReturningLocked :=
  Watch.stable_due fun _ hy => hy.elim

theorem stable_broken : Watch.Stable (· = true) Broken :=
  Watch.stable_due fun _ hy => hy.elim

section Sections

variable {ops rest : List (Op ι)} {Q : Watch Bool → Prop} {w : Watch Bool}

/-- The rest of a critical section. -/
theorem wp_inside_unlock (ops : List (Op ι)) (hops : ops.all inside = true)
    (h : Locked w)
    (hrest : ∀ w', Released w' → contract.Wp rest Q w') :
    contract.Wp (ops ++ .unlock :: rest) Q w := by
  rw [Contract.wp_append]
  apply Contract.wp_mono _ (wp_inside stable_locked hops h)
  intro w hw
  exact wp_unlock hw hrest

theorem wp_returnLoan_wait (site : ReadSite) {v : WaitSet}
    (hv : v ≠ .leaderElection) (h : Released w) :
    (contract (ι := ι)).Wp [.returnLoan site, .wait v] Released w := by
  constructor
  · trivial
  · intro w' hw'
    exact wp_wait hv (h.same hw')

/-- A lap of the vote thread. -/
theorem wp_voteLap (c : VoteCondition) (h : Released w) :
    (contract (ι := ι)).Wp (voteLap c) Released w := by
  cases c with
  | requestVote =>
      exact wp_lock h fun w hw =>
        wp_inside_unlock [.voteRead] rfl hw fun w hw => hw
  | requestVoteReply =>
      exact wp_lock h fun w hw =>
        wp_inside_unlock [.replyRead] rfl hw fun w hw => hw

/-! ## `run_leader_election` -/

/-- A pass assigns, unlocks and waits. -/
theorem electionPass_eq :
    (electionPass : List (Op ι)) =
      .assign (.role .candidate) :: ([.incrementTerm, .copyTerm, .voteSelf,
        .assign (.votesReceived 1)] ++ [.unlock, .wait .leaderElection]) :=
  rfl

/-- The first pass, with the mutex of the caller. -/
theorem wp_electionPass (h : Locked w) :
    (contract (ι := ι)).Wp electionPass Returning w := by
  rw [electionPass_eq, ← List.cons_append]
  apply wp_inside_unlock _ rfl h
  intro w hw
  exact ⟨hw, fun _ hw' => hw'⟩

/-- Another pass, without it: its first assignment is already forbidden. -/
theorem wp_electionPass_returning (h : Returning w) :
    (contract (ι := ι)).Wp electionPass Returning w := by
  rw [electionPass_eq]
  apply (exact_assign _).wp (fun _ => False) (fun _ => False) h
  · intro held hfree
    left
    intro hallowed
    exact Bool.noConfusion (hfree.symm.trans (hallowed trivial))
  · exact fun _ hy => hy.elim
  · intro w hw
    rw [Contract.wp_append]
    apply Contract.wp_mono _ (wp_inside stable_broken rfl hw)
    intro w hw
    apply wp_unlock_broken hw
    intro w hw
    exact ⟨hw.released, fun _ hw' => hw'⟩

/-- The return to a caller that unlocks. -/
theorem wp_return (h : Returning w) :
    (contract (ι := ι)).Wp [.leave, .unlock, .wait .appendEntries] Released
      w := by
  apply exact_leave.wp (fun _ => False) (fun _ => False) h
  · intro held hfree
    left
    intro hallowed
    exact Bool.noConfusion (hfree.symm.trans hallowed)
  · exact fun _ hy => hy.elim
  · intro w hw
    apply wp_unlock_broken hw
    intro w hw
    exact wp_wait (by decide) hw.released

end Sections

/-! ## The contracts hold -/

/-- What follows a wait outside `run_leader_election`. -/
theorem wp_afterWait {v : WaitSet} (hv : v ≠ .leaderElection) {r : Result ι}
    {new : List (Op ι)} (hnew : afterWait v r = some new) {w : Watch Bool}
    (h : Released w) : contract.Wp new Released w := by
  cases v with
  | leaderElection => exact absurd rfl hv
  | appendEntries =>
      cases r <;> cases hnew <;>
        exact wp_lock h fun w hw => ⟨hw, fun _ hw' => hw'⟩
  | collectVotes =>
      cases r with
      | triggered conditions =>
          cases hnew
          rw [Contract.wp_append]
          exact Contract.wp_mono (fun w hw => wp_wait hv hw)
            (Contract.wp_flatMap (fun c _ => wp_voteLap c) conditions h)
      | timeout | failed =>
          cases hnew
          exact wp_wait hv h
      | _ => cases hnew
  | input =>
      cases r <;> cases hnew
      exact wp_lock h fun w hw => ⟨hw, fun _ hw' => hw'⟩
  | appendEntriesReply =>
      cases r with
      | triggered conditions =>
          cases hnew
          exact wp_lock h fun w hw =>
            wp_inside_unlock [.appendReplyRead] rfl hw
              fun w hw => hw
      | timeout | failed =>
          cases hnew
          exact h
      | _ => cases hnew

/-- What follows the wait of `run_leader_election`. -/
theorem wp_afterElectionWait {r : Result ι} {new : List (Op ι)}
    (hnew : afterWait .leaderElection r = some new) {w : Watch Bool}
    (h : Returning w) : contract.Wp new Returning w := by
  cases r with
  | timeout =>
      cases hnew
      exact h
  | triggered conditions =>
      cases hnew
      exact ⟨h, fun _ hw => hw⟩
  | _ => cases hnew

/-- The wait of `run_leader_election` coming back. -/
theorem returning_next {w : Watch Bool} (h : Released w)
    (a : Replica × Result ι) :
    Returning (w.next (thread N) mutexMonitor (.wait .leaderElection) a) := by
  constructor
  · intro _
    rcases h.2 with hcause | hfree
    · exact .inl (.inl ((h.1 hcause).elim id False.elim))
    · exact .inr hfree
  · exact .inl (.inr rfl)

section Next

variable {o : Op ι} {a : Replica × Result ι} {w : Watch Bool}

theorem next_same (hholds : ∀ held, holds o held = held)
    (ho : waitsForVotes o = false) :
    Watch.Same w (w.next (thread N) mutexMonitor o a) :=
  Watch.next_same (hholds _) (Bool.eq_false_iff.mp ho)

theorem next_due {X Y : Bool → Prop} (hholds : ∀ held, holds o held = held)
    (ho : waitsForVotes o = false) (h : Watch.Due X Y w) :
    Watch.Due X Y (w.next (thread N) mutexMonitor o a) :=
  h.same (next_same hholds ho)

end Next

theorem sound : Sound (thread N) mutexMonitor (contract (ι := ι)) where
  guards := by
    intro o w h
    cases o with
    | lock | unlock | leave | assign => exact h
    | _ => exact .inr trivial
  keeps := by
    intro o a new w hnew hpre
    obtain ⟨s, r⟩ := a
    change perform N s o r = some new at hnew
    cases perform_cases hnew with
    | lock | unlock | leave | assign => exact Watch.next_did _ Bool.noConfusion
    | returnLoan => exact next_same (fun _ => rfl) rfl
    | wait v r new h =>
        cases v with
        | leaderElection => exact wp_afterElectionWait h (returning_next hpre _)
        | appendEntries | collectVotes | input | appendEntriesReply =>
            exact wp_afterWait (by decide) h (next_due (fun _ => rfl) rfl hpre)
    | leaderTimeout | inputIgnored =>
        apply wp_unlock (next_due (fun _ => rfl) rfl hpre)
        intro w hw
        exact wp_wait (by decide) hw
    | electionTimeout =>
        rw [Contract.wp_append]
        exact Contract.wp_mono (fun w => wp_return)
          (wp_electionPass (next_due (fun _ => rfl) rfl hpre))
    | appendRead batch =>
        apply wp_inside_unlock [.appendLoop batch] rfl
          (next_due (fun _ => rfl) rfl hpre)
        intro w hw
        exact wp_returnLoan_wait _ (by decide) hw
    | inputAppended =>
        apply wp_inside_unlock [.appendEntry] rfl
          (next_due (fun _ => rfl) rfl hpre)
        intro w hw
        exact wp_returnLoan_wait _ (by decide) hw
    | inputRead =>
        constructor
        · show Locked _
          exact next_due (fun _ => rfl) rfl hpre
        · exact fun _ hw => hw
    | electionFound | electionMissed | electionAgain | electionEmpty =>
        constructor
        · show Returning _
          exact next_due (fun _ => rfl) rfl hpre
        · exact fun _ hw => hw
    | electionSkip | electionStale =>
        constructor
        · show ReturningLocked _
          exact next_due (fun _ => rfl) rfl hpre
        · exact fun _ hw => hw
    | electionFinished =>
        show Returning _
        exact next_due (fun _ => rfl) rfl hpre
    | electionPass =>
        exact wp_electionPass_returning (next_due (fun _ => rfl) rfl hpre)
    | electionRead =>
        apply wp_lock_returning (next_due (fun _ => rfl) rfl hpre)
        intro w hw
        exact ⟨hw, fun _ hw' => hw'⟩
    | electionEnd =>
        apply wp_unlock_returning (next_due (fun _ => rfl) rfl hpre)
        intro w hw
        exact ⟨trivial, fun w' hw' => ⟨hw.same hw', fun _ h => h⟩⟩
    | electionSample | electionCurrent =>
        rw [Contract.wp_append]
        apply Contract.wp_mono _ (wp_inside stable_returningLocked
          (all_becomeFollowerIf (fun _ => rfl) _ _)
          (next_due (fun _ => rfl) rfl hpre))
        intro w hw
        exact ⟨hw, fun _ hw' => hw'⟩
    | _ => exact wp_inside (Watch.stable_same hpre) (perform_inside rfl hnew)
            (next_same (fun _ => rfl) rfl)

/-! ## The runs of a thread -/

theorem released_start : Released ⟨false, False, False⟩ :=
  ⟨False.elim, .inr rfl⟩

theorem wp_sendHeartbeat {w : Watch Bool} (h : Released w) :
    (contract (ι := ι)).Wp sendHeartbeat Released w := by
  apply wp_lock h
  intro w hw
  apply wp_unlock hw
  intro w hw
  exact wp_wait (by decide) hw

theorem wp_start (code : Code) :
    contract.Wp (code.start : List (Op ι)) Released ⟨false, False, False⟩ := by
  cases code with
  | runElectionTimer | receiveVoteRequests | main =>
      exact wp_wait (by decide) released_start
  | sendHeartbeat => exact wp_sendHeartbeat released_start

/-- As long as no wait of `run_leader_election` comes back, the thread keeps
the discipline; and once one has, it does not come to rest without breaking
it. -/
theorem mutex_discipline (N : Nat) (code : Code) (run : ThreadRun ι N code) :
    (Uncaused mutexMonitor run → Disciplined mutexMonitor run) ∧
      (Rests run →
        (Disciplined mutexMonitor run ↔ Uncaused mutexMonitor run)) := by
  constructor
  · exact disciplined_of_uncaused sound (wp_start code)
  · intro hrests
    apply disciplined_iff sound (wp_start code)
    intro hwp hcause
    apply Or.inl
    rcases hrests with hend | ⟨w, rest, hwait⟩
    · rw [hend] at hwp
      exact (hwp.1 hcause).elim id False.elim
    · rw [hwait] at hwp
      exact (hwp.1.1 hcause).elim id False.elim

/-- A follower times out, starts an election and waits for votes. -/
def electionStarted : ThreadRun Unit 3 .runElectionTimer where
  labels := undisturbed 3 (.initializeReplica 2) (Code.start .runElectionTimer)
    (.timeout :: List.replicate 11 .done)
  executes := by decide +kernel

theorem mutex_discipline_electionStarted :
    Disciplined mutexMonitor electionStarted := by
  apply (mutex_discipline 3 .runElectionTimer electionStarted).1
  rw [uncaused_iff]
  decide +kernel

/-- The election times out as well, and `run_leader_election` returns. -/
def electionTimedOut : ThreadRun Unit 3 .runElectionTimer where
  labels := undisturbed 3 (.initializeReplica 2) (Code.start .runElectionTimer)
    (.timeout :: List.replicate 11 .done ++ [.timeout])
  executes := by decide +kernel

/-- The caller of `run_leader_election` is about to unlock a mutex that its
thread does not hold. -/
theorem electionTimedOut_not_disciplined :
    ¬ Disciplined mutexMonitor electionTimedOut := by
  intro h
  have hreach : Reaches electionTimedOut 13 .leave false :=
    ⟨by decide, _, rfl⟩
  exact Bool.noConfusion (h 13 .leave false hreach)

end RevPiRaft.Ports.MutexDiscipline
