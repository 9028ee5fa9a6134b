import RevPiRaft.Ports.ThreadRefinement

/-!
# Where the mutex stays locked

Whoever owns the mutex of a replica has steps of its own thread that lead to its
unlock (`mutex_released_iff`), unless it is code that `SIGALRM` has interrupted:
then the thread waits for itself, and as long as no wait of
`run_leader_election` comes back, nobody else unlocks the mutex and the replica
stays as it is (`blocked_forever`).
-/

namespace RevPiRaft.Ports.Deadlock

open RevPiRaft.Verified.Runs
open RevPiRaft.Verified.Progress
open RevPiRaft.Ports.Datamodel
open RevPiRaft.Ports.ReplicaCore
open RevPiRaft.Ports.LeaderElection
open RevPiRaft.Ports.Events
open RevPiRaft.Ports.Reactions
open RevPiRaft.Ports.TermMonotone
open RevPiRaft.Ports.Environment
open RevPiRaft.Ports.Threads
open RevPiRaft.Ports.Signals
open RevPiRaft.Ports.Ownership
open RevPiRaft.Ports.Sections
open RevPiRaft.Ports.ThreadRefinement

variable {ι : Type} {N : Nat} {ID : UInt8}

/-! ## A thread that waits for itself -/

theorem handler_of_stack {p : Signals.Process ι} {t : Thread} {o : Op ι}
    {rest : List (Op ι)} (h : stack p (t, .handler) = o :: rest) :
    p.handler t = some (o :: rest) := by
  rw [stack] at h
  cases hhandler : p.handler t with
  | none =>
      rw [hhandler] at h
      cases h
  | some ops =>
      rw [hhandler] at h
      exact congrArg some h

theorem blocked_iff {p : Signals.Process ι} {t : Thread} :
    p.Blocked t ↔ (∃ rest, stack p (t, .handler) = .lock :: rest) ∧
      p.owner = some (t, .code) := by
  constructor
  · rintro ⟨⟨rest, hhandler⟩, howner⟩
    refine ⟨⟨rest, ?_⟩, howner⟩
    rw [stack, hhandler]
    rfl
  · rintro ⟨⟨rest, hstack⟩, howner⟩
    exact ⟨⟨rest, handler_of_stack hstack⟩, howner⟩

/-- Its steps are over. -/
theorem blocked_stuck {p : Signals.Process ι} {t : Thread} (h : p.Blocked t)
    (r : Result ι) : (Signals.process N ID).step p (.run t r) = none := by
  obtain ⟨⟨rest, hhandler⟩, howner⟩ := h
  simp [Signals.process, Process.step, hhandler, Process.performTop,
    Process.waits, howner]

/-- Only a delivery puts a handler on top of code that owns the mutex. -/
theorem blocked_of_delivery {p q : Signals.Process ι} {e : Signals.Event ι}
    {t : Thread} (hstep : Signals.Step N p e q)
    (hbefore : ¬ (p.owner = some (t, .code) ∧ p.handler t ≠ none))
    (howner : q.owner = some (t, .code)) (hhandler : q.handler t ≠ none) :
    q.Blocked t := by
  cases hstep with
  | code u r o rest new hnone hcode hfree ho =>
      exfalso
      have hne : u ≠ t := by
        intro heq
        rw [heq] at hnone
        exact hhandler hnone
      have howner : p.ownerAfter (u, .code) o = some (t, .code) := howner
      rcases ownerAfter_cases p (u, .code) o with hown | hown | hown
      · rw [hown] at howner
        exact hbefore ⟨howner, hhandler⟩
      · rw [hown] at howner
        cases howner
      · rw [hown] at howner
        cases howner
        exact hne rfl
  | handler u r o rest new htop hfree ho =>
      exfalso
      have howner : p.ownerAfter (u, .handler) o = some (t, .code) := howner
      have hold : p.handler t ≠ none := by
        by_cases heq : t = u
        · rw [heq, htop]
          exact Option.some_ne_none _
        · exact (Function.update_of_ne heq ..).symm.trans_ne hhandler
      rcases ownerAfter_cases p (u, .handler) o with hown | hown | hown
      · rw [hown] at howner
        exact hbefore ⟨howner, hold⟩
      · rw [hown] at howner
        cases howner
      · rw [hown] at howner
        cases howner
  | deliver u harmed hnone =>
      by_cases heq : t = u
      · subst heq
        exact ⟨⟨_, Function.update_self ..⟩, howner⟩
      · exfalso
        apply hbefore
        constructor
        · exact howner
        · exact (Function.update_of_ne heq ..).symm.trans_ne hhandler

/-- The others are outside of their sections, where they do not unlock. -/
theorem blocked_move {p q : Signals.Process ι} {s : Replica} {t : Thread}
    (h : p.Blocked t) (hordered : Ordered N s p)
    (hmove : Move N (· ≠ .wait .leaderElection) p q) :
    q.Blocked t ∧ q.replica = p.replica := by
  obtain ⟨⟨lockRest, hlock⟩, howner⟩ := blocked_iff.mp h
  cases hmove with
  | @performed self o r rest new htop hstack hquiet hfree ho hself hother
      hreplica howner' =>
      have hcode : self ≠ (t, .code) := by
        intro heq
        rw [heq] at htop
        obtain ⟨⟨rest, hhandler⟩, -⟩ := h
        rw [show p.handler t = none from htop rfl] at hhandler
        cases hhandler
      have hhandler : self ≠ (t, .handler) := by
        intro heq
        rw [heq, hlock] at hstack
        cases hstack
        rw [Process.waits, howner] at hfree
        cases hfree
      have hout : Outside (codeOf self) (stack p self) := by
        apply hordered.outside
        rw [howner]
        intro heq
        exact hcode (Option.some.inj heq).symm
      rw [hstack] at hout
      have hnot : o ≠ .lock := by
        intro heq
        rw [heq, Process.waits, howner] at hfree
        cases hfree
      obtain ⟨-, hrun, hown⟩ := hout.perform p self hnot hquiet ho
      constructor
      · apply blocked_iff.mpr
        constructor
        · rw [hother _ hhandler.symm]
          exact ⟨lockRest, hlock⟩
        · rw [howner', hown, howner]
      · rw [hreplica, hrun]
  | interrupted u hstack hself hother hreplica howner' =>
      have hhandler : (u, .handler) ≠ (t, Layer.handler) := by
        intro heq
        rw [heq, hlock] at hstack
        cases hstack
      constructor
      · apply blocked_iff.mpr
        constructor
        · rw [hother _ hhandler.symm]
          exact ⟨lockRest, hlock⟩
        · rw [howner', howner]
      · exact hreplica

/-! ## A section that goes on -/

/-- What is performed before something else. -/
theorem alone_append {s u : Replica} {xs ys : List (Op ι)}
    (h : Alone N s xs u ys) (zs : List (Op ι)) :
    Alone N s (xs ++ zs) u (ys ++ zs) := by
  induction h with
  | refl => exact .refl _ _
  | step r new ho _ ih =>
      rw [List.append_assoc] at ih
      exact .step r new ho ih

theorem replies_succeed {s : Replica} (hs : Candidacy s)
    (batch : List (Sample ι RequestVoteReply)) :
    ∃ s', handleVoteReplyMessage N s batch = some s' := by
  induction batch generalizing s with
  | nil => exact ⟨s, rfl⟩
  | cons x batch ih =>
      obtain ⟨r, hr⟩ := Option.isSome_iff_exists.mp
        (voteReplyIteration_isSome (N := N) hs.isSome x)
      have hreact : React N s (.reply x) r.1 [] := by
        apply react_cases
        rw [react, hr]
        rfl
      rw [handleVoteReplyMessage, hr, Option.bind_some]
      split
      · exact ⟨r.1, rfl⟩
      · exact ih (React.candidacy hreact hs)

theorem completes {s : Replica} {c : Code} {ops : List (Op ι)}
    (hs : Candidacy s) (h : Body s c ops) : ∃ u, Alone N s ops u [] := by
  obtain ⟨u, halone, -⟩ :=
    h.completes (N := N) fun batch _ => replies_succeed hs batch
  exact ⟨u, halone⟩

theorem roleTest_completes (s : Replica) (batch : List (Sample ι Input))
    (rest : List (Op ι)) :
    ∃ u left, Alone N s (.roleTest batch :: rest) u (.unlock :: left) := by
  by_cases hrole : s.role ≠ .leader
  · refine ⟨s, .wait .input :: rest, ?_⟩
    apply alone_test _ rfl (by rw [perform, if_pos hrole])
    exact .refl _ _
  · refine ⟨s.appendToLog s.newEntry,
      .returnLoan .main :: .wait .input :: rest, ?_⟩
    apply alone_test _ rfl (by rw [perform, if_neg hrole])
    apply alone_test _ rfl rfl
    apply alone_assign
    exact .refl _ _

/-- On its own a section comes to its unlock. -/
theorem inside_completes {c : Code} {s₀ s : Replica} {ops : List (Op ι)}
    (hs : Candidacy s₀) (h : Inside N c s₀ s ops) :
    ∃ u rest, Alone N s ops u (.unlock :: rest) := by
  cases h with
  | @entered head rest hsame hhead h =>
      subst hsame
      cases hhead with
      | timerTimeout =>
          by_cases hrole : s.role ≠ .follower ∧ s.role ≠ .candidate
          · refine ⟨s, .wait .appendEntries :: rest, ?_⟩
            apply alone_test _ rfl (by rw [perform, if_pos hrole])
            exact .refl _ _
          · refine ⟨(startElection s).1, .wait .leaderElection :: .leave ::
              .unlock :: .wait .appendEntries :: rest, ?_⟩
            apply alone_test _ rfl (by rw [perform, if_neg hrole])
            apply alone_setUp
            exact .refl _ _
      | appendRead =>
          refine ⟨s, .returnLoan .runElectionTimer ::
            .wait .appendEntries :: rest, ?_⟩
          apply Alone.step (.appendEntries []) _ rfl
          exact alone_appendLoop [] (.refl _ _)
      | inputRead =>
          obtain ⟨u, left, halone⟩ :=
            roleTest_completes (N := N) s ([] : List (Sample ι Input)) rest
          exact ⟨u, left, .step (.input []) _ rfl halone⟩
      | roleTest batch => exact roleTest_completes s batch rest
      | voteRead =>
          refine ⟨s, rest, ?_⟩
          apply Alone.step (.requestVote []) _ rfl
          apply alone_voteLoop false []
          exact alone_test [] rfl rfl (.refl _ _)
      | replyRead =>
          refine ⟨s, rest, ?_⟩
          apply Alone.step (.requestVoteReply []) _ rfl
          apply alone_replyLoop [] rfl
          exact alone_test [] rfl rfl (.refl _ _)
      | appendReplyRead =>
          refine ⟨s, rest, ?_⟩
          apply Alone.step (.appendEntriesReply []) _ rfl
          exact alone_test [] rfl rfl (.refl _ _)
      | nothing => exact ⟨s, rest, .refl _ _⟩
  | @working ops left rest hbody halone hleft h =>
      obtain ⟨u, hu⟩ := completes hs hbody
      exact ⟨u, rest, alone_append (alone_rest hbody.inner hu halone) _⟩

/-! ## Its thread goes on -/

/-- The operation on top of a stack can be performed unless it waits. -/
theorem exists_performed {p : Signals.Process ι} {self : Thread × Layer}
    {o : Op ι} {r : Result ι} {rest new : List (Op ι)} (htop : OnTop p self)
    (hstack : stack p self = o :: rest) (hfree : p.waits o = false)
    (ho : perform N p.replica o r = some new) :
    ∃ q, (Signals.process N ID).step p (.run self.1 r) = some (q, []) ∧
      OnTop q self ∧ stack q self = new ++ rest ∧
      q.replica = runOp p.replica o ∧ q.owner = p.ownerAfter self o := by
  obtain ⟨t, l⟩ := self
  cases l with
  | code =>
      have hhandler : p.handler t = none := htop rfl
      have hcode : p.code t = o :: rest := hstack
      refine ⟨{ p with
        replica := runOp p.replica o
        owner := p.ownerAfter (t, .code) o
        code := Function.update p.code t (new ++ rest) }, ?_, htop, ?_, rfl,
        rfl⟩
      · simp [Signals.process, Process.step, hhandler, hcode,
          Process.performTop, hfree, ho]
      · exact Function.update_self ..
  | handler =>
      have hhandler := handler_of_stack hstack
      refine ⟨{ p with
        replica := runOp p.replica o
        owner := p.ownerAfter (t, .handler) o
        handler := Function.update p.handler t
          (Process.handlerLeft (new ++ rest)) }, ?_, onTop_handler _ t, ?_, rfl,
        rfl⟩
      · simp [Signals.process, Process.step, hhandler, Process.performTop,
          hfree, ho]
      · show (Function.update p.handler t _ t).getD [] = new ++ rest
        rw [Function.update_self]
        exact handlerLeft_getD _

/-- The owner comes to its unlock. -/
theorem leads_released {self : Thread × Layer} {c : Code}
    {s₀ s u : Replica} {ops zs : List (Op ι)} (halone : Alone N s ops u zs)
    (hunlock : ∃ rest, zs = .unlock :: rest) {p : Signals.Process ι}
    (hs : p.replica = s) (hops : stack p self = ops) (htop : OnTop p self)
    (howner : p.owner = some self) (hinside : Inside N c s₀ s ops) :
    ∃ q, Leads (Signals.process N ID) (fun e => ∃ r, e = .run self.1 r) p q ∧
      q.owner = none := by
  induction halone generalizing p with
  | refl =>
      obtain ⟨rest, rfl⟩ := hunlock
      have hunlock : perform N p.replica (.unlock : Op ι) .done = some [] := rfl
      obtain ⟨q, hstep, -, -, -, hreleased⟩ :=
        exists_performed htop hops rfl hunlock
      exact ⟨q, .step ⟨_, rfl⟩ hstep, hreleased⟩
  | @step s u o rest zs r new ho _ ih =>
      subst hs
      have hfree : p.waits o = false := by
        cases o with
        | lock => exact absurd hinside Inside.not_lock
        | _ => rfl
      obtain ⟨q, hstep, htop', hstack, hreplica, howner'⟩ :=
        exists_performed (N := N) htop hops hfree ho
      rcases hinside.perform p self ho with ⟨hnew, hown⟩ | ⟨rfl, -, -⟩
      · obtain ⟨q', hleads, hreleased⟩ := ih hunlock hreplica hstack htop'
          (by rw [howner', hown, howner]) hnew
        exact ⟨q', .trans (.step ⟨_, rfl⟩ hstep) hleads, hreleased⟩
      · exact ⟨q, .step ⟨_, rfl⟩ hstep, howner'⟩

/-! ## Runs -/

section Runs

variable (run : Run (Signals.process (ι := ι) N ID))

theorem move_of_run
    (hquiet : ∀ i t r, run.labels[i]? = some (.run t r) →
      nextOp (run.state i) t ≠ some (.wait .leaderElection))
    {i : Nat} (hi : i < run.length) :
    Move N (· ≠ .wait .leaderElection) (run.state i)
      (run.state (i + 1)) := by
  apply quietMove (run_step run hi)
  intro t r hlabel
  apply hquiet i t r
  rw [← hlabel]
  exact List.getElem?_eq_getElem hi

/-- A handler on top of code that owns the mutex is at its first lock. -/
theorem run_blocked
    (hquiet : ∀ i t r, run.labels[i]? = some (.run t r) →
      nextOp (run.state i) t ≠ some (.wait .leaderElection))
    (t : Thread) :
    ∀ i, i ≤ run.length → (run.state i).owner = some (t, .code) →
      (run.state i).handler t ≠ none → (run.state i).Blocked t := by
  apply run.induction (P := fun i => (run.state i).owner = some (t, .code) →
    (run.state i).handler t ≠ none → (run.state i).Blocked t)
  · intro _ hhandler
    rw [Run.state_zero] at hhandler
    exact absurd rfl hhandler
  · intro i hi _ ih howner' hhandler'
    by_cases hbefore : (run.state i).owner = some (t, .code) ∧
        (run.state i).handler t ≠ none
    · obtain ⟨n, -, hordered⟩ := run_ordered run hquiet (Nat.le_of_lt hi)
      exact (blocked_move (ih hbefore.1 hbefore.2) hordered
        (move_of_run run hquiet hi)).1
    · exact blocked_of_delivery (run_step run hi) hbefore howner' hhandler'

/-- As long as no wait of `run_leader_election` comes back, a thread that
`SIGALRM` has interrupted inside of a section waits for itself for ever, the
mutex stays locked, and nothing changes the replica any more. -/
theorem blocked_forever
    (hquiet : ∀ i t r, run.labels[i]? = some (.run t r) →
      nextOp (run.state i) t ≠ some (.wait .leaderElection))
    {i : Nat} {t : Thread} (howner : (run.state i).owner = some (t, .code))
    (hhandler : (run.state i).handler t ≠ none) {j : Nat} (hij : i ≤ j)
    (hj : j ≤ run.length) :
    (run.state j).Blocked t ∧
      (run.state j).replica = (run.state i).replica := by
  obtain ⟨k, rfl⟩ := Nat.exists_eq_add_of_le hij
  induction k with
  | zero => exact ⟨run_blocked run hquiet t i hj howner hhandler, rfl⟩
  | succ k ih =>
      obtain ⟨hblocked, hsame⟩ := ih (by omega) (by omega)
      obtain ⟨n, -, hordered⟩ := run_ordered run hquiet (i := i + k) (by omega)
      obtain ⟨hnext, hkept⟩ :=
        blocked_move hblocked hordered (move_of_run run hquiet hj)
      exact ⟨hnext, hkept.trans hsame⟩

/-- Some steps of its own thread lead the owner of the mutex to its unlock if and
only if the owner is not code that `SIGALRM` has interrupted. -/
theorem mutex_released_iff
    (hquiet : ∀ i t r, run.labels[i]? = some (.run t r) →
      nextOp (run.state i) t ≠ some (.wait .leaderElection))
    {i : Nat} (hi : i ≤ run.length) {self : Thread × Layer}
    (howner : (run.state i).owner = some self) :
    (∃ q, Leads (Signals.process N ID) (fun e => ∃ r, e = .run self.1 r)
        (run.state i) q ∧ q.owner = none) ↔
      (self.2 = .code → (run.state i).handler self.1 = none) := by
  constructor
  · rintro ⟨q, hleads, hreleased⟩ hcode
    by_contra hhandler
    obtain ⟨t, l⟩ := self
    cases hcode
    have hblocked := run_blocked run hquiet t i hi howner hhandler
    have hsame : q = run.state i := by
      apply hleads.invariant (I := fun q => q = run.state i)
      · rintro p e q' out ⟨r, rfl⟩ rfl hstep
        rw [blocked_stuck hblocked r] at hstep
        cases hstep
      · rfl
    rw [hsame, howner] at hreleased
    cases hreleased
  · intro htop
    obtain ⟨n, hreachable, hordered⟩ := run_ordered run hquiet hi
    cases hordered with
    | between hfree hreplica houtside =>
        rw [howner] at hfree
        cases hfree
    | within owner howner' hinside houtside =>
        rw [howner] at howner'
        cases howner'
        obtain ⟨u, rest, halone⟩ :=
          inside_completes (reachable_candidacy hreachable) hinside
        exact leads_released halone ⟨rest, rfl⟩ rfl rfl htop howner hinside

end Runs

/-- `frozenWinner` goes on with its main thread. -/
def frozenInput : Run (Signals.process (ι := Unit) 3 2) where
  labels := frozenWinner.labels ++ [.run .main (.triggered [])]
  executes := by decide +kernel

/-- That does not change the new leader any more. -/
theorem blocked_forever_frozenInput :
    (frozenInput.state 29).Blocked .requestVote ∧
      (frozenInput.state 29).replica = (frozenInput.state 28).replica :=
  blocked_forever frozenInput (quiet_of_check frozenInput (by decide +kernel))
    (by decide +kernel)
    (by
      show some (sendHeartbeat : List (Op Unit)) ≠ none
      exact Option.some_ne_none _)
    (by decide) (by decide)

/-- The election timer of `wonTerm` comes to the end of its set-up. -/
theorem mutex_released_iff_wonTerm :
    ∃ q, Leads (Signals.process 3 2) (fun e => ∃ r, e = .run .electionTimer r)
      (wonTerm.state 5) q ∧ q.owner = none :=
  (mutex_released_iff wonTerm (quiet_of_check wonTerm (by decide +kernel))
    (show 5 ≤ wonTerm.length by decide)
    (show (wonTerm.state 5).owner = some (.electionTimer, .code) by
      decide +kernel)).mpr fun _ => rfl

end RevPiRaft.Ports.Deadlock
