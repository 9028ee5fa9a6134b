import RevPiRaft.Ports.MutexDiscipline
import RevPiRaft.Ports.Signals

/-!
# The shared mutex and the threads' views of it

`Ports.MutexDiscipline` follows one thread at a time and asks whether its last
call on the mutex was a lock.  Here the threads and their `send_heartbeat`
share one mutex, and the view of each is that it owns it.  As long as no wait
of `run_leader_election` comes back, all views are right: every unlock and
every guarded assignment is performed by the owner.
-/

namespace RevPiRaft.Ports.Ownership

open RevPiRaft.Verified.Runs
open RevPiRaft.Verified.Contracts
open RevPiRaft.Ports.ReplicaCore
open RevPiRaft.Ports.Threads
open RevPiRaft.Ports.MutexDiscipline
open RevPiRaft.Ports.Signals

variable {ι : Type} {N : Nat}

/-- What a thread or its handler still has to do. -/
def stack (p : Process ι) : Thread × Layer → List (Op ι)
  | (t, .code) => p.code t
  | (t, .handler) => (p.handler t).getD []

/-- The view that a thread or its handler has of the mutex. -/
def owns (owner : Option (Thread × Layer)) (self : Thread × Layer) : Bool :=
  owner = some self

/-- Nothing forbidden has happened, and `held` is the view of the mutex. -/
def undisturbedWatch (held : Bool) : Watch Bool where
  state := held
  bad := False
  cause := False

/-- What is left to do fulfils the contracts in the view of its owner. -/
def Kept (p : Process ι) : Prop :=
  ∀ self, contract.Wp (stack p self) Released
    (undisturbedWatch (owns p.owner self))

/-! ## One operation -/

section Operation

variable {p q : Process ι} {self : Thread × Layer} {o : Op ι}
  {rest new : List (Op ι)}

/-- What is next is allowed in the view of who performs it. -/
theorem Kept.allowed (h : Kept p) (hstack : stack p self = o :: rest) :
    mutexAllowed o (owns p.owner self) := by
  have hwp := h self
  rw [hstack] at hwp
  exact ((sound (N := 0)).guards o _ hwp.1).resolve_left id

/-- The view of who performs an operation changes as in a thread on its own. -/
theorem ownerAfter_self (p : Process ι) (self : Thread × Layer) (o : Op ι) :
    owns (p.ownerAfter self o) self = holds o (owns p.owner self) := by
  cases o with
  | lock => exact decide_eq_true rfl
  | _ => rfl

/-- The views of the others do not change. -/
theorem ownerAfter_other {other : Thread × Layer} (hne : other ≠ self)
    (hfree : p.waits o = false)
    (hallowed : mutexAllowed o (owns p.owner self)) :
    owns (p.ownerAfter self o) other = owns p.owner other := by
  cases o with
  | lock =>
      have hnone : p.owner = none := by
        simpa [Process.waits] using hfree
      simp [Process.ownerAfter, owns, hnone, hne.symm]
  | unlock =>
      have howner : p.owner = some self := by
        simpa [mutexAllowed, owns] using hallowed
      simp [Process.ownerAfter, owns, howner, hne.symm]
  | _ => rfl

/-- An allowed operation that is not a cause. -/
theorem next_undisturbed {held : Bool} {a : Replica × Result ι}
    (hcause : waitsForVotes o = false) (hallowed : mutexAllowed o held) :
    (undisturbedWatch held).next (thread N) mutexMonitor o a =
      undisturbedWatch (holds o held) := by
  simp [Watch.next, undisturbedWatch, thread, mutexMonitor, hcause, hallowed]

/-- The layer `self` performs the operation on top of its stack. -/
theorem Kept.perform {s : Replica} {r : Result ι} (h : Kept p)
    (self : Thread × Layer) (hstack : stack p self = o :: rest)
    (hcause : waitsForVotes o = false)
    (hfree : p.waits o = false) (ho : perform N s o r = some new)
    (hself : stack q self = new ++ rest)
    (hother : ∀ other, other ≠ self → stack q other = stack p other)
    (howner : q.owner = p.ownerAfter self o) : Kept q := by
  intro other
  have hallowed := h.allowed hstack
  by_cases heq : other = self
  · rw [heq, hself, howner, ownerAfter_self, Contract.wp_append]
    have hwp := h self
    rw [hstack] at hwp
    have hnew := sound.keeps o (s, r) new _ ho hwp.1
    rw [next_undisturbed hcause hallowed] at hnew
    exact Contract.wp_mono hwp.2 hnew
  · rw [hother other heq, howner, ownerAfter_other heq hfree hallowed]
    exact h other

end Operation

/-! ## Steps and runs -/

/-- The operation that thread `t` performs next. -/
def nextOp (p : Process ι) (t : Thread) : Option (Op ι) :=
  match p.handler t with
  | none => (p.code t).head?
  | some ops => ops.head?

theorem waitsForVotes_of_ne {o : Op ι} (h : o ≠ .wait .leaderElection) :
    waitsForVotes o = false := by
  cases o with
  | wait v => cases v <;> first | rfl | exact absurd rfl h
  | _ => rfl

theorem handlerLeft_getD (ops : List (Op ι)) :
    (Process.handlerLeft ops).getD [] = ops := by
  cases ops <;> rfl

theorem Kept.step {p q : Process ι} {e : Event ι} (h : Kept p)
    (hstep : Step N p e q)
    (hquiet : ∀ t r, e = .run t r → nextOp p t ≠ some (.wait .leaderElection)) :
    Kept q := by
  cases hstep with
  | code t r o rest new hhandler hcode hfree ho =>
      have hne : o ≠ .wait .leaderElection := by
        intro heq
        apply hquiet t r rfl
        rw [nextOp, hhandler, hcode, heq]
        rfl
      apply h.perform (t, .code) hcode (waitsForVotes_of_ne hne)
        hfree ho
      · exact Function.update_self ..
      · rintro ⟨u, l⟩ hother
        cases l with
        | code =>
            apply Function.update_of_ne
            intro heq
            exact hother (by rw [heq])
        | handler => rfl
      · rfl
  | handler t r o rest new hhandler hfree ho =>
      have hne : o ≠ .wait .leaderElection := by
        intro heq
        apply hquiet t r rfl
        rw [nextOp, hhandler, heq]
        rfl
      apply h.perform (t, .handler) (by rw [stack, hhandler]; rfl)
        (waitsForVotes_of_ne hne) hfree ho
      · show (Function.update p.handler t _ t).getD [] = new ++ rest
        rw [Function.update_self]
        exact handlerLeft_getD _
      · rintro ⟨u, l⟩ hother
        cases l with
        | code => rfl
        | handler =>
            have hne : u ≠ t := by
              intro heq
              exact hother (by rw [heq])
            show (Function.update p.handler t _ u).getD [] = _
            rw [Function.update_of_ne hne]
            rfl
      · rfl
  | deliver t harmed hhandler =>
      rintro ⟨u, l⟩
      cases l with
      | code => exact h (u, .code)
      | handler =>
          show contract.Wp ((Function.update p.handler t _ u).getD []) Released
            (undisturbedWatch (owns p.owner (u, .handler)))
          by_cases heq : u = t
          · have hreleased := h (t, .handler)
            rw [stack, hhandler] at hreleased
            rw [heq, Function.update_self]
            exact wp_sendHeartbeat hreleased
          · rw [Function.update_of_ne heq]
            exact h (u, .handler)

section Runs

variable {ID : UInt8} (run : Run (process (ι := ι) N ID))

/-- As long as no wait of `run_leader_election` comes back, whoever is next to
unlock, or to assign a guarded field, owns the mutex, and whoever is next to
lock it does not. -/
theorem owner_disciplined
    (hquiet : ∀ i t r, run.labels[i]? = some (.run t r) →
      nextOp (run.state i) t ≠ some (.wait .leaderElection))
    {i : Nat} (hi : i ≤ run.length) {self : Thread × Layer} {o : Op ι}
    {rest : List (Op ι)} (hstack : stack (run.state i) self = o :: rest) :
    mutexAllowed o (owns (run.state i).owner self) := by
  have hkept : Kept (run.state i) := by
    apply run.induction (P := fun i => Kept (run.state i)) _ _ i hi
    · rw [Run.state_zero]
      rintro ⟨t, l⟩
      cases l with
      | code => exact wp_start t.code
      | handler => exact released_start
    · intro i hi _ ih
      apply ih.step (run_step run hi)
      intro t r hlabel
      apply hquiet i t r
      rw [← hlabel]
      exact List.getElem?_eq_getElem hi
  exact hkept.allowed hstack

/-- No wait of `run_leader_election` comes back in the step `e`. -/
def quietStep (p : Process ι) : Option (Event ι) → Bool
  | some (.run t _) => !(nextOp p t).any waitsForVotes
  | _ => true

/-- The condition of `owner_disciplined` can be computed. -/
theorem quiet_of_check
    (h : ∀ i < run.length, quietStep (run.state i) run.labels[i]? = true) :
    ∀ i t r, run.labels[i]? = some (.run t r) →
      nextOp (run.state i) t ≠ some (.wait .leaderElection) := by
  intro i t r hlabel hnext
  have hcheck := h i (List.getElem?_eq_some_iff.mp hlabel).1
  rw [hlabel, quietStep, hnext] at hcheck
  cases hcheck

end Runs

/-- The replica that `frozenWinner` freezes assigns its role as the owner. -/
theorem owner_disciplined_frozenWinner :
    mutexAllowed (.assign (.role .leader) : Op Unit)
      (owns (frozenWinner.state 22).owner (.requestVote, .code)) :=
  owner_disciplined frozenWinner
    (quiet_of_check frozenWinner (by decide +kernel)) (by decide) rfl

end RevPiRaft.Ports.Ownership
