import RevPiRaft.Ports.Environment

/-!
# The entries a leader appends

The main loop stamps an entry with the length of the log and the current term.
Nothing else changes the log, so the identifiers count the entries; and a
leader is in a term it has won, so the entries carry won terms, in their order.
-/

namespace RevPiRaft.Ports.LogEntries

open RevPiRaft.Ports.Datamodel
open RevPiRaft.Ports.ReplicaCore
open RevPiRaft.Ports.Events
open RevPiRaft.Ports.Reactions
open RevPiRaft.Ports.Environment
open scoped RevPiRaft.Ports.Cluster

variable {ι : Type}

/-! ## One event -/

section React

variable {N : Nat} {s s' : Replica} {e : Event ι} {out : List Publication}

/-- The entry that an event passes to `append_to_log`. -/
def appendedBy (s : Replica) : Event ι → Option LogEntry
  | .input batch => s.inputEntry batch
  | _ => none

/-- The log grows by one entry for each call of `append_to_log`. -/
theorem React.logSize (h : React N s e s' out) :
    s'.logSize = s.logSize + (appendedBy s e).toList.length := by
  cases h with
  | replyWon => simp [Replica.logSize, appendedBy]
  | input batch =>
      by_cases hrole : s.role = .leader <;>
        simp [Replica.mainInputLap, appendedBy, Replica.inputEntry, hrole,
          Replica.appendToLog, Replica.logSize]
  | _ => rfl

/-- Only a leader appends, with its current term. -/
theorem appendedBy_eq_some {x : LogEntry} (h : appendedBy s e = some x) :
    s.role = .leader ∧ x = s.newEntry := by
  cases e with
  | input batch =>
      simp only [appendedBy, Replica.inputEntry] at h
      split at h <;> cases h
      exact ⟨not_not.mp ‹_›, rfl⟩
  | _ => cases h

/-- An event that ends with a leader keeps its term. -/
theorem React.leader_term (h : React N s e s' out) (hs' : s'.role = .leader) :
    s'.currentTerm = s.currentTerm := by
  cases h with
  | start | appendNewer | appendStepDown | electionNewer | electionStepDown
  | voteNewer | replyNewer => simp at hs'
  | replyWon => simp
  | input => simp
  | _ => rfl

end React

/-! ## Along a run -/

variable {N : Nat} {ID : UInt8}

/-- The entry that move `i` passes to `append_to_log`. -/
def appendOf (run : ReplicaRun ι N ID) (i : Nat) : Option LogEntry :=
  run.labels[i]?.bind fun a =>
    appendedBy (run.replica i) (moveEvent (run.state i) a)

/-- The entries passed to `append_to_log` in the first `i` moves, in order. -/
def appended (run : ReplicaRun ι N ID) (i : Nat) : List LogEntry :=
  (List.range i).filterMap (appendOf run)

variable {run : ReplicaRun ι N ID}

theorem appended_succ (i : Nat) :
    appended run (i + 1) = appended run i ++ (appendOf run i).toList := by
  rw [appended, List.range_succ, List.filterMap_append]
  cases h : appendOf run i <;> simp [appended, h]

theorem appendOf_occurs {i : Nat} {e : Event ι} (h : run.Occurs i e) :
    appendOf run i = appendedBy (run.replica i) e := by
  obtain ⟨a, hlabel, rfl⟩ := h
  rw [appendOf, hlabel]
  rfl

theorem appendOf_lt {i : Nat} {x : LogEntry} (h : appendOf run i = some x) :
    i < run.length := by
  obtain ⟨a, hlabel, -⟩ := Option.bind_eq_some_iff.mp h
  exact (List.getElem?_eq_some_iff.mp hlabel).1

/-- `log_size` counts the appended entries. -/
theorem logSize_appended {i : Nat} (hi : i ≤ run.length) :
    (run.replica i).logSize = (appended run i).length := by
  refine ReplicaRun.invariant
    (P := fun i s => s.logSize = (appended run i).length) rfl ?_ i hi
  intro i e he hreact hsize
  rw [React.logSize hreact, hsize, appended_succ, appendOf_occurs he,
    List.length_append]

/-- The identifiers count the entries from 1, up to the range of `uint32_t`. -/
theorem appended_ids (run : ReplicaRun ι N ID) {i : Nat} (hi : i ≤ run.length) :
    (appended run i).map (·.id) =
      (List.range (appended run i).length).map fun k =>
        UInt32.ofNat (k + 1) := by
  induction i with
  | zero => rfl
  | succ i ih =>
      rw [appended_succ]
      cases happend : appendOf run i with
      | none => simpa using ih (by omega)
      | some x =>
          obtain ⟨e, he⟩ : ∃ e, run.Occurs i e := ReplicaRun.exists_occurs hi
          rw [appendOf_occurs he] at happend
          obtain ⟨-, rfl⟩ := appendedBy_eq_some happend
          simp [ih (by omega), List.range_succ, Replica.newEntry,
            logSize_appended (Nat.le_of_lt hi : i ≤ run.length)]

/-- A leader has become one in its current term. -/
theorem leader_won {i : Nat} (hi : i ≤ run.length)
    (hrole : (run.replica i).role = .leader) :
    ∃ k < i, run.BecomesLeader k (run.replica i).currentTerm := by
  obtain ⟨k, hk, hbefore, hafter, hterm⟩ :=
    run.entered (P := fun n => n.replica.role = .leader)
      (f := fun n => n.replica.currentTerm) RaftRole.noConfusion
      (fun i hi hafter => by
        obtain ⟨e, he⟩ := ReplicaRun.exists_occurs hi
        exact React.leader_term he.react hafter) hi hrole
  exact ⟨k, hk, by omega, hbefore, hafter, hterm⟩

/-- An appended entry carries the current term, which has been won. -/
theorem appendOf_won {i : Nat} {x : LogEntry} (h : appendOf run i = some x) :
    x.term = (run.replica i).currentTerm ∧
      ∃ k < i, run.BecomesLeader k x.term := by
  have hi := appendOf_lt h
  obtain ⟨e, he⟩ := ReplicaRun.exists_occurs hi
  rw [appendOf_occurs he] at h
  obtain ⟨hrole, rfl⟩ := appendedBy_eq_some h
  exact ⟨rfl, leader_won (Nat.le_of_lt hi) hrole⟩

/-- The terms of the entries do not decrease. -/
theorem appended_terms (hwrap : run.NoTermWrap) (i : Nat) :
    (appended run i).Pairwise fun x y => x.term ≤ y.term := by
  rw [appended, List.pairwise_filterMap]
  refine List.pairwise_lt_range.imp fun hij x hx y hy => ?_
  rw [(appendOf_won hx).1, (appendOf_won hy).1]
  exact ReplicaRun.term_le hwrap (Nat.le_of_lt hij)
    (Nat.le_of_lt (appendOf_lt hy))

/-- In every run the main loop appends entries 1, 2, 3 and so on, of
non-decreasing terms, each of the term that the replica leads at the append and
has won before. -/
theorem entries_stamped (run : ReplicaRun ι N ID) (hwrap : run.NoTermWrap)
    (hfew : (appended run run.length).length < UInt32.size) :
    (appended run run.length).map (·.id.toNat) =
        (List.range (appended run run.length).length).map (· + 1) ∧
      ((appended run run.length).Pairwise fun x y => x.term ≤ y.term) ∧
      ∀ i x, appendOf run i = some x →
        x.term = (run.replica i).currentTerm ∧
          ∃ k < i, run.BecomesLeader k x.term := by
  refine ⟨?_, appended_terms hwrap run.length, fun i x h => appendOf_won h⟩
  have hids := congrArg (List.map UInt32.toNat)
    (appended_ids run (Nat.le_refl _))
  rw [List.map_map, List.map_map] at hids
  refine hids.trans (List.map_congr_left fun k hk => ?_)
  have hk := List.mem_range.mp hk
  exact UInt32.toNat_ofNat_of_lt' (by omega)

/-- Replica 2 wins term 1 with the vote of replica 0 and takes two inputs. -/
def twoInputs : ReplicaRun (Fin 3) 3 2 where
  labels :=
    [.act .electionTimeout,
      .offer 0 ⟨.requestVoteReply,
        { senderID := 0
          term := 1
          candidateID := 2
          voteGranted := 1 }⟩,
      .act (.deliver .requestVoteReply 0),
      .act (.voteWake [.requestVoteReply]), .act .voteEnter, .act .replyStep,
      .act (.input []), .act (.input [])]
  executes := by decide +kernel

theorem entries_stamped_twoInputs :
    appended twoInputs 8 = [⟨1, 1⟩, ⟨2, 1⟩] ∧
      (appended twoInputs 8).map (·.id.toNat) = (List.range 2).map (· + 1) :=
  have happended : appended twoInputs 8 = [⟨1, 1⟩, ⟨2, 1⟩] := by
    decide +kernel
  ⟨happended, (entries_stamped twoInputs
    (ReplicaRun.noTermWrap_of_terms (by decide +kernel))
    (by decide +kernel)).1.trans (by decide +kernel)⟩

end RevPiRaft.Ports.LogEntries
