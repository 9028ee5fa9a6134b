import Mathlib.Algebra.Group.Nat.Defs
import RevPiRaft.Ports.ReplicaCore

/-!
# The log as a list

`append_to_log` and `insert_log_entry_at` are compared with what they are for:
adding an entry at the end of a list, and storing one at a position.  The
former stores past the block it has just grown.  The latter grows the block by
`log_size - index + 1`, which is right at the end of the log only; further out
it grows it too little, or too much once the subtraction wraps.
-/

namespace RevPiRaft.Ports.Log

open RevPiRaft.Ports.Datamodel
open RevPiRaft.Ports.ReplicaCore

/-! ## Calls -/

/-- A call of one of the two functions that store in the log. -/
inductive LogCall where
  | append (entry : LogEntry)
  | insert (entry : LogEntry) (index : UInt64)

/-- The replica after a call. -/
def LogCall.run (s : Replica) : LogCall → Replica
  | .append entry => s.appendToLog entry
  | .insert entry index => s.insertLogEntryAt entry index

/-- The position a call stores at. -/
def LogCall.position (s : Replica) : LogCall → Nat
  | .append _ => s.logSize + 1
  | .insert _ index => index.toNat

/-- What a call is to make of the log. -/
def LogCall.Stores (s : Replica) (log : List (Option LogEntry)) :
    LogCall → Prop
  | .append entry => log = s.log ++ [some entry]
  | .insert entry index =>
      log.length = max s.logSize (index.toNat + 1) ∧
        log[index.toNat]? = some (some entry) ∧
        ∀ j < s.logSize, j ≠ index.toNat → log[j]? = s.log[j]?

/-- The call stores inside the block, and what it is to store. -/
structure LogCall.Behaves (s : Replica) (call : LogCall) : Prop where
  access : call.position s < (call.run s).logSize
  stores : call.Stores s (call.run s).log

/-- Every call of a sequence behaves. -/
def AllBehave (s : Replica) : List LogCall → Prop
  | [] => True
  | call :: calls => call.Behaves s ∧ AllBehave (call.run s) calls

/-- The call keeps the log below `2^31` entries. -/
def LogCall.small : LogCall → Prop
  | .append _ => True
  | .insert _ index => index.toNat + 1 < 2 ^ 31

/-- Every call is an insert, at most one past the positions stored at before;
`n` is their number. -/
def InsertsInOrder (n : Nat) : List LogCall → Prop
  | [] => True
  | .append _ :: _ => False
  | .insert _ index :: calls =>
      index.toNat ≤ n ∧ InsertsInOrder (max n (index.toNat + 1)) calls

/-! ## One call -/

/-- `append_to_log` stores one past the end of its block. -/
theorem append_not_behaves (s : Replica) (entry : LogEntry) :
    ¬ (LogCall.append entry).Behaves s := by
  intro h
  have haccess := h.access
  simp [LogCall.position, LogCall.run, Replica.appendToLog,
    Replica.logSize] at haccess

section Insert

variable {s : Replica} {index : UInt64} (entry : LogEntry)
  (hsize : s.logSize < 2 ^ 31)

include hsize

variable (index) in
/-- The new size, as a number: twice the old one less the position, plus one. -/
theorem newSize_toNat :
    (UInt64.ofNat s.logSize +
      (UInt64.ofNat s.logSize - index + 1)).toNat =
        (2 * s.logSize + 1 + (2 ^ 64 - index.toNat)) % 2 ^ 64 := by
  have hofNat : (UInt64.ofNat s.logSize).toNat = s.logSize := by
    simp
    omega
  rw [UInt64.toNat_add, UInt64.toNat_add, UInt64.toNat_sub, hofNat]
  simp
  omega

variable (hindex : index.toNat + 1 < 2 ^ 31)

include hindex

/-- The block is reallocated exactly for positions outside it. -/
theorem grows_iff :
    UInt64.ofNat s.logSize < index + 1 ↔ s.logSize ≤ index.toNat := by
  rw [UInt64.lt_iff_toNat_lt]
  simp
  omega

theorem insertLogEntryAt_inside (h : index.toNat < s.logSize) :
    (s.insertLogEntryAt entry index).log =
      s.log.set index.toNat (some entry) := by
  have hgrow := mt (grows_iff hsize hindex).mp (Nat.not_le.mpr h)
  simp [Replica.insertLogEntryAt, hgrow]

theorem insertLogEntryAt_outside (h : s.logSize ≤ index.toNat) :
    (s.insertLogEntryAt entry index).log =
      ((s.reallocLog (UInt64.ofNat s.logSize +
        (UInt64.ofNat s.logSize - index + 1))).log.set index.toNat
          (some entry)) := by
  have hgrow := (grows_iff hsize hindex).mpr h
  rw [Replica.insertLogEntryAt, if_pos hgrow]

theorem insertLogEntryAt_size (h : s.logSize ≤ index.toNat) :
    (s.insertLogEntryAt entry index).log.length =
      (2 * s.logSize + 1 + (2 ^ 64 - index.toNat)) % 2 ^ 64 := by
  rw [insertLogEntryAt_outside entry hsize hindex h, List.length_set,
    Replica.reallocLog_length, newSize_toNat index hsize]

/-- At its end the log grows by one, and the entry is stored there. -/
theorem insertLogEntryAt_end (h : index.toNat = s.logSize) :
    (s.insertLogEntryAt entry index).log = s.log ++ [some entry] := by
  have hsize' := newSize_toNat index hsize
  have hnew : (2 * s.logSize + 1 + (2 ^ 64 - index.toNat)) % 2 ^ 64 =
      s.log.length + 1 := by
    simp only [Replica.logSize] at *
    omega
  rw [insertLogEntryAt_outside entry hsize hindex (Nat.le_of_eq h.symm),
    Replica.reallocLog, hsize', hnew, h, Replica.logSize]
  simp [List.take_append, List.take_of_length_le]

theorem insert_behaves_iff :
    (LogCall.insert entry index).Behaves s ↔ index.toNat ≤ s.logSize := by
  constructor
  · intro h
    by_contra hpast
    have hlength := h.stores.1
    have hsize' := insertLogEntryAt_size entry hsize hindex
      (Nat.le_of_lt (Nat.not_le.mp hpast))
    simp only [LogCall.run, Replica.logSize] at *
    omega
  · intro h
    rcases Nat.lt_or_eq_of_le h with hlt | heq
    · have hlog := insertLogEntryAt_inside entry hsize hindex hlt
      refine ⟨?_, ?_, ?_, ?_⟩
      all_goals simp only [LogCall.run, LogCall.position, Replica.logSize,
        hlog] at *
      · simpa using hlt
      · simp
        omega
      · simp [hlt]
      · intro j hj hne
        exact List.getElem?_set_ne hne.symm
    · have hlog := insertLogEntryAt_end entry hsize hindex heq
      refine ⟨?_, ?_, ?_, ?_⟩
      all_goals simp only [LogCall.run, LogCall.position, Replica.logSize,
        hlog] at *
      · simp [heq]
      · simp [heq]
      · simp [heq]
      · intro j hj hne
        exact List.getElem?_append_left hj

end Insert

/-! ## Sequences of calls -/

/-- From a log of `n` entries a sequence of calls behaves if and only if its
inserts extend the log at its end only and nothing is appended. -/
theorem allBehave_iff {s : Replica} (hsize : s.logSize < 2 ^ 31)
    (calls : List LogCall) (hsmall : ∀ call ∈ calls, call.small) :
    AllBehave s calls ↔ InsertsInOrder s.logSize calls := by
  induction calls generalizing s with
  | nil => exact Iff.rfl
  | cons call calls ih =>
      obtain ⟨hcall, hrest⟩ := List.forall_mem_cons.mp hsmall
      cases call with
      | append entry => simp [AllBehave, InsertsInOrder, append_not_behaves]
      | insert entry index =>
          simp only [AllBehave, InsertsInOrder,
            insert_behaves_iff entry hsize hcall]
          refine and_congr_right fun hle => ?_
          have hlength := ((insert_behaves_iff entry hsize hcall).mpr
            hle).stores.1
          have hnext : ((LogCall.insert entry index).run s).logSize =
              max s.logSize (index.toNat + 1) := hlength
          rw [← hnext]
          refine ih ?_ hrest
          rw [hnext]
          exact Nat.max_lt.mpr ⟨hsize, hcall⟩

/-- The log behaves as a list in exactly the sequences of inserts that leave no
gap. -/
theorem log_behaves_iff (id : UInt8) (calls : List LogCall)
    (hsmall : ∀ call ∈ calls, call.small) :
    AllBehave (Replica.initializeReplica id) calls ↔
      InsertsInOrder 0 calls := by
  have hempty : (Replica.initializeReplica id).logSize = 0 := rfl
  rw [allBehave_iff (by rw [hempty]; decide) calls hsmall, hempty]

/-- Two inserts at the end and one inside. -/
theorem log_behaves_inOrder :
    AllBehave (Replica.initializeReplica 1)
      [.insert ⟨1, 1⟩ 0, .insert ⟨2, 1⟩ 1, .insert ⟨3, 2⟩ 0] :=
  (log_behaves_iff 1 _ (by simp [LogCall.small])).mpr
    (by simp [InsertsInOrder])

/-- The first append stores one past its block of one entry, and an insert past
the end of the empty log leaves the block empty. -/
theorem log_not_behaves :
    ¬ AllBehave (Replica.initializeReplica 1) [.append ⟨1, 1⟩] ∧
      ¬ AllBehave (Replica.initializeReplica 1) [.insert ⟨1, 1⟩ 1] := by
  refine ⟨fun h => ?_, fun h => ?_⟩
  · have haccess := h.1.access
    revert haccess
    decide
  · have haccess := h.1.access
    revert haccess
    decide

end RevPiRaft.Ports.Log
