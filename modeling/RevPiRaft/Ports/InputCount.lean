import Mathlib.Algebra.GroupWithZero.Nat
import RevPiRaft.Ports.LogEntries

/-!
# How many entries a batch of inputs makes

The main loop walks the samples of an input batch only to print them.  The call
of `append_to_log` stands behind that walk, so a leader appends one entry for
each batch, however many of its samples are valid.  Entries are counted here as
`log_size` and the calls of `append_to_log` count them; where the stored values
end up is the subject of `RevPiRaft.Ports.Log`.
-/

namespace RevPiRaft.Ports.InputCount

open RevPiRaft.Ports.Datamodel
open RevPiRaft.Ports.ReplicaCore
open RevPiRaft.Ports.Events
open RevPiRaft.Ports.Environment
open RevPiRaft.Ports.LogEntries
open scoped RevPiRaft.Ports.Cluster

variable {ι : Type}

/-! ## One lap of the main loop -/

/-- Number of valid samples of a batch. -/
def validInputs (batch : List (Sample ι Input)) : Nat :=
  batch.countP fun x => x.validData

/-- The next `k` entries of the log in the current term. -/
def nextEntries (s : Replica) (k : Nat) : List LogEntry :=
  (List.range k).map fun j =>
    { id := UInt32.ofNat (s.logSize + j + 1)
      term := s.currentTerm }

/-- A lap logs each valid sample of a leader once, in order, and nothing
else. -/
structure LogsEachInput (s : Replica) (batch : List (Sample ι Input)) :
    Prop where
  kept : s.log <+: (s.mainInputLap batch).log
  size : (s.mainInputLap batch).logSize =
    s.logSize + if s.role = .leader then validInputs batch else 0
  entries : (appendedBy s (.input batch)).toList =
    if s.role = .leader then nextEntries s (validInputs batch) else []

theorem nextEntries_one (s : Replica) : nextEntries s 1 = [s.newEntry] :=
  rfl

/-- A lap logs each input once exactly if a leader's batch has one valid
sample. -/
theorem logsEachInput_iff (s : Replica) (batch : List (Sample ι Input)) :
    LogsEachInput s batch ↔ (s.role = .leader → validInputs batch = 1) := by
  by_cases hrole : s.role = .leader
  · have hlog := Replica.mainInputLap_log hrole batch
    have hsize : (s.mainInputLap batch).logSize = s.logSize + 1 := by
      simp [Replica.logSize, hlog]
    constructor
    · intro h _
      have hgrown := h.size
      rw [if_pos hrole, hsize] at hgrown
      omega
    · intro hone
      have hvalid := hone hrole
      constructor
      case kept =>
        rw [hlog]
        exact List.prefix_append _ _
      case size => rw [if_pos hrole, hsize, hvalid]
      case entries =>
        rw [if_pos hrole, hvalid, nextEntries_one, appendedBy,
          Replica.inputEntry, if_neg (not_not.mpr hrole)]
        rfl
  · refine iff_of_true ?_ fun h => absurd h hrole
    have hsame := Replica.mainInputLap_idle hrole batch
    constructor
    case kept => simp [hsame]
    case size =>
      rw [hsame, if_neg hrole]
      rfl
    case entries =>
      rw [if_neg hrole, appendedBy, Replica.inputEntry, if_pos hrole]
      rfl

/-! ## Along a run -/

/-- The valid samples that an event consumes while the replica leads. -/
def consumedBy (s : Replica) : Event ι → Nat
  | .input batch => if s.role = .leader then validInputs batch else 0
  | _ => 0

variable {N : Nat} {ID : UInt8}

/-- The valid samples consumed as leader in move `i`. -/
def consumedIn (run : ReplicaRun ι N ID) (i : Nat) : Nat :=
  match run.labels[i]? with
  | some a => consumedBy (run.replica i) (moveEvent (run.state i) a)
  | none => 0

/-- The valid samples consumed as leader in the first `i` moves. -/
def consumed (run : ReplicaRun ι N ID) (i : Nat) : Nat :=
  ((List.range i).map (consumedIn run)).sum

/-- At every moment the log has as many entries as valid input samples have
been consumed as leader. -/
def EachInputLogged (run : ReplicaRun ι N ID) : Prop :=
  ∀ i, i ≤ run.length → (run.replica i).logSize = consumed run i

variable {run : ReplicaRun ι N ID}

theorem consumed_succ (i : Nat) :
    consumed run (i + 1) = consumed run i + consumedIn run i := by
  simp [consumed, List.range_succ]

theorem consumedIn_occurs {i : Nat} {e : Event ι} (h : run.Occurs i e) :
    consumedIn run i = consumedBy (run.replica i) e := by
  obtain ⟨a, hlabel, rfl⟩ := h
  rw [consumedIn, hlabel]

/-- A move keeps the two counts together exactly if it is no lap of a leader
over a batch without exactly one valid sample. -/
theorem grows_iff (s : Replica) (e : Event ι) :
    (appendedBy s e).toList.length = consumedBy s e ↔
      ∀ batch, e = .input batch → s.role = .leader →
        validInputs batch = 1 := by
  cases e with
  | input batch =>
      by_cases hrole : s.role = .leader
      · simp [appendedBy, Replica.inputEntry, consumedBy, hrole, eq_comm]
      · simp [appendedBy, Replica.inputEntry, consumedBy, hrole]
  | _ => simp [appendedBy, consumedBy]

theorem eachInputLogged_iff (run : ReplicaRun ι N ID) :
    EachInputLogged run ↔
      ∀ i batch, run.Occurs i (.input batch) →
        (run.replica i).role = .leader → validInputs batch = 1 := by
  constructor
  · intro h i batch he
    have hbefore := h i (Nat.le_of_lt he.lt)
    have hafter := h (i + 1) he.lt
    have hgrown := React.logSize he.react
    rw [consumed_succ, consumedIn_occurs he] at hafter
    have hcounts : (appendedBy (run.replica i) (.input batch)).toList.length =
        consumedBy (run.replica i) (.input batch) := by
      omega
    exact (grows_iff _ _).mp hcounts batch rfl
  · intro h i hi
    refine ReplicaRun.invariant (P := fun i s => s.logSize = consumed run i)
      rfl ?_ i hi
    intro i e he hreact hcount
    have hgrows := (grows_iff (run.replica i) e).mpr fun batch heq =>
      h i batch (heq ▸ he)
    have hgrown := React.logSize hreact
    rw [consumed_succ, consumedIn_occurs he]
    omega

/-- A lap of the main loop logs each input once, and a run keeps the count of
entries and consumed inputs equal, exactly where every batch that a leader
takes has one valid sample. -/
theorem inputs_logged_iff (ι : Type) :
    (∀ (s : Replica) (batch : List (Sample ι Input)),
      LogsEachInput s batch ↔ (s.role = .leader → validInputs batch = 1)) ∧
    ∀ (N : Nat) (ID : UInt8) (run : ReplicaRun ι N ID),
      EachInputLogged run ↔
        ∀ i batch, run.Occurs i (.input batch) →
          (run.replica i).role = .leader → validInputs batch = 1 :=
  ⟨logsEachInput_iff, fun _ _ => eachInputLogged_iff⟩

/-- A valid sample of the input topic. -/
def inputSample (test : Int32) : Sample (Fin 3) Input where
  validData := true
  publicationHandle := 0
  data := { test := test }

/-- Replica 2 wins term 1 with the vote of replica 1 and takes two inputs of one
key that have arrived together. -/
def inputsTogether : ReplicaRun (Fin 3) 3 2 where
  labels :=
    [.act .electionTimeout,
      .offer 1 ⟨.requestVoteReply,
        { senderID := 1
          term := 1
          candidateID := 2
          voteGranted := 1 }⟩,
      .act (.deliver .requestVoteReply 0),
      .act (.voteWake [.requestVoteReply]), .act .voteEnter, .act .replyStep,
      .act (.input [inputSample 7, inputSample 7])]
  executes := by decide +kernel

/-- They make one entry. -/
theorem inputsTogether_not_logged :
    ¬ LogsEachInput (inputsTogether.replica 6)
        [inputSample 7, inputSample 7] ∧
      ¬ EachInputLogged inputsTogether := by
  constructor
  · intro h
    have hsize := h.size
    revert hsize
    decide +kernel
  · intro h
    have hcount := h 7 (by decide)
    revert hcount
    decide +kernel

end RevPiRaft.Ports.InputCount
