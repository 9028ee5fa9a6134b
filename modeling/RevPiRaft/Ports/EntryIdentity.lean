import RevPiRaft.Ports.ElectionSafety
import RevPiRaft.Ports.LogEntries

/-!
# Entries across the cluster

Every leader numbers the entries of its own log and stamps them with its term.
Where the elections are safe, a term belongs to one replica, so no two calls of
`append_to_log` in a run of the cluster ever make the same entry: identifier
and term name the replica and the moment it was appended (`entry_unique`).
-/

namespace RevPiRaft.Ports.EntryIdentity

open RevPiRaft.Ports.ReplicaCore
open RevPiRaft.Ports.Events
open RevPiRaft.Ports.Cluster
open RevPiRaft.Ports.History
open RevPiRaft.Ports.TermMonotone
open RevPiRaft.Ports.LogEntries
open RevPiRaft.Ports.OneVote
open RevPiRaft.Ports.VoteCounting
open RevPiRaft.Ports.ElectionSafety
open Execution

variable {ι : Type} [DecidableEq ι] {cfg : Config ι} {run : Execution cfg}

/-- In step `i` replica `r` passes `x` to `append_to_log`. -/
def Appends (run : Execution cfg) (i : Nat) (r : ι) (x : LogEntry) : Prop :=
  ∃ e, run.Occurs i r e ∧ appendedBy (run.replica i r) e = some x

/-! ## One replica -/

/-- A leader of the cluster has become one in its current term. -/
theorem leader_won {i : Nat} (hi : i ≤ run.length) {r : ι}
    (hrole : (run.replica i r).role = .leader) :
    ∃ k < i, run.BecomesLeader k r (run.replica i r).currentTerm := by
  obtain ⟨k, hk, hbefore, hafter, hterm⟩ :=
    run.entered (P := fun w => (w.node r).replica.role = .leader)
      (f := fun w => (w.node r).replica.currentTerm) RaftRole.noConfusion
      (fun i hi hafter => by
        obtain ⟨r', e, he⟩ := exists_occurs hi
        by_cases hr : r = r'
        · subst hr
          exact React.leader_term he.react hafter
        · exact congrArg Replica.currentTerm (he.frame hr)) hi hrole
  exact ⟨k, hk, Nat.lt_of_lt_of_le hk hi, hbefore, hafter, hterm⟩

theorem Appends.lt {i : Nat} {r : ι} {x : LogEntry} (h : Appends run i r x) :
    i < run.length := by
  obtain ⟨e, he, -⟩ := h
  exact he.lt

/-- The entry carries a term that its replica has won. -/
theorem Appends.won {i : Nat} {r : ι} {x : LogEntry} (h : Appends run i r x) :
    ∃ k, run.BecomesLeader k r x.term := by
  obtain ⟨e, he, happended⟩ := h
  obtain ⟨hrole, rfl⟩ := appendedBy_eq_some happended
  obtain ⟨k, -, hwon⟩ := leader_won (Nat.le_of_lt he.lt) hrole
  exact ⟨k, hwon⟩

theorem logSize_succ {i : Nat} {r r' : ι} {e : Event ι}
    (he : run.Occurs i r' e) :
    (run.replica i r).logSize ≤ (run.replica (i + 1) r).logSize := by
  by_cases hr : r = r'
  · subst hr
    rw [React.logSize he.react]
    exact Nat.le_add_right _ _
  · rw [he.frame hr]

theorem logSize_le {i j : Nat} (hij : i ≤ j) (hj : j ≤ run.length) (r : ι) :
    (run.replica i r).logSize ≤ (run.replica j r).logSize := by
  refine run.monotone (fun w => (w.node r).replica.logSize) Nat.le_refl
    (fun _ _ _ => Nat.le_trans) (fun i hi => ?_) i j hij hj
  obtain ⟨r', e, he⟩ := exists_occurs hi
  exact logSize_succ he

/-- Its identifier is the number of entries afterwards. -/
theorem Appends.id {i : Nat} {r : ι} {x : LogEntry} (h : Appends run i r x) :
    x.id = UInt32.ofNat (run.replica (i + 1) r).logSize ∧
      (run.replica i r).logSize < (run.replica (i + 1) r).logSize := by
  obtain ⟨e, he, happended⟩ := h
  obtain ⟨-, hx⟩ := appendedBy_eq_some happended
  have hsize : (run.replica (i + 1) r).logSize =
      (run.replica i r).logSize + 1 := by
    rw [React.logSize he.react, happended]
    rfl
  rw [hsize, hx]
  exact ⟨rfl, Nat.lt_succ_self _⟩

/-- One replica gives an identifier once. -/
theorem Appends.same {i j : Nat} {r : ι} {x y : LogEntry}
    (hfew : (run.replica run.length r).logSize < UInt32.size)
    (hx : Appends run i r x) (hy : Appends run j r y) (hid : x.id = y.id) :
    i = j := by
  have hsize : (run.replica (i + 1) r).logSize =
      (run.replica (j + 1) r).logSize := by
    have hi := logSize_le (i := i + 1) hx.lt (Nat.le_refl _) r
    have hj := logSize_le (i := j + 1) hy.lt (Nat.le_refl _) r
    have htoNat := congrArg UInt32.toNat hid
    rw [hx.id.1, hy.id.1, UInt32.toNat_ofNat_of_lt' (by omega),
      UInt32.toNat_ofNat_of_lt' (by omega)] at htoNat
    exact htoNat
  have hi := hx.id.2
  have hj := hy.id.2
  rcases Nat.lt_trichotomy i j with hlt | heq | hlt
  · have hle := logSize_le (i := i + 1) hlt (Nat.le_of_lt hy.lt) r
    omega
  · exact heq
  · have hle := logSize_le (i := j + 1) hlt (Nat.le_of_lt hx.lt) r
    omega

/-! ## The cluster -/

/-- A voter has one vote on record in a term, also as a quorum counts it. -/
theorem Voted.unique [Fintype ι] (hcfg : Deployed cfg)
    (hwrap : NoTermWrap run) (hrevote : NoRevote run) {t : UInt32} {v c d : ι}
    (hc : Voted run run.length c t v) (hd : Voted run run.length d t v) :
    c = d := by
  obtain ⟨k, hk, hkterm, hkvote⟩ := hc
  obtain ⟨l, hl, hlterm, hlvote⟩ := hd
  have hsame := votes_agree hwrap hrevote v k l hk hl
    (hkterm.trans hlterm.symm) (by rw [hkvote]; exact hcfg.ID_ne c)
    (by rw [hlvote]; exact hcfg.ID_ne d)
  rw [hkvote, hlvote] at hsame
  exact hcfg.distinct hsame

/-- In every run in which elections are safe, all entries of a term are
appended by one replica, and no entry is appended twice. -/
theorem entry_unique [Fintype ι] (hcfg : Deployed cfg) (run : Execution cfg)
    (hwrap : NoTermWrap run) (hown : NoOwnReply run)
    (hsticky : NoStickyGrant run) (hrevote : NoRevote run)
    (hfew : ∀ r, (run.replica run.length r).logSize < UInt32.size)
    {i j : Nat} {r r' : ι} {x y : LogEntry} (hx : Appends run i r x)
    (hy : Appends run j r' y) (hterm : x.term = y.term) :
    r = r' ∧ (x.id = y.id → i = j) := by
  obtain ⟨k, hk⟩ := hx.won
  obtain ⟨l, hl⟩ := hy.won
  rw [← hterm] at hl
  have hone : ∀ v c d, Voted run run.length c x.term v →
      Voted run run.length d x.term v → c = d :=
    fun v c d => Voted.unique hcfg hwrap hrevote
  have hsame : r = r' :=
    (leader_elected hcfg hwrap hown hsticky hk).unique hone
      (leader_elected hcfg hwrap hown hsticky hl)
  subst hsame
  exact ⟨rfl, Appends.same (hfew r) hx hy⟩

/-- The leader of term 1 and the leader of term 2 append an entry each. -/
def twoLogs : Execution threeReplicas where
  labels := twoElections.labels ++ [(2, .input []), (1, .input [])]
  executes := by decide +kernel

/-- Their entries have one identifier and two terms. -/
theorem entry_unique_twoLogs :
    Appends twoLogs 21 1 ⟨1, 2⟩ ∧
      ∀ i r, Appends twoLogs i r ⟨1, 2⟩ → r = 1 ∧ i = 21 := by
  have hlast : Appends twoLogs 21 1 ⟨1, 2⟩ :=
    ⟨.input [], ⟨.input [], rfl, rfl⟩, by decide +kernel⟩
  refine ⟨hlast, fun i r h => ?_⟩
  obtain ⟨hreplica, hstep⟩ := entry_unique threeReplicas_deployed twoLogs
    (noTermWrap_of_terms (by decide +kernel))
    (noOwnReply_of_batches (by decide +kernel))
    (noStickyGrant_of_flags (by decide +kernel))
    (noRevote_of_states (by decide +kernel)) (by decide +kernel) h hlast rfl
  exact ⟨hreplica, hstep rfl⟩

end RevPiRaft.Ports.EntryIdentity
