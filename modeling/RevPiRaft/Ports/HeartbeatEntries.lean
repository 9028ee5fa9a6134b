import Mathlib.Algebra.Group.Nat.Defs
import RevPiRaft.Ports.LogEntries

/-!
# What a heartbeat carries

`become_leader` sets `nextIndex` to `log_size + 1`, the position after the next
one to be sent.  `send_heartbeat` takes it for the first unsent position: it
counts one entry too few, in eight bits, copies from the start of the log, and
takes the previous term from one position too far.
-/

namespace RevPiRaft.Ports.HeartbeatEntries

open RevPiRaft.Ports.Datamodel
open RevPiRaft.Ports.ReplicaCore
open RevPiRaft.Ports.Events
open RevPiRaft.Ports.Reactions
open RevPiRaft.Ports.Environment
open RevPiRaft.Ports.LogEntries

variable {ι : Type}

/-! ## The message -/

/-- Reads of the block are all that the heap has to do with the message. -/
theorem heartbeatMessage_congr {s : Replica} {heap heap' : Nat → LogEntry}
    {reads : List Nat} (hreads : s.heartbeatReads = some reads)
    (h : ∀ p ∈ reads, s.readLog heap p = s.readLog heap' p) :
    s.heartbeatMessage heap = s.heartbeatMessage heap' := by
  obtain ⟨nextIndex, hnext, rfl⟩ := Option.map_eq_some_iff.mp hreads
  simp only [List.mem_append, List.mem_range] at h
  have hentries : ∀ i, i < (s.payloadSize nextIndex).toNat →
      (s.readLog heap i).id.toInt32 = (s.readLog heap' i).id.toInt32 :=
    fun i hi => by rw [h i (.inr hi)]
  rw [Replica.heartbeatMessage, Replica.heartbeatMessage, hnext]
  simp only [Option.map_some, Option.some.injEq, AppendEntries.mk.injEq,
    true_and]
  refine ⟨?_, List.map_congr_left fun i hi =>
    hentries i (List.mem_range.mp hi)⟩
  split
  · rename_i hpos
    rw [h _ (.inl (by rw [if_pos hpos]; exact List.mem_singleton_self _))]
  · rfl

/-- The number of entries in a heartbeat. -/
theorem heartbeatMessage_entries {s : Replica} {heap : Nat → LogEntry}
    {m : AppendEntries} (h : s.heartbeatMessage heap = some m)
    {n k : Nat} (hnext : s.nextIndex = some (UInt32.ofNat (n + 1)))
    (hsize : s.logSize = n + k) : m.entries.length = (k + 255) % 256 := by
  rw [Replica.heartbeatMessage, hnext] at h
  cases h
  rw [List.length_map, List.length_range, Replica.payloadSize, hsize,
    UInt64.toNat_toUInt8, UInt64.toNat_sub]
  simp
  omega

/-- It is never the number of the entries to be sent. -/
theorem add_255_mod_ne (k : Nat) : (k + 255) % 256 ≠ k := by
  omega

/-! ## `nextIndex` -/

/-- Only the role change of `become_leader` assigns `nextIndex`. -/
theorem React.nextIndex {N : Nat} {s s' : Replica} {e : Event ι}
    {out : List Publication} (h : React N s e s' out) :
    s'.nextIndex =
      if s.role ≠ .leader ∧ s'.role = .leader then
        some (UInt32.ofNat (s.logSize + 1))
      else s.nextIndex := by
  by_cases hwon : s.role ≠ .leader ∧ s'.role = .leader
  · obtain ⟨x, t, -, hwins⟩ := React.won h hwon.1 hwon.2
    have hrole : ({ s with votesReceived := s.votesReceived + 1 } :
        Replica).role ≠ .leader := hwon.1
    rw [if_pos hwon, hwins.leader, Replica.becomeLeader_of_ne hrole]
    rfl
  · rw [if_neg hwon]
    cases h with
    | replyWon x t hx hrole => exact absurd ⟨by simp [hrole], by simp⟩ hwon
    | input =>
        unfold Replica.mainInputLap
        split <;> rfl
    | _ => rfl

variable {N : Nat} {ID : UInt8} {run : ReplicaRun ι N ID}

/-- Move `k` is the last of the first `i` in which `become_leader` sets
`nextIndex`. -/
structure LastWon (run : ReplicaRun ι N ID) (k i : Nat) : Prop where
  before : k < i
  won : ∃ t, run.BecomesLeader k t
  last : ∀ l, k < l → l < i → ∀ t, ¬ run.BecomesLeader l t

/-- `nextIndex` is one more than the length of the log at that move. -/
theorem LastWon.nextIndex {k i : Nat} (h : LastWon run k i)
    (hi : i ≤ run.length) :
    (run.replica i).nextIndex =
      some (UInt32.ofNat ((run.replica k).logSize + 1)) := by
  obtain ⟨hbefore, ⟨t, hwon⟩, hlast⟩ := h
  obtain ⟨d, rfl⟩ := Nat.exists_eq_add_of_lt hbefore
  clear hbefore
  induction d with
  | zero =>
      obtain ⟨e, he⟩ := ReplicaRun.exists_occurs hwon.1
      rw [React.nextIndex he.react, if_pos ⟨hwon.2.1, hwon.2.2.1⟩]
  | succ d ih =>
      obtain ⟨e, he⟩ : ∃ e, run.Occurs (k + (d + 1)) e :=
        ReplicaRun.exists_occurs hi
      rw [React.nextIndex he.react, if_neg fun hset =>
        hlast (k + (d + 1)) (by omega) (by omega) _
          ⟨hi, hset.1, hset.2, rfl⟩]
      exact ih (by omega) fun l hkl hl => hlast l hkl (by omega)

/-- The log only grows. -/
theorem appended_prefix (run : ReplicaRun ι N ID) {k i : Nat} (hki : k ≤ i) :
    appended run k <+: appended run i := by
  obtain ⟨d, rfl⟩ := Nat.exists_eq_add_of_le hki
  induction d with
  | zero => exact List.prefix_refl _
  | succ d ih =>
      rw [← Nat.add_assoc, appended_succ]
      exact (ih (by omega)).trans (List.prefix_append ..)

/-! ## The unsent suffix -/

/-- The message built by `send_heartbeat` in state `i` carries the entries
appended after the first `n`, the term of the `n`-th entry, and is built from
positions of the log. -/
structure CarriesSuffix (run : ReplicaRun ι N ID) (i n : Nat)
    (heap : Nat → LogEntry) : Prop where
  entries : ∃ m, (run.replica i).heartbeatMessage heap = some m ∧
    m.entries = ((appended run i).drop n).map (·.id.toInt32) ∧
    m.prevLogTerm =
      match n with
      | 0 => -1
      | n + 1 => ((appended run i)[n]?.map (·.term.toInt32)).getD (-1)
  reads : ∃ reads, (run.replica i).heartbeatReads = some reads ∧
    ∀ p ∈ reads, p < (run.replica i).logSize

/-- Every heartbeat that is built misses the unsent suffix of the log: after a
log of `n` entries and `k` more, it carries `k - 1` entries modulo 256. -/
theorem not_carriesSuffix (run : ReplicaRun ι N ID) {k i : Nat}
    (hi : i ≤ run.length) (hlast : LastWon run k i) (heap : Nat → LogEntry) :
    (∃ m, (run.replica i).heartbeatMessage heap = some m) ∧
      ¬ CarriesSuffix run i (appended run k).length heap := by
  have hnext := hlast.nextIndex hi
  rw [logSize_appended (Nat.le_trans (Nat.le_of_lt hlast.before) hi)] at hnext
  refine ⟨⟨_, by rw [Replica.heartbeatMessage, hnext]; rfl⟩, ?_⟩
  rintro ⟨⟨m, hm, hentries, -⟩, -⟩
  obtain ⟨later, hlater⟩ :=
    appended_prefix run (Nat.le_of_lt hlast.before)
  have hlength := heartbeatMessage_entries hm hnext (k := later.length)
    (by rw [logSize_appended hi, ← hlater, List.length_append])
  rw [hentries, List.length_map, ← hlater, List.drop_left] at hlength
  exact add_255_mod_ne later.length hlength.symm

/-- In the run of two inputs `become_leader` sets `nextIndex` in move 5. -/
theorem twoInputs_lastWon : LastWon twoInputs 5 8 where
  before := by decide
  won := ⟨1, by decide +kernel⟩
  last := by
    intro l hkl hli t hwon
    obtain rfl | rfl : l = 6 ∨ l = 7 := by omega
    · exact absurd hwon.2.1 (by decide +kernel)
    · exact absurd hwon.2.1 (by decide +kernel)

theorem not_carriesSuffix_twoInputs :
    ¬ CarriesSuffix twoInputs 8 (appended twoInputs 5).length
      fun _ => ⟨0, 0⟩ :=
  (not_carriesSuffix twoInputs (by decide) twoInputs_lastWon
    fun _ => ⟨0, 0⟩).2

/-- The leader of term 1 has one entry to send, appended to an empty log.  Its
heartbeat carries none. -/
theorem oneInput_not_carriesSuffix :
    ¬ CarriesSuffix twoInputs 7 0 fun _ => ⟨0, 0⟩ := by
  rintro ⟨⟨m, hm, hentries, -⟩, -⟩
  have hlength := heartbeatMessage_entries (n := 0) (k := 1) hm
    (by decide +kernel) (by decide +kernel)
  have happended : ((appended twoInputs 7).drop 0).length = 1 := by
    decide +kernel
  rw [hentries, List.length_map, happended] at hlength
  cases hlength

/-! ## What it carries instead -/

/-- No entry is ever stored in the block of the log. -/
theorem React.log_none {s s' : Replica} {e : Event ι} {out : List Publication}
    (h : React N s e s' out) (hs : ∀ x ∈ s.log, x = none) :
    ∀ x ∈ s'.log, x = none := by
  cases h with
  | replyWon => simpa using hs
  | input batch =>
      by_cases hrole : s.role = .leader
      · rw [Replica.mainInputLap_log hrole]
        intro x hx
        rcases List.mem_append.mp hx with hx | hx
        · exact hs x hx
        · exact List.mem_singleton.mp hx
      · rw [Replica.mainInputLap_idle hrole]
        exact hs
  | _ => exact hs

/-- So a read of the log always reads the heap.  What it finds there is not
told: also an entry, where a store past the block has been overtaken by a
`realloc` in place. -/
theorem readLog_heap {i : Nat} (hi : i ≤ run.length) (heap : Nat → LogEntry)
    (p : Nat) : (run.replica i).readLog heap p = heap p := by
  have hnone : ∀ x ∈ (run.replica i).log, x = none :=
    ReplicaRun.invariant (P := fun _ s => ∀ x ∈ s.log, x = none)
      (fun x hx => by cases hx)
      (fun _ _ _ hreact hs => React.log_none hreact hs) i hi
  have hjoin : (run.replica i).log[p]?.join = none := by
    cases hget : (run.replica i).log[p]? with
    | none => rfl
    | some x => rw [hnone x (List.mem_of_getElem? hget)]; rfl
  rw [Replica.readLog, hjoin]
  rfl

/-- `prevLogIndex` is the length of the log at the win. -/
theorem prevLogIndex_toInt {n : Nat} (hn : n < 2 ^ 31) :
    (UInt32.ofNat (n + 1) - 1).toInt32.toInt = n := by
  have hsub : UInt32.ofNat (n + 1) - 1 = UInt32.ofNat n := by
    apply UInt32.toNat_inj.mp
    rw [UInt32.toNat_sub, UInt32.toNat_ofNat', UInt32.toNat_ofNat']
    simp
    omega
  have htoNat : (UInt32.ofNat n).toNat = n :=
    UInt32.toNat_ofNat_of_lt' (Nat.lt_trans hn (by decide))
  rw [hsub]
  show (UInt32.ofNat n).toBitVec.toInt = n
  rw [BitVec.toInt_eq_toNat_of_lt]
  · exact congrArg Nat.cast htoNat
  · show 2 * (UInt32.ofNat n).toNat < 2 ^ 32
    omega

/-- A heartbeat that is built after a win with a log of `n` entries, and `d`
more since, carries `d - 1` entries modulo 256.  Their identifiers, and the
previous term, are what memory holds at the positions read; these are inside
of the block exactly if the leader has appended anything. -/
theorem heartbeat_contents (run : ReplicaRun ι N ID) {k i n d : Nat}
    (hi : i ≤ run.length) (hlast : LastWon run k i)
    (hn : (appended run k).length = n) (hfew : n < 2 ^ 31)
    (hd : (appended run i).length = n + d) (heap : Nat → LogEntry) :
    (∃ m, (run.replica i).heartbeatMessage heap = some m ∧
      m.prevLogIndex.toInt = n ∧ m.prevLogTerm = (heap n).term.toInt32 ∧
      m.entries =
        (List.range ((d + 255) % 256)).map fun p => (heap p).id.toInt32) ∧
    ((∃ reads, (run.replica i).heartbeatReads = some reads ∧
      ∀ p ∈ reads, p < (run.replica i).logSize) ↔ 0 < d) := by
  have hnext := hlast.nextIndex hi
  have hki := Nat.le_trans (Nat.le_of_lt hlast.before) hi
  rw [logSize_appended hki, hn] at hnext
  have hsize : (run.replica i).logSize = n + d := by
    rw [logSize_appended hi, hd]
  have hindex := prevLogIndex_toInt hfew
  have hnonneg : (0 : Int32) ≤ (UInt32.ofNat (n + 1) - 1).toInt32 := by
    rw [Int32.le_iff_toInt_le, hindex]
    exact Int.natCast_nonneg n
  have hpayload : ((run.replica i).payloadSize (UInt32.ofNat (n + 1))).toNat =
      (d + 255) % 256 := by
    rw [Replica.payloadSize, hsize, UInt64.toNat_toUInt8, UInt64.toNat_sub]
    simp
    omega
  constructor
  · refine ⟨_, by rw [Replica.heartbeatMessage, hnext]; rfl, hindex, ?_, ?_⟩
    · show (if _ then _ else _) = _
      rw [if_pos hnonneg, readLog_heap hi, hindex]
      rfl
    · show List.map _ _ = _
      rw [hpayload]
      exact List.map_congr_left fun p _ => by rw [readLog_heap hi]
  · rw [Replica.heartbeatReads, hnext, hsize]
    simp only [Option.map_some, Option.some.injEq, exists_eq_left', hpayload,
      if_pos hnonneg, hindex, Int.toNat_natCast, List.mem_append,
      List.mem_singleton, List.mem_range]
    constructor
    · intro hreads
      have hbound := hreads n (.inl rfl)
      omega
    · rintro hpos p (rfl | hp)
      · omega
      · omega

/-- After two inputs the leader sends one entry that is on the heap. -/
theorem heartbeat_contents_twoInputs :
    ∃ m, (twoInputs.replica 8).heartbeatMessage (fun _ => ⟨7, 0⟩) = some m ∧
      m.entries = [7] := by
  obtain ⟨⟨m, hm, -, -, hentries⟩, -⟩ := heartbeat_contents twoInputs
    (n := 0) (d := 2) (by decide) twoInputs_lastWon (by decide +kernel)
    (by decide) (by decide +kernel) fun _ => ⟨7, 0⟩
  exact ⟨m, hm, hentries⟩

end RevPiRaft.Ports.HeartbeatEntries
