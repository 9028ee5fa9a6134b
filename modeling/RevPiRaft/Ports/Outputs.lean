import RevPiRaft.Ports.DIO
import RevPiRaft.Ports.Ownership

/-!
# The outputs of a running replica

Every assignment to an output is a call of `digital_write`.  Here the threads of
a replica run on a device: an operation `O1` or `O2` performs the call, whatever
the other threads and their handlers do in between.  On a device without faults
two variables of one bit always show the outputs of the replica, and nothing
else of the process image ever changes (`outputs_mirrored`).

The call is one step.  For a variable of one bit it is, as far as the image
goes: one `ioctl` sets the bit.  A longer variable is written by an `lseek` and
a `write` on the one descriptor of the process; that pair is one step only
where no two threads are inside it together, as between disjoint critical
sections (`Ports.ShownRole`).
-/

namespace RevPiRaft.Ports.Outputs

open RevPiRaft.Verified.Runs
open RevPiRaft.Verified.BitImage
open RevPiRaft.Ports.ReplicaCore
open RevPiRaft.Ports.Threads
open RevPiRaft.Ports.Signals
open RevPiRaft.Ports.Ownership
open RevPiRaft.Ports.DIO

variable {ι κ : Type}

/-- The call of `digital_write` that an operation performs; `stack` is what the
call finds on the stack after its parameter. -/
def hostOp (d : Device κ) (stack : Vector UInt8 3) (h : Host κ) :
    Op ι → Host κ
  | .assign (.O1 value) => digitalWrite d stack h "O_1" value
  | .assign (.O2 value) => digitalWrite d stack h "O_2" value
  | _ => h

/-- A replica process and its host. -/
structure Wired (ι κ : Type) where
  process : Signals.Process ι
  host : Host κ

/-- After `initialize_replica`, which has called `become_follower`. -/
def Wired.start (d : Device κ) (ID : UInt8) (kernel : κ)
    (stack : Vector UInt8 3) : Wired ι κ where
  process := .start ID
  host := digitalWrite d stack
    (digitalWrite d stack (Host.start kernel) "O_1" true) "O_2" false

/-- A step of the process, with the call that its operation performs. -/
def Wired.step (d : Device κ) (N : Nat) (w : Wired ι κ)
    (e : Event ι × Vector UInt8 3) : Option (Wired ι κ) :=
  (w.process.step N e.1).map fun process =>
    { process := process
      host :=
        match e.1 with
        | .run t _ =>
            ((nextOp w.process t).map (hostOp d e.2 w.host)).getD w.host
        | .deliver _ => w.host }

def wired (d : Device κ) (N : Nat) (ID : UInt8) (kernel : κ)
    (stack : Vector UInt8 3) :
    Lts (Wired ι κ) (Event ι × Vector UInt8 3) Unit where
  init := .start d ID kernel stack
  step := fun w e => (w.step d N e).map fun v => (v, [])

theorem wired_step {d : Device κ} {N : Nat} {ID : UInt8} {kernel : κ}
    {stack : Vector UInt8 3} {w v : Wired ι κ} {e : Event ι × Vector UInt8 3}
    {out : List Unit}
    (h : (wired d N ID kernel stack).step w e = some (v, out)) :
    w.step d N e = some v := by
  obtain ⟨v', hv, heq⟩ := Option.map_eq_some_iff.mp h
  cases heq
  exact hv

/-- A step leaves the host alone, or performs an operation on the replica and
the host. -/
theorem step_host {d : Device κ} {N : Nat} {w v : Wired ι κ}
    {e : Event ι × Vector UInt8 3} (h : w.step d N e = some v) :
    (v.process.replica = w.process.replica ∧ v.host = w.host) ∨
    ∃ o : Op ι, v.process.replica = runOp w.process.replica o ∧
      v.host = hostOp d e.2 w.host o := by
  obtain ⟨p, hp, rfl⟩ := Option.map_eq_some_iff.mp h
  obtain ⟨e, stack⟩ := e
  cases step_cases hp with
  | code t r o rest new hhandler hcode =>
      refine .inr ⟨o, rfl, ?_⟩
      show ((nextOp w.process t).map _).getD _ = _
      rw [nextOp, hhandler, hcode]
      rfl
  | handler t r o rest new hhandler =>
      refine .inr ⟨o, rfl, ?_⟩
      show ((nextOp w.process t).map _).getD _ = _
      rw [nextOp, hhandler]
      rfl
  | deliver t => exact .inl ⟨rfl, rfl⟩

/-! ## The variables of the outputs -/

section Mirrors

variable {d : Device κ} {image : κ → Image} {offset : κ → Nat}
  {configured : VarName → Option SPIVariable} {fd : Nat}
  {o₁ o₂ : SPIVariable}

/-- The two variables show the outputs of `s`, and all other bits are as in
`image₀`. -/
structure Mirrors (image : κ → Image) (fd : Nat) (o₁ o₂ : SPIVariable)
    (image₀ : Image) (s : Replica) (h : Host κ) : Prop where
  ready : Ready fd h
  O1 : Shows (image h.kernel) o₁ s.O1
  O2 : Shows (image h.kernel) o₂ s.O2
  frame : ∀ p, ¬ o₁.Holds p → ¬ o₂.Holds p → image h.kernel p = image₀ p

/-- The program's two outputs are variables of the device with a length that
`digital_write` writes in full, and share no bit. -/
structure OutputsConfigured (configured : VarName → Option SPIVariable)
    (o₁ o₂ : SPIVariable) : Prop where
  O_1 : configured (strncpy "O_1") = some o₁
  O_2 : configured (strncpy "O_2") = some o₂
  length₁ : o₁.i16uLength ∈ [1, 8, 16]
  length₂ : o₂.i16uLength ∈ [1, 8, 16]
  disjoint : ∀ p, o₁.Holds p → ¬ o₂.Holds p

/-- The two outputs are two different bits of the device. -/
structure BitOutputs (configured : VarName → Option SPIVariable)
    (o₁ o₂ : SPIVariable) : Prop where
  O_1 : configured (strncpy "O_1") = some o₁
  O_2 : configured (strncpy "O_2") = some o₂
  length₁ : o₁.i16uLength = 1
  length₂ : o₂.i16uLength = 1
  disjoint : ∀ p, o₁.Holds p → ¬ o₂.Holds p

theorem BitOutputs.outputsConfigured (h : BitOutputs configured o₁ o₂) :
    OutputsConfigured configured o₁ o₂ where
  O_1 := h.O_1
  O_2 := h.O_2
  length₁ := by simp [h.length₁]
  length₂ := by simp [h.length₂]
  disjoint := h.disjoint

variable (hf : Faultless d image offset configured fd)
include hf

variable (hout : OutputsConfigured configured o₁ o₂) {image₀ : Image}
  {stack : Vector UInt8 3}
include hout

theorem mirrors_O1 {s : Replica} {h : Host κ}
    (hm : Mirrors image fd o₁ o₂ image₀ s h) (value : Bool) :
    Mirrors image fd o₁ o₂ image₀ { s with O1 := value }
      (digitalWrite d stack h "O_1" value) := by
  obtain ⟨hready, hshows, hframe⟩ :=
    hf.digitalWrite_shows stack value hm.ready hout.O_1
      hout.length₁
  constructor
  case ready => exact hready
  case O1 => exact hshows
  case O2 =>
    exact hm.O2.frame fun p hp => hframe p fun h => hout.disjoint p h hp
  case frame =>
    intro p h₁ h₂
    rw [hframe p h₁]
    exact hm.frame p h₁ h₂

theorem mirrors_O2 {s : Replica} {h : Host κ}
    (hm : Mirrors image fd o₁ o₂ image₀ s h) (value : Bool) :
    Mirrors image fd o₁ o₂ image₀ { s with O2 := value }
      (digitalWrite d stack h "O_2" value) := by
  obtain ⟨hready, hshows, hframe⟩ :=
    hf.digitalWrite_shows stack value hm.ready hout.O_2
      hout.length₂
  constructor
  case ready => exact hready
  case O1 => exact hm.O1.frame fun p hp => hframe p (hout.disjoint p hp)
  case O2 => exact hshows
  case frame =>
    intro p h₁ h₂
    rw [hframe p h₂]
    exact hm.frame p h₁ h₂

/-- Any other operation leaves the outputs and the device alone. -/
theorem mirrors_step {s : Replica} {h : Host κ}
    (hm : Mirrors image fd o₁ o₂ image₀ s h) (o : Op ι) :
    Mirrors image fd o₁ o₂ image₀ (runOp s o) (hostOp d stack h o) := by
  cases o with
  | assign a =>
      cases a with
      | O1 value => exact mirrors_O1 hf hout hm value
      | O2 value => exact mirrors_O2 hf hout hm value
      | _ => exact ⟨hm.ready, hm.O1, hm.O2, hm.frame⟩
  | _ => exact hm

/-- The two calls of `become_follower` in `initialize_replica`. -/
theorem mirrors_start (ID : UInt8) (kernel : κ) :
    Mirrors image fd o₁ o₂ (image kernel)
      (Wired.start (ι := ι) d ID kernel stack).process.replica
      (Wired.start (ι := ι) d ID kernel stack).host := by
  have hclosed : Ready fd (Host.start kernel) :=
    ready_start fd kernel
  obtain ⟨hready₁, hshows₁, hframe₁⟩ :=
    hf.digitalWrite_shows stack true hclosed hout.O_1
      hout.length₁
  obtain ⟨hready₂, hshows₂, hframe₂⟩ :=
    hf.digitalWrite_shows stack false hready₁ hout.O_2
      hout.length₂
  constructor
  case ready => exact hready₂
  case O1 => exact hshows₁.frame fun p hp => hframe₂ p (hout.disjoint p hp)
  case O2 => exact hshows₂
  case frame =>
    intro p h₁ h₂
    exact (hframe₂ p h₂).trans (hframe₁ p h₁)

theorem mirrors_next {N : Nat} {w v : Wired ι κ} {e : Event ι × Vector UInt8 3}
    (h : w.step d N e = some v)
    (hm : Mirrors image fd o₁ o₂ image₀ w.process.replica w.host) :
    Mirrors image fd o₁ o₂ image₀ v.process.replica v.host := by
  rcases step_host h with ⟨hreplica, hhost⟩ | ⟨o, hreplica, hhost⟩
  · rw [hreplica, hhost]
    exact hm
  · rw [hreplica, hhost]
    exact mirrors_step hf hout hm o

omit hout in
/-- On a device without faults two variables of one bit show the outputs of the
replica in every state of every run, and no other bit of the process image ever
changes. -/
theorem outputs_mirrored (hbits : BitOutputs configured o₁ o₂) {N : Nat}
    {ID : UInt8} {kernel : κ}
    (run : Run (wired (ι := ι) d N ID kernel stack)) :
    ∀ i, i ≤ run.length →
      Mirrors image fd o₁ o₂ (image kernel) (run.state i).process.replica
        (run.state i).host := by
  have hout := hbits.outputsConfigured
  apply run.induction (P := fun i =>
    Mirrors image fd o₁ o₂ (image kernel) (run.state i).process.replica
      (run.state i).host)
  · rw [Run.state_zero]
    exact mirrors_start hf hout ID kernel
  · intro i _ hnext ih
    exact mirrors_next hf hout (wired_step hnext) ih

end Mirrors

/-! ## A winner's outputs -/

theorem outputVariables_bits :
    BitOutputs outputVariables ⟨70, 0, 1⟩ ⟨70, 1, 1⟩ where
  O_1 := rfl
  O_2 := rfl
  length₁ := rfl
  length₂ := rfl
  disjoint := by
    rintro p ⟨-, hlt⟩ ⟨hle, -⟩
    exact absurd (Nat.lt_of_le_of_lt hle hlt) (by decide)

/-- Replica 2 wins term 1 on a device with a cleared image. -/
def wiredWinner : Run (wired (ι := Unit) (simulated outputVariables) 3 2
    ⟨fun _ => false, 0⟩ (Vector.replicate 3 0)) where
  labels := frozenWinner.labels.map fun e => (e, Vector.replicate 3 0)
  executes := by decide +kernel

/-- The winner has switched its outputs from the first to the second. -/
theorem outputs_mirrored_wiredWinner :
    Shows (wiredWinner.state 28).host.kernel.image ⟨70, 0, 1⟩ false ∧
      Shows (wiredWinner.state 28).host.kernel.image ⟨70, 1, 1⟩ true := by
  have hmirrors := outputs_mirrored (simulated_faultless outputVariables)
    outputVariables_bits wiredWinner 28 (by decide)
  have hfirst := hmirrors.O1
  have hsecond := hmirrors.O2
  rw [show (wiredWinner.state 28).process.replica.O1 = false by
    decide +kernel] at hfirst
  rw [show (wiredWinner.state 28).process.replica.O2 = true by
    decide +kernel] at hsecond
  exact ⟨hfirst, hsecond⟩

end RevPiRaft.Ports.Outputs
