import Mathlib.Data.Nat.Bitwise
import Mathlib.Logic.Function.Basic

/-!
# Memory images, bit by bit

A memory that is written in bits and in bytes, as the set of its bits: bit `b`
of the byte at `a` is the bit `8 * a + b` of the image.  A variable in it is a
range of bits, read as a number with the least significant bit first.  This
module names no program.

## Main results

* `number_congr` — a number depends on its own bits only.
* `number_setBit`, `number_setBytes` — a number reads back as it was written.
-/

namespace RevPiRaft.Verified.BitImage

abbrev Image := Nat → Bool

/-- The image with one bit written. -/
def setBit (image : Image) (p : Nat) (value : Bool) : Image :=
  Function.update image p value

/-- The image with a row of bytes written from the byte at `offset` on. -/
def setBytes (image : Image) (offset : Nat) (bytes : List UInt8) : Image :=
  fun p =>
    if 8 * offset ≤ p ∧ p < 8 * offset + 8 * bytes.length then
      (bytes.getD (p / 8 - offset) 0).toNat.testBit (p % 8)
    else image p

/-- The number in `length` bits from `start` on. -/
def number (image : Image) (start length : Nat) : Nat :=
  Nat.ofBits fun i : Fin length => image (start + i)

/-- The number a row of bytes stands for, the first byte the least
significant. -/
def littleEndian : List UInt8 → Nat
  | [] => 0
  | b :: bytes => b.toNat + 256 * littleEndian bytes

variable {image image' : Image} {p offset start length : Nat} {value : Bool}
  {bytes : List UInt8}

@[simp] theorem setBit_self : setBit image p value p = value :=
  Function.update_self ..

theorem setBit_of_ne {q : Nat} (h : q ≠ p) :
    setBit image p value q = image q :=
  Function.update_of_ne h ..

theorem setBytes_outside
    (h : ¬ (8 * offset ≤ p ∧ p < 8 * offset + 8 * bytes.length)) :
    setBytes image offset bytes p = image p :=
  if_neg h

@[simp] theorem setBytes_nil : setBytes image offset [] = image := by
  funext p
  exact setBytes_outside (by simp)

theorem number_congr
    (h : ∀ p, start ≤ p → p < start + length → image p = image' p) :
    number image start length = number image' start length := by
  unfold number
  congr 1
  funext i
  exact h _ (Nat.le_add_right _ _) (Nat.add_lt_add_left i.isLt _)

/-- A bit reads back as it was written. -/
theorem number_setBit : number (setBit image p value) p 1 = value.toNat := by
  rw [number, Nat.ofBits_succ]
  simp

theorem testBit_littleEndian (bytes : List UInt8) (i : Nat) :
    (littleEndian bytes).testBit i =
      (bytes.getD (i / 8) 0).toNat.testBit (i % 8) := by
  induction bytes generalizing i with
  | nil => simp [littleEndian]
  | cons b bytes ih =>
      have hbyte : b.toNat < 2 ^ 8 := b.toNat_lt
      rw [littleEndian, Nat.add_comm, show 256 = 2 ^ 8 from rfl,
        Nat.testBit_two_pow_mul_add _ hbyte]
      split
      · rename_i hi
        rw [Nat.div_eq_of_lt hi, Nat.mod_eq_of_lt hi]
        rfl
      · rename_i hi
        have hdiv : i / 8 = (i - 8) / 8 + 1 := by omega
        have hmod : i % 8 = (i - 8) % 8 := by omega
        rw [ih, hdiv, hmod]
        rfl

theorem littleEndian_lt (bytes : List UInt8) :
    littleEndian bytes < 2 ^ (8 * bytes.length) := by
  induction bytes with
  | nil => exact Nat.one_pos
  | cons b bytes ih =>
      have hbyte : b.toNat < 2 ^ 8 := b.toNat_lt
      have hpow : 2 ^ (8 * (b :: bytes).length) =
          256 * 2 ^ (8 * bytes.length) := by
        rw [List.length_cons, Nat.mul_succ, Nat.pow_add, Nat.mul_comm]
      rw [littleEndian, hpow]
      omega

/-- A row of bytes reads back as the number it stands for. -/
theorem number_setBytes :
    number (setBytes image offset bytes) (8 * offset) (8 * bytes.length) =
      littleEndian bytes := by
  have hbits : (fun i : Fin (8 * bytes.length) =>
      setBytes image offset bytes (8 * offset + i)) =
      fun i : Fin (8 * bytes.length) => (littleEndian bytes).testBit i := by
    funext i
    have hi := i.isLt
    have hdiv : (8 * offset + i) / 8 - offset = i / 8 := by omega
    have hmod : (8 * offset + i) % 8 = i % 8 := by omega
    rw [setBytes, if_pos ⟨Nat.le_add_right _ _, by omega⟩, hdiv, hmod,
      testBit_littleEndian]
  rw [number, hbits, Nat.ofBits_testBit,
    Nat.mod_eq_of_lt (littleEndian_lt bytes)]

end RevPiRaft.Verified.BitImage
