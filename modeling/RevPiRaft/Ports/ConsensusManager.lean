import RevPiRaft.Ports.Datamodel

/-!
# The wake-up filter of `DDSConsensusManager.c`

`createLeaderElectionDDSFeatures` attaches one query condition to each of the
four wait-set readers.  All four use the string `senderID!=%0` with the decimal
digits of the replica's own identifier as its parameter.  A condition decides
when a wait set wakes; the reads and takes of the handlers carry no condition.
-/

namespace RevPiRaft.Ports.ConsensusManager

open RevPiRaft.Ports.Datamodel

/-- `sprintf(ID_string, "%d", ID)`, without the terminating NUL. -/
def idString (ID : UInt8) : List Char := Nat.toDigits 10 ID.toNat

/-- Value of a decimal literal in a query parameter. -/
def literalValue (digits : List Char) : Nat :=
  digits.foldl (fun value c => 10 * value + (c.toNat - '0'.toNat)) 0

/-- DDS evaluation of `senderID!=%0` for one parameter. -/
def senderQuery (parameter : List Char) (senderID : Int32) : Bool :=
  senderID.toInt != literalValue parameter

/-- Whether a sample satisfies the query condition of the replica `ID`.  A
sample without data has no `senderID` to compare and is not filtered out. -/
def queryCondition {ι : Type} (ID : UInt8) (t : Topic) (x : Sample ι t.Msg) :
    Bool :=
  !x.validData || senderQuery (idString ID) (t.senderID x.data)

/-- The parameter denotes the identifier it was printed from. -/
theorem literalValue_idString (ID : UInt8) :
    literalValue (idString ID) = ID.toNat := by
  rw [literalValue, ← Nat.ofDigitChars_eq_foldl]
  exact Nat.ofDigitChars_ten_toDigits

/-- A one-digit identifier and its NUL fit the two bytes of `ID_string`. -/
theorem idString_length (ID : UInt8) (hID : ID < 10) :
    (idString ID).length + 1 ≤ 2 := by
  have hdigit : ID.toNat < 10 ^ 1 := by
    simpa [UInt8.lt_iff_toNat_lt] using hID
  have hlength : (idString ID).length ≤ 1 :=
    (Nat.length_toDigits_le_iff (by decide) (by decide)).mpr hdigit
  omega

/-- The filter compares the `senderID` field with the own identifier. -/
theorem senderQuery_idString (ID : UInt8) (senderID : Int32) :
    senderQuery (idString ID) senderID = true ↔
      senderID ≠ longOfUInt8 ID := by
  rw [senderQuery, literalValue_idString, bne_iff_ne, ← longOfUInt8_toInt]
  exact not_congr ⟨fun h => Int32.toInt.inj h, fun h => by rw [h]⟩

end RevPiRaft.Ports.ConsensusManager
