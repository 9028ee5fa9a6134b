import Mathlib.Data.List.Basic

/-!
# The DDS data model of the replicas

`datamodel.idl` declares the four message types the consensus protocol
publishes.  An IDL `long` is a 32-bit signed integer, while the replica keeps
`uint32_t` terms and `uint8_t` identifiers; the conversions between them are
the C ones and are undone exactly on the reading side.

`AppendEntriesReply.id` is never assigned by the writing side and only printed
by the reading side, so it is left out here.
-/

namespace RevPiRaft.Ports.Datamodel

/-! ## C conversions to and from an IDL `long` -/

/-- Assigning a `uint8_t` to a `long` field. -/
def longOfUInt8 (x : UInt8) : Int32 := x.toUInt32.toInt32

/-- Assigning a `long` field to a `uint8_t` variable. -/
def uint8OfLong (x : Int32) : UInt8 := x.toUInt32.toUInt8

/-- Assigning a `bool` to a `long` field. -/
def longOfBool (b : Bool) : Int32 := if b then 1 else 0

/-- Assigning a `long` field to a `bool` variable. -/
def boolOfLong (x : Int32) : Bool := x != 0

@[simp] theorem uint8OfLong_longOfUInt8 (x : UInt8) :
    uint8OfLong (longOfUInt8 x) = x := by
  simp [uint8OfLong, longOfUInt8]

@[simp] theorem boolOfLong_longOfBool (b : Bool) :
    boolOfLong (longOfBool b) = b := by
  cases b <;> decide

/-- The widening of an identifier to a `long` loses nothing. -/
theorem longOfUInt8_inj {x y : UInt8} (h : longOfUInt8 x = longOfUInt8 y) :
    x = y := by
  have hxy := congrArg uint8OfLong h
  simpa using hxy

/-- An identifier keeps its value when it is written to a `long` field. -/
theorem longOfUInt8_toInt (x : UInt8) : (longOfUInt8 x).toInt = x.toNat := by
  have hx : x.toNat < 256 := x.toNat_lt
  change x.toUInt32.toBitVec.toInt = x.toNat
  rw [BitVec.toInt_eq_toNat_of_lt]
  · simp
  · simp only [UInt8.toBitVec_toUInt32, BitVec.toNat_setWidth, UInt8.toNat_toBitVec]
    omega

/-! ## Message types -/

/-- Heartbeat of a leader.  The fields `prevLogIndex` and `prevLogTerm` are
assigned by `send_heartbeat` although this commit's `datamodel.idl` lacks
them.  `entries` holds the `id` of each `Entry`. -/
structure AppendEntries where
  term : Int32
  senderID : Int32
  prevLogIndex : Int32
  prevLogTerm : Int32
  entries : List Int32
deriving DecidableEq

structure AppendEntriesReply where
  senderID : Int32
  term : Int32
  success : Int32
deriving DecidableEq

structure RequestVote where
  term : Int32
  senderID : Int32
deriving DecidableEq

structure RequestVoteReply where
  senderID : Int32
  term : Int32
  candidateID : Int32
  voteGranted : Int32
deriving DecidableEq

/-- Value of one sensor input, published by the separate IO program. -/
structure Input where
  test : Int32
deriving DecidableEq

/-! ## Topics and samples -/

/-- The topics the replicas publish on. -/
inductive Topic where
  | appendEntries
  | appendEntriesReply
  | requestVote
  | requestVoteReply
deriving DecidableEq

/-- Message type registered for a topic. -/
@[reducible]
def Topic.Msg : Topic → Type
  | .appendEntries => AppendEntries
  | .appendEntriesReply => AppendEntriesReply
  | .requestVote => RequestVote
  | .requestVoteReply => RequestVoteReply

instance (t : Topic) : DecidableEq t.Msg := by
  cases t <;> simp only [Topic.Msg] <;> infer_instance

/-- The `senderID` field, which every message type carries. -/
def Topic.senderID : (t : Topic) → t.Msg → Int32
  | .appendEntries, m => AppendEntries.senderID m
  | .appendEntriesReply, m => AppendEntriesReply.senderID m
  | .requestVote, m => RequestVote.senderID m
  | .requestVoteReply, m => RequestVoteReply.senderID m

/-- The `term` field, read back as the `uint32_t` it was assigned from. -/
def Topic.term : (t : Topic) → t.Msg → UInt32
  | .appendEntries, m => (AppendEntries.term m).toUInt32
  | .appendEntriesReply, m => (AppendEntriesReply.term m).toUInt32
  | .requestVote, m => (RequestVote.term m).toUInt32
  | .requestVoteReply, m => (RequestVoteReply.term m).toUInt32

/-- One message handed to the data writer of its topic. -/
structure Publication where
  topic : Topic
  data : topic.Msg
deriving DecidableEq

/-- The `term` field of a published message. -/
def Publication.term (p : Publication) : UInt32 := p.topic.term p.data

/-- The `senderID` field of a published message. -/
def Publication.senderID (p : Publication) : Int32 := p.topic.senderID p.data

/-- One entry of a reader's sample sequence together with the parts of its
sample info that matter: `valid_data`, and the handle of the publishing
replica.  The handlers read only `validData` and `data`. -/
structure Sample (ι μ : Type) where
  validData : Bool
  publicationHandle : ι
  data : μ
deriving DecidableEq

end RevPiRaft.Ports.Datamodel
