import Mathlib.Data.List.Induction
import RevPiRaft.Verified.BitImage

/-!
# Digital outputs: `DIO.c`

`digital_write` looks a variable up by its name and writes a truth value into
the process image of the device `/dev/piControl0`, as one bit or as one, two or
four bytes.  The driver of the device is not part of the program: a `Device`
says what its calls return, and `Documented` what `DIO.h` and the manual pages
say about them.  The machine is little-endian.

## Main results

* `calls_frame` — whatever fails, only bits of the named variables change.
* `calls_shown` — without faults, a variable holds what was last written to
  it; of 32 bits, three bytes come from the stack.
-/

namespace RevPiRaft.Ports.DIO

open RevPiRaft.Verified.BitImage

/-! ## Data of `DIO.h` -/

/-- `sizeof(sPiVariable.strVarName)` characters. -/
abbrev VarName := Vector Char 32

structure SPIValue where
  i16uAddress : UInt16
  i8uBit : UInt8
  i8uValue : UInt8

/-- What `KB_FIND_VARIABLE` fills in for a name. -/
structure SPIVariable where
  i16uAddress : UInt16
  i8uBit : UInt8
  i16uLength : UInt16

/-- A positive `errno`. -/
structure Errno where
  code : Nat
  pos : 0 < code

theorem Errno.neg (e : Errno) : -(e.code : Int) < 0 := by
  have hpos := e.pos
  omega

def enodev : Int := 19

theorem enodev_neg : -enodev < 0 := by decide

/-- The calls on the device, on the states `κ` of the kernel.  A failing call
returns -1 and sets `errno`. -/
structure Device (κ : Type) where
  openDevice : κ → κ × Except Errno Nat
  findVariable : Int → VarName → κ → κ × Except Errno SPIVariable
  setValue : Int → SPIValue → κ → κ × Except Errno Unit
  seek : Int → UInt32 → κ → κ × Except Errno Unit
  write : Int → List UInt8 → κ → κ × Except Errno Nat

/-- The program's side of the device, the kernel's, and the lines printed. -/
structure Host (κ : Type) where
  piControlHandle : Int
  kernel : κ
  printed : List String

variable {κ : Type}

/-- Before the first call. -/
def Host.start (kernel : κ) : Host κ where
  piControlHandle := -1
  kernel := kernel
  printed := []

def Host.print (h : Host κ) (line : String) : Host κ :=
  { h with printed := h.printed ++ [line] }

/-! ## Functions of `DIO.c` -/

def piControlOpen (d : Device κ) (h : Host κ) : Host κ × Int :=
  if h.piControlHandle < 0 then
    let opened := d.openDevice h.kernel
    let handle : Int :=
      match opened.2 with
      | .ok handle => handle
      | .error _ => -1
    ({ h with
        kernel := opened.1
        piControlHandle := handle }, handle)
  else (h, h.piControlHandle)

/-- The variable, or the negative return code. -/
def piControlGetVariableInfo (d : Device κ) (h : Host κ) (name : VarName) :
    Host κ × Except Int SPIVariable :=
  let opened := piControlOpen d h
  if opened.2 < 0 then (opened.1, .error (-enodev))
  else
    let found := d.findVariable opened.2 name opened.1.kernel
    ({ opened.1 with kernel := found.1 },
      match found.2 with
      | .ok v => .ok v
      | .error e => .error (-e.code))

/-- The address of the byte and the bit in it. -/
def SPIValue.normalize (v : SPIValue) : SPIValue :=
  { v with
    i16uAddress := v.i16uAddress + (v.i8uBit / 8).toUInt16
    i8uBit := v.i8uBit % 8 }

/-- The return code, and the value the caller's pointer leads to afterwards. -/
def piControlSetBitValue (d : Device κ) (h : Host κ) (v : SPIValue) :
    Host κ × Int × SPIValue :=
  let opened := piControlOpen d h
  if opened.2 < 0 then (opened.1, -enodev, v)
  else
    let set := d.setValue opened.2 v.normalize opened.1.kernel
    ({ opened.1 with kernel := set.1 },
      match set.2 with
      | .ok _ => 0
      | .error e => -e.code,
      v.normalize)

def getWriteError (error : Int) : String :=
  if error = -1 then "Cannot connect to control process"
  else if error = -2 then "Offset seek error"
  else if error = -3 then "Cannot write to control process"
  else "Unknown error"

/-- The number of bytes written, or a negative return code. -/
def piControlWrite (d : Device κ) (h : Host κ) (offset : UInt32)
    (data : List UInt8) : Host κ × Int :=
  let opened := piControlOpen d h
  if opened.2 < 0 then (opened.1, -enodev)
  else
    let sought := d.seek opened.2 offset opened.1.kernel
    match sought.2 with
    | .error e => ({ opened.1 with kernel := sought.1 }, -e.code)
    | .ok _ =>
        let written := d.write opened.2 data sought.1
        ({ opened.1 with kernel := written.1 },
          match written.2 with
          | .ok bytesWritten => bytesWritten
          | .error e => -e.code)

/-- `strncpy` into `strVarName`: cut off, or filled up with NUL. -/
def strncpy (portName : String) : VarName :=
  Vector.ofFn fun i => portName.toList.getD i (Char.ofNat 0)

/-- Digits of the format `%0<width>x`. -/
def hex (width n : Nat) : String :=
  String.ofList ((Nat.toDigits 16 n).leftpad width '0')

/-- The bytes of a `uint16_t`. -/
def bytesOfUInt16 (x : UInt16) : List UInt8 := [x.toUInt8, (x >>> 8).toUInt8]

/-- The three branches that write whole bytes. -/
def writeNumber (d : Device κ) (h : Host κ) (address : UInt16)
    (data : List UInt8) (digits : Nat) (value : Bool) : Host κ :=
  let written := piControlWrite d h address.toUInt32 data
  if written.2 < 0 then
    written.1.print s!"Write error {getWriteError written.2}\n"
  else
    written.1.print (s!"Write value {value.toNat} dez " ++
      s!"(={hex digits value.toNat} hex) to offset {address}.\n")

/-- `stack` are the three bytes after the parameter `value`, which is one byte
long; the last branch writes them too. -/
def digitalWrite (d : Device κ) (stack : Vector UInt8 3) (h : Host κ)
    (portName : String) (value : Bool) : Host κ :=
  let found := piControlGetVariableInfo d h (strncpy portName)
  match found.2 with
  | .error _ => found.1.print s!"Cannot find variable '{portName}'\n"
  | .ok v =>
      if v.i16uLength = 1 then
        let set := piControlSetBitValue d found.1
          { i16uAddress := v.i16uAddress
            i8uBit := v.i8uBit
            i8uValue := value.toUInt8 }
        if set.2.1 < 0 then
          set.1.print s!"Set bit error {getWriteError set.2.1}\n"
        else
          set.1.print (s!"Set bit {set.2.2.i8uBit} on byte at offset " ++
            s!"{set.2.2.i16uAddress}. Value {set.2.2.i8uValue}\n")
      else if v.i16uLength = 8 then
        writeNumber d found.1 v.i16uAddress [value.toUInt8] 2 value
      else if v.i16uLength = 16 then
        writeNumber d found.1 v.i16uAddress (bytesOfUInt16 value.toUInt16) 4
          value
      else if v.i16uLength = 32 then
        writeNumber d found.1 v.i16uAddress (value.toUInt8 :: stack.toList) 8
          value
      else found.1

/-! ## What the driver does -/

/-- What the calls on the device are documented to do to the process image
`image` and the file position `offset`, also when they fail; `configured` are
the variables of the configuration. -/
structure Documented (d : Device κ) (image : κ → Image) (offset : κ → Nat)
    (configured : VarName → Option SPIVariable) : Prop where
  opening : ∀ k, image (d.openDevice k).1 = image k
  finding : ∀ fd name k, image (d.findVariable fd name k).1 = image k
  found : ∀ fd name k v, (d.findVariable fd name k).2 = .ok v →
    configured name = some v
  setting : ∀ fd v k, image (d.setValue fd v k).1 =
    match (d.setValue fd v k).2 with
    | .ok _ =>
        if v.i8uBit < 8 then
          setBit (image k) (8 * v.i16uAddress.toNat + v.i8uBit.toNat)
            (v.i8uValue != 0)
        else setBytes (image k) v.i16uAddress.toNat [v.i8uValue]
    | .error _ => image k
  seeking : ∀ fd o k, image (d.seek fd o k).1 = image k
  sought : ∀ fd o k, (d.seek fd o k).2 = .ok () →
    offset (d.seek fd o k).1 = o.toNat
  writing : ∀ fd data k, image (d.write fd data k).1 =
    match (d.write fd data k).2 with
    | .ok n => setBytes (image k) (offset k) (data.take n)
    | .error _ => image k

variable {d : Device κ} {image : κ → Image} {offset : κ → Nat}
  {configured : VarName → Option SPIVariable} {h : Host κ}

@[simp] theorem print_fields (h : Host κ) (line : String) :
    (h.print line).kernel = h.kernel ∧
      (h.print line).piControlHandle = h.piControlHandle :=
  ⟨rfl, rfl⟩

/-- The bit that `piControlSetBitValue` writes. -/
def SPIValue.position (v : SPIValue) : Nat :=
  8 * v.normalize.i16uAddress.toNat + v.normalize.i8uBit.toNat

/-- The first bit of a variable, and the bits it has. -/
def SPIVariable.start (v : SPIVariable) : Nat :=
  if v.i16uLength = 1 then
    8 * (v.i16uAddress + (v.i8uBit / 8).toUInt16).toNat + (v.i8uBit % 8).toNat
  else 8 * v.i16uAddress.toNat

def SPIVariable.Holds (v : SPIVariable) (p : Nat) : Prop :=
  v.start ≤ p ∧ p < v.start + v.i16uLength.toNat

namespace Documented

variable (hd : Documented d image offset configured)
include hd

theorem piControlOpen_image :
    image (piControlOpen d h).1.kernel = image h.kernel := by
  unfold piControlOpen
  split
  · exact hd.opening h.kernel
  · rfl

theorem piControlGetVariableInfo_spec (name : VarName) :
    image (piControlGetVariableInfo d h name).1.kernel = image h.kernel ∧
      ∀ v, (piControlGetVariableInfo d h name).2 = .ok v →
        configured name = some v := by
  dsimp only [piControlGetVariableInfo]
  split
  · exact ⟨hd.piControlOpen_image, fun v hv => by cases hv⟩
  · constructor
    · exact (hd.finding _ _ _).trans hd.piControlOpen_image
    · intro v hv
      apply hd.found (piControlOpen d h).2 name (piControlOpen d h).1.kernel
      revert hv
      split <;> rename_i hfound
      · intro hv
        cases hv
        exact hfound
      · intro hv
        cases hv

/-- A failing call changes nothing; the driver is never asked for a whole
byte. -/
theorem piControlSetBitValue_spec (v : SPIValue) :
    ((piControlSetBitValue d h v).2.1 < 0 ∧
      image (piControlSetBitValue d h v).1.kernel = image h.kernel) ∨
    ((piControlSetBitValue d h v).2.1 = 0 ∧
      image (piControlSetBitValue d h v).1.kernel =
        setBit (image h.kernel) v.position (v.i8uValue != 0)) := by
  have hbit : v.normalize.i8uBit < 8 := by
    show v.i8uBit % 8 < 8
    rw [UInt8.lt_iff_toNat_lt, UInt8.toNat_mod]
    exact Nat.mod_lt _ (by decide)
  dsimp only [piControlSetBitValue]
  split
  · exact .inl ⟨enodev_neg, hd.piControlOpen_image⟩
  · have hset := hd.setting (piControlOpen d h).2 v.normalize
      (piControlOpen d h).1.kernel
    rw [if_pos hbit, hd.piControlOpen_image] at hset
    split <;> rename_i hresult <;> rw [hresult] at hset
    · exact .inr ⟨rfl, hset⟩
    · rename_i e
      exact .inl ⟨e.neg, hset⟩

theorem piControlWrite_spec (o : UInt32) (data : List UInt8) :
    ((piControlWrite d h o data).2 < 0 ∧
      image (piControlWrite d h o data).1.kernel = image h.kernel) ∨
    ∃ n : Nat, (piControlWrite d h o data).2 = n ∧
      image (piControlWrite d h o data).1.kernel =
        setBytes (image h.kernel) o.toNat (data.take n) := by
  dsimp only [piControlWrite]
  split
  · exact .inl ⟨enodev_neg, hd.piControlOpen_image⟩
  · have hseek := (hd.seeking (piControlOpen d h).2 o
      (piControlOpen d h).1.kernel).trans hd.piControlOpen_image
    split <;> rename_i hsought
    · rename_i e
      exact .inl ⟨e.neg, hseek⟩
    · have hoffset := hd.sought _ _ _ hsought
      have hwrite := hd.writing (piControlOpen d h).2 data
        (d.seek (piControlOpen d h).2 o (piControlOpen d h).1.kernel).1
      rw [hseek, hoffset] at hwrite
      split <;> rename_i hresult <;> rw [hresult] at hwrite
      · exact .inr ⟨_, rfl, hwrite⟩
      · rename_i e
        exact .inl ⟨e.neg, hwrite⟩

end Documented

/-! ## What a call writes -/

/-- The bytes that stand for a value in a variable of a given length. -/
inductive Data (stack : Vector UInt8 3) (value : Bool) :
    UInt16 → List UInt8 → Prop where
  | byte : Data stack value 8 [value.toUInt8]
  | word : Data stack value 16 (bytesOfUInt16 value.toUInt16)
  | long : Data stack value 32 (value.toUInt8 :: stack.toList)

section Writes

variable {stack : Vector UInt8 3} {portName : String} {value : Bool}
  {length : UInt16} {data : List UInt8}

theorem Data.length_eq (h : Data stack value length data) :
    length.toNat = 8 * data.length := by
  cases h with
  | long => simp
  | _ => rfl

/-- The number a call leaves in a variable: of 32 bits, three bytes are those of
the stack. -/
def writtenNumber (length : UInt16) (stack : Vector UInt8 3) (value : Bool) :
    Nat :=
  value.toNat +
    if length = 32 then 256 * littleEndian stack.toList else 0

theorem Data.littleEndian_eq (h : Data stack value length data) :
    littleEndian data = writtenNumber length stack value := by
  cases h with
  | byte => cases value <;> rfl
  | word => cases value <;> rfl
  | long => cases value <;> rfl

theorem start_of_ne_one {v : SPIVariable} (h : v.i16uLength ≠ 1) :
    v.start = 8 * v.i16uAddress.toNat :=
  if_neg h

theorem Data.ne_one (h : Data stack value length data) : length ≠ 1 := by
  cases h <;> decide

theorem writeNumber_image (hd : Documented d image offset configured)
    (address : UInt16) (data : List UInt8) (digits : Nat) :
    ∃ n, image (writeNumber d h address data digits value).kernel =
      setBytes (image h.kernel) address.toNat (data.take n) := by
  have hwritten := hd.piControlWrite_spec (h := h) address.toUInt32 data
  dsimp only [writeNumber]
  rcases hwritten with ⟨hfailed, himage⟩ | ⟨n, hn, himage⟩
  · refine ⟨0, ?_⟩
    rw [if_pos hfailed, List.take_zero, setBytes_nil]
    exact himage
  · refine ⟨n, ?_⟩
    rw [if_neg (by omega)]
    exact himage

/-- What a call makes of the image when it finds `v`: nothing, its one bit, or
the first bytes of it. -/
inductive Written (stack : Vector UInt8 3) (value : Bool) (v : SPIVariable)
    (old : Image) : Image → Prop where
  | nothing : Written stack value v old old
  | bit (hlength : v.i16uLength = 1) :
      Written stack value v old (setBit old v.start value)
  | bytes (data : List UInt8) (n : Nat)
      (hdata : Data stack value v.i16uLength data) :
      Written stack value v old
        (setBytes old v.i16uAddress.toNat (data.take n))

/-- Only bits of the variable are written. -/
theorem Written.frame {v : SPIVariable} {old new : Image}
    (h : Written stack value v old new) {p : Nat} (hp : ¬ v.Holds p) :
    new p = old p := by
  cases h with
  | nothing => rfl
  | bit hlength =>
      apply setBit_of_ne
      rintro rfl
      exact hp ⟨Nat.le_refl _, by rw [hlength]; exact Nat.lt_succ_self _⟩
  | bytes data n hdata =>
      apply setBytes_outside
      rintro ⟨hle, hlt⟩
      have htake : (data.take n).length ≤ data.length :=
        List.length_take_le' ..
      have hlength := hdata.length_eq
      apply hp
      rw [SPIVariable.Holds, start_of_ne_one hdata.ne_one]
      omega

theorem bitOf_position {v : SPIVariable} (h : v.i16uLength = 1) (x : UInt8) :
    (SPIValue.mk v.i16uAddress v.i8uBit x).position = v.start := by
  rw [SPIVariable.start, if_pos h]
  rfl

theorem toUInt8_ne_zero (value : Bool) : (value.toUInt8 != 0) = value := by
  cases value <;> rfl

theorem digitalWrite_cases (hd : Documented d image offset configured) :
    image (digitalWrite d stack h portName value).kernel = image h.kernel ∨
    ∃ v, configured (strncpy portName) = some v ∧
      Written stack value v (image h.kernel)
        (image (digitalWrite d stack h portName value).kernel) := by
  obtain ⟨himage, hfound⟩ :=
    hd.piControlGetVariableInfo_spec (h := h) (strncpy portName)
  rw [digitalWrite]
  dsimp only
  split
  case h_1 => exact .inl himage
  case h_2 v hv =>
    refine .inr ⟨v, hfound v hv, ?_⟩
    rw [← himage]
    have hbytes : ∀ data digits, Data stack value v.i16uLength data →
        Written stack value v
          (image (piControlGetVariableInfo d h (strncpy portName)).1.kernel)
          (image (writeNumber d
            (piControlGetVariableInfo d h (strncpy portName)).1
            v.i16uAddress data digits value).kernel) := by
      intro data digits hdata
      obtain ⟨n, hn⟩ := writeNumber_image hd v.i16uAddress data digits
      rw [hn]
      exact .bytes data n hdata
    by_cases hone : v.i16uLength = 1
    · rw [if_pos hone]
      rcases hd.piControlSetBitValue_spec
        (h := (piControlGetVariableInfo d h (strncpy portName)).1)
        ⟨v.i16uAddress, v.i8uBit, value.toUInt8⟩ with
        ⟨hfailed, hsame⟩ | ⟨hzero, hset⟩
      · rw [if_pos hfailed, (print_fields _ _).1, hsame]
        exact .nothing
      · rw [if_neg (by rw [hzero]; decide), (print_fields _ _).1, hset,
          bitOf_position hone, toUInt8_ne_zero]
        exact .bit hone
    · rw [if_neg hone]
      split
      case isTrue hlength => exact hbytes _ _ (hlength ▸ .byte)
      split
      case isTrue hlength => exact hbytes _ _ (hlength ▸ .word)
      split
      case isTrue hlength => exact hbytes _ _ (hlength ▸ .long)
      case isFalse => exact .nothing

/-- Whatever fails, a call changes no bit outside of the variable it names. -/
theorem digitalWrite_frame (hd : Documented d image offset configured) {p : Nat}
    (hp : ∀ v, configured (strncpy portName) = some v → ¬ v.Holds p) :
    image (digitalWrite d stack h portName value).kernel p =
      image h.kernel p := by
  rcases digitalWrite_cases hd with hsame | ⟨v, hv, hwritten⟩
  · rw [hsame]
  · exact hwritten.frame (hp v hv)

/-! ## A device without faults -/

/-- All calls on the descriptor `fd` that the device opens with succeed. -/
structure Faultless (d : Device κ) (image : κ → Image) (offset : κ → Nat)
    (configured : VarName → Option SPIVariable) (fd : Nat) : Prop
    extends Documented d image offset configured where
  opens : ∀ k, (d.openDevice k).2 = .ok fd
  finds : ∀ name v k, configured name = some v →
    (d.findVariable fd name k).2 = .ok v
  sets : ∀ v k, (d.setValue fd v k).2 = .ok ()
  seeks : ∀ o k, (d.seek fd o k).2 = .ok ()
  writes : ∀ data k, (d.write fd data k).2 = .ok data.length

/-- The handle is not open yet or the descriptor of the device. -/
def Ready (fd : Nat) (h : Host κ) : Prop :=
  h.piControlHandle < 0 ∨ h.piControlHandle = fd

theorem ready_start (fd : Nat) (kernel : κ) : Ready fd (Host.start kernel) :=
  .inl (by decide : (-1 : Int) < 0)

namespace Faultless

variable {fd : Nat} (hf : Faultless d image offset configured fd)
include hf

theorem piControlOpen_ready (hr : Ready fd h) :
    (piControlOpen d h).2 = fd ∧ Ready fd (piControlOpen d h).1 := by
  dsimp only [piControlOpen]
  rcases hr with hclosed | hopen
  · rw [if_pos hclosed, hf.opens]
    exact ⟨rfl, .inr rfl⟩
  · have hnot : ¬ h.piControlHandle < 0 := by omega
    rw [if_neg hnot]
    exact ⟨hopen, .inr hopen⟩

theorem piControlGetVariableInfo_ready (hr : Ready fd h) (name : VarName) :
    Ready fd (piControlGetVariableInfo d h name).1 ∧
      ∀ v, configured name = some v →
        (piControlGetVariableInfo d h name).2 = .ok v := by
  obtain ⟨hfd, hready⟩ := hf.piControlOpen_ready hr
  dsimp only [piControlGetVariableInfo]
  rw [hfd, if_neg (by omega)]
  refine ⟨hready, fun v hv => ?_⟩
  dsimp only
  rw [hf.finds name v _ hv]

theorem piControlSetBitValue_ready (hr : Ready fd h) (v : SPIValue) :
    (piControlSetBitValue d h v).2.1 = 0 ∧
      Ready fd (piControlSetBitValue d h v).1 := by
  obtain ⟨hfd, hready⟩ := hf.piControlOpen_ready hr
  dsimp only [piControlSetBitValue]
  rw [hfd, if_neg (by omega), hf.sets]
  exact ⟨rfl, hready⟩

theorem piControlWrite_ready (hr : Ready fd h) (o : UInt32)
    (data : List UInt8) :
    (piControlWrite d h o data).2 = data.length ∧
      Ready fd (piControlWrite d h o data).1 := by
  obtain ⟨hfd, hready⟩ := hf.piControlOpen_ready hr
  dsimp only [piControlWrite]
  rw [hfd, if_neg (by omega), hf.seeks]
  dsimp only
  rw [hf.writes]
  exact ⟨rfl, hready⟩

theorem writeNumber_ready (hr : Ready fd h) (address : UInt16)
    (data : List UInt8) (digits : Nat) :
    image (writeNumber d h address data digits value).kernel =
        setBytes (image h.kernel) address.toNat data ∧
      Ready fd (writeNumber d h address data digits value) := by
  obtain ⟨hcount, hready⟩ := hf.piControlWrite_ready hr address.toUInt32 data
  have hwritten :=
    hf.toDocumented.piControlWrite_spec (h := h) address.toUInt32 data
  dsimp only [writeNumber]
  rcases hwritten with ⟨hfailed, -⟩ | ⟨n, hn, himage⟩
  · omega
  · rw [if_neg (by omega)]
    have hall : n = data.length := by omega
    rw [hall, List.take_length] at himage
    exact ⟨himage, hready⟩

theorem digitalWrite_ready (hr : Ready fd h) :
    Ready fd (digitalWrite d stack h portName value) := by
  obtain ⟨hready, -⟩ := hf.piControlGetVariableInfo_ready hr (strncpy portName)
  dsimp only [digitalWrite]
  split
  · exact hready
  split
  · split <;> exact (hf.piControlSetBitValue_ready hready _).2
  split
  · exact (hf.writeNumber_ready hready _ _ _).2
  split
  · exact (hf.writeNumber_ready hready _ _ _).2
  split
  · exact (hf.writeNumber_ready hready _ _ _).2
  · exact hready

/-- Without faults a call writes the whole variable. -/
theorem digitalWrite_image (stack : Vector UInt8 3) (value : Bool)
    (hr : Ready fd h) {v : SPIVariable}
    (hv : configured (strncpy portName) = some v) :
    (v.i16uLength = 1 →
      image (digitalWrite d stack h portName value).kernel =
        setBit (image h.kernel) v.start value) ∧
    ∀ data, Data stack value v.i16uLength data →
      image (digitalWrite d stack h portName value).kernel =
        setBytes (image h.kernel) v.i16uAddress.toNat data := by
  obtain ⟨hready, hfound⟩ :=
    hf.piControlGetVariableInfo_ready hr (strncpy portName)
  obtain ⟨himage, -⟩ :=
    hf.toDocumented.piControlGetVariableInfo_spec (h := h) (strncpy portName)
  rw [digitalWrite]
  dsimp only
  rw [hfound v hv]
  dsimp only
  by_cases hone : v.i16uLength = 1
  · obtain ⟨hzero, -⟩ := hf.piControlSetBitValue_ready hready
      ⟨v.i16uAddress, v.i8uBit, value.toUInt8⟩
    have hspec := hf.toDocumented.piControlSetBitValue_spec
      (h := (piControlGetVariableInfo d h (strncpy portName)).1)
      ⟨v.i16uAddress, v.i8uBit, value.toUInt8⟩
    rw [if_pos hone, if_neg (by omega)]
    refine ⟨fun _ => ?_, fun data hdata => absurd hone hdata.ne_one⟩
    rcases hspec with ⟨hfailed, -⟩ | ⟨-, hbit⟩
    · omega
    · rw [(print_fields _ _).1, hbit, himage, bitOf_position hone,
        toUInt8_ne_zero]
  · rw [if_neg hone]
    refine ⟨fun h => absurd h hone, fun data hdata => ?_⟩
    generalize hlength : v.i16uLength = length at hdata
    cases hdata with
    | byte =>
        rw [if_pos rfl, (hf.writeNumber_ready hready _ _ _).1, himage]
    | word =>
        rw [if_neg (by decide), if_pos rfl,
          (hf.writeNumber_ready hready _ _ _).1, himage]
    | long =>
        rw [if_neg (by decide), if_neg (by decide), if_pos rfl,
          (hf.writeNumber_ready hready _ _ _).1, himage]

/-- So the variable reads as it was written, for the lengths `DIO.h` allows. -/
theorem digitalWrite_number (hr : Ready fd h) {v : SPIVariable}
    (hv : configured (strncpy portName) = some v)
    (hlength : v.i16uLength ∈ [1, 8, 16, 32]) :
    number (image (digitalWrite d stack h portName value).kernel) v.start
        v.i16uLength.toNat = writtenNumber v.i16uLength stack value := by
  obtain ⟨hbit, hbytes⟩ :=
    hf.digitalWrite_image stack value hr hv
  by_cases hone : v.i16uLength = 1
  · rw [hbit hone, hone]
    exact number_setBit
  · obtain ⟨data, hdata⟩ : ∃ data, Data stack value v.i16uLength data := by
      generalize v.i16uLength = length at hlength hone
      simp only [List.mem_cons, List.not_mem_nil, or_false] at hlength
      rcases hlength with rfl | rfl | rfl | rfl
      · exact absurd rfl hone
      · exact ⟨_, .byte⟩
      · exact ⟨_, .word⟩
      · exact ⟨_, .long⟩
    rw [hbytes data hdata, start_of_ne_one hone, hdata.length_eq,
      number_setBytes, hdata.littleEndian_eq]

end Faultless

/-- The variable reads as a truth value. -/
def Shows (image : Image) (v : SPIVariable) (value : Bool) : Prop :=
  number image v.start v.i16uLength.toNat = value.toNat

theorem Shows.frame {old new : Image} {v : SPIVariable}
    (h : Shows old v value) (hsame : ∀ p, v.Holds p → new p = old p) :
    Shows new v value := by
  rw [Shows, ← h]
  exact number_congr fun p hle hlt => hsame p ⟨hle, hlt⟩

/-- A call on a shorter variable shows its value there, and changes no other
bit. -/
theorem Faultless.digitalWrite_shows {fd : Nat}
    (hf : Faultless d image offset configured fd) (stack : Vector UInt8 3)
    (value : Bool) (hr : Ready fd h)
    {v : SPIVariable} (hv : configured (strncpy portName) = some v)
    (hlength : v.i16uLength ∈ [1, 8, 16]) :
    Ready fd (digitalWrite d stack h portName value) ∧
    Shows (image (digitalWrite d stack h portName value).kernel) v value ∧
    ∀ p, ¬ v.Holds p →
      image (digitalWrite d stack h portName value).kernel p =
        image h.kernel p := by
  have hallowed : v.i16uLength ∈ [1, 8, 16, 32] :=
    List.mem_append_left [32] hlength
  have hshort : v.i16uLength ≠ 32 := by
    intro heq
    rw [heq] at hlength
    revert hlength
    decide
  refine ⟨hf.digitalWrite_ready hr, ?_, fun p hp => ?_⟩
  · rw [Shows, hf.digitalWrite_number hr hv hallowed, writtenNumber,
      if_neg hshort, Nat.add_zero]
  · refine digitalWrite_frame hf.toDocumented fun v' hv' => ?_
    rw [hv] at hv'
    cases hv'
    exact hp

end Writes

/-! ## A simulated device -/

/-- The process image and the file position. -/
structure Kernel where
  image : Image
  offset : Nat

def einval : Errno where
  code := 22
  pos := by decide

/-- A device on which all calls succeed but the search for an unknown name. -/
def simulated (configured : VarName → Option SPIVariable) : Device Kernel where
  openDevice := fun k => (k, .ok 3)
  findVariable := fun _ name k =>
    (k, match configured name with
      | some v => .ok v
      | none => .error einval)
  setValue := fun _ v k =>
    ({ k with
        image :=
          if v.i8uBit < 8 then
            setBit k.image (8 * v.i16uAddress.toNat + v.i8uBit.toNat)
              (v.i8uValue != 0)
          else setBytes k.image v.i16uAddress.toNat [v.i8uValue] }, .ok ())
  seek := fun _ o k => ({ k with offset := o.toNat }, .ok ())
  write := fun _ data k =>
    ({ image := setBytes k.image k.offset data
       offset := k.offset + data.length }, .ok data.length)

theorem simulated_faultless (configured : VarName → Option SPIVariable) :
    Faultless (simulated configured) Kernel.image Kernel.offset configured 3
      where
  opening _ := rfl
  finding _ _ _ := rfl
  found := by
    intro fd name k v h
    dsimp only [simulated] at h
    split at h <;> cases h
    assumption
  setting _ _ _ := rfl
  seeking _ _ _ := rfl
  sought _ _ _ _ := rfl
  writing fd data k := by
    show setBytes k.image k.offset data =
      setBytes k.image k.offset (data.take data.length)
    rw [List.take_length]
  opens _ := rfl
  finds name v k h := by
    dsimp only [simulated]
    rw [h]
  sets _ _ := rfl
  seeks _ _ := rfl
  writes _ _ := rfl

/-- The two outputs of the program, as two bits of the byte 70. -/
def outputVariables (name : VarName) : Option SPIVariable :=
  if name = strncpy "O_1" then some ⟨70, 0, 1⟩
  else if name = strncpy "O_2" then some ⟨70, 1, 1⟩
  else none

theorem outputVariables_cases {name : VarName} {v : SPIVariable}
    (h : outputVariables name = some v) :
    (name = strncpy "O_1" ∧ v = ⟨70, 0, 1⟩) ∨ v = ⟨70, 1, 1⟩ := by
  unfold outputVariables at h
  split at h
  · rename_i hname
    cases h
    exact .inl ⟨hname, rfl⟩
  · split at h <;> cases h
    exact .inr rfl

/-! ## Rows of calls -/

/-- A call of `digital_write`. -/
structure Call where
  stack : Vector UInt8 3
  portName : String
  value : Bool

def runCalls (d : Device κ) (h : Host κ) (calls : List Call) : Host κ :=
  calls.foldl (fun h c => digitalWrite d c.stack h c.portName c.value) h

/-- The last call for a variable. -/
def lastCall (name : VarName) (calls : List Call) : Option Call :=
  calls.foldl
    (fun last c => if strncpy c.portName = name then some c else last) none

/-- The number a variable holds that held `old` before the calls. -/
def numberAfter (v : SPIVariable) (old : Nat) : Option Call → Nat
  | none => old
  | some c => writtenNumber v.i16uLength c.stack c.value

/-- Whatever calls are made and however they fail, no bit outside of the
variables they name changes. -/
theorem calls_frame (hd : Documented d image offset configured)
    (calls : List Call) (h : Host κ) {p : Nat}
    (hp : ∀ c ∈ calls, ∀ v, configured (strncpy c.portName) = some v →
      ¬ v.Holds p) :
    image (runCalls d h calls).kernel p = image h.kernel p := by
  induction calls generalizing h with
  | nil => rfl
  | cons c calls ih =>
      have hrest := ih (digitalWrite d c.stack h c.portName c.value)
        fun c' hc' => hp c' (List.mem_cons_of_mem _ hc')
      exact hrest.trans (digitalWrite_frame hd (hp c (List.mem_cons_self ..)))

/-- The output 1 is switched on and the output 2 off, and a third name is not
known. -/
def threeCalls : List Call :=
  [⟨Vector.replicate 3 0, "O_1", true⟩, ⟨Vector.replicate 3 0, "O_2", false⟩,
    ⟨Vector.replicate 3 0, "O_3", true⟩]

theorem calls_frame_threeCalls :
    (runCalls (simulated outputVariables) (Host.start ⟨fun _ => true, 0⟩)
      threeCalls).kernel.image 562 = true := by
  refine calls_frame (simulated_faultless outputVariables).toDocumented
    threeCalls (Host.start ⟨fun _ => true, 0⟩) fun c _ v hv => ?_
  rcases outputVariables_cases hv with ⟨-, rfl⟩ | rfl
  · rintro ⟨-, hlt⟩
    exact absurd hlt (by decide)
  · rintro ⟨-, hlt⟩
    exact absurd hlt (by decide)

/-- Without faults a variable that shares no bit with another one holds, after
any calls, what the last call for it has written, and the number it held before
if there was none. -/
theorem calls_shown {fd : Nat} (hf : Faultless d image offset configured fd)
    {h : Host κ} (hr : Ready fd h) {name : VarName} {v : SPIVariable}
    (hv : configured name = some v) (hlength : v.i16uLength ∈ [1, 8, 16, 32])
    (hdisjoint : ∀ name' v', name' ≠ name → configured name' = some v' →
      ∀ p, v.Holds p → ¬ v'.Holds p) (calls : List Call) :
    number (image (runCalls d h calls).kernel) v.start v.i16uLength.toNat =
      numberAfter v (number (image h.kernel) v.start v.i16uLength.toNat)
        (lastCall name calls) := by
  have hall : Ready fd (runCalls d h calls) ∧
      number (image (runCalls d h calls).kernel) v.start
          v.i16uLength.toNat =
        numberAfter v (number (image h.kernel) v.start v.i16uLength.toNat)
          (lastCall name calls) := by
    induction calls using List.reverseRecOn with
    | nil => exact ⟨hr, rfl⟩
    | append_singleton calls c ih =>
        obtain ⟨hready, hnumber⟩ := ih
        rw [runCalls, List.foldl_append, lastCall, List.foldl_append]
        simp only [List.foldl_cons, List.foldl_nil]
        refine ⟨hf.digitalWrite_ready hready, ?_⟩
        by_cases hname : strncpy c.portName = name
        · rw [if_pos hname]
          exact hf.digitalWrite_number hready (hname ▸ hv) hlength
        · rw [if_neg hname]
          refine Eq.trans (number_congr fun p hle hlt => ?_) hnumber
          exact digitalWrite_frame hf.toDocumented fun v' hv' =>
            hdisjoint _ v' hname hv' p ⟨hle, hlt⟩
  exact hall.2

theorem calls_shown_threeCalls :
    number (runCalls (simulated outputVariables)
      (Host.start ⟨fun _ => false, 0⟩) threeCalls).kernel.image 560 1 = 1 := by
  refine calls_shown (simulated_faultless outputVariables) (ready_start 3 _)
    (v := ⟨70, 0, 1⟩) (show outputVariables (strncpy "O_1") = _ from rfl)
    (by decide) ?_ threeCalls
  rintro name v hne hv p ⟨-, hlt⟩ ⟨hle, -⟩
  rcases outputVariables_cases hv with ⟨hname, -⟩ | rfl
  · exact hne hname
  · exact absurd (Nat.lt_of_le_of_lt hle hlt) (by decide)

end RevPiRaft.Ports.DIO
