import Mathlib.Data.BitVec

/-!
# The byte store

`Memory.h` and `Memory.cpp`: one vector of bytes, a size and a base, and six
accesses of three widths.  The integer types of `CommonTypes.h` are bit vectors
of their width, so that every wrap-around of the source is one here.

Each access runs the same guard, and each guard compares with the *size* and not
with the last index.  What the guard lets through is therefore not the same as
what the vector can serve, and the difference is kept: a byte outside the vector
is a fault of its own, distinct from the guard's.
-/

namespace RipSim

/-- `Address`. -/
abbrev Address := BitVec 64
/-- `RegVal`, `CSRVal`: a 32-bit two's complement value. -/
abbrev RegVal := BitVec 32
/-- `Byte`. -/
abbrev Byte := BitVec 8
/-- `HalfWord`. -/
abbrev HalfWord := BitVec 16
/-- `Word`. -/
abbrev Word := BitVec 32

/-- What ends a run other than by returning: a failing `assert`, by its text, or a
vector access the language leaves undefined. -/
inductive Fault where
  /-- "invalid access to smaller address than DRAMBase" -/
  | smallerThanDRAMBase
  /-- "invalid access to bigger address than DRAMSize" -/
  | biggerThanDRAMSize
  /-- An index past the end of the `DRAM` vector. -/
  | outOfBounds
  /-- "This inst don't have rd!" and its siblings for the other fields. -/
  | noSuchField
  /-- "unimplemented!", "unimplemented! or not exist" -/
  | unimplemented
  /-- "Non-Machine mode is unimplemented!" -/
  | nonMachineMode
  deriving DecidableEq, Repr

/-- `Memory`.  `DRAM` is read and written only below `DRAMSize`. -/
@[ext] structure Memory where
  /-- The bytes, by index. -/
  DRAM : Address → Byte
  /-- The number of bytes. -/
  DRAMSize : Address
  /-- The address of byte `0`. -/
  DRAMBase : Address

namespace Memory

/-- The constructor: every byte is zero. -/
def new (DRAMSize DRAMBase : Address) : Memory := ⟨fun _ => 0, DRAMSize, DRAMBase⟩

variable (M : Memory)

/-- The two range checks that open each of the six accesses, and the index they
compute. -/
def dramAd (Ad : Address) : Except Fault Address :=
  if Ad < M.DRAMBase then .error .smallerThanDRAMBase
  else if M.DRAMSize < Ad - M.DRAMBase then .error .biggerThanDRAMSize
  else .ok (Ad - M.DRAMBase)

/-- `DRAM[i]` on the right of an assignment. -/
def get (i : Address) : Except Fault Byte :=
  if i < M.DRAMSize then .ok (M.DRAM i) else .error .outOfBounds

/-- `DRAM[i] = v`. -/
def set (i : Address) (v : Byte) : Except Fault Memory :=
  if i < M.DRAMSize then .ok { M with DRAM := Function.update M.DRAM i v }
  else .error .outOfBounds

/-- `Memory::writeByte`. -/
def writeByte (Ad : Address) (Val : Byte) : Except Fault Memory := do
  let DRAMAd ← M.dramAd Ad
  M.set DRAMAd Val

/-- `Memory::readByte`. -/
def readByte (Ad : Address) : Except Fault Byte := do
  let DRAMAd ← M.dramAd Ad
  M.get DRAMAd

/-- `Memory::writeHalfWord`. -/
def writeHalfWord (Ad : Address) (Val : HalfWord) : Except Fault Memory := do
  let DRAMAd ← M.dramAd Ad
  let M ← M.set DRAMAd (Val.setWidth 8)
  M.set (DRAMAd + 1) ((Val >>> 8).setWidth 8)

/-- `Memory::readHalfWord`. -/
def readHalfWord (Ad : Address) : Except Fault HalfWord := do
  let DRAMAd ← M.dramAd Ad
  let b0 ← M.get DRAMAd
  let b1 ← M.get (DRAMAd + 1)
  return b0.setWidth 16 + b1.setWidth 16 <<< 8

/-- `Memory::writeWord`. -/
def writeWord (Ad : Address) (Val : Word) : Except Fault Memory := do
  let DRAMAd ← M.dramAd Ad
  let M ← M.set DRAMAd (Val.setWidth 8)
  let M ← M.set (DRAMAd + 1) ((Val >>> 8).setWidth 8)
  let M ← M.set (DRAMAd + 2) ((Val >>> 16).setWidth 8)
  M.set (DRAMAd + 3) ((Val >>> 24).setWidth 8)

/-- `Memory::readWord`. -/
def readWord (Ad : Address) : Except Fault Word := do
  let DRAMAd ← M.dramAd Ad
  let b0 ← M.get DRAMAd
  let b1 ← M.get (DRAMAd + 1)
  let b2 ← M.get (DRAMAd + 2)
  let b3 ← M.get (DRAMAd + 3)
  return b0.setWidth 32 + b1.setWidth 32 <<< 8 + b2.setWidth 32 <<< 16 + b3.setWidth 32 <<< 24

end Memory

end RipSim
