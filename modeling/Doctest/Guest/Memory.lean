namespace Doctest.Guest

structure Memory where
  bytes : Array UInt8
  deriving DecidableEq, Inhabited

def wordBytes (w : UInt32) : List UInt8 :=
  [UInt8.ofNat w.toNat, UInt8.ofNat (w.toNat / 0x100), UInt8.ofNat (w.toNat / 0x10000),
    UInt8.ofNat (w.toNat / 0x1000000)]

def wordOf? : List UInt8 → Option UInt32
  | a :: b :: c :: d :: _ =>
    some (UInt32.ofNat (a.toNat + 0x100 * b.toNat + 0x10000 * c.toNat + 0x1000000 * d.toNat))
  | _ => none

namespace Memory

def pageSize : Nat := 65536

def zeroed (size : Nat) : Memory := ⟨Array.replicate size 0⟩

def size (m : Memory) : Nat := m.bytes.size

def fits (m : Memory) (offset length : Nat) : Bool := offset + length ≤ m.size

def read? (m : Memory) (offset length : Nat) : Option (List UInt8) :=
  if m.fits offset length then some (m.bytes.extract offset (offset + length)).toList else none

def setBytes (a : Array UInt8) (offset : Nat) : List UInt8 → Array UInt8
  | [] => a
  | b :: bs => setBytes (a.setIfInBounds offset b) (offset + 1) bs

def write? (m : Memory) (offset : Nat) (bs : List UInt8) : Option Memory :=
  if m.fits offset bs.length then some ⟨setBytes m.bytes offset bs⟩ else none

def readWord? (m : Memory) (offset : Nat) : Option UInt32 := do wordOf? (← m.read? offset 4)

def string? (m : Memory) (offset : Nat) : Option (List UInt8) := do
  let length ← m.readWord? offset
  m.read? (offset + 4) length.toNat

@[simp] theorem size_setBytes (a : Array UInt8) (offset : Nat) (bs : List UInt8) :
    (setBytes a offset bs).size = a.size := by
  induction bs generalizing a offset with
  | nil => rfl
  | cons b bs ih => simp [setBytes, ih]

end Memory

end Doctest.Guest
