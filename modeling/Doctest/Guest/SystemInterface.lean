import Doctest.Guest.State

/-! What the standard calls of a host do to a guest: they read and write its memory and streams, and
answer with an error number. There are no files, no environment, and one argument. -/

namespace Doctest.Guest

inductive Errno
  | success : Errno
  | badDescriptor : Errno
  | fault : Errno
  | notSeekable : Errno
  deriving DecidableEq

def Errno.code : Errno → UInt32
  | .success => 0
  | .badDescriptor => 8
  | .fault => 21
  | .notSeekable => 70

namespace State

def read? (s : State) (address : UInt32) (length : Nat) : Option (List UInt8) :=
  if s.exposed then s.memory.read? address.toNat length else none

def readWord? (s : State) (address : UInt32) : Option UInt32 := do
  wordOf? (← s.read? address 4)

def write? (s : State) (address : UInt32) (bs : List UInt8) : Option State :=
  if s.exposed then (s.memory.write? address.toNat bs).map ({ s with memory := · }) else none

def writing (s : State) (address : UInt32) (bs : List UInt8) : Errno × State :=
  match s.write? address bs with
  | some s => (.success, s)
  | none => (.fault, s)

def writingBoth (s : State) (a : UInt32) (as : List UInt8) (b : UInt32) (bs : List UInt8) :
    Errno × State :=
  match s.write? a as with
  | some s => s.writing b bs
  | none => (.fault, s)

structure Buffer where
  address : UInt32
  length : UInt32
  deriving DecidableEq

def buffer? (s : State) (entry : UInt32) : Option Buffer := do
  let address ← s.readWord? entry
  let length ← s.readWord? (entry + 4)
  if s.memory.fits address.toNat length.toNat then return ⟨address, length⟩ else none

/-- An array of buffers; a program without exported memory has not even an empty one. -/
def buffers? (s : State) (array : UInt32) : Nat → Option (List Buffer)
  | 0 => if s.exposed then some [] else none
  | n + 1 => do
    let b ← s.buffer? array
    return b :: (← s.buffers? (array + 8) n)

def gather? (s : State) : List Buffer → Option (List UInt8)
  | [] => some []
  | b :: bs => do
    let chunk ← s.read? b.address b.length.toNat
    return chunk ++ (← s.gather? bs)

def fdWrite (s : State) (fd array count result : UInt32) : Errno × State :=
  match (s.buffers? array count.toNat).bind s.gather? with
  | none => (.fault, s)
  | some bytes =>
    match s.process.write? fd bytes with
    | none => (.badDescriptor, s)
    | some p => { s with process := p }.writing result (wordBytes (UInt32.ofNat bytes.length))

/-- Fills buffers in turn up to the first one that is not filled, and stores the number of bytes. -/
def scatter (s : State) (fd result total : UInt32) : List Buffer → Errno × State
  | [] => s.writing result (wordBytes total)
  | b :: bs =>
    match s.process.read? fd b.length.toNat with
    | none => (.badDescriptor, s)
    | some (chunk, p) =>
      match { s with process := p }.write? b.address chunk with
      | none => (.fault, { s with process := p })
      | some s =>
        let total := total + UInt32.ofNat chunk.length
        if chunk.length < b.length.toNat then s.writing result (wordBytes total)
        else s.scatter fd result total bs

def fdRead (s : State) (fd array count result : UInt32) : Errno × State :=
  match s.buffers? array count.toNat with
  | none => (.fault, s)
  | some bs => s.scatter fd result 0 bs

def argsSizesGet (s : State) (count size : UInt32) : Errno × State :=
  let bytes := argumentBytes.flatten.length
  s.writingBoth count (wordBytes (UInt32.ofNat argumentBytes.length))
    size (wordBytes (UInt32.ofNat bytes))

def layOut (s : State) (array buffer : UInt32) : List (List UInt8) → Errno × State
  | [] => (.success, s)
  | arg :: args =>
    match s.writingBoth array (wordBytes buffer) buffer arg with
    | (.success, s) => s.layOut (array + 4) (buffer + UInt32.ofNat arg.length) args
    | r => r

def argsGet (s : State) (array buffer : UInt32) : Errno × State :=
  s.layOut array buffer argumentBytes

def environSizesGet (s : State) (count size : UInt32) : Errno × State :=
  s.writingBoth count (wordBytes 0) size (wordBytes 0)

def descriptorStatus : List UInt8 := 2 :: List.replicate 23 0

def fdFdstatGet (s : State) (fd result : UInt32) : Errno × State :=
  if fd ≤ 2 then s.writing result descriptorStatus else (.badDescriptor, s)

def clockTimeGet (s : State) (result : UInt32) : Errno × State :=
  s.writing result (List.replicate 8 0)

def randomGet (s : State) (address length : UInt32) : Errno × State :=
  if s.exposed ∧ s.memory.fits address.toNat length.toNat then
    s.writing address (List.replicate length.toNat 0)
  else (.fault, s)

end State

end Doctest.Guest
