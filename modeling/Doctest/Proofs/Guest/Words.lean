import Doctest.Guest.SystemInterface
import Mathlib.Data.List.Basic

namespace Doctest.Guest

def littleEndian (n : Nat) : List UInt8 :=
  [n, n / 0x100, n / 0x10000, n / 0x1000000].map UInt8.ofNat

namespace Memory

def byteAt (m : Memory) (p : Nat) : Nat := (m.bytes[p]?.getD 0).toNat

def wordAt (m : Memory) (p : Nat) : Nat :=
  m.byteAt p + 0x100 * m.byteAt (p + 1) + 0x10000 * m.byteAt (p + 2) +
    0x1000000 * m.byteAt (p + 3)

def overwrite (m : Memory) (writes : List (Nat × UInt8)) : Memory :=
  ⟨writes.foldl (fun a w => a.setIfInBounds w.1 w.2) m.bytes⟩

def putWord (m : Memory) (p n : Nat) : Memory :=
  m.overwrite ((List.range' p 4).zip (littleEndian n))

theorem overwrite_append (m : Memory) (v w : List (Nat × UInt8)) :
    m.overwrite (v ++ w) = (m.overwrite v).overwrite w := by
  simp [overwrite, List.foldl_append]

theorem overwrite_range' (m : Memory) (offset : Nat) {n : Nat} {bs : List UInt8}
    (h : bs.length ≤ n) :
    m.overwrite ((List.range' offset n).zip bs) = ⟨setBytes m.bytes offset bs⟩ := by
  induction bs generalizing m offset n with
  | nil => simp [overwrite, setBytes]
  | cons b bs ih =>
    obtain ⟨n, rfl⟩ := Nat.exists_eq_add_one_of_ne_zero (Nat.ne_zero_of_lt h)
    rw [List.range'_succ, List.zip_cons_cons, setBytes]
    exact ih ⟨m.bytes.setIfInBounds offset b⟩ (offset + 1) (Nat.le_of_succ_le_succ h)

theorem read?_word (m : Memory) (p : Nat) :
    (m.read? p 4).bind wordOf? =
      if p + 4 ≤ m.size then some (UInt32.ofNat (m.wordAt p)) else none := by
  by_cases h : p + 4 ≤ m.size
  · have fits : m.fits p 4 = true := by simpa [fits] using h
    rw [read?, if_pos fits, if_pos h, Option.bind_some]
    have four : (m.bytes.extract p (p + 4)).toList.length = 4 := by
      rw [size] at h
      simp
      omega
    have each (i : Nat) (hi : i < 4) :
        m.byteAt (p + i) = ((m.bytes.extract p (p + 4)).toList[i]?.getD 0).toNat := by
      rw [byteAt, Array.getElem?_toList, Array.getElem?_extract, if_pos (by rw [size] at h; omega)]
    obtain ⟨a, b, c, d, bytes⟩ := List.length_eq_four.1 four
    rw [bytes] at each
    have first : m.byteAt p = a.toNat := each 0 (by decide)
    have second : m.byteAt (p + 1) = b.toNat := each 1 (by decide)
    have third : m.byteAt (p + 2) = c.toNat := each 2 (by decide)
    have fourth : m.byteAt (p + 3) = d.toNat := each 3 (by decide)
    rw [bytes, wordAt, first, second, third, fourth, wordOf?]
  · have fits : m.fits p 4 = false := by simpa [fits] using h
    simp [read?, fits, h]

end Memory

theorem wordBytes_ofNat (n : Nat) : wordBytes (UInt32.ofNat n) = littleEndian n := by
  simp only [wordBytes, littleEndian, UInt32.toNat_ofNat', List.map_cons, List.map_nil,
    List.cons.injEq, and_true, ← UInt8.toNat_inj, UInt8.toNat_ofNat']
  omega

namespace State

def counted (s : State) (result : UInt32) (n : Nat) : EStateM.Result Trap State UInt32 :=
  if result.toNat + 4 ≤ s.memory.size then
    .ok Errno.success.code { s with memory := s.memory.putWord result.toNat n }
  else .ok Errno.fault.code s

theorem counted_eq {s : State} (hexposed : s.exposed = true) (result : UInt32) (n : Nat) :
    let r := s.writing result (wordBytes (UInt32.ofNat n))
    .ok r.1.code r.2 = s.counted result n := by
  have stored : s.memory.putWord result.toNat n =
      ⟨Memory.setBytes s.memory.bytes result.toNat (littleEndian n)⟩ :=
    s.memory.overwrite_range' result.toNat (Nat.le_refl 4)
  rw [writing, write?, if_pos hexposed, wordBytes_ofNat, Memory.write?, counted, stored]
  by_cases h : result.toNat + 4 ≤ s.memory.size
  · have fits : s.memory.fits result.toNat (littleEndian n).length = true := by
      simpa [Memory.fits, littleEndian] using h
    rw [if_pos fits, if_pos h]
    rfl
  · have fits : s.memory.fits result.toNat (littleEndian n).length = false := by
      simpa [Memory.fits, littleEndian] using h
    rw [fits, if_neg h]
    rfl

end State

end Doctest.Guest
