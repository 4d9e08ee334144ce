import Doctest.Proofs.Guest.Words
import Doctest.Proofs.Text.Utf8

namespace Doctest.Guest.Memory

open Text.Utf8 (encodeString)

variable {m : Memory} {p : Nat}

def bytesAt (m : Memory) (p n : Nat) : List UInt8 := (m.bytes.toList.drop p).take n

/-- A string is stored as the number of its bytes, in one word, and the bytes after that. -/
def Stores (m : Memory) (p : Nat) (s : String) : Prop :=
  littleEndian s.utf8ByteSize ++ encodeString s <+: m.bytes.toList.drop p

instance (m : Memory) (p : Nat) (s : String) : Decidable (m.Stores p s) :=
  inferInstanceAs (Decidable (_ <+: _))

theorem length_drop_bytes (m : Memory) (p : Nat) :
    (m.bytes.toList.drop p).length = m.size - p := by
  rw [List.length_drop, Array.length_toList, size]

theorem length_bytesAt {n : Nat} (h : p + n ≤ m.size) : (m.bytesAt p n).length = n := by
  rw [bytesAt, List.length_take, length_drop_bytes]
  omega

theorem wordAt_eq_of_drop {a b c d : UInt8} {rest : List UInt8}
    (h : m.bytes.toList.drop p = a :: b :: c :: d :: rest) :
    m.wordAt p =
      a.toNat + 0x100 * b.toNat + 0x10000 * c.toNat + 0x1000000 * d.toNat := by
  have each (i : Nat) : m.byteAt (p + i) = ((a :: b :: c :: d :: rest)[i]?.getD 0).toNat := by
    rw [byteAt, ← h, List.getElem?_drop, Array.getElem?_toList]
  have first := each 0
  rw [Nat.add_zero] at first
  rw [wordAt, first, each 1, each 2, each 3]
  rfl

theorem wordAt_of_drop {n : Nat} {rest : List UInt8} (hn : n < 2 ^ 32)
    (h : m.bytes.toList.drop p = littleEndian n ++ rest) : m.wordAt p = n := by
  rw [wordAt_eq_of_drop h]
  simp only [UInt8.toNat_ofNat']
  omega

theorem littleEndian_wordAt (h : p + 4 ≤ m.size) :
    littleEndian (m.wordAt p) = m.bytesAt p 4 := by
  obtain ⟨a, b, c, d, bytes⟩ := List.length_eq_four.1 (length_bytesAt h)
  have drop : m.bytes.toList.drop p = a :: b :: c :: d :: (m.bytes.toList.drop p).drop 4 := by
    rw [← List.take_append_drop 4 (m.bytes.toList.drop p), ← bytesAt, bytes]
    rfl
  have bounds := And.intro a.toNat_lt (And.intro b.toNat_lt (And.intro c.toNat_lt d.toNat_lt))
  rw [bytes, wordAt_eq_of_drop drop]
  simp only [littleEndian, List.map_cons, List.map_nil, List.cons.injEq, and_true,
    ← UInt8.toNat_inj, UInt8.toNat_ofNat']
  omega

theorem wordAt_lt (m : Memory) (p : Nat) : m.wordAt p < 2 ^ 32 := by
  have byte (q : Nat) : m.byteAt q < 256 := (m.bytes[q]?.getD 0).toNat_lt
  have first := byte p
  have second := byte (p + 1)
  have third := byte (p + 2)
  have fourth := byte (p + 3)
  rw [wordAt]
  omega

theorem read?_eq (m : Memory) (p n : Nat) :
    m.read? p n = if p + n ≤ m.size then some (m.bytesAt p n) else none := by
  have extracted : (m.bytes.extract p (p + n)).toList = m.bytesAt p n := by
    rw [Array.toList_extract, List.extract_eq_take_drop, Nat.add_sub_cancel_left, bytesAt]
  simp only [read?, fits, decide_eq_true_eq, extracted]

theorem read?_of_front {front rest : List UInt8} (h : m.bytes.toList = front ++ rest) {n : Nat}
    (hle : p + n ≤ front.length) : m.read? p n = some ((front.drop p).take n) := by
  have inside : p + n ≤ m.size := by
    rw [size, ← Array.length_toList, h, List.length_append]
    omega
  rw [read?_eq, if_pos inside, bytesAt, h, List.drop_append_of_le_length (by omega),
    List.take_append_of_le_length (by rw [List.length_drop]; omega)]

theorem toList_setBytes {a : Array UInt8} {offset : Nat} {bs : List UInt8}
    (h : offset + bs.length ≤ a.size) : (setBytes a offset bs).toList =
      a.toList.take offset ++ (bs ++ a.toList.drop (offset + bs.length)) := by
  induction bs generalizing a offset with
  | nil => simp [setBytes]
  | cons b bs ih =>
    rw [List.length_cons] at h
    have size : offset + 1 + bs.length ≤ (a.setIfInBounds offset b).size := by
      rw [Array.size_setIfInBounds]
      omega
    have lt : offset < a.toList.length := by
      rw [Array.length_toList]
      omega
    have first : (a.toList.set offset b).take (offset + 1) = a.toList.take offset ++ [b] := by
      rw [List.take_add_one, List.take_set_of_le (Nat.le_refl offset), List.getElem?_set_self lt]
      rfl
    have last : (a.toList.set offset b).drop (offset + 1 + bs.length) =
        a.toList.drop (offset + (bs.length + 1)) := by
      rw [List.drop_set_of_lt (by omega), Nat.add_assoc, Nat.add_comm 1]
    rw [setBytes, ih size, Array.toList_setIfInBounds, first, last, List.append_assoc]
    rfl

theorem string?_eq (m : Memory) (p : Nat) :
    m.string? p =
      if p + 4 ≤ m.size ∧ p + 4 + m.wordAt p ≤ m.size then some (m.bytesAt (p + 4) (m.wordAt p))
      else none := by
  have word : m.readWord? p =
      if p + 4 ≤ m.size then some (UInt32.ofNat (m.wordAt p)) else none := m.read?_word p
  have number : (UInt32.ofNat (m.wordAt p)).toNat = m.wordAt p := by
    rw [UInt32.toNat_ofNat', Nat.mod_eq_of_lt (m.wordAt_lt p)]
  rw [string?, word]
  by_cases h : p + 4 ≤ m.size
  · simp only [h, if_true, true_and, Option.bind_eq_bind, Option.bind_some, number, read?_eq]
  · simp [h]

theorem string?_eq_some_encodeString {s : String} :
    m.string? p = some (encodeString s) ↔ s.utf8ByteSize < 2 ^ 32 ∧ m.Stores p s := by
  constructor
  · intro h
    rw [string?_eq] at h
    split at h
    · next inside =>
      have bytes := Option.some.inj h
      have word : m.wordAt p = s.utf8ByteSize := by
        rw [← length_bytesAt inside.2, bytes, Text.Utf8.length_encodeString]
      refine ⟨word ▸ m.wordAt_lt p, ?_⟩
      rw [Stores, ← bytes, ← word, littleEndian_wordAt inside.1, bytesAt, bytesAt,
        ← List.drop_drop, ← List.take_add]
      exact List.take_prefix _ _
    · cases h
  · rintro ⟨hs, after, h⟩
    rw [List.append_assoc] at h
    have word := wordAt_of_drop hs h.symm
    have length : 4 + (s.utf8ByteSize + after.length) = m.size - p := by
      rw [← length_drop_bytes, ← h, List.length_append, List.length_append,
        Text.Utf8.length_encodeString]
      rfl
    have bytes : m.bytesAt (p + 4) s.utf8ByteSize = encodeString s := by
      rw [bytesAt, ← List.drop_drop, ← h, ← Text.Utf8.length_encodeString]
      exact List.take_left
    rw [string?_eq, word, bytes, if_pos (by omega)]

end Doctest.Guest.Memory
