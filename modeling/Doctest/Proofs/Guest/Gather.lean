import Doctest.Guest.Host
import Doctest.Proofs.Guest.Buffers
import Doctest.Proofs.Guest.Words

namespace Doctest.Guest

open State (Buffer)

namespace Memory

def bufferAt (m : Memory) (p : Nat) : Buffer := ⟨.ofNat (m.wordAt p), .ofNat (m.wordAt (p + 4))⟩

def listing (m : Memory) (array count : Nat) : List Buffer :=
  (List.range count).map fun i => m.bufferAt (array + 8 * i)

/-- Whether an array of buffers lies in memory, and each of the buffers too. An empty array may lie
anywhere. -/
def Admits (m : Memory) (array count : Nat) : Prop :=
  count = 0 ∨ array + 8 * count ≤ m.size ∧
    ∀ b ∈ m.listing array count, b.address.toNat + b.length.toNat ≤ m.size

theorem listing_succ (m : Memory) (array count : Nat) :
    m.listing array (count + 1) = m.bufferAt array :: m.listing (array + 8) count := by
  have shift (i : Nat) : m.bufferAt (array + 8 * (i + 1)) = m.bufferAt (array + 8 + 8 * i) :=
    congrArg m.bufferAt (by omega)
  rw [listing, List.range_succ_eq_map, List.map_cons, List.map_map]
  exact congrArg (_ :: ·) (List.map_congr_left fun i _ => shift i)

theorem admits_succ (m : Memory) (array count : Nat) :
    m.Admits array (count + 1) ↔
      array + 8 ≤ m.size ∧ (m.bufferAt array).Fits m ∧ m.Admits (array + 8) count := by
  have after : array + 8 * (count + 1) = array + 8 + 8 * count := by omega
  simp only [Admits, listing_succ, List.forall_mem_cons, Buffer.Fits, fits, decide_eq_true_eq,
    after]
  constructor
  · rintro (none | ⟨array, first, rest⟩)
    · cases none
    · exact ⟨by omega, first, .inr ⟨array, rest⟩⟩
  · rintro ⟨entry, first, rfl | ⟨array, rest⟩⟩
    · exact .inr ⟨entry, first, List.forall_mem_nil _⟩
    · exact .inr ⟨array, first, rest⟩

end Memory

namespace State

variable {s : State} (hexposed : s.exposed = true) (hsize : s.memory.size < UInt32.size)

include hexposed in
theorem readWord?_eq (address : UInt32) :
    s.readWord? address =
      if address.toNat + 4 ≤ s.memory.size then
        some (UInt32.ofNat (s.memory.wordAt address.toNat))
      else none := by
  rw [readWord?, read?, if_pos hexposed]
  exact s.memory.read?_word address.toNat

include hexposed hsize

theorem buffer?_eq_some_iff (entry : UInt32) (b : Buffer) :
    s.buffer? entry = some b ↔
      entry.toNat + 8 ≤ s.memory.size ∧ b.Fits s.memory ∧ b = s.memory.bufferAt entry.toNat := by
  -- The second word of an entry is not found behind the end of memory, though addresses wrap.
  rw [buffer?, readWord?_eq hexposed, readWord?_eq hexposed]
  by_cases first : entry.toNat + 4 ≤ s.memory.size
  · have second : (entry + 4).toNat = entry.toNat + 4 := by
      rw [UInt32.toNat_add]
      exact Nat.mod_eq_of_lt (Nat.lt_of_le_of_lt first hsize)
    rw [if_pos first, second, Nat.add_assoc]
    by_cases whole : entry.toNat + 8 ≤ s.memory.size
    · simp only [whole, if_true, bind, Option.bind_some, true_and]
      split
      · next fits =>
        constructor
        · intro h
          obtain rfl := Option.some.inj h
          exact ⟨fits, rfl⟩
        · rintro ⟨_, rfl⟩
          rfl
      · next stuck =>
        constructor
        · intro h
          cases h
        · rintro ⟨fits, rfl⟩
          exact absurd fits stuck
    · simp [whole]
  · have whole : ¬ entry.toNat + 8 ≤ s.memory.size := by omega
    simp [first, whole]

theorem buffers?_eq_some_iff (array : UInt32) (n : Nat) (bs : List Buffer) :
    s.buffers? array n = some bs ↔
      s.memory.Admits array.toNat n ∧ bs = s.memory.listing array.toNat n := by
  induction n generalizing array bs with
  | zero => simp [buffers?, hexposed, Memory.Admits, Memory.listing, eq_comm]
  | succ n ih =>
    simp only [buffers?, bind, Option.bind_eq_some_iff, buffer?_eq_some_iff hexposed hsize, ih,
      Memory.admits_succ, Memory.listing_succ]
    have behind (entry : array.toNat + 8 ≤ s.memory.size) :
        (array + 8).toNat = array.toNat + 8 := by
      rw [UInt32.toNat_add]
      exact Nat.mod_eq_of_lt (Nat.lt_of_le_of_lt entry hsize)
    constructor
    · rintro ⟨b, ⟨entry, fits, rfl⟩, rest, ⟨admits, rfl⟩, h⟩
      obtain rfl := Option.some.inj h
      rw [behind entry] at admits ⊢
      exact ⟨⟨entry, fits, admits⟩, rfl⟩
    · rintro ⟨⟨entry, fits, admits⟩, rfl⟩
      rw [← behind entry] at admits
      refine ⟨_, ⟨entry, fits, rfl⟩, _, ⟨admits, rfl⟩, ?_⟩
      rw [behind entry]
      rfl

theorem isSome_buffers?_iff (array : UInt32) (n : Nat) :
    (s.buffers? array n).isSome ↔ s.memory.Admits array.toNat n := by
  simp [Option.isSome_iff_exists, buffers?_eq_some_iff hexposed hsize]

theorem fdWrite_of_refused {array count : UInt32}
    (h : ¬ s.memory.Admits array.toNat count.toNat) (fd result : UInt32) :
    s.fdWrite fd array count result = (.fault, s) := by
  have none : s.buffers? array count.toNat = none := by
    rwa [← Option.not_isSome_iff_eq_none, isSome_buffers?_iff hexposed hsize]
  rw [fdWrite, none]
  rfl

theorem fdWrite_of_admits {array count : UInt32}
    (h : s.memory.Admits array.toNat count.toNat) (fd result : UInt32) :
    let bytes := (s.memory.listing array.toNat count.toNat).flatMap s.contents
    s.fdWrite fd array count result =
      match s.process.write? fd bytes with
      | none => (.badDescriptor, s)
      | some p => { s with process := p }.writing result (wordBytes (.ofNat bytes.length)) := by
  have listed := (buffers?_eq_some_iff hexposed hsize array count.toNat _).2 ⟨h, rfl⟩
  rw [fdWrite, gathered_eq, listed]
  rfl

end State

/-- A write fails for its buffers first, whatever descriptor it is for, and then for its descriptor,
and either way it changes nothing. Else the bytes at the buffers go to the stream as they are, and the
call fails only if there is no place for their number. -/
theorem SystemCall.call_fdWrite {s : State} (hexposed : s.exposed = true)
    (hsize : s.memory.size < UInt32.size) (fd array count result : UInt32) :
    let accepted := s.memory.Admits array.toNat count.toNat
    let bytes := (s.memory.listing array.toNat count.toNat).flatMap s.contents
    let answer := fdWrite.call [fd, array, count, result] s
    ((s.buffers? array count.toNat).isSome ↔ accepted) ∧
      (¬ accepted → answer = .ok Errno.fault.code s) ∧
      (accepted → fd ≠ 1 → fd ≠ 2 → answer = .ok Errno.badDescriptor.code s) ∧
      (accepted → fd = 1 →
        let p := { s.process with stdout := s.process.stdout ++ bytes }
        answer = { s with process := p }.counted result bytes.length) ∧
      (accepted → fd = 2 →
        let p := { s.process with stderr := s.process.stderr ++ bytes }
        answer = { s with process := p }.counted result bytes.length) := by
  intro accepted bytes answer
  let r := s.fdWrite fd array count result
  have answered : answer = .ok r.1.code r.2 := rfl
  have served (admits : accepted) := State.fdWrite_of_admits hexposed hsize admits fd result
  have taken {p : Process} (admits : accepted) (h : s.process.write? fd bytes = some p) :
      answer = { s with process := p }.counted result bytes.length := by
    have written : r = { s with process := p }.writing result (wordBytes (.ofNat bytes.length)) :=
      (served admits).trans (by rw [h])
    rw [answered, written]
    exact State.counted_eq (s := { s with process := p }) hexposed result bytes.length
  refine ⟨State.isSome_buffers?_iff hexposed hsize array count.toNat, fun refused => ?_,
    fun admits ne₁ ne₂ => ?_, fun admits one => ?_, fun admits two => ?_⟩
  · have fault : r = (.fault, s) := State.fdWrite_of_refused hexposed hsize refused fd result
    rw [answered, fault]
  · have unknown : s.process.write? fd bytes = none := by
      rw [Process.write?, if_neg ne₁, if_neg ne₂]
    have away : r = (.badDescriptor, s) := (served admits).trans (by rw [unknown])
    rw [answered, away]
  · subst one
    exact taken admits rfl
  · subst two
    exact taken admits rfl

theorem SystemCall.call_fdWrite_overlapping :
    let m : Memory := ⟨#[16, 0, 0, 0, 2, 0, 0, 0, 0, 0, 0, 0, 1, 0, 0, 0, 0xC3, 0xA9]⟩
    let s : State := ⟨m, true, .start ""⟩
    s.exposed = true ∧ s.memory.size < UInt32.size ∧ s.memory.Admits 0 2 ∧
      fdWrite.call [2, 0, 2, 15] s =
        .ok 21 { s with process := { s.process with stderr := [0xC3, 0xA9, 16] } } := by
  intro m s
  have hsize : s.memory.size < UInt32.size := by decide
  have admits : s.memory.Admits (0 : UInt32).toNat (2 : UInt32).toNat :=
    .inr ⟨by decide, by decide⟩
  obtain ⟨_, _, _, _, two⟩ := call_fdWrite (s := s) rfl hsize 2 0 2 15
  let t : State := { s with process := { s.process with stderr := [0xC3, 0xA9, 16] } }
  have full : ¬ (15 : UInt32).toNat + 4 ≤ t.memory.size := by decide
  have counted : fdWrite.call [2, 0, 2, 15] s = t.counted 15 3 :=
    (two admits rfl).trans (congr (congrArg (State.counted · 15) (by decide)) (by decide))
  exact ⟨rfl, hsize, admits, counted.trans (if_neg full)⟩

end Doctest.Guest
