import Doctest.Proofs.Guest.Gather
import Mathlib.Algebra.Ring.Nat

namespace Doctest.Guest

open State (Buffer)

theorem zip_append_eq {α β : Type} (xs ys : List α) (zs : List β) :
    (xs ++ ys).zip zs = xs.zip (zs.take xs.length) ++ ys.zip (zs.drop xs.length) := by
  induction xs generalizing zs with
  | nil => rfl
  | cons x xs ih =>
    cases zs with
    | nil => simp
    | cons z zs => simp [ih]

namespace State

def Buffer.places (b : Buffer) : List Nat := List.range' b.address.toNat b.length.toNat

theorem room_eq_sum (bs : List Buffer) : room bs = (bs.map (·.length.toNat)).sum := by
  induction bs with
  | nil => rfl
  | cons b bs ih => rw [room, ih, List.map_cons, List.sum_cons]

theorem length_places (bs : List Buffer) : (bs.flatMap Buffer.places).length = room bs := by
  simp [List.length_flatMap, Buffer.places, room_eq_sum]

theorem place_portions (m : Memory) (bytes : List UInt8) (bs : List Buffer) :
    m.place (portions bytes bs) = m.overwrite ((bs.flatMap Buffer.places).zip bytes) := by
  induction bs generalizing m bytes with
  | nil => rfl
  | cons b bs ih =>
    have length : b.places.length = b.length.toNat := List.length_range'
    have first : m.overwrite (b.places.zip (bytes.take b.length.toNat)) =
        ⟨Memory.setBytes m.bytes b.address.toNat (bytes.take b.length.toNat)⟩ :=
      m.overwrite_range' _ (List.length_take_le _ _)
    rw [portions, Memory.place_cons, ih, List.flatMap_cons, zip_append_eq, length,
      Memory.overwrite_append, first]

inductive Reaches (s : State) (bs : List Buffer) : State → UInt32 → List Buffer → Prop
  | start : Reaches s bs s 0 bs
  | next {t u : State} {total : UInt32} {b : Buffer} {rest : List Buffer} {chunk : List UInt8}
      {p : Process} : Reaches s bs t total (b :: rest) →
      t.process.read? 0 b.length.toNat = some (chunk, p) →
      { t with process := p }.write? b.address chunk = some u →
      ¬ chunk.length < b.length.toNat →
      Reaches s bs u (total + UInt32.ofNat chunk.length) rest

theorem moved_of_turn {t u : State} {b : Buffer} {chunk : List UInt8} {p : Process}
    (hread : t.process.read? 0 b.length.toNat = some (chunk, p))
    (hwrite : { t with process := p }.write? b.address chunk = some u) :
    chunk = t.pending.take b.length.toNat ∧ u = t.moved [(b.address, chunk)] := by
  obtain ⟨rfl, rfl⟩ := Prod.mk.inj (Option.some.inj hread)
  refine ⟨rfl, ?_⟩
  rw [write?] at hwrite
  split at hwrite
  · obtain ⟨m, written, rfl⟩ := Option.map_eq_some_iff.1 hwrite
    rw [Memory.write?] at written
    split at written
    · obtain rfl := Option.some.inj written
      simp [moved]
    · cases written
  · cases hwrite

theorem exists_turn {t : State} {b : Buffer} (hexposed : t.exposed = true)
    (hfits : b.Fits t.memory) :
    ∃ chunk p, t.process.read? 0 b.length.toNat = some (chunk, p) ∧
      ({ t with process := p }.write? b.address chunk).isSome ∧
      chunk.length ≤ t.pending.length := by
  have fits := Memory.fits_mono hfits (List.length_take_le _ t.pending)
  refine ⟨t.pending.take b.length.toNat, _, rfl, ?_, List.length_take_le' _ _⟩
  rw [write?, if_pos hexposed, Memory.write?, if_pos fits]
  rfl

structure Underway (s : State) (bs : List Buffer) (t : State) (total : UInt32)
    (rest : List Buffer) : Prop where
  exposed : t.exposed = s.exposed
  size : t.memory.size = s.memory.size
  left : rest <:+ bs
  counted : total.toNat + t.pending.length = s.pending.length

namespace Reaches

variable {s t : State} {bs rest : List Buffer} {total : UInt32}

theorem underway (h : Reaches s bs t total rest) (hpending : s.pending.length < UInt32.size) :
    s.Underway bs t total rest := by
  induction h with
  | start => exact ⟨rfl, rfl, List.suffix_refl bs, Nat.zero_add _⟩
  | @next t u total b rest chunk p _ hread hwrite _ ih =>
    obtain ⟨rfl, rfl⟩ := moved_of_turn hread hwrite
    let chunk := t.pending.take b.length.toNat
    have pending : (t.moved [(b.address, chunk)]).pending = t.pending.drop chunk.length := by
      simp [pending_moved]
    have short : chunk.length ≤ t.pending.length := List.length_take_le' _ _
    have counted := ih.counted
    have small : total.toNat + chunk.length < UInt32.size := by omega
    have added : (total + UInt32.ofNat chunk.length).toNat = total.toNat + chunk.length := by
      rw [UInt32.toNat_add, UInt32.toNat_ofNat_of_lt' (by omega)]
      exact Nat.mod_eq_of_lt small
    refine ⟨ih.exposed, ?_, (List.suffix_cons b rest).trans ih.left, ?_⟩
    · rw [moved, Memory.size_place, ih.size]
    · rw [pending, List.length_drop, added]
      omega

theorem scatter_eq (h : Reaches s bs t total rest) (result : UInt32) :
    s.scatter 0 result 0 bs = t.scatter 0 result total rest := by
  induction h with
  | start => rfl
  | next _ hread hwrite hfull ih =>
    rw [ih, scatter, hread]
    simp only [hwrite, if_neg hfull]

end Reaches

theorem moved_portions (s : State) (bs : List Buffer) :
    let taken := min (room bs) s.pending.length
    s.moved (portions s.pending bs) = { s with
      memory := s.memory.overwrite ((bs.flatMap Buffer.places).zip (s.pending.take taken))
      process := { s.process with position := s.process.position + taken } } := by
  intro taken
  have enough : s.pending.take taken = s.pending.take (bs.flatMap Buffer.places).length := by
    rw [length_places]
    exact List.take_eq_take_min.symm
  have paired := zip_append_eq (bs.flatMap Buffer.places) [] s.pending
  rw [List.append_nil, List.zip_nil_left, List.append_nil, ← enough] at paired
  rw [moved, place_portions, flatMap_portions, List.length_take, paired]

theorem fdRead_of_admits {s : State} (hexposed : s.exposed = true)
    (hsize : s.memory.size < UInt32.size) {array count : UInt32}
    (h : s.memory.Admits array.toNat count.toNat) (fd result : UInt32) :
    s.fdRead fd array count result =
      s.scatter fd result 0 (s.memory.listing array.toNat count.toNat) := by
  rw [fdRead, (buffers?_eq_some_iff hexposed hsize array count.toNat _).2 ⟨h, rfl⟩]

end State

/-- A read of standard input takes as many bytes as there is room for or as are left, puts them to the
places that the array lists before the call, and fails only if there is no place for their number. No
copy on the way fails, and the count does not overflow. -/
theorem SystemCall.call_fdRead {s : State} (hexposed : s.exposed = true)
    (hsize : s.memory.size < UInt32.size) (hstdin : s.process.stdin.length < UInt32.size)
    {array count : UInt32} (result : UInt32)
    (admits : s.memory.Admits array.toNat count.toNat) :
    let bs := s.memory.listing array.toNat count.toNat
    let taken := min (bs.map (·.length.toNat)).sum (s.process.stdin.length - s.process.position)
    let bytes := (s.process.stdin.drop s.process.position).take taken
    let t : State := { s with
      memory := s.memory.overwrite ((bs.flatMap Buffer.places).zip bytes)
      process := { s.process with position := s.process.position + taken } }
    fdRead.call [0, array, count, result] s = t.counted result taken ∧
      ∀ u total b rest, s.Reaches bs u total (b :: rest) →
        s.fdRead 0 array count result = u.scatter 0 result total (b :: rest) ∧
        ∃ chunk p, u.process.read? 0 b.length.toNat = some (chunk, p) ∧
          ({ u with process := p }.write? b.address chunk).isSome ∧
          total.toNat + chunk.length < UInt32.size := by
  intro bs taken bytes t
  have listed : s.buffers? array count.toNat = some bs :=
    (State.buffers?_eq_some_iff hexposed hsize array count.toNat bs).2 ⟨admits, rfl⟩
  obtain ⟨_, fits⟩ := State.fits_of_buffers? listed
  have pending : s.pending.length = s.process.stdin.length - s.process.position :=
    List.length_drop
  constructor
  · have moved : s.moved (State.portions s.pending bs) = t := by
      rw [State.moved_portions, State.room_eq_sum, pending]
      rfl
    have number : ((State.portions s.pending bs).flatMap (·.2)).length = taken := by
      rw [State.flatMap_portions, List.length_take, State.room_eq_sum, pending]
    have read := State.fdRead_eq listed result
    simp only [moved, number] at read
    have answered : fdRead.call [0, array, count, result] s =
        .ok (s.fdRead 0 array count result).1.code (s.fdRead 0 array count result).2 := rfl
    rw [answered, read]
    exact State.counted_eq (s := t) hexposed result taken
  · intro u total b rest reached
    have underway := reached.underway (by omega)
    have memory : u.memory.size = s.memory.size := underway.size
    have mem : b ∈ bs := underway.left.subset List.mem_cons_self
    have fitting : b.Fits u.memory := by
      rw [Buffer.Fits, Memory.fits, memory]
      exact fits b mem
    obtain ⟨chunk, p, read, written, le⟩ :=
      State.exists_turn (underway.exposed.trans hexposed) fitting
    have counted := underway.counted
    refine ⟨?_, chunk, p, read, written, by omega⟩
    rw [State.fdRead_of_admits hexposed hsize admits]
    exact reached.scatter_eq result

theorem SystemCall.call_fdRead_overlapping :
    let m : Memory := ⟨#[16, 0, 0, 0, 2, 0, 0, 0, 0, 0, 0, 0, 0, 0, 0, 0, 24, 0, 0, 0, 4, 0, 0, 0,
      0, 0, 0, 0]⟩
    let s : State := ⟨m, true, .start "abc"⟩
    s.exposed = true ∧ s.memory.size < UInt32.size ∧ s.process.stdin.length < UInt32.size ∧
      s.memory.Admits 0 3 ∧ ∃ t, fdRead.call [0, 0, 3, 20] s = .ok 0 t ∧
        t.process.position = 3 ∧
        t.memory = ⟨#[16, 0, 0, 0, 2, 0, 0, 0, 0, 0, 0, 0, 0, 0, 0, 0, 0x61, 0x62, 0, 0, 3, 0, 0, 0,
          0x63, 0, 0, 0]⟩ := by
  intro m s
  have hsize : s.memory.size < UInt32.size := by decide
  have hstdin : s.process.stdin.length < UInt32.size := by decide
  have admits : s.memory.Admits (0 : UInt32).toNat (3 : UInt32).toNat :=
    .inr ⟨by decide, by decide⟩
  obtain ⟨answered, _⟩ := call_fdRead (s := s) rfl hsize hstdin 20 admits
  let t : State := ⟨⟨#[16, 0, 0, 0, 2, 0, 0, 0, 0, 0, 0, 0, 0, 0, 0, 0, 0x61, 0x62, 0, 0, 4, 0, 0, 0,
    0x63, 0, 0, 0]⟩, true, { s.process with position := 3 }⟩
  have place : (20 : UInt32).toNat + 4 ≤ t.memory.size := by decide
  have counted : fdRead.call [0, 0, 3, 20] s = t.counted 20 3 :=
    answered.trans (congr (congrArg (State.counted · 20) (by decide)) (by decide))
  exact ⟨rfl, hsize, hstdin, admits, _, counted.trans (if_pos place), rfl, by decide⟩

namespace State

theorem length_of_buffers? {s : State} {array : UInt32} {n : Nat} {bs : List Buffer}
    (h : s.buffers? array n = some bs) : bs.length = n := by
  induction n generalizing array bs with
  | zero =>
    obtain ⟨_, empty⟩ := Option.ite_none_right_eq_some.1 h
    obtain rfl := Option.some.inj empty
    rfl
  | succ n ih =>
    simp only [buffers?, bind, Option.bind_eq_some_iff] at h
    obtain ⟨b, _, rest, hrest, h⟩ := h
    obtain rfl := Option.some.inj h
    rw [List.length_cons, ih hrest]

theorem scatter_cons_of_ne {s : State} {fd : UInt32} (hfd : fd ≠ 0) (result total : UInt32)
    (b : Buffer) (bs : List Buffer) :
    s.scatter fd result total (b :: bs) = (.badDescriptor, s) := by
  have unknown : s.process.read? fd b.length.toNat = none := if_neg hfd
  rw [scatter, unknown]

theorem counted_ne_badDescriptor (s : State) (result : UInt32) (n : Nat) :
    s.counted result n ≠ .ok Errno.badDescriptor.code s := by
  rw [counted]
  intro h
  split at h
  · exact absurd (EStateM.Result.ok.inj h).1 (by decide)
  · exact absurd (EStateM.Result.ok.inj h).1 (by decide)

end State

/-- A read from a descriptor that is not standard input is refused as soon as there is a buffer to
fill. One without buffers never looks at its descriptor and stores that it read nothing. A write to a
descriptor that is no output is refused with or without buffers. -/
theorem SystemCall.call_fdRead_of_ne {s : State} {array count : UInt32}
    (accepted : (s.buffers? array count.toNat).isSome) {fd : UInt32} (hfd : fd ≠ 0)
    (result : UInt32) :
    let answer := fdRead.call [fd, array, count, result] s
    (answer = .ok Errno.badDescriptor.code s ↔ count ≠ 0) ∧
      (count = 0 → answer = s.counted result 0) ∧
      ∀ output, output ≠ 1 → output ≠ 2 →
        fdWrite.call [output, array, count, result] s = .ok Errno.badDescriptor.code s := by
  intro answer
  obtain ⟨bs, listed⟩ := Option.isSome_iff_exists.1 accepted
  obtain ⟨exposed, _⟩ := State.fits_of_buffers? listed
  have empty : count = 0 ↔ bs = [] := by
    rw [← List.length_eq_zero_iff, State.length_of_buffers? listed, ← UInt32.toNat_inj]
    rfl
  have answered {r : Errno × State} (h : s.scatter fd result 0 bs = r) :
      answer = .ok r.1.code r.2 := by
    have read : s.fdRead fd array count result = r := by
      rw [State.fdRead, listed]
      exact h
    rw [← read]
    rfl
  have stored (h : count = 0) : answer = s.counted result 0 := by
    obtain rfl := empty.1 h
    exact (answered rfl).trans (State.counted_eq exposed result 0)
  refine ⟨⟨fun refused h => ?_, fun h => ?_⟩, stored, fun output ne₁ ne₂ => ?_⟩
  · exact State.counted_ne_badDescriptor s result 0 ((stored h).symm.trans refused)
  · obtain ⟨b, rest, rfl⟩ := List.exists_cons_of_ne_nil (mt empty.2 h)
    exact answered (State.scatter_cons_of_ne hfd result 0 b rest)
  · have unknown (bytes : List UInt8) : s.process.write? output bytes = none := by
      rw [Process.write?, if_neg ne₁, if_neg ne₂]
    let r := s.fdWrite output array count result
    have written : fdWrite.call [output, array, count, result] s = .ok r.1.code r.2 := rfl
    have refused : r = (.badDescriptor, s) := by
      simp only [r, State.fdWrite]
      rw [State.gathered_eq, listed, Option.map_some]
      simp only [unknown]
    rw [written, refused]

theorem SystemCall.call_fdRead_of_ne_two :
    let s : State := ⟨⟨Array.replicate 16 0⟩, true, .start "abc"⟩
    (s.buffers? 0 2).isSome ∧ (1 : UInt32) ≠ 0 ∧
      fdRead.call [1, 0, 2, 8] s = .ok 8 s ∧ fdWrite.call [0, 0, 2, 8] s = .ok 8 s := by
  intro s
  have accepted : (s.buffers? 0 (2 : UInt32).toNat).isSome := by decide
  have one : (1 : UInt32) ≠ 0 := by decide
  obtain ⟨refused, _, written⟩ := call_fdRead_of_ne accepted one 8
  exact ⟨accepted, one, refused.2 (by decide), written 0 (by decide) (by decide)⟩

/-- Without buffers a descriptor that nobody has opened can be read from, and memory changes. -/
theorem SystemCall.unknown_read_succeeds :
    let s : State := ⟨⟨#[1, 2, 3, 4]⟩, true, .start ""⟩
    (s.buffers? 0 0).isSome ∧
      fdRead.call [3, 0, 0, 0] s = .ok 0 { s with memory := ⟨#[0, 0, 0, 0]⟩ } ∧
      fdRead.call [3, 0, 0, 0] s ≠ .ok Errno.badDescriptor.code s := by
  intro s
  have read : fdRead.call [3, 0, 0, 0] s = .ok 0 { s with memory := ⟨#[0, 0, 0, 0]⟩ } := rfl
  refine ⟨rfl, read, ?_⟩
  rw [read]
  exact fun h => absurd (EStateM.Result.ok.inj h).1 (by decide)

end Doctest.Guest
