import Doctest.Guest.SystemInterface

namespace Doctest.Guest

namespace Memory

def place (m : Memory) (copies : List (UInt32 × List UInt8)) : Memory :=
  copies.foldl (fun m c => ⟨setBytes m.bytes c.1.toNat c.2⟩) m

@[simp] theorem place_nil (m : Memory) : m.place [] = m := rfl

@[simp] theorem place_cons (m : Memory) (c : UInt32 × List UInt8)
    (copies : List (UInt32 × List UInt8)) :
    m.place (c :: copies) = place ⟨setBytes m.bytes c.1.toNat c.2⟩ copies := rfl

@[simp] theorem size_place (m : Memory) (copies : List (UInt32 × List UInt8)) :
    (m.place copies).size = m.size := by
  induction copies generalizing m with
  | nil => rfl
  | cons c copies ih => rw [place_cons, ih, size, size_setBytes, size]

theorem place_of_empty {copies : List (UInt32 × List UInt8)} (h : ∀ c ∈ copies, c.2 = [])
    (m : Memory) : m.place copies = m := by
  induction copies with
  | nil => rfl
  | cons c copies ih =>
    rw [place_cons, h c List.mem_cons_self]
    exact ih fun d hd => h d (List.mem_cons_of_mem c hd)

theorem fits_mono {m : Memory} {offset length shorter : Nat} (h : m.fits offset length = true)
    (hle : shorter ≤ length) : m.fits offset shorter = true := by
  simp only [fits, decide_eq_true_eq] at h ⊢
  omega

end Memory

namespace State

def pending (s : State) : List UInt8 := s.process.stdin.drop s.process.position

def contents (s : State) (b : Buffer) : List UInt8 :=
  (s.memory.bytes.extract b.address.toNat (b.address.toNat + b.length.toNat)).toList

/-- How bytes are dealt out to buffers: each takes as many as it can of those that are left. -/
def portions : List UInt8 → List Buffer → List (UInt32 × List UInt8)
  | _, [] => []
  | bytes, b :: bs =>
    (b.address, bytes.take b.length.toNat) :: portions (bytes.drop b.length.toNat) bs

def room : List Buffer → Nat
  | [] => 0
  | b :: bs => b.length.toNat + room bs

def Buffer.Fits (b : Buffer) (m : Memory) : Prop := m.fits b.address.toNat b.length.toNat = true

theorem fits_of_buffer? {s : State} {entry : UInt32} {b : Buffer} (h : s.buffer? entry = some b) :
    s.exposed = true ∧ b.Fits s.memory := by
  simp only [buffer?, bind, Option.bind_eq_some_iff] at h
  obtain ⟨address, haddress, length, _, h⟩ := h
  constructor
  · simp only [readWord?, bind, Option.bind_eq_some_iff] at haddress
    obtain ⟨bytes, hbytes, _⟩ := haddress
    rw [read?] at hbytes
    split at hbytes
    · assumption
    · cases hbytes
  · split at h
    · next fits =>
      cases h
      exact fits
    · cases h

theorem fits_of_buffers? {s : State} {array : UInt32} {n : Nat} {bs : List Buffer}
    (h : s.buffers? array n = some bs) : s.exposed = true ∧ ∀ b ∈ bs, b.Fits s.memory := by
  induction n generalizing array bs with
  | zero =>
    rw [buffers?] at h
    split at h
    · next exposed =>
      cases h
      exact ⟨exposed, nofun⟩
    · cases h
  | succ n ih =>
    simp only [buffers?, bind, Option.bind_eq_some_iff] at h
    obtain ⟨b, hb, rest, hrest, h⟩ := h
    cases h
    obtain ⟨exposed, fits⟩ := ih hrest
    refine ⟨exposed, fun c hc => ?_⟩
    obtain rfl | hc := List.mem_cons.1 hc
    · exact (fits_of_buffer? hb).2
    · exact fits c hc

theorem gather?_of_fits {s : State} {bs : List Buffer} (hexposed : s.exposed = true)
    (hfits : ∀ b ∈ bs, b.Fits s.memory) : s.gather? bs = some (bs.flatMap s.contents) := by
  induction bs with
  | nil => rfl
  | cons b bs ih =>
    have fits : s.memory.fits b.address.toNat b.length.toNat = true := hfits b List.mem_cons_self
    have chunk : s.read? b.address b.length.toNat = some (s.contents b) := by
      rw [read?, if_pos hexposed, Memory.read?, if_pos fits]
      rfl
    rw [gather?, chunk, ih fun c hc => hfits c (List.mem_cons_of_mem b hc)]
    rfl

theorem gathered_eq (s : State) (array : UInt32) (n : Nat) :
    (s.buffers? array n).bind s.gather? = (s.buffers? array n).map (·.flatMap s.contents) := by
  cases h : s.buffers? array n with
  | none => rfl
  | some bs =>
    obtain ⟨exposed, fits⟩ := fits_of_buffers? h
    exact gather?_of_fits exposed fits

@[simp] theorem portions_empty (bs : List Buffer) :
    portions [] bs = bs.map fun b => (b.address, []) := by
  induction bs with
  | nil => rfl
  | cons b bs ih => rw [portions, List.take_nil, List.drop_nil, ih, List.map_cons]

theorem flatMap_portions (bytes : List UInt8) (bs : List Buffer) :
    (portions bytes bs).flatMap (·.2) = bytes.take (room bs) := by
  induction bs generalizing bytes with
  | nil => rfl
  | cons b bs ih => rw [portions, List.flatMap_cons, ih, room, List.take_add]

def moved (s : State) (copies : List (UInt32 × List UInt8)) : State :=
  { s with
    memory := s.memory.place copies
    process := { s.process with
      position := s.process.position + (copies.flatMap (·.2)).length } }

@[simp] theorem moved_nil (s : State) : s.moved [] = s := rfl

theorem moved_cons (s : State) (c : UInt32 × List UInt8) (copies : List (UInt32 × List UInt8)) :
    s.moved (c :: copies) = (s.moved [c]).moved copies := by
  simp [moved, Nat.add_assoc]

theorem pending_moved (s : State) (copies : List (UInt32 × List UInt8)) :
    (s.moved copies).pending = s.pending.drop (copies.flatMap (·.2)).length := by
  rw [pending, pending, List.drop_drop]
  rfl

theorem moved_of_empty {copies : List (UInt32 × List UInt8)} (h : ∀ c ∈ copies, c.2 = [])
    (s : State) : s.moved copies = s := by
  have none : copies.flatMap (·.2) = [] := List.flatMap_eq_nil_iff.2 h
  simp [moved, none, Memory.place_of_empty h]

theorem Buffer.Fits.moved {s : State} {b : Buffer} (h : b.Fits s.memory)
    (copies : List (UInt32 × List UInt8)) : b.Fits (s.moved copies).memory := by
  rw [Fits, Memory.fits, State.moved, Memory.size_place]
  exact h

theorem scatter_cons {s : State} {b : Buffer} (hexposed : s.exposed = true)
    (hfits : b.Fits s.memory) (result total : UInt32) (bs : List Buffer) :
    let chunk := s.pending.take b.length.toNat
    let t := s.moved [(b.address, chunk)]
    let n := total + UInt32.ofNat chunk.length
    s.scatter 0 result total (b :: bs) =
      if s.pending.length < b.length.toNat then t.writing result (wordBytes n)
      else t.scatter 0 result n bs := by
  intro chunk t n
  have short : chunk.length < b.length.toNat ↔ s.pending.length < b.length.toNat := by
    rw [List.length_take]
    omega
  have fits : s.memory.fits b.address.toNat chunk.length = true :=
    Memory.fits_mono hfits (List.length_take_le _ _)
  let p : Process := { s.process with position := s.process.position + chunk.length }
  have read : s.process.read? 0 b.length.toNat = some (chunk, p) := rfl
  have copied : { s with process := p }.write? b.address chunk = some t := by
    rw [write?, if_pos hexposed, Memory.write?, if_pos fits]
    simp [t, p, moved]
  rw [scatter, read]
  simp only [copied, short]
  rfl

theorem scatter_eq {s : State} {bs : List Buffer} (hexposed : s.exposed = true)
    (hfits : ∀ b ∈ bs, b.Fits s.memory) (result total : UInt32) :
    let copies := portions s.pending bs
    s.scatter 0 result total bs = (s.moved copies).writing result
      (wordBytes (total + UInt32.ofNat (copies.flatMap (·.2)).length)) := by
  intro copies
  induction bs generalizing s total with
  | nil => simp [copies, portions, scatter]
  | cons b bs ih =>
    let chunk := s.pending.take b.length.toNat
    let t := s.moved [(b.address, chunk)]
    have rest : copies = (b.address, chunk) :: portions (s.pending.drop b.length.toNat) bs := rfl
    rw [scatter_cons hexposed (hfits b List.mem_cons_self)]
    split
    · next short =>
      -- nothing is left for the buffers behind one that is not filled
      have drained : s.pending.drop b.length.toNat = [] :=
        List.drop_eq_nil_of_le (Nat.le_of_lt short)
      have empty : ∀ c ∈ portions [] bs, c.2 = [] := by simp
      have none : (portions [] bs).flatMap (·.2) = [] := List.flatMap_eq_nil_iff.2 empty
      rw [rest, drained, moved_cons s _ (portions [] bs), moved_of_empty empty, List.flatMap_cons,
        none, List.append_nil]
    · next enough =>
      have filled : chunk.length = b.length.toNat := by
        rw [List.length_take]
        omega
      have pending : t.pending = s.pending.drop b.length.toNat := by
        simp [t, pending_moved, filled]
      have fits : ∀ c ∈ bs, c.Fits t.memory := fun c hc =>
        (hfits c (List.mem_cons_of_mem b hc)).moved _
      have next := @ih t hexposed fits (total + UInt32.ofNat chunk.length)
      simp only [pending] at next
      rw [next, rest, moved_cons, List.flatMap_cons, List.length_append, UInt32.ofNat_add,
        UInt32.add_assoc]

theorem fdRead_eq {s : State} {array count : UInt32} {bs : List Buffer}
    (h : s.buffers? array count.toNat = some bs) (result : UInt32) :
    let copies := portions s.pending bs
    s.fdRead 0 array count result = (s.moved copies).writing result
      (wordBytes (UInt32.ofNat (copies.flatMap (·.2)).length)) := by
  obtain ⟨exposed, fits⟩ := fits_of_buffers? h
  rw [fdRead, h]
  simpa using scatter_eq exposed fits result 0

end State

end Doctest.Guest
