import Doctest.Proofs.Guest.History

namespace Doctest.Guest

open State (Buffer)

def State.Buffer.Holds (b : Buffer) (p : Nat) : Prop :=
  b.address.toNat ≤ p ∧ p < b.address.toNat + b.length.toNat

namespace Memory

structure SameOutside (bs : List Buffer) (m n : Memory) : Prop where
  size : n.size = m.size
  bytes : ∀ p, (∀ b ∈ bs, ¬ b.Holds p) → n.bytes[p]? = m.bytes[p]?

namespace SameOutside

variable {bs cs : List Buffer} {m n k : Memory}

theorem refl (bs : List Buffer) (m : Memory) : SameOutside bs m m := ⟨rfl, fun _ _ => rfl⟩

theorem trans (h : SameOutside bs m n) (h' : SameOutside bs n k) : SameOutside bs m k where
  size := h'.size.trans h.size
  bytes p hp := (h'.bytes p hp).trans (h.bytes p hp)

theorem mono (h : SameOutside bs m n) (hsub : ∀ b ∈ bs, b ∈ cs) : SameOutside cs m n where
  size := h.size
  bytes p hp := h.bytes p fun b hb => hp b (hsub b hb)

end SameOutside

theorem getElem?_setBytes_of_outside {a : Array UInt8} {offset p : Nat} {bytes : List UInt8}
    (h : p < offset ∨ offset + bytes.length ≤ p) : (setBytes a offset bytes)[p]? = a[p]? := by
  induction bytes generalizing a offset with
  | nil => rfl
  | cons b bytes ih =>
    rw [List.length_cons] at h
    rw [setBytes, ih (by omega), Array.getElem?_setIfInBounds_ne (by omega)]

theorem sameOutside_setBytes {b : Buffer} {bytes : List UInt8}
    (h : bytes.length ≤ b.length.toNat) (m : Memory) :
    SameOutside [b] m ⟨setBytes m.bytes b.address.toNat bytes⟩ where
  size := size_setBytes ..
  bytes p hp := by
    have outside := hp b (List.mem_singleton.2 rfl)
    rw [Buffer.Holds] at outside
    exact getElem?_setBytes_of_outside (by omega)

end Memory

namespace State

open Memory (SameOutside)

def Writable (s : State) (b : Buffer) : Prop := s.exposed = true ∧ b.Fits s.memory

theorem writing_cases (s : State) {b : Buffer} {bytes : List UInt8}
    (h : bytes.length = b.length.toNat) :
    s.Writable b ∧ s.writing b.address bytes =
        (.success, { s with memory := ⟨Memory.setBytes s.memory.bytes b.address.toNat bytes⟩ }) ∨
      ¬ s.Writable b ∧ s.writing b.address bytes = (.fault, s) := by
  rw [Writable, Buffer.Fits, writing, write?, Memory.write?, h]
  by_cases exposed : s.exposed = true
  · by_cases fits : s.memory.fits b.address.toNat b.length.toNat = true
    · simp [exposed, fits]
    · simp [exposed, fits]
  · simp [exposed]

structure Writes (s : State) (bs : List Buffer) (r : Errno × State) : Prop where
  exposed : r.2.exposed = s.exposed
  outside : SameOutside bs s.memory r.2.memory
  answer : r.1 = .success ∧ (∀ b ∈ bs, s.Writable b) ∨
    r.1 = .fault ∧ ∃ b ∈ bs, ¬ s.Writable b

namespace Writes

variable {s : State} {bs cs : List Buffer} {r r' : Errno × State}

theorem nil (s : State) : s.Writes [] (.success, s) := ⟨rfl, .refl [] s.memory, .inl ⟨rfl, nofun⟩⟩

theorem writable_iff (h : s.Writes bs r) (b : Buffer) : r.2.Writable b ↔ s.Writable b := by
  rw [Writable, Writable, Buffer.Fits, Buffer.Fits, Memory.fits, Memory.fits, h.exposed,
    h.outside.size]

theorem of_process {p : Process} (h : { s with process := p }.Writes bs r) : s.Writes bs r :=
  ⟨h.exposed, h.outside, h.answer⟩

theorem fault_iff (h : s.Writes bs r) : r.1 = .fault ↔ ∃ b ∈ bs, ¬ s.Writable b := by
  obtain ⟨done, writable⟩ | ⟨failed, stuck⟩ := h.answer
  · simpa [done] using writable
  · simpa [failed] using stuck

theorem fault_of_ne (h : s.Writes bs r) (hr : r.1 ≠ .success) : r.1 = .fault := by
  obtain ⟨done, _⟩ | ⟨failed, _⟩ := h.answer
  · exact absurd done hr
  · exact failed

theorem append (h : s.Writes bs r) (hr : r.1 = .success) (h' : r.2.Writes cs r') :
    s.Writes (bs ++ cs) r' where
  exposed := h'.exposed.trans h.exposed
  outside := (h.outside.mono fun _ => List.mem_append_left cs).trans
    (h'.outside.mono fun _ => List.mem_append_right bs)
  answer := by
    have next := h'.answer
    simp only [h.writable_iff] at next
    obtain ⟨_, first⟩ | ⟨failed, _⟩ := h.answer
    · obtain ⟨done, second⟩ | ⟨failed, b, hb, stuck⟩ := next
      · exact .inl ⟨done, List.forall_mem_append.2 ⟨first, second⟩⟩
      · exact .inr ⟨failed, b, List.mem_append_right bs hb, stuck⟩
    · cases hr.symm.trans failed

theorem append_of_fault (h : s.Writes bs r) (hr : r.1 = .fault) (cs : List Buffer) :
    s.Writes (bs ++ cs) r where
  exposed := h.exposed
  outside := h.outside.mono fun _ => List.mem_append_left cs
  answer := by
    obtain ⟨b, hb, stuck⟩ := h.fault_iff.1 hr
    exact .inr ⟨hr, b, List.mem_append_left cs hb, stuck⟩

end Writes

theorem writes_writing (s : State) {b : Buffer} {bytes : List UInt8}
    (h : bytes.length = b.length.toNat) : s.Writes [b] (s.writing b.address bytes) := by
  obtain ⟨writable, done⟩ | ⟨stuck, done⟩ := s.writing_cases h
  · rw [done]
    exact ⟨rfl, Memory.sameOutside_setBytes (Nat.le_of_eq h) s.memory, .inl ⟨rfl, by simpa⟩⟩
  · rw [done]
    exact ⟨rfl, .refl [b] s.memory, .inr ⟨rfl, by simpa⟩⟩

theorem writes_word (s : State) (address w : UInt32) :
    s.Writes [⟨address, 4⟩] (s.writing address (wordBytes w)) := writes_writing s rfl

theorem writes_writingBoth (s : State) {a b : Buffer} {as bs : List UInt8}
    (ha : as.length = a.length.toNat) (hb : bs.length = b.length.toNat) :
    s.Writes [a, b] (s.writingBoth a.address as b.address bs) := by
  have first := s.writes_writing ha
  rw [writing] at first
  rw [writingBoth]
  cases h : s.write? a.address as with
  | none =>
    rw [h] at first
    exact first.append_of_fault rfl [b]
  | some t =>
    rw [h] at first
    exact first.append rfl (t.writes_writing hb)

def slots (array buffer : UInt32) : List (List UInt8) → List Buffer
  | [] => []
  | arg :: args =>
    let length := UInt32.ofNat arg.length
    [⟨array, 4⟩, ⟨buffer, length⟩] ++ slots (array + 4) (buffer + length) args

theorem writes_layOut (s : State) (array buffer : UInt32) {args : List (List UInt8)}
    (h : ∀ arg ∈ args, arg.length < UInt32.size) :
    s.Writes (slots array buffer args) (s.layOut array buffer args) := by
  induction args generalizing s array buffer with
  | nil => exact .nil s
  | cons arg args ih =>
    have fits : arg.length = (UInt32.ofNat arg.length).toNat :=
      (UInt32.toNat_ofNat_of_lt' (h arg List.mem_cons_self)).symm
    have both : s.Writes [⟨array, 4⟩, ⟨buffer, UInt32.ofNat arg.length⟩]
        (s.writingBoth array (wordBytes buffer) buffer arg) := s.writes_writingBoth rfl fits
    rw [layOut, slots]
    split
    · next t ht =>
      rw [ht] at both
      exact both.append rfl (ih t _ _ fun arg harg => h arg (List.mem_cons_of_mem _ harg))
    · next failed =>
      have fault := both.fault_of_ne fun success => failed _ (Prod.ext success rfl)
      exact both.append_of_fault fault _

theorem sameOutside_portions (bytes : List UInt8) (bs : List Buffer) (m : Memory) :
    SameOutside bs m (m.place (portions bytes bs)) := by
  induction bs generalizing bytes m with
  | nil => exact .refl [] m
  | cons b bs ih =>
    have first : SameOutside [b] m ⟨_⟩ :=
      Memory.sameOutside_setBytes (List.length_take_le b.length.toNat bytes) m
    rw [portions, Memory.place_cons]
    refine (first.mono fun c hc => ?_).trans ((ih _ _).mono fun c => List.mem_cons_of_mem b)
    rw [List.mem_singleton.1 hc]
    exact List.mem_cons_self

/-- The ranges that a call writes to. -/
def outputs (s : State) : SystemCall → List UInt32 → List Buffer
  | .fdWrite, [_, _, _, result] => [⟨result, 4⟩]
  | .fdRead, [_, array, count, result] =>
    (s.buffers? array count.toNat).getD [] ++ [⟨result, 4⟩]
  | .argsSizesGet, [count, size] | .environSizesGet, [count, size] => [⟨count, 4⟩, ⟨size, 4⟩]
  | .argsGet, [array, buffer] => slots array buffer argumentBytes
  | .fdFdstatGet, [_, result] => [⟨result, 24⟩]
  | .clockTimeGet, [_, _, result] => [⟨result, 8⟩]
  | .randomGet, [address, length] => [⟨address, length⟩]
  | _, _ => []

def Refuses (s : State) : SystemCall → List UInt32 → Prop
  | .fdWrite, [_, array, count, _] | .fdRead, [_, array, count, _] =>
    s.buffers? array count.toNat = none
  | _, _ => False

/-- Whether a call comes to look at a descriptor that it has no use for, and then has nothing to
write. A read into no buffers looks at none. -/
def TurnsAway (s : State) : SystemCall → List UInt32 → Prop
  | .fdWrite, [fd, _, _, _] => fd ≠ 1 ∧ fd ≠ 2
  | .fdRead, [fd, array, count, _] => fd ≠ 0 ∧ s.buffers? array count.toNat ≠ some []
  | .fdFdstatGet, [fd, _] => 2 < fd
  | .fdPrestatGet, _ | .fdPrestatDirName, _ => True
  | _, _ => False

/-- What a call does to memory, and why it fails if it fails. -/
structure Confines (s : State) (c : SystemCall) (args : List UInt32) (r : Errno × State) : Prop where
  outside : SameOutside (s.outputs c args) s.memory r.2.memory
  fault : r.1 = .fault ↔
    s.Refuses c args ∨ ¬ s.TurnsAway c args ∧ ∃ b ∈ s.outputs c args, ¬ s.Writable b
  badDescriptor : r.1 = .badDescriptor ↔ ¬ s.Refuses c args ∧ s.TurnsAway c args

theorem Writes.confines {s : State} {c : SystemCall} {args : List UInt32} {r : Errno × State}
    (h : s.Writes (s.outputs c args) r) (refuses : ¬ s.Refuses c args)
    (turnsAway : ¬ s.TurnsAway c args) : s.Confines c args r where
  outside := h.outside
  fault := by simp [h.fault_iff, refuses, turnsAway]
  badDescriptor := by
    obtain ⟨done, _⟩ | ⟨failed, _⟩ := h.answer
    · simp [done, turnsAway]
    · simp [failed, turnsAway]

theorem confines_of_unchanged {s : State} {c : SystemCall} {args : List UInt32} {errno : Errno}
    (h : errno = .fault ∧ s.Refuses c args ∨
      errno = .badDescriptor ∧ ¬ s.Refuses c args ∧ s.TurnsAway c args) :
    s.Confines c args (errno, s) where
  outside := .refl _ s.memory
  fault := by
    obtain ⟨rfl, refuses⟩ | ⟨rfl, served, turnsAway⟩ := h
    · simp [refuses]
    · simp [served, turnsAway]
  badDescriptor := by
    obtain ⟨rfl, refuses⟩ | ⟨rfl, served, turnsAway⟩ := h
    · simp [refuses]
    · simp [served, turnsAway]

theorem confines_fdWrite (s : State) (fd array count result : UInt32) :
    let args := [fd, array, count, result]
    s.Confines .fdWrite args (s.fdWrite fd array count result) := by
  intro args
  rw [fdWrite, gathered_eq]
  cases h : s.buffers? array count.toNat with
  | none => exact confines_of_unchanged (.inl ⟨rfl, h⟩)
  | some bs =>
    have served : ¬ s.Refuses .fdWrite args := by simp [args, Refuses, h]
    simp only [Option.map_some]
    cases hp : s.process.write? fd (bs.flatMap s.contents) with
    | none => exact confines_of_unchanged (.inr ⟨rfl, served, Process.ne_of_write? hp⟩)
    | some p =>
      have known : ¬ s.TurnsAway .fdWrite args := by
        rintro ⟨ne₁, ne₂⟩
        simp [Process.write?, ne₁, ne₂] at hp
      let t : State := { s with process := p }
      exact (t.writes_word result _).of_process.confines served known

theorem confines_fdRead (s : State) (fd array count result : UInt32) :
    let args := [fd, array, count, result]
    s.Confines .fdRead args (s.fdRead fd array count result) := by
  intro args
  cases h : s.buffers? array count.toNat with
  | none =>
    rw [fdRead, h]
    exact confines_of_unchanged (.inl ⟨rfl, h⟩)
  | some bs =>
    have served : ¬ s.Refuses .fdRead args := by simp [args, Refuses, h]
    have outputs : s.outputs .fdRead args = bs ++ [⟨result, 4⟩] := by
      simp only [args, State.outputs, h, Option.getD_some]
    obtain ⟨exposed, fits⟩ := fits_of_buffers? h
    by_cases hfd : fd = 0
    · subst hfd
      have known : ¬ s.TurnsAway .fdRead args := fun away => away.1 rfl
      -- the buffers were looked at before, so the copies count as writes that do not fail
      have copied : s.Writes bs (.success, s.moved (portions s.pending bs)) :=
        ⟨rfl, sameOutside_portions .., .inl ⟨rfl, fun b hb => ⟨exposed, fits b hb⟩⟩⟩
      rw [fdRead_eq h]
      refine Writes.confines ?_ served known
      rw [outputs]
      exact copied.append rfl (writes_word ..)
    · rw [fdRead, h]
      cases bs with
      | nil =>
        have known : ¬ s.TurnsAway .fdRead args := fun away => away.2 h
        refine Writes.confines ?_ served known
        rw [outputs]
        exact writes_word ..
      | cons b bs =>
        have away : s.TurnsAway .fdRead args := ⟨hfd, by simp [h]⟩
        simp only [scatter, Process.read?, if_neg hfd]
        exact confines_of_unchanged (.inr ⟨rfl, served, away⟩)

theorem confines_fdFdstatGet (s : State) (fd result : UInt32) :
    s.Confines .fdFdstatGet [fd, result] (s.fdFdstatGet fd result) := by
  rw [fdFdstatGet]
  split
  · next known =>
    have writes : s.Writes [⟨result, 24⟩] (s.writing result descriptorStatus) :=
      s.writes_writing rfl
    exact writes.confines id (UInt32.not_lt.2 known)
  · next unknown =>
    exact confines_of_unchanged (.inr ⟨rfl, id, UInt32.not_le.1 unknown⟩)

theorem confines_randomGet (s : State) (address length : UInt32) :
    s.Confines .randomGet [address, length] (s.randomGet address length) := by
  let zeros : List UInt8 := List.replicate length.toNat 0
  have all : zeros.length = length.toNat := List.length_replicate
  have writes : s.Writes [⟨address, length⟩] (s.writing address zeros) := s.writes_writing all
  rw [randomGet]
  split
  · exact writes.confines id id
  · next stuck =>
    have refused : s.writing address zeros = (.fault, s) := by
      obtain ⟨writable, _⟩ | ⟨_, done⟩ := @writing_cases s ⟨address, length⟩ zeros all
      · exact absurd writable stuck
      · exact done
    rw [refused] at writes
    exact writes.confines id id

theorem confines_of_idle {s : State} {c : SystemCall} {args : List UInt32} {errno : Errno}
    (outputs : s.outputs c args = []) (refuses : ¬ s.Refuses c args)
    (turnsAway : ¬ s.TurnsAway c args) (h : errno ≠ .fault ∧ errno ≠ .badDescriptor) :
    s.Confines c args (errno, s) where
  outside := .refl _ s.memory
  fault := by simp [h, refuses, outputs]
  badDescriptor := by simp [h, turnsAway]

theorem buffers?_of_unexposed {s : State} (h : s.exposed = false) (array : UInt32) (n : Nat) :
    s.buffers? array n = none := by
  cases hbs : s.buffers? array n with
  | none => rfl
  | some bs =>
    obtain ⟨exposed, _⟩ := fits_of_buffers? hbs
    rw [h] at exposed
    cases exposed

theorem refuses_of_unexposed {s : State} (h : s.exposed = false) {c : SystemCall}
    {args : List UInt32} (outputs : s.outputs c args ≠ []) (turnsAway : s.TurnsAway c args) :
    s.Refuses c args ∨ c = .fdFdstatGet := by
  fun_cases State.TurnsAway s c args with
  | case1 => exact .inl (buffers?_of_unexposed h ..)
  | case2 => exact .inl (buffers?_of_unexposed h ..)
  | case3 => exact .inr rfl
  | case4 => exact absurd rfl outputs
  | case5 => exact absurd rfl outputs
  | case6 =>
    simp (disch := assumption) only [State.TurnsAway] at turnsAway

end State

theorem SystemCall.confines_answer (c : SystemCall) (args : List UInt32) (s : State) :
    s.Confines c args (c.answer s args) := by
  fun_cases answer s c args with
  | case1 => exact State.confines_fdWrite ..
  | case2 => exact State.confines_fdRead ..
  | case3 => exact (s.writes_writingBoth rfl rfl).confines id id
  | case4 => exact (s.writes_layOut _ _ (by decide +kernel)).confines id id
  | case5 => exact (s.writes_writingBoth rfl rfl).confines id id
  | case6 => exact State.confines_fdFdstatGet ..
  | case7 => exact (s.writes_writing rfl).confines id id
  | case8 => exact State.confines_randomGet ..
  | case9 => exact State.confines_of_idle rfl id id ⟨by decide, by decide⟩
  | case10 => exact State.confines_of_unchanged (.inr ⟨rfl, id, trivial⟩)
  | case11 => exact State.confines_of_unchanged (.inr ⟨rfl, id, trivial⟩)
  | case12 =>
    refine State.confines_of_idle ?_ ?_ ?_ ⟨by decide, by decide⟩
    · simp (disch := assumption) only [State.outputs]
    · simp (disch := assumption) only [State.Refuses]
      exact id
    · simp (disch := assumption) only [State.TurnsAway]
      exact id

namespace State

def Keeps (s : State) (r : Errno × State) : Prop := r.1 ≠ .success → r.2.memory = s.memory

theorem keeps_writing (s : State) (address : UInt32) (bytes : List UInt8) :
    s.Keeps (s.writing address bytes) := by
  rw [writing]
  split
  · exact fun failed => absurd rfl failed
  · exact fun _ => rfl

theorem keeps_fdWrite (s : State) (fd array count result : UInt32) :
    s.Keeps (s.fdWrite fd array count result) := by
  rw [fdWrite]
  split
  · exact fun _ => rfl
  · split
    · exact fun _ => rfl
    · next p _ => exact keeps_writing { s with process := p } result _

theorem keeps_fdFdstatGet (s : State) (fd result : UInt32) :
    s.Keeps (s.fdFdstatGet fd result) := by
  rw [fdFdstatGet]
  split
  · exact keeps_writing s _ _
  · exact fun _ => rfl

theorem keeps_randomGet (s : State) (address length : UInt32) :
    s.Keeps (s.randomGet address length) := by
  rw [randomGet]
  split
  · exact keeps_writing s _ _
  · exact fun _ => rfl

end State

namespace SystemCall

open Memory (SameOutside)

def WritesOnce (c : SystemCall) : Prop := c ∈ [fdWrite, fdFdstatGet, clockTimeGet, randomGet]

theorem WritesOnce.keeps_answer {c : SystemCall} (h : c.WritesOnce) (args : List UInt32)
    (s : State) : s.Keeps (c.answer s args) := by
  fun_cases answer s c args with
  | case1 => exact State.keeps_fdWrite s _ _ _ _
  | case6 => exact State.keeps_fdFdstatGet s _ _
  | case7 => exact State.keeps_writing s _ _
  | case8 => exact State.keeps_randomGet s _ _
  | case2 | case3 | case4 | case5 => simp [WritesOnce] at h
  | case9 | case10 | case11 | case12 => exact fun _ => rfl

/-- System calls keep to their ranges. A call that is no exit comes back with an error number, in a
memory of the same size that differs at most within the outputs of the call. It is a fault just if
the buffers of the call are refused, or if it gets past its descriptor and one of its outputs cannot
be written to. -/
theorem confined {c : SystemCall} (h : c ≠ .procExit) (args : List UInt32) (s : State) :
    ∃ (errno : Errno) (t : State), c.call args s = .ok errno.code t ∧
      SameOutside (s.outputs c args) s.memory t.memory ∧
      (c.WritesOnce → errno ≠ .success → t.memory = s.memory) ∧
      (errno = .fault ↔
        s.Refuses c args ∨ ¬ s.TurnsAway c args ∧ ∃ b ∈ s.outputs c args, ¬ s.Writable b) ∧
      (errno = .badDescriptor ↔ ¬ s.Refuses c args ∧ s.TurnsAway c args) ∧
      (s.exposed = false → s.outputs c args ≠ [] →
        errno = .fault ∨ c = .fdFdstatGet ∧ s.TurnsAway c args) := by
  have confines := c.confines_answer args s
  refine ⟨(c.answer s args).1, (c.answer s args).2, ?_, confines.outside,
    fun once => once.keeps_answer args s, confines.fault, confines.badDescriptor,
    fun unexposed writes => ?_⟩
  · fun_cases call c args with
    | case1 => exact absurd rfl h
    | case2 => rfl
  · by_cases turnsAway : s.TurnsAway c args
    · obtain refused | rfl := State.refuses_of_unexposed unexposed writes turnsAway
      · exact .inl (confines.fault.2 (.inl refused))
      · exact .inr ⟨rfl, turnsAway⟩
    · obtain ⟨b, hb⟩ := List.exists_mem_of_ne_nil _ writes
      have stuck : ¬ s.Writable b := fun writable => by
        rw [State.Writable, unexposed] at writable
        cases writable.1
      exact .inl (confines.fault.2 (.inr ⟨turnsAway, b, hb, stuck⟩))

theorem confined_clock :
    let s : State := ⟨.zeroed 8, true, .start ""⟩
    clockTimeGet ≠ .procExit ∧ clockTimeGet.WritesOnce ∧
      ∃ (errno : Errno) (t : State), clockTimeGet.call [0, 0, 1] s = .ok errno.code t ∧
        errno = .fault ∧ t.memory = s.memory := by
  intro s
  have once : clockTimeGet.WritesOnce := by simp [WritesOnce]
  have stuck : ¬ s.Writable ⟨1, 8⟩ := fun writable => by
    have fits : s.memory.fits 1 8 = true := writable.2
    revert fits
    decide
  obtain ⟨errno, t, called, _, kept, fault, _⟩ := confined (c := clockTimeGet) nofun [0, 0, 1] s
  have faulty : errno = .fault := fault.2 (.inr ⟨id, ⟨1, 8⟩, List.mem_singleton.2 rfl, stuck⟩)
  exact ⟨nofun, once, errno, t, called, faulty, kept once (by simp [faulty])⟩

end SystemCall

end Doctest.Guest
