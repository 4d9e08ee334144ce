import Doctest.Proofs.Guest.Buffers
import Doctest.Proofs.Guest.ExitCode

/-! The streams of a process over a history: any order of system calls, with any arguments, and with
any change of memory in between. Each call moves bytes between memory and a stream, and the streams
at the end are accounted for by the bytes that were moved on the way. -/

namespace Doctest.Guest

/-- What guest code does to the state: it changes the memory that it exports, and it calls the
system. -/
inductive Action
  | compute : Option Memory → Action
  | call : SystemCall → List UInt32 → Action

def leftBy {σ α : Type} : EStateM.Result Trap σ α → σ
  | .ok _ s => s
  | .error _ s => s

namespace State

def act (s : State) : Action → State
  | .compute memory => .ofMemory memory s.process
  | .call c args => leftBy (c.call args s)

def after (s : State) (h : List Action) : State := h.foldl act s

/-- The bytes that an action sends to an output stream: what the buffers of a write hold, if they
all lie in memory. -/
def sent (s : State) (stream : UInt32) : Action → List UInt8
  | .call .fdWrite [fd, array, count, _] =>
    if fd = stream then ((s.buffers? array count.toNat).getD []).flatMap s.contents else []
  | _ => []

def copies (s : State) : Action → List (UInt32 × List UInt8)
  | .call .fdRead [fd, array, count, _] =>
    if fd = 0 then portions s.pending ((s.buffers? array count.toNat).getD []) else []
  | _ => []

def received (s : State) (a : Action) : List UInt8 := (s.copies a).flatMap (·.2)

def collect (bytes : State → Action → List UInt8) (s : State) : List Action → List UInt8
  | [] => []
  | a :: h => bytes s a ++ (s.act a).collect bytes h

@[simp] theorem after_cons (s : State) (a : Action) (h : List Action) :
    s.after (a :: h) = (s.act a).after h := rfl

theorem after_append (s : State) (h k : List Action) :
    s.after (h ++ k) = (s.after h).after k := List.foldl_append

theorem collect_append (bytes : State → Action → List UInt8) (s : State) (h k : List Action) :
    s.collect bytes (h ++ k) = s.collect bytes h ++ (s.after h).collect bytes k := by
  induction h generalizing s with
  | nil => rfl
  | cons a h ih => simp [collect, ih]

end State

structure Process.Moved (p q : Process) (taken out err : List UInt8) : Prop where
  stdin : q.stdin = p.stdin
  bounded : p.position ≤ p.stdin.length → q.position ≤ q.stdin.length
  taken : q.stdin.take q.position = p.stdin.take p.position ++ taken
  stdout : q.stdout = p.stdout ++ out
  stderr : q.stderr = p.stderr ++ err

namespace Process.Moved

variable {p q r : Process} {taken out err taken' out' err' : List UInt8}

theorem refl (p : Process) : p.Moved p [] [] [] :=
  ⟨rfl, id, (List.append_nil _).symm, (List.append_nil _).symm, (List.append_nil _).symm⟩

theorem of_eq (h : q = p) : p.Moved q [] [] [] := h ▸ refl p

theorem trans (h : p.Moved q taken out err) (k : q.Moved r taken' out' err') :
    p.Moved r (taken ++ taken') (out ++ out') (err ++ err') where
  stdin := k.stdin.trans h.stdin
  bounded hp := k.bounded (h.bounded hp)
  taken := by rw [k.taken, h.taken, List.append_assoc]
  stdout := by rw [k.stdout, h.stdout, List.append_assoc]
  stderr := by rw [k.stderr, h.stderr, List.append_assoc]

end Process.Moved

theorem Process.moved_write? {p q : Process} {fd : UInt32} {bs : List UInt8}
    (h : p.write? fd bs = some q) :
    p.Moved q [] (if fd = 1 then bs else []) (if fd = 2 then bs else []) := by
  rw [write?] at h
  split at h
  · next one =>
    subst one
    cases h
    exact ⟨rfl, id, by simp, rfl, by simp⟩
  · split at h
    · next two =>
      subst two
      cases h
      exact ⟨rfl, id, by simp, by simp, rfl⟩
    · cases h

theorem Process.ne_of_write? {p : Process} {fd : UInt32} {bs : List UInt8}
    (h : p.write? fd bs = none) : fd ≠ 1 ∧ fd ≠ 2 := by
  rw [write?] at h
  split at h
  · cases h
  · split at h
    · cases h
    · next ne₁ ne₂ => exact ⟨ne₁, ne₂⟩

theorem Process.moved_of_prefix {p : Process} {bs : List UInt8}
    (h : bs <+: p.stdin.drop p.position) :
    p.Moved { p with position := p.position + bs.length } bs [] [] where
  stdin := rfl
  bounded hp := by
    have le := h.length_le
    rw [List.length_drop] at le
    simp only
    omega
  taken := by rw [List.take_add, ← List.prefix_iff_eq_take.1 h]
  stdout := (List.append_nil _).symm
  stderr := (List.append_nil _).symm

namespace State

theorem moved_fdWrite (s : State) (fd array count result : UInt32) :
    let a : Action := .call .fdWrite [fd, array, count, result]
    s.process.Moved (s.fdWrite fd array count result).2.process [] (s.sent 1 a) (s.sent 2 a) := by
  intro a
  rw [fdWrite, gathered_eq]
  simp only [a, sent]
  cases s.buffers? array count.toNat with
  | none => simpa using Process.Moved.refl s.process
  | some bs =>
    simp only [Option.map_some, Option.getD_some]
    split
    · next h =>
      obtain ⟨ne₁, ne₂⟩ := Process.ne_of_write? h
      rw [if_neg ne₁, if_neg ne₂]
      exact .refl _
    · next q h =>
      rw [process_writing]
      exact Process.moved_write? h

-- one character split over two buffers; no place is left for the count, but the bytes are out
example :
    let m : Memory := ⟨#[16, 0, 0, 0, 1, 0, 0, 0, 17, 0, 0, 0, 1, 0, 0, 0, 0xC3, 0xA9]⟩
    let r := fdWrite ⟨m, true, .start ""⟩ 1 0 2 18
    r.1 = .fault ∧ r.2.process.stdout = Text.Utf8.encodeString "é" := by
  decide

theorem process_scatter_of_ne {s : State} {fd : UInt32} (hfd : fd ≠ 0) (result total : UInt32)
    (bs : List Buffer) : (s.scatter fd result total bs).2.process = s.process := by
  cases bs with
  | nil => exact process_writing s result _
  | cons b bs => simp [scatter, Process.read?, hfd]

theorem moved_fdRead (s : State) (fd array count result : UInt32) :
    s.process.Moved (s.fdRead fd array count result).2.process
      (s.received (.call .fdRead [fd, array, count, result])) [] [] := by
  simp only [received, copies]
  cases h : s.buffers? array count.toNat with
  | none =>
    rw [fdRead, h]
    simpa [portions] using Process.Moved.refl s.process
  | some bs =>
    by_cases hfd : fd = 0
    · subst hfd
      have next : (portions s.pending bs).flatMap (·.2) <+: s.pending := by
        rw [flatMap_portions]
        exact List.take_prefix _ _
      rw [fdRead_eq h, process_writing, if_pos rfl, Option.getD_some]
      exact Process.moved_of_prefix next
    · rw [fdRead, h, if_neg hfd, process_scatter_of_ne hfd]
      exact .refl _

theorem sent_of_ne {c : SystemCall} {args : List UInt32}
    (h : ∀ fd array count result, c = .fdWrite → args = [fd, array, count, result] → False)
    (s : State) (stream : UInt32) : s.sent stream (.call c args) = [] := by
  rw [sent]
  intro fd array count result same
  cases same
  exact h _ _ _ _ rfl rfl

theorem copies_of_ne {c : SystemCall} {args : List UInt32}
    (h : ∀ fd array count result, c = .fdRead → args = [fd, array, count, result] → False)
    (s : State) : s.copies (.call c args) = [] := by
  rw [copies]
  intro fd array count result same
  cases same
  exact h _ _ _ _ rfl rfl

theorem moved_act (s : State) (a : Action) :
    s.process.Moved (s.act a).process (s.received a) (s.sent 1 a) (s.sent 2 a) := by
  cases a with
  | compute memory => exact .of_eq (process_ofMemory memory s.process)
  | call c args =>
    rw [act]
    fun_cases SystemCall.call c args with
    | case1 code rest => exact ⟨rfl, id, (List.append_nil _).symm, (List.append_nil _).symm,
        (List.append_nil _).symm⟩
    | case2 =>
      simp only [leftBy]
      fun_cases SystemCall.answer s c args with
      | case1 => exact moved_fdWrite ..
      | case2 => exact moved_fdRead ..
      | case3 => exact .of_eq (process_writingBoth ..)
      | case4 => exact .of_eq (process_layOut ..)
      | case5 => exact .of_eq (process_writingBoth ..)
      | case6 => exact .of_eq (process_fdFdstatGet ..)
      | case7 => exact .of_eq (process_writing ..)
      | case8 => exact .of_eq (process_randomGet ..)
      | case9 => exact .refl _
      | case10 => exact .refl _
      | case11 => exact .refl _
      | case12 =>
        simp (disch := assumption) only [received, copies_of_ne, sent_of_ne]
        exact .refl _

theorem moved_after (s : State) (h : List Action) :
    s.process.Moved (s.after h).process (s.collect received h) (s.collect (sent · 1) h)
      (s.collect (sent · 2) h) := by
  induction h generalizing s with
  | nil => exact .refl _
  | cons a h ih => exact (s.moved_act a).trans (ih (s.act a))

/-- What a process holds of its streams after a history, told by the history alone. -/
structure Accounted (s : State) (h : List Action) : Prop where
  stdin : (s.after h).process.stdin = s.process.stdin
  position : (s.after h).process.position ≤ s.process.stdin.length
  received : s.collect received h = s.process.stdin.take (s.after h).process.position
  stdout : (s.after h).process.stdout = s.collect (sent · 1) h
  stderr : (s.after h).process.stderr = s.collect (sent · 2) h

theorem accounted_of_start {s : State} {stdin : String} (hs : s.process = .start stdin)
    (h : List Action) : Accounted s h := by
  have moved := s.moved_after h
  have received := moved.taken
  have position := moved.bounded
  rw [moved.stdin] at position received
  rw [hs] at moved position received
  constructor
  · rw [moved.stdin, hs]
  · rw [hs]
    exact position (Nat.zero_le _)
  · rw [hs]
    exact received.symm
  · exact moved.stdout
  · exact moved.stderr

theorem memory_writing {s : State} (hexposed : s.exposed = true) (address : UInt32)
    (bs : List UInt8) :
    (s.writing address bs).2.memory = (s.memory.write? address.toNat bs).getD s.memory := by
  rw [writing, write?, if_pos hexposed]
  cases s.memory.write? address.toNat bs <;> rfl

theorem memory_act_fdRead {s : State} {array count : UInt32} {bs : List Buffer}
    (h : s.buffers? array count.toNat = some bs) (result : UInt32) :
    let a : Action := .call .fdRead [0, array, count, result]
    let m := s.memory.place (s.copies a)
    (s.act a).memory =
      (m.write? result.toNat (wordBytes (UInt32.ofNat (s.received a).length))).getD m := by
  intro a m
  have copied : s.copies a = portions s.pending bs := by
    simp only [a, copies, if_pos, h, Option.getD_some]
  have act : s.act a = (s.fdRead 0 array count result).2 := rfl
  obtain ⟨exposed, _⟩ := fits_of_buffers? h
  rw [act, fdRead_eq h, ← copied]
  exact memory_writing (s := s.moved (s.copies a)) exposed result _

end State

end Doctest.Guest
