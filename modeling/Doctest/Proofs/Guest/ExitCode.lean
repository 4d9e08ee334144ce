import Doctest.Guest.Engine

namespace Doctest.Guest

namespace State

theorem process_write? {s t : State} {address : UInt32} {bs : List UInt8}
    (h : s.write? address bs = some t) : t.process = s.process := by
  rw [write?] at h
  split at h
  · obtain ⟨m, _, rfl⟩ := Option.map_eq_some_iff.1 h
    rfl
  · cases h

theorem process_writing (s : State) (address : UInt32) (bs : List UInt8) :
    (s.writing address bs).2.process = s.process := by
  rw [writing]
  cases h : s.write? address bs with
  | none => rfl
  | some t => exact process_write? h

theorem process_writingBoth (s : State) (a : UInt32) (as : List UInt8) (b : UInt32)
    (bs : List UInt8) : (s.writingBoth a as b bs).2.process = s.process := by
  rw [writingBoth]
  cases h : s.write? a as with
  | none => rfl
  | some t => exact (process_writing t b bs).trans (process_write? h)

theorem process_layOut (s : State) (array buffer : UInt32) (args : List (List UInt8)) :
    (s.layOut array buffer args).2.process = s.process := by
  induction args generalizing s array buffer with
  | nil => rfl
  | cons arg args ih =>
    have both := process_writingBoth s array (wordBytes buffer) buffer arg
    rw [layOut]
    split
    · next t h =>
      rw [h] at both
      exact (ih t _ _).trans both
    · exact both

theorem process_randomGet (s : State) (address length : UInt32) :
    (s.randomGet address length).2.process = s.process := by
  rw [randomGet]
  split
  · exact process_writing s address _
  · rfl

theorem process_fdFdstatGet (s : State) (fd result : UInt32) :
    (s.fdFdstatGet fd result).2.process = s.process := by
  rw [fdFdstatGet]
  split
  · exact process_writing s result _
  · rfl

end State

theorem Process.exitCode_write? {p q : Process} {fd : UInt32} {bs : List UInt8}
    (h : p.write? fd bs = some q) : q.exitCode = p.exitCode := by
  rw [write?] at h
  split at h
  · cases h
    rfl
  · split at h
    · cases h
      rfl
    · cases h

theorem Process.exitCode_read? {p q : Process} {fd : UInt32} {length : Nat} {bs : List UInt8}
    (h : p.read? fd length = some (bs, q)) : q.exitCode = p.exitCode := by
  rw [read?] at h
  split at h
  · cases h
    rfl
  · cases h

namespace State

theorem exitCode_fdWrite (s : State) (fd array count result : UInt32) :
    (s.fdWrite fd array count result).2.process.exitCode = s.process.exitCode := by
  rw [fdWrite]
  split
  · rfl
  · split
    · rfl
    · next p hp =>
      rw [process_writing]
      exact Process.exitCode_write? hp

theorem exitCode_scatter (s : State) (fd result total : UInt32) (bs : List Buffer) :
    (s.scatter fd result total bs).2.process.exitCode = s.process.exitCode := by
  induction bs generalizing s total with
  | nil => rw [scatter, process_writing]
  | cons b bs ih =>
    rw [scatter]
    split
    · rfl
    · next chunk p hp =>
      have kept := Process.exitCode_read? hp
      split
      · exact kept
      · next t ht =>
        have filled : t.process = p := process_write? ht
        have rest := ih t (total + UInt32.ofNat chunk.length)
        rw [filled, kept] at rest
        simp only
        split
        · rw [process_writing, filled, kept]
        · exact rest

theorem exitCode_fdRead (s : State) (fd array count result : UInt32) :
    (s.fdRead fd array count result).2.process.exitCode = s.process.exitCode := by
  rw [fdRead]
  split
  · rfl
  · exact exitCode_scatter ..

end State

theorem SystemCall.exitCode_answer (c : SystemCall) (s : State) (args : List UInt32) :
    (c.answer s args).2.process.exitCode = s.process.exitCode := by
  fun_cases answer s c args with
  | case1 => exact State.exitCode_fdWrite ..
  | case2 => exact State.exitCode_fdRead ..
  | case3 => rw [State.argsSizesGet, State.process_writingBoth]
  | case4 => rw [State.argsGet, State.process_layOut]
  | case5 => rw [State.environSizesGet, State.process_writingBoth]
  | case6 => rw [State.process_fdFdstatGet]
  | case7 => rw [State.clockTimeGet, State.process_writing]
  | case8 => rw [State.process_randomGet]
  | _ => rfl

def Trap.exitCode? : Trap → Option Int32
  | .exited n => some n
  | _ => none

theorem SystemCall.exitCode_call (c : SystemCall) (args : List UInt32) {s : State}
    (hs : s.process.exitCode = none) :
    match c.call args s with
    | .ok _ t => t.process.exitCode = none
    | .error e t => t.process.exitCode = e.exitCode? := by
  fun_cases call c args with
  | case1 code rest => rfl
  | case2 =>
    have kept := c.exitCode_answer s args
    simp only
    exact kept.trans hs

theorem HostFunction.exitCode_call (f : HostFunction) (args : List UInt32) {s : State}
    (hs : s.process.exitCode = none) :
    match f.call args s with
    | .ok _ t => t.process.exitCode = none
    | .error e t => t.process.exitCode = e.exitCode? := by
  cases f with
  | system c => exact c.exitCode_call args hs
  | printInt => exact hs
  | printString =>
    rw [call]
    fun_cases Guest.printString args s with
    | case1 => exact hs
    | case2 => exact hs
    | case3 => exact hs

theorem Code.exitCode_run {α : Type} (code : Code α) {p : Process} (hp : p.exitCode = none) :
    match code.run p with
    | .ok _ q => q.exitCode = none
    | .error e q => q.exitCode = e.exitCode? := by
  induction code generalizing p with
  | done a => exact hp
  | trap text => exact hp
  | call f args memory next ih =>
    have start : (State.ofMemory memory p).process.exitCode = none := by
      rw [State.process_ofMemory, hp]
    have called := f.exitCode_call args start
    rw [run]
    cases h : f.call args (.ofMemory memory p) with
    | ok w s =>
      rw [h] at called
      exact ih w s.memory? called
    | error e s =>
      rw [h] at called
      exact called

end Doctest.Guest
