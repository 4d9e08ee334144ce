import Doctest.Schedule.Shard

/-! Workers that share a run. Every worker sets itself up, works through its shard, and sends one
message with what came of it; a worker that failed raises a flag first, and the flag is looked at
before every test. A coordinator takes the messages in the order they were sent: the first failure
ends the run, and otherwise the results are put together once all workers are gone.

A system makes one step of one of these actors at a time, in any order. -/

namespace Doctest.Schedule

/-- Sets up the worker of a shard. The answer runs one test. Both may fail, and a crash is such a
failure too. -/
abbrev Setup (α β ε : Type) := Nat → Except ε (α → Except ε β)

abbrev Outcome (β ε : Type) := Except ε (List (Indexed β))

inductive Worker (α β ε : Type)
  | starting : List (Indexed α) → Worker α β ε
  /-- About to look at the flag before the next test. -/
  | checking : (α → Except ε β) → List (Indexed β) → List (Indexed α) → Worker α β ε
  /-- The flag was down, so the next test is run whatever happens to the flag now. -/
  | running : (α → Except ε β) → List (Indexed β) → Indexed α → List (Indexed α) →
      Worker α β ε
  /-- Done, but the flag is not raised yet for a failure. -/
  | settled : Outcome β ε → Worker α β ε
  | sending : Outcome β ε → Worker α β ε
  | gone : Worker α β ε

inductive RunFailure (ε : Type)
  | shard : Nat → ε → RunFailure ε
  | noResults : Nat → RunFailure ε
  deriving DecidableEq

inductive Coordinator (β ε : Type)
  | receiving : List (Option (List (Indexed β))) → Coordinator β ε
  | finished : Except (RunFailure ε) (List (Indexed β)) → Coordinator β ε

structure System (α β ε : Type) where
  workers : List (Worker α β ε)
  cancelled : Bool
  channel : List (Nat × Outcome β ε)
  coordinator : Coordinator β ε

inductive Actor
  | worker : Nat → Actor
  | coordinator : Actor
  deriving DecidableEq

variable {α β ε : Type}

def System.start (shards : List (List (Indexed α))) : System α β ε where
  workers := shards.map .starting
  cancelled := false
  channel := []
  coordinator := .receiving (shards.map fun _ => none)

def Worker.advance (setup : Setup α β ε) (i : Nat) (cancelled : Bool) :
    Worker α β ε → Option (Worker α β ε)
  | .starting todo =>
    match setup i with
    | .ok run => some (.checking run [] todo)
    | .error e => some (.settled (.error e))
  | .checking _ done [] => some (.settled (.ok done))
  | .checking run done (t :: todo) =>
    if cancelled then some (.settled (.ok done)) else some (.running run done t todo)
  | .running run done t todo =>
    match run t.2 with
    | .ok r => some (.checking run (done ++ [(t.1, r)]) todo)
    | .error e => some (.settled (.error e))
  | .settled _ | .sending _ | .gone => none

def System.stepWorker (setup : Setup α β ε) (s : System α β ε) (i : Nat) :
    Option (System α β ε) := do
  match ← s.workers[i]? with
  | .settled outcome =>
    return { s with
      workers := s.workers.set i (.sending outcome)
      cancelled := s.cancelled || outcome.toOption.isNone }
  | .sending outcome =>
    return { s with
      workers := s.workers.set i .gone
      channel := s.channel ++ [(i, outcome)] }
  | w => return { s with workers := s.workers.set i (← w.advance setup i s.cancelled) }

def Worker.isGone : Worker α β ε → Bool
  | .gone => true
  | _ => false

def collect (n : Nat) : List (Option (List (Indexed β))) →
    Except (RunFailure ε) (List (Indexed β))
  | [] => .ok []
  | none :: _ => .error (.noResults n)
  | some results :: parts => do return results ++ (← collect (n + 1) parts)

/-- The step of the coordinator: it takes a message, or finishes once no more can come. -/
def System.stepCoordinator (s : System α β ε) : Option (System α β ε) :=
  match s.coordinator, s.channel with
  | .finished _, _ => none
  | .receiving parts, (i, .ok results) :: channel =>
    some { s with
      channel
      coordinator := .receiving (parts.set i (some results)) }
  | .receiving _, (i, .error e) :: channel =>
    some { s with
      cancelled := true
      channel
      coordinator := .finished (.error (.shard i e)) }
  | .receiving parts, [] =>
    if s.workers.all (·.isGone) then some { s with coordinator := .finished (collect 0 parts) }
    else none

def System.step (setup : Setup α β ε) (s : System α β ε) : Actor → Option (System α β ε)
  | .worker i => s.stepWorker setup i
  | .coordinator => s.stepCoordinator

def System.Next (setup : Setup α β ε) (s t : System α β ε) : Prop :=
  ∃ a, s.step setup a = some t

/-- The systems that some order of steps leads to. -/
inductive System.Reaches (setup : Setup α β ε) : System α β ε → System α β ε → Prop
  | refl (s : System α β ε) : Reaches setup s s
  | step {s t u : System α β ε} : Reaches setup s t → t.Next setup u → Reaches setup s u

def MayFinish (setup : Setup α β ε) (shards : List (List (Indexed α)))
    (result : Except (RunFailure ε) (List (Indexed β))) : Prop :=
  ∃ s, System.Reaches setup (.start shards) s ∧ s.coordinator = .finished result

def Worker.remaining : Worker α β ε → Nat
  | .starting todo => 2 * todo.length + 4
  | .checking _ _ todo => 2 * todo.length + 3
  | .running _ _ _ todo => 2 * todo.length + 4
  | .settled _ => 2
  | .sending _ => 1
  | .gone => 0

def total {γ : Type} (f : γ → Nat) : List γ → Nat
  | [] => 0
  | a :: l => f a + total f l

def System.stepFirst (setup : Setup α β ε) (s : System α β ε) : Option (System α β ε) :=
  match (List.range s.workers.length).findSome? (s.stepWorker setup) with
  | some t => some t
  | none => s.stepCoordinator

def System.steps (setup : Setup α β ε) : Nat → System α β ε → System α β ε
  | 0, s => s
  | n + 1, s =>
    match s.stepFirst setup with
    | some t => steps setup n t
    | none => s

/-- Runs shards in one of the orders that there are. Every worker sends one message and the
coordinator makes one step more than there are messages. -/
def runShards (setup : Setup α β ε) (shards : List (List (Indexed α))) :
    Except (RunFailure ε) (List (Indexed β)) :=
  let start : System α β ε := .start shards
  let bound := total Worker.remaining start.workers + shards.length + 1
  match (start.steps setup bound).coordinator with
  | .finished result => result
  | .receiving _ => .error (.noResults 0)

theorem System.Reaches.trans {setup : Setup α β ε} {s t u : System α β ε}
    (h₁ : Reaches setup s t) (h₂ : Reaches setup t u) : Reaches setup s u := by
  induction h₂ with
  | refl => exact h₁
  | step _ hn ih => exact ih.step hn

theorem System.next_of_stepFirst {setup : Setup α β ε} {s t : System α β ε}
    (h : s.stepFirst setup = some t) : s.Next setup t := by
  simp only [stepFirst] at h
  split at h
  · next u hu =>
    obtain ⟨i, _, hi⟩ := List.exists_of_findSome?_eq_some hu
    exact ⟨.worker i, by rw [← h]; exact hi⟩
  · exact ⟨.coordinator, h⟩

theorem System.reaches_steps (setup : Setup α β ε) (n : Nat) (s : System α β ε) :
    Reaches setup s (s.steps setup n) := by
  induction n generalizing s with
  | zero => exact .refl s
  | succ n ih =>
    rw [steps]
    split
    · next t ht => exact Reaches.trans (.step (.refl s) (next_of_stepFirst ht)) (ih t)
    · exact .refl s

end Doctest.Schedule
