import Doctest.Proofs.Guest.Laws

/-! Machines that go step by step, with loops and recursion, and perhaps for ever. Cut off behind any
number of steps they are engines, and for every run that ends there are numbers enough. So whatever
holds of all engines holds of these machines, as far as their runs go. -/

namespace Doctest.Guest

inductive Move (σ α : Type)
  | done : α → Move σ α
  | trap : String → Move σ α
  | silent : σ → Move σ α
  | call : HostFunction → List UInt32 → Option Memory → (UInt32 → Option Memory → σ) → Move σ α

def cutOff : String := "cut off"

theorem plain_cutOff : Plain cutOff := Text.Exit.find?_of_barren (by decide)

namespace Code

variable {σ α : Type}

def upTo (step : σ → Move σ α) : Nat → σ → Code α
  | 0, _ => .trap cutOff
  | n + 1, s =>
    match step s with
    | .done a => .done a
    | .trap text => .trap text
    | .silent t => upTo step n t
    | .call f args memory next => .call f args memory fun w m => upTo step n (next w m)

inductive Ends (step : σ → Move σ α) : σ → Process → EStateM.Result Trap Process α → Prop
  | done {s p a} : step s = .done a → Ends step s p (.ok a p)
  | trap {s p text} : step s = .trap text → Ends step s p (.error (.own text) p)
  | silent {s t p r} : step s = .silent t → Ends step t p r → Ends step s p r
  | call {s p f args memory next w u r} : step s = .call f args memory next →
      f.call args (.ofMemory memory p) = .ok w u → Ends step (next w u.memory?) u.process r →
        Ends step s p r
  | fails {s p f args memory next e u} : step s = .call f args memory next →
      f.call args (.ofMemory memory p) = .error e u → Ends step s p (.error e u.process)

variable {step : σ → Move σ α}

theorem run_upTo {s : σ} {p : Process} {r : EStateM.Result Trap Process α}
    (h : Ends step s p r) : ∃ n, ∀ k, n ≤ k → (upTo step k s).run p = r := by
  -- one step more is needed than for the rest of the run
  have more {n : Nat} {P : Nat → Prop} (hP : ∀ k, n ≤ k → P (k + 1)) : ∃ n, ∀ k, n ≤ k → P k := by
    refine ⟨n + 1, fun k hk => ?_⟩
    cases k with
    | zero => omega
    | succ k => exact hP k (by omega)
  induction h with
  | done hs => exact more (n := 0) fun k _ => by rw [upTo, hs, run]
  | trap hs => exact more (n := 0) fun k _ => by rw [upTo, hs, run]
  | silent hs _ ih =>
    obtain ⟨n, hn⟩ := ih
    exact more fun k hk => by rw [upTo, hs]; exact hn k hk
  | call hs hcall _ ih =>
    obtain ⟨n, hn⟩ := ih
    exact more fun k hk => by rw [upTo, hs]; simp only [run, hcall]; exact hn k hk
  | fails hs hcall => exact more (n := 0) fun k _ => by rw [upTo, hs]; simp only [run, hcall]

theorem ends_of_run_upTo {n : Nat} {s : σ} {p : Process} {r : EStateM.Result Trap Process α}
    (h : (upTo step n s).run p = r) (whole : ∀ q, r ≠ .error (.own cutOff) q) :
    Ends step s p r := by
  induction n generalizing s p with
  | zero => exact absurd h.symm (whole p)
  | succ n ih =>
    rw [upTo] at h
    cases hs : step s with
    | done a =>
      rw [hs] at h
      exact h ▸ .done hs
    | trap text =>
      rw [hs] at h
      exact h ▸ .trap hs
    | silent t =>
      rw [hs] at h
      exact .silent hs (ih h)
    | call f args memory next =>
      rw [hs] at h
      simp only [run] at h
      cases hcall : f.call args (.ofMemory memory p) with
      | ok w u =>
        rw [hcall] at h
        exact .call hs hcall (ih h)
      | error e u =>
        rw [hcall] at h
        exact h ▸ .fails hs hcall

/-- What every step keeps holds along the run, however long it is and whatever is answered. -/
def Kept (calls : HostFunction → Prop) (traps : String → Prop) (ends : α → Prop) (holds : σ → Prop)
    (step : σ → Move σ α) : Prop :=
  ∀ s, holds s →
    match step s with
    | .done a => ends a
    | .trap text => traps text
    | .silent t => holds t
    | .call f _ _ next => calls f ∧ ∀ w m, holds (next w m)

theorem Kept.all_upTo {calls : HostFunction → Prop} {traps : String → Prop} {ends : α → Prop}
    {holds : σ → Prop} (h : Kept calls traps ends holds step) (interrupted : traps cutOff) {s : σ}
    (hs : holds s) (n : Nat) : (upTo step n s).All calls traps ends := by
  induction n generalizing s with
  | zero => exact interrupted
  | succ n ih =>
    have now := h s hs
    rw [upTo]
    cases hstep : step s with
    | done a =>
      rw [hstep] at now
      exact now
    | trap text =>
      rw [hstep] at now
      exact now
    | silent t =>
      rw [hstep] at now
      exact ih now
    | call f args memory next =>
      rw [hstep] at now
      exact ⟨now.1, fun w m => ih (now.2 w m)⟩

end Code

structure Stepper where
  Module : Type
  Instance : Type
  State : Type
  load : List UInt8 → Except String Module
  imports : Module → List (String × String)
  instantiate : Host → Module → Except String Instance
  start : Instance → State
  step : State → Move State (Answer × Instance)
  export? : Instance → String → Option (Option (FunctionType × State))
  memory? : Instance → String → Option Memory

namespace Stepper

variable {e : Stepper}

def exported (e : Stepper) (n : Nat) : Option (FunctionType × e.State) → Export e.Instance
  | some (type, s) => .function type (Code.upTo e.step n s)
  | none => .other

abbrev engine (e : Stepper) (n : Nat) : Engine where
  Module := e.Module
  Instance := e.Instance
  load := e.load
  imports := e.imports
  instantiate := e.instantiate
  start i := do return (← Code.upTo e.step n (e.start i)).2
  export? i name := (e.export? i name).map (e.exported n)
  memory? := e.memory?

structure Obeys (e : Stepper) (calls : HostFunction → Prop) (traps : String → Prop)
    (made : e.Instance → Prop) (holds : e.State → Prop) : Prop where
  step : Code.Kept calls traps (made ·.2) holds e.step
  start {i : e.Instance} : made i → holds (e.start i)
  function {i : e.Instance} {name : String} {type : FunctionType} {s : e.State} :
    made i → e.export? i name = some (some (type, s)) → holds s

section

variable {calls : HostFunction → Prop} {traps : String → Prop} {made : e.Instance → Prop}
  {holds : e.State → Prop}

theorem Obeys.all_start (h : e.Obeys calls traps made holds) (interrupted : traps cutOff) (n : Nat)
    {i : e.Instance} (hi : made i) : ((e.engine n).start i).All calls traps made :=
  (h.step.all_upTo interrupted (h.start hi) n).bind fun _ hr => hr

theorem Obeys.all_function (h : e.Obeys calls traps made holds) (interrupted : traps cutOff)
    {n : Nat} {i : e.Instance} (hi : made i) {name : String} {type : FunctionType}
    {code : Code (Answer × e.Instance)}
    (hexport : (e.engine n).export? i name = some (.function type code)) :
    code.All calls traps (made ·.2) := by
  obtain ⟨found, hfound, same⟩ := Option.map_eq_some_iff.1 hexport
  cases found with
  | none => cases same
  | some function =>
    cases same
    exact h.step.all_upTo interrupted (h.function hi hfound) n

end

theorem callsItsHost
    (h : ∀ host m i, e.instantiate host m = .ok i →
      ∃ made holds, e.Obeys host.Offers (fun _ => True) made holds ∧ made i) (n : Nat) :
    @CallsItsHost (e.engine n) := by
  intro host m i hi
  obtain ⟨made, holds, obeys, hmade⟩ := h host m i hi
  refine (obeys.all_start trivial n hmade).imp_ends ?_
  intro j hj name type code hexport
  exact (obeys.all_function trivial hj hexport).imp_ends fun _ _ => trivial

theorem namesNoCode {holds : e.State → Prop}
    (h : e.Obeys (fun _ => True) Plain (fun _ => True) holds)
    (refused : ∀ host m text, e.instantiate host m = .error text →
      Plain text ∨ ∃ key ∈ e.imports m, Blames text key) (n : Nat) :
    @NamesNoCode (e.engine n) :=
  letI := e.engine n
  { start := fun _ => h.all_start plain_cutOff n trivial
    function := fun hexport =>
      (h.all_function plain_cutOff trivial hexport).imp_ends fun _ _ => trivial
    instantiate := fun he => refused _ _ _ he }

def withoutAnswer {ι : Type} :
    EStateM.Result Trap Process (Answer × ι) → EStateM.Result Trap Process ι
  | .ok (_, i) p => .ok i p
  | .error t p => .error t p

theorem run_start {i : e.Instance} {p : Process}
    {r : EStateM.Result Trap Process (Answer × e.Instance)} (h : Code.Ends e.step (e.start i) p r) :
    ∃ n, ∀ k, n ≤ k → ((e.engine k).start i).run p = withoutAnswer r := by
  obtain ⟨n, hn⟩ := Code.run_upTo h
  refine ⟨n, fun k hk => ?_⟩
  change (Code.upTo e.step k (e.start i) >>= fun a => pure a.2).run p = _
  rw [Code.run_bind, hn k hk]
  cases r <;> rfl

def startState? (e : Stepper) (i : e.Instance) : Option e.State :=
  match e.export? i startName with
  | some (some (type, s)) => if type = ⟨[], []⟩ then some s else none
  | _ => none

theorem startFunction?_engine (n : Nat) (i : e.Instance) :
    @startFunction? (e.engine n) i = (e.startState? i).map (Code.upTo e.step n) := by
  have same : @Engine.export? (e.engine n) i startName =
      (e.export? i startName).map (e.exported n) := rfl
  unfold startFunction? startState?
  rw [same]
  match e.export? i startName with
  | none => rfl
  | some none => rfl
  | some (some (type, s)) =>
    by_cases h : type = ⟨[], []⟩
    · simp [exported, h]
    · simp [exported, h]

/-- An instance comes to an end, in its start and in its start function if it gets there. -/
def Halts (e : Stepper) (i : e.Instance) (p : Process) : Prop :=
  ∃ r, Code.Ends e.step (e.start i) p r ∧ ∀ a j q s, r = .ok (a, j) q → e.startState? j = some s →
    ∃ r', Code.Ends e.step s q r'

theorem Halts.run_processCode {i : e.Instance} {p : Process} (h : e.Halts i p) :
    ∃ n, ∀ k, n ≤ k →
      (@processCode (e.engine k) i).run p = (@processCode (e.engine n) i).run p := by
  obtain ⟨r, hr, hmain⟩ := h
  obtain ⟨n, hn⟩ := run_start hr
  cases r with
  | error t q =>
    refine ⟨n, fun k hk => ?_⟩
    rw [@Guest.run_processCode (e.engine k), @Guest.run_processCode (e.engine n), hn k hk,
      hn n (Nat.le_refl n)]
    rfl
  | ok r q =>
    obtain ⟨a, j⟩ := r
    cases hs : e.startState? j with
    | none =>
      refine ⟨n, fun k hk => ?_⟩
      rw [@Guest.run_processCode (e.engine k), @Guest.run_processCode (e.engine n), hn k hk,
        hn n (Nat.le_refl n)]
      simp only [withoutAnswer, startFunction?_engine, hs, Option.map_none]
    | some s =>
      obtain ⟨r', hr'⟩ := hmain a j q s rfl hs
      obtain ⟨n', hn'⟩ := Code.run_upTo hr'
      refine ⟨max n n', fun k hk => ?_⟩
      rw [@Guest.run_processCode (e.engine k), @Guest.run_processCode (e.engine (max n n')),
        hn k (by omega), hn (max n n') (by omega)]
      simp only [withoutAnswer, startFunction?_engine, hs, Option.map_some, hn' k (by omega),
        hn' (max n n') (by omega)]
      cases r' <;> rfl

/-- A sandboxed run that ends has one outcome, behind whatever number of steps the code is cut off,
if only it gets there. -/
theorem Halts.runSandboxed {m : e.Module} {i : e.Instance} {stdin : String}
    (hi : e.instantiate systemHost m = .ok i) (h : e.Halts i (.start stdin)) :
    ∃ n, ∀ k, n ≤ k → @Image.runSandboxed (e.engine k) (.ok m) stdin =
      @Image.runSandboxed (e.engine n) (.ok m) stdin := by
  obtain ⟨n, hn⟩ := h.run_processCode
  have made (k : Nat) : @Engine.instantiate (e.engine k) systemHost m = .ok i := hi
  refine ⟨n, fun k hk => ?_⟩
  simp only [Image.runSandboxed, course, made, hn k hk]

end Stepper

end Doctest.Guest
