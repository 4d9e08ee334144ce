import Doctest.Guest.Sandbox
import Doctest.Proofs.Text.ExitPhrase

/-! What is relied on of an engine: linking is by name, code calls the functions that it is linked to
and no others, and the texts of failures name no exit code but by the names of an import. Each result
about runs asks for those of these laws that it needs. -/

namespace Doctest.Guest

open Text.Exit (barren Divides)

namespace Code

variable {α β : Type} {calls calls' : HostFunction → Prop} {traps traps' : String → Prop}

/-- Whatever code is answered on its way, it calls such functions only, its own traps have such
texts, and it ends with such a value. -/
def All (calls : HostFunction → Prop) (traps : String → Prop) (ends : α → Prop) : Code α → Prop
  | .done a => ends a
  | .trap text => traps text
  | .call f _ _ next => calls f ∧ ∀ w m, (next w m).All calls traps ends

theorem All.imp {ends ends' : α → Prop} {code : Code α} (h : code.All calls traps ends)
    (hcalls : ∀ f, calls f → calls' f) (htraps : ∀ text, traps text → traps' text)
    (hends : ∀ a, ends a → ends' a) : code.All calls' traps' ends' := by
  induction code with
  | done a => exact hends a h
  | trap text => exact htraps text h
  | call f args memory next ih => exact ⟨hcalls f h.1, fun w m => ih w m (h.2 w m)⟩

theorem All.imp_calls {ends : α → Prop} {code : Code α} (h : code.All calls traps ends)
    (hcalls : ∀ f, calls f → calls' f) : code.All calls' traps ends :=
  h.imp hcalls (fun _ => id) fun _ => id

theorem All.imp_ends {ends ends' : α → Prop} {code : Code α} (h : code.All calls traps ends)
    (hends : ∀ a, ends a → ends' a) : code.All calls traps ends' :=
  h.imp (fun _ => id) (fun _ => id) hends

theorem All.bind {ends : α → Prop} {ends' : β → Prop} {code : Code α} {next : α → Code β}
    (h : code.All calls traps ends) (hnext : ∀ a, ends a → (next a).All calls traps ends') :
    (code >>= next).All calls traps ends' := by
  induction code with
  | done a => exact hnext a h
  | trap text => exact h
  | call f args memory rest ih => exact ⟨h.1, fun w m => ih w m (h.2 w m)⟩

theorem run_bind (code : Code α) (next : α → Code β) (p : Process) :
    (code >>= next).run p =
      match code.run p with
      | .ok a q => (next a).run q
      | .error t q => .error t q := by
  induction code generalizing p with
  | done a => rfl
  | trap text => rfl
  | call f args memory rest ih =>
    change (Code.call f args memory fun w m => rest w m >>= next).run p = _
    rw [run, run]
    cases f.call args (.ofMemory memory p) with
    | ok w s => exact ih w s.memory? s.process
    | error t s => rfl

end Code

def Host.Offers (h : Host) (f : HostFunction) : Prop := ∃ key, (key, f) ∈ h

theorem Host.mem_of_find? {h : Host} {source name : String} {f : HostFunction}
    (hf : h.find? source name = some f) : ((source, name), f) ∈ h := by
  obtain ⟨⟨key, g⟩, hg, rfl⟩ := Option.map_eq_some_iff.1 hf
  have same : key = (source, name) := by simpa using List.find?_some hg
  rw [← same]
  exact List.mem_of_find?_eq_some hg

def Plain (text : String) : Prop := Text.Exit.find? text.toList = none

/-- A text that gives the two names of an import, between parts that add no phrase to them. -/
def Blames (text : String) (key : String × String) : Prop :=
  ∃ lead tail, text.toList = lead ++ (key.1.toList ++ ("::".toList ++ (key.2.toList ++ tail))) ∧
    barren lead = true ∧ Divides tail ∧ Text.Exit.find? tail = none

variable [Engine]

theorem export?_of_startFunction? {i : Engine.Instance} {code : Code (Answer × Engine.Instance)}
    (h : startFunction? i = some code) :
    Engine.export? i startName = some (.function ⟨[], []⟩ code) := by
  rw [startFunction?] at h
  split at h
  · next type code' hexport =>
    split at h
    · next same =>
      cases h
      rw [hexport, same]
    · cases h
  · cases h

theorem run_processCode (i : Engine.Instance) (p : Process) :
    (processCode i).run p =
      match (Engine.start i).run p with
      | .error t q => .error t q
      | .ok j q =>
        match startFunction? j with
        | none => .ok (some s!"export `{startName}` not found") q
        | some code =>
          match code.run q with
          | .error t r => .error t r
          | .ok _ r => .ok none r := by
  rw [processCode, Code.run_bind]
  cases (Engine.start i).run p with
  | error t q => rfl
  | ok j q =>
    simp only
    cases startFunction? j with
    | none => rfl
    | some code =>
      simp only
      rw [Code.run_bind]
      cases code.run q <;> rfl

/-- Every import of an instance was found on its host, and what else the host offers is without
effect. -/
structure LinksByName : Prop where
  found {h : Host} {m : Engine.Module} {i : Engine.Instance} :
    Engine.instantiate h m = .ok i →
      ∀ key ∈ Engine.imports m, ∃ f, h.find? key.1 key.2 = some f
  agrees {h g : Host} {m : Engine.Module} :
    (∀ key ∈ Engine.imports m, h.find? key.1 key.2 = g.find? key.1 key.2) →
      Engine.instantiate h m = Engine.instantiate g m

/-- An instance calls functions of the host that it was made on. -/
def CallsItsHost : Prop :=
  ∀ (h : Host) (m : Engine.Module) (i : Engine.Instance), Engine.instantiate h m = .ok i →
    (Engine.start i).All h.Offers (fun _ => True) fun j =>
      ∀ name type code, Engine.export? j name = some (.function type code) →
        code.All h.Offers (fun _ => True) fun _ => True

/-- The texts of traps are fixed ones, and those of failed instantiations are too but for the names
of an import that they are about. -/
structure NamesNoCode : Prop where
  start (i : Engine.Instance) : (Engine.start i).All (fun _ => True) Plain fun _ => True
  function {i : Engine.Instance} {name : String} {type : FunctionType}
    {code : Code (Answer × Engine.Instance)} :
    Engine.export? i name = some (.function type code) →
      code.All (fun _ => True) Plain fun _ => True
  instantiate {h : Host} {m : Engine.Module} {e : String} :
    Engine.instantiate h m = .error e → Plain e ∨ ∃ key ∈ Engine.imports m, Blames e key

end Doctest.Guest
