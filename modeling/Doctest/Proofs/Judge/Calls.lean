import Doctest.Execute

namespace Doctest

namespace Compiler

inductive EntryPoint
  | plain : EntryPoint
  | profile : String → EntryPoint
  deriving DecidableEq

def EntryPoint.ofProfile : Option String → EntryPoint
  | none => .plain
  | some p => .profile p

structure Call where
  point : EntryPoint
  source : String
  deriving DecidableEq

def Loaded.point (c : Loaded) : EntryPoint :=
  match c.profile, c.capabilities.compileFor with
  | some p, some _ => .profile p
  | _, _ => .plain

/-- Entry points that answer alike where this one is asked, and may differ in all others. -/
def Capabilities.Alike (point : EntryPoint) (c c' : Capabilities) : Prop :=
  match point with
  | .plain => c.compile = c'.compile
  | .profile p => c.compileFor.map (· p) = c'.compileFor.map (· p)

theorem withProfile_alike {profile : Option String} {c c' : Capabilities}
    (h : c.Alike (.ofProfile profile) c') (pair : ArtifactPair) :
    (∃ e, Loaded.withProfile ⟨pair, c, none⟩ profile = .error e ∧
      Loaded.withProfile ⟨pair, c', none⟩ profile = .error e) ∨
    ∃ d d', Loaded.withProfile ⟨pair, c, none⟩ profile = .ok d ∧
      Loaded.withProfile ⟨pair, c', none⟩ profile = .ok d' ∧ d.compile = d'.compile := by
  obtain ⟨compile, compileFor⟩ := c
  obtain ⟨compile', compileFor'⟩ := c'
  cases profile with
  | none => exact .inr ⟨_, _, rfl, rfl, h⟩
  | some p =>
    cases compileFor with
    | none =>
      cases compileFor' with
      | none => exact .inl ⟨_, rfl, rfl⟩
      | some f' => cases h
    | some f =>
      cases compileFor' with
      | none => cases h
      | some f' => exact .inr ⟨_, _, rfl, rfl, Option.some.inj h⟩

structure CapabilitiesIn (m : Type → Type) where
  compile : String → m Compiled
  compileFor : Option (String → String → m Compiled)

def CapabilitiesIn.compileWith {m : Type → Type} (c : CapabilitiesIn m) (profile : Option String)
    (source : String) : m Compiled :=
  match profile, c.compileFor with
  | some profile, some compile => compile profile source
  | _, _ => c.compile source

namespace Capabilities

def silent (c : Capabilities) : CapabilitiesIn Id := ⟨c.compile, c.compileFor⟩

def recording (c : Capabilities) : CapabilitiesIn (StateM (List Call)) where
  compile source := do
    modify (· ++ [⟨.plain, source⟩])
    return c.compile source
  compileFor := c.compileFor.map fun compile profile source => do
    modify (· ++ [⟨.profile profile, source⟩])
    return compile profile source

end Capabilities

theorem compileWith_silent (c : Loaded) (source : String) :
    c.capabilities.silent.compileWith c.profile source = c.compile source := by
  obtain ⟨pair, ⟨compile, compileFor⟩, profile⟩ := c
  cases profile <;> cases compileFor <;> rfl

theorem compileWith_recording (c : Loaded) (source : String) (calls : List Call) :
    (c.capabilities.recording.compileWith c.profile source).run calls =
      (c.compile source, calls ++ [⟨c.point, source⟩]) := by
  obtain ⟨pair, ⟨compile, compileFor⟩, profile⟩ := c
  cases profile <;> cases compileFor <;> rfl

end Compiler

open Guest (Engine)
open Compiler (Call CapabilitiesIn Compiled EntryPoint Loaded)

namespace TestCase

def skipped (t : TestCase) : TestResult := ⟨t, .pass "skipped", none⟩

def calls (t : TestCase) (point : EntryPoint) : List Call :=
  if t.attributes.has .skip then [] else [⟨point, t.code⟩]

variable [Engine]

def settle (t : TestCase) (entry : String) : Compiled → Except Crash TestResult
  | .error (.crash message) => .error ⟨message⟩
  | .error (.error e) =>
    let (verdict, runtime) := t.judgeCompiled entry (.error e)
    .ok ⟨t, verdict, runtime⟩
  | .ok bytes =>
    let (verdict, runtime) := t.judgeCompiled entry (.ok (Engine.load bytes))
    .ok ⟨t, verdict, runtime⟩

theorem run_eq (t : TestCase) (c : Loaded) (entry : String) : t.run c entry =
    if t.attributes.has .skip then .ok t.skipped else t.settle entry (c.compile t.code) := by
  rw [run, judge]
  split
  · rfl
  · cases c.compile t.code with
    | ok bytes => rfl
    | error fault => cases fault <;> rfl

def runIn {m : Type → Type} [Monad m] (t : TestCase) (c : CapabilitiesIn m)
    (profile : Option String) (entry : String) : m (Except Crash TestResult) :=
  if t.attributes.has .skip then return .ok t.skipped
  else do return t.settle entry (← c.compileWith profile t.code)

theorem runIn_silent (t : TestCase) (c : Loaded) (entry : String) :
    t.runIn c.capabilities.silent c.profile entry = t.run c entry := by
  rw [run_eq, runIn]
  split
  · rfl
  · exact congrArg (t.settle entry) (Compiler.compileWith_silent c t.code)

theorem runIn_recording (t : TestCase) (c : Loaded) (entry : String) (before : List Call) :
    (t.runIn c.capabilities.recording c.profile entry).run before =
      (t.run c entry, before ++ t.calls c.point) := by
  rw [run_eq, runIn, calls]
  split
  · rw [List.append_nil]
    rfl
  · rw [StateT.run_bind, Compiler.compileWith_recording]
    rfl

theorem run_congr {c c' : Loaded} (h : c.compile = c'.compile) (t : TestCase) (entry : String) :
    t.run c entry = t.run c' entry := by
  rw [run_eq, run_eq, h]

end TestCase

end Doctest
