import Doctest.Judge
import Doctest.Proofs.Guest.ExitCode
import Doctest.Proofs.Guest.Miniature

/-! How sandboxed runs end, and what is made of it. A run that failed is told of by a text, and its
exit code is read off that text; what a program can write into the text are the names of an import
that it is refused. -/

namespace Doctest

namespace Guest

open Text.Exit (barren divides_colons find?_append_of_barren)

inductive Failure
  | invalid : String → Failure
  | uninstantiated : String → Failure
  | noStart : Failure
  | trapped : Trap → Failure

inductive Ending
  | returned : Ending
  | exited : Int32 → Ending
  | failed : Failure → Ending

def Trap.ending : Trap → Ending
  | .exited n => .exited n
  | t => .failed (.trapped t)

def Failure.message : Failure → String
  | .invalid e => "invalid module: " ++ e
  | .uninstantiated e => "instantiation failed: " ++ e
  | .noStart => s!"export `{startName}` not found"
  | .trapped t => t.message

def Failure.exitCode : Failure → Int32
  | .uninstantiated e => exitCodeOf e.toList
  | _ => 1

def Ending.reported : Ending → Int32 × Option String
  | .returned => (0, none)
  | .exited n => (n, none)
  | .failed f => (f.exitCode, some f.message)

def SandboxOutcome.reported (o : SandboxOutcome) : Int32 × Option String := (o.exitCode, o.trapped)

/-- The code that the names of an import give away, if one of them holds the phrase for one. -/
def namedCode (key : String × String) : Int32 :=
  if (Text.Exit.find? key.1.toList).isSome then exitCodeOf key.1.toList
  else exitCodeOf key.2.toList

theorem exitCodeOf_of_plain {text : String} (h : Plain text) : exitCodeOf text.toList = 1 := by
  rw [exitCodeOf, h]

theorem exitCodeOf_uninstantiated (e : String) :
    exitCodeOf (Failure.uninstantiated e).message.toList = exitCodeOf e.toList := by
  have lead : barren "instantiation failed: ".toList = true := by decide
  have parts : (Failure.uninstantiated e).message.toList =
      "instantiation failed: ".toList ++ e.toList := String.toList_append
  have found := find?_append_of_barren e.toList lead
  rw [← parts] at found
  simp only [exitCodeOf, found]

theorem Blames.find? {e : String} {key : String × String} (h : Blames e key) :
    Text.Exit.find? e.toList =
      (Text.Exit.find? key.1.toList <|> Text.Exit.find? key.2.toList) := by
  obtain ⟨lead, tail, parts, hlead, divides, htail⟩ := h
  have colons : barren "::".toList = true := by decide
  have name : Text.Exit.find? (key.2.toList ++ tail) = Text.Exit.find? key.2.toList := by
    rw [divides.find?_append, htail]
    simp
  have rest : Text.Exit.Divides ("::".toList ++ (key.2.toList ++ tail)) := divides_colons _
  rw [parts, find?_append_of_barren _ hlead, rest.find?_append, find?_append_of_barren _ colons,
    name]

theorem Blames.exitCodeOf {e : String} {key : String × String} (h : Blames e key) :
    exitCodeOf e.toList = namedCode key := by
  rw [Guest.exitCodeOf, h.find?, namedCode, Guest.exitCodeOf, Guest.exitCodeOf]
  cases Text.Exit.find? key.1.toList <;> rfl

theorem HostFunction.call_ne_own (f : HostFunction) (args : List UInt32) (s t : State)
    (text : String) : f.call args s ≠ .error (.own text) t := by
  cases f with
  | system c =>
    rw [call]
    fun_cases SystemCall.call c args with
    | case1 code rest => simp [SystemCall.exit]
    | case2 => simp
  | printInt => simp [call, Guest.printInt]
  | printString =>
    rw [call]
    fun_cases Guest.printString args s with
    | case1 => simp
    | case2 => simp
    | case3 => simp

namespace Code

theorem own_of_run {calls : HostFunction → Prop} {traps : String → Prop} {ends : α → Prop}
    {code : Code α} (hcode : code.All calls traps ends) {p q : Process} {text : String}
    (h : code.run p = .error (.own text) q) : traps text := by
  induction code generalizing p with
  | done a => cases h
  | trap text' =>
    cases h
    exact hcode
  | call f args memory next ih =>
    rw [run] at h
    split at h
    · next w s _ => exact ih w s.memory? (hcode.2 w s.memory?) h
    · next e s called =>
      cases h
      exact absurd called (f.call_ne_own args _ _ text)

end Code

theorem Course.reported_of_failed {message : String} {p : Process} (hp : p.exitCode = none) :
    (Course.outcome ⟨some message, p⟩).reported = (exitCodeOf message.toList, some message) := by
  simp only [Course.outcome, hp, SandboxOutcome.reported]

theorem Course.reported_of_trap {t : Trap} {p : Process} (hp : p.exitCode = t.exitCode?)
    (texts : ∀ text, t = .own text → Plain text) :
    (Course.outcome ⟨some t.message, p⟩).reported = t.ending.reported := by
  cases t with
  | exited n => simp only [Course.outcome, hp, Trap.exitCode?, SandboxOutcome.reported,
      Trap.ending, Ending.reported]
  | own text =>
    have one := exitCodeOf_of_plain (texts text rfl)
    exact (reported_of_failed hp).trans (congrArg (·, some text) one)
  | printedNoMemory => exact reported_of_failed hp
  | printedOutOfBounds => exact reported_of_failed hp

theorem Trap.ending_ne_uninstantiated (t : Trap) (e : String) :
    t.ending ≠ .failed (.uninstantiated e) := by
  cases t <;> simp [ending]

section

variable [Engine]

def instanceEnding (i : Engine.Instance) (p : Process) : Ending :=
  match (Engine.start i).run p with
  | .error t _ => t.ending
  | .ok i p =>
    match startFunction? i with
    | none => .failed .noStart
    | some code =>
      match code.run p with
      | .error t _ => t.ending
      | .ok _ _ => .returned

def Image.ending (image : Image) (stdin : String) : Ending :=
  match image with
  | .error e => .failed (.invalid e)
  | .ok m =>
    match Engine.instantiate systemHost m with
    | .error e => .failed (.uninstantiated e)
    | .ok i => instanceEnding i (.start stdin)

theorem Image.ending_of_error {m : Engine.Module} {e : String}
    (h : Engine.instantiate systemHost m = .error e) (stdin : String) :
    Image.ending (.ok m) stdin = .failed (.uninstantiated e) := by
  rw [ending, h]

/-- The failure is that the module was refused an import that it asks for. -/
def Failure.Refuses (f : Failure) (image : Image) (key : String × String) : Prop :=
  ∃ m e, image = .ok m ∧ f = .uninstantiated e ∧ key ∈ Engine.imports m ∧ Blames e key

theorem reported_processCode (texts : NamesNoCode) (i : Engine.Instance) {p : Process}
    (hp : p.exitCode = none) :
    (match (processCode i).run p with
      | .ok error q => Course.outcome ⟨error, q⟩
      | .error t q => Course.outcome ⟨some t.message, q⟩).reported =
        (instanceEnding i p).reported := by
  have start := (Engine.start i).exitCode_run hp
  rw [run_processCode, instanceEnding]
  cases hs : (Engine.start i).run p with
  | error t q =>
    rw [hs] at start
    exact Course.reported_of_trap start fun text own => Code.own_of_run (texts.start i) (own ▸ hs)
  | ok j q =>
    rw [hs] at start
    simp only
    cases hmain : startFunction? j with
    | none => exact Course.reported_of_failed start
    | some code =>
      have main := code.exitCode_run start
      simp only
      cases hr : code.run q with
      | error t r =>
        rw [hr] at main
        exact Course.reported_of_trap main fun text own =>
          Code.own_of_run (texts.function (export?_of_startFunction? hmain)) (own ▸ hr)
      | ok answer r =>
        rw [hr] at main
        have unset : r.exitCode = none := main
        simp only [Course.outcome, unset, SandboxOutcome.reported, Ending.reported]

theorem Image.reported_runSandboxed (texts : NamesNoCode) (image : Image) (stdin : String) :
    (image.runSandboxed stdin).reported = (image.ending stdin).reported := by
  cases image with
  | error e => rfl
  | ok m =>
    rw [runSandboxed, ending, course]
    cases Engine.instantiate systemHost m with
    | error e =>
      have failed := @Course.reported_of_failed (Failure.uninstantiated e).message (.start stdin) rfl
      rw [exitCodeOf_uninstantiated] at failed
      exact failed
    | ok i =>
      rw [← reported_processCode texts i rfl]
      simp only
      cases (processCode i).run (.start stdin) <;> rfl

theorem Image.exitCode_runSandboxed (texts : NamesNoCode) (image : Image) (stdin : String) :
    (image.runSandboxed stdin).exitCode = (image.ending stdin).reported.1 :=
  congrArg Prod.fst (image.reported_runSandboxed texts stdin)

theorem Image.trapped_runSandboxed (texts : NamesNoCode) (image : Image) (stdin : String) :
    (image.runSandboxed stdin).trapped = (image.ending stdin).reported.2 :=
  congrArg Prod.snd (image.reported_runSandboxed texts stdin)

theorem Failure.Refuses.exitCode {f : Failure} {image : Image} {key : String × String}
    (h : f.Refuses image key) : f.exitCode = namedCode key := by
  obtain ⟨m, e, _, rfl, _, blames⟩ := h
  exact blames.exitCodeOf

theorem instanceEnding_ne_uninstantiated (i : Engine.Instance) (p : Process) (e : String) :
    instanceEnding i p ≠ .failed (.uninstantiated e) := by
  fun_cases instanceEnding i p with
  | case1 t => exact t.ending_ne_uninstantiated e
  | case2 => simp
  | case3 _ _ _ _ _ t => exact t.ending_ne_uninstantiated e
  | case4 => simp

theorem Failure.exitCode_eq_or_refuses (texts : NamesNoCode) {image : Image} {stdin : String}
    {f : Failure} (h : image.ending stdin = .failed f) :
    f.exitCode = 1 ∨ ∃ key, f.Refuses image key := by
  cases f with
  | uninstantiated e =>
    cases image with
    | error e' => cases h
    | ok m =>
      rw [Image.ending] at h
      split at h
      · next e' he =>
        cases h
        obtain plain | ⟨key, hkey, blames⟩ := texts.instantiate he
        · exact .inl (exitCodeOf_of_plain plain)
        · exact .inr ⟨key, m, e, rfl, rfl, hkey, blames⟩
      · exact absurd h (instanceEnding_ne_uninstantiated _ _ e)
  | _ => exact .inl rfl

theorem Failure.exitCode_eq_one_iff (texts : NamesNoCode) {image : Image} {stdin : String}
    {f : Failure} (h : image.ending stdin = .failed f) :
    f.exitCode = 1 ↔ ∀ key, f.Refuses image key → namedCode key = 1 := by
  constructor
  · intro one key refuses
    rw [← refuses.exitCode, one]
  · intro all
    obtain one | ⟨key, refuses⟩ := exitCode_eq_or_refuses texts h
    · exact one
    · rw [refuses.exitCode, all key refuses]

theorem Failure.exitCode_eq_zero_iff (texts : NamesNoCode) {image : Image} {stdin : String}
    {f : Failure} (h : image.ending stdin = .failed f) :
    f.exitCode = 0 ↔ ∃ key, f.Refuses image key ∧ namedCode key = 0 := by
  constructor
  · intro zero
    obtain one | ⟨key, refuses⟩ := exitCode_eq_or_refuses texts h
    · rw [one] at zero
      cases zero
    · exact ⟨key, refuses, by rw [← refuses.exitCode, zero]⟩
  · rintro ⟨key, refuses, zero⟩
    rw [refuses.exitCode, zero]

end

end Guest

open Guest (Engine Image Import NamesNoCode)

theorem TestCase.ok_judgeSandboxed {t : TestCase} (hpanic : t.attributes.has .shouldPanic = false)
    (hstdout : t.stdout = none) (hstderr : t.stderr = none) (o : Guest.SandboxOutcome) :
    (t.judgeSandboxed o).ok = true ↔ o.exitCode = 0 := by
  have noMismatch (payload : String → Payload) (captured : String) :
      mismatch? t.attributes payload none captured = none := rfl
  simp only [judgeSandboxed, hpanic, hstdout, hstderr, noMismatch]
  by_cases h : o.exitCode = 0 <;> simp [h, Verdict.pass, Verdict.fail]

/-- A run that failed gives an exit code of one and a text, and fails a test that expects nothing in
particular, unless it failed for want of an import whose names hold the phrase for another code. -/
theorem judged_of_ending [Engine] (texts : NamesNoCode) (image : Image) (stdin : String) :
    (∀ f, image.ending stdin = .failed f →
      (image.runSandboxed stdin).trapped = some f.message ∧
      (∀ key, f.Refuses image key → (image.runSandboxed stdin).exitCode = Guest.namedCode key) ∧
      ((image.runSandboxed stdin).exitCode = 1 ↔
        ∀ key, f.Refuses image key → Guest.namedCode key = 1)) ∧
    ∀ t : TestCase, t.attributes.has .shouldPanic = false → t.stdout = none → t.stderr = none →
      ((t.judgeSandboxed (image.runSandboxed stdin)).ok = true ↔
        image.ending stdin = .returned ∨ image.ending stdin = .exited 0 ∨
          ∃ f key, image.ending stdin = .failed f ∧ f.Refuses image key ∧
            Guest.namedCode key = 0) := by
  rw [image.exitCode_runSandboxed texts, image.trapped_runSandboxed texts]
  constructor
  · intro f hf
    have one := Guest.Failure.exitCode_eq_one_iff texts hf
    rw [hf]
    exact ⟨rfl, fun key refuses => refuses.exitCode, one⟩
  · intro t hpanic hstdout hstderr
    rw [TestCase.ok_judgeSandboxed hpanic hstdout hstderr, image.exitCode_runSandboxed texts]
    cases h : image.ending stdin with
    | returned => simp [Guest.Ending.reported]
    | exited n => simp [Guest.Ending.reported]
    | failed f => simpa [Guest.Ending.reported] using Guest.Failure.exitCode_eq_zero_iff texts h

namespace Guest

def unlinked (source name : String) : Program where
  imports := [⟨source, name, ⟨[], []⟩⟩]
  memory := none
  segments := []
  functions := [(startName, ⟨[], [], .nothing⟩)]
  start := []

theorem ending_unlinked {source name : String} (h : systemHost.find? source name = none)
    (stdin : String) : ∃ f, Image.ending (.ok (unlinked source name)) stdin = .failed f ∧
      f.Refuses (.ok (unlinked source name)) (source, name) := by
  let i : Import := ⟨source, name, ⟨[], []⟩⟩
  have refused : (unlinked source name).instantiate systemHost =
      .error (LinkError.notProvided i).message := by
    have missing : resolveImport systemHost i = .error (.notProvided i) := by
      rw [resolveImport, h]
    rw [Program.instantiate, unlinked, link, missing]
    rfl
  exact ⟨_, Image.ending_of_error refused stdin, unlinked source name, _, rfl, rfl,
    List.mem_singleton_self _, blames_notProvided i⟩

end Guest

theorem judged_of_ending_unlinked :
    let image : Image := .ok (Guest.unlinked "tools" "exit status 7")
    NamesNoCode ∧ (∃ f, image.ending "" = .failed f ∧ f.Refuses image ("tools", "exit status 7") ∧
      (image.runSandboxed "").trapped = some f.message) ∧
      (image.runSandboxed "").exitCode = 7 := by
  intro image
  have missing : Guest.systemHost.find? "tools" "exit status 7" = none := rfl
  obtain ⟨f, ending, refuses⟩ := Guest.ending_unlinked missing ""
  obtain ⟨failed, _⟩ := judged_of_ending Guest.miniature_namesNoCode image ""
  obtain ⟨trapped, exitCode, _⟩ := failed f ending
  exact ⟨Guest.miniature_namesNoCode, ⟨f, ending, refuses, trapped⟩,
    (exitCode _ refuses).trans (by decide)⟩

theorem unlinked_passes :
    let image : Image := .ok (Guest.unlinked "exit code 0" "f")
    let t : TestCase :=
      ⟨.fencedBlock, "doc.n.md", "nmd:doc.n.md:0", 1, ⟨[]⟩, none, none, none, none, ""⟩
    (∃ f, image.ending "" = .failed f) ∧ (image.runSandboxed "").exitCode = 0 ∧
      (t.judgeSandboxed (image.runSandboxed "")).ok = true := by
  intro image t
  have missing : Guest.systemHost.find? "exit code 0" "f" = none := rfl
  obtain ⟨f, ending, refuses⟩ := Guest.ending_unlinked missing ""
  have exitCode : (image.runSandboxed "").exitCode = 0 := by
    have named : Guest.namedCode ("exit code 0", "f") = 0 := by decide
    rw [image.exitCode_runSandboxed Guest.miniature_namesNoCode, ending]
    exact refuses.exitCode.trans named
  exact ⟨⟨f, ending⟩, exitCode, (TestCase.ok_judgeSandboxed rfl rfl rfl _).2 exitCode⟩

end Doctest
