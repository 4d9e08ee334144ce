import Doctest.Proofs.Files.Writing
import Doctest.Proofs.Guest.Ending
import Doctest.Proofs.Schedule.Results
import Doctest.Proofs.Session.Inputs
import Doctest.Session

namespace Doctest

namespace Ending

theorem exitStatus_eq_zero_iff {e : Ending} :
    e.exitStatus = 0 ↔ ∃ r, e = .reported r ∧ r.allPassed = true := by
  cases e with
  | failed e => simp [exitStatus]
  | noInputs => simp [exitStatus]
  | reported r => simp [exitStatus]

theorem exitStatus_eq_two_iff {e : Ending} : e.exitStatus = 2 ↔ e = .noInputs := by
  cases e with
  | failed e => simp [exitStatus]
  | noInputs => simp [exitStatus]
  | reported r =>
    simp only [exitStatus]
    split
    · simp
    · simp

theorem exitStatus_cases (e : Ending) :
    e.exitStatus = 0 ∨ e.exitStatus = 1 ∨ e.exitStatus = 2 := by
  cases e with
  | failed e => exact .inr (.inl rfl)
  | noInputs => exact .inr (.inr rfl)
  | reported r =>
    simp only [exitStatus]
    split
    · exact .inl rfl
    · exact .inr (.inl rfl)

end Ending

namespace CommandLine

open Compiler (ArtifactPair Launcher Probe findPair artifactNames)
open Guest (Engine)

/-- The report is where it was asked for: in the file of that name, or else on the output. -/
def Delivered (c : CommandLine) (w : Surroundings) (session : Session) (r : Report) : Prop :=
  match c.output with
  | some p => session.files.readText (w.workingDir.join p) = .ok r.text.toList
  | none => session.stdout = r.text ++ "\n"

theorem delivered_or_failed (c : CommandLine) (w : Surroundings) (r : Report) :
    c.Delivered w (c.deliver w r) r ∧ (c.deliver w r).ending = .reported r ∨
      ¬ c.Delivered w (c.deliver w r) r ∧ ∃ e, (c.deliver w r).ending = .failed e := by
  rw [Delivered, deliver]
  cases c.output with
  | none => exact .inl ⟨rfl, rfl⟩
  | some p =>
    simp only
    split
    · next written => exact .inl ⟨readText_of_writeReport written, rfl⟩
    · next failed => exact .inr ⟨readText_ne_ok_of_writeReport failed _, _, rfl⟩

section

variable [Engine] {c : CommandLine} {w : Surroundings}

/-- The stages of a session that comes to its end with a report. The tests are those of the inputs,
one list for each. -/
structure Completes (c : CommandLine) (w : Surroundings) (s : Settings) (inputs : List Path)
    (tests : List (List TestCase)) (r : Report) : Prop where
  settings : c.settings w = .ok s
  accepts : c.Accepts w.files w.workingDir inputs
  ne_nil : inputs ≠ []
  extracted : List.Forall₂ (fun p ts => extractFile w.files p = .ok ts) inputs tests
  run : (s.plan w.workingDir).run w.files (loader w s) w.processors tests.flatten = .ok r

theorem report_eq_ok_iff {s : Settings} {inputs : List Path} {r : Report} :
    report w s inputs = .ok r ↔ ∃ tests,
      List.Forall₂ (fun p ts => extractFile w.files p = .ok ts) inputs tests ∧
      (s.plan w.workingDir).run w.files (loader w s) w.processors tests.flatten = .ok r := by
  simp only [report, bind_eq_ok_iff, Schedule.mapError_eq_ok_iff, extractAll_eq_ok_iff]
  constructor
  · rintro ⟨_, ⟨tests, each, rfl⟩, run⟩
    exact ⟨tests, each, run⟩
  · rintro ⟨tests, each, run⟩
    exact ⟨_, ⟨tests, each, rfl⟩, run⟩

theorem report?_eq_ok_iff {o : Option Report} :
    c.report? w = .ok o ↔ ∃ s inputs, c.settings w = .ok s ∧
      c.Accepts w.files w.workingDir inputs ∧
      (inputs = [] ∧ o = none ∨
        inputs ≠ [] ∧ ∃ r, report w s inputs = .ok r ∧ o = some r) := by
  simp only [report?, bind_eq_ok_iff, Schedule.mapError_eq_ok_iff, collectInputs_eq_ok_iff]
  constructor
  · rintro ⟨s, hs, inputs, accepts, h⟩
    refine ⟨s, inputs, hs, accepts, ?_⟩
    cases inputs with
    | nil =>
      cases h
      exact .inl ⟨rfl, rfl⟩
    | cons p ps =>
      obtain ⟨r, hr, h⟩ := bind_eq_ok_iff.1 h
      cases h
      exact .inr ⟨List.cons_ne_nil p ps, r, hr, rfl⟩
  · rintro ⟨s, inputs, hs, accepts, ⟨rfl, rfl⟩ | ⟨ne_nil, r, hr, rfl⟩⟩
    · exact ⟨s, hs, [], accepts, rfl⟩
    · refine ⟨s, hs, inputs, accepts, ?_⟩
      rw [if_neg (by simpa using ne_nil), hr]
      rfl

theorem ending_eq_noInputs_iff : (c.session w).ending = .noInputs ↔
    (∃ s, c.settings w = .ok s) ∧ c.Accepts w.files w.workingDir [] := by
  have empty : (c.session w).ending = .noInputs ↔ c.report? w = .ok none := by
    rw [session]
    match c.report? w with
    | .error e => simp
    | .ok none => simp
    | .ok (some r) =>
      obtain ⟨_, done⟩ | ⟨_, e, done⟩ := c.delivered_or_failed w r
      · simp [done]
      · simp [done]
  rw [empty, report?_eq_ok_iff]
  constructor
  · rintro ⟨s, inputs, hs, accepts, ⟨rfl, _⟩ | ⟨_, r, _, same⟩⟩
    · exact ⟨⟨s, hs⟩, accepts⟩
    · cases same
  · rintro ⟨⟨s, hs⟩, accepts⟩
    exact ⟨s, [], hs, accepts, .inl ⟨rfl, rfl⟩⟩

theorem report?_eq_some_iff {r : Report} : c.report? w = .ok (some r) ↔
    ∃ s inputs tests, c.Completes w s inputs tests r := by
  rw [report?_eq_ok_iff]
  constructor
  · rintro ⟨s, inputs, hs, accepts, ⟨_, same⟩ | ⟨ne_nil, r', hr, same⟩⟩
    · cases same
    · obtain rfl := Option.some.inj same
      obtain ⟨tests, extracted, run⟩ := report_eq_ok_iff.1 hr
      exact ⟨s, inputs, tests, hs, accepts, ne_nil, extracted, run⟩
  · rintro ⟨s, inputs, tests, hs, accepts, ne_nil, extracted, run⟩
    have hr := report_eq_ok_iff.2 ⟨tests, extracted, run⟩
    exact ⟨s, inputs, hs, accepts, .inr ⟨ne_nil, r, hr, rfl⟩⟩

theorem ending_eq_reported_iff {r : Report} : (c.session w).ending = .reported r ↔
    (∃ s inputs tests, c.Completes w s inputs tests r) ∧ c.Delivered w (c.session w) r := by
  rw [← report?_eq_some_iff, session]
  match c.report? w with
  | .error e => simp
  | .ok none => simp
  | .ok (some r') =>
    simp only [Except.ok.injEq, Option.some.injEq]
    obtain ⟨delivered, done⟩ | ⟨undelivered, e, done⟩ := c.delivered_or_failed w r'
    · rw [done]
      constructor
      · intro same
        cases same
        exact ⟨rfl, delivered⟩
      · rintro ⟨rfl, _⟩
        rfl
    · rw [done]
      constructor
      · intro same
        cases same
      · rintro ⟨rfl, delivered⟩
        exact absurd delivered undelivered

theorem Completes.allPassed_iff {s : Settings} {inputs : List Path}
    {tests : List (List TestCase)} {r : Report} (h : c.Completes w s inputs tests r) :
    r.allPassed = true ↔ ∀ x ∈ r.results, x.ok = true := by
  obtain ⟨_, made, _⟩ := Schedule.Plan.report_of_run h.run
  rw [made]
  exact Report.allPassed_iff r.results

theorem exitStatus_session_eq_zero_iff : (c.session w).ending.exitStatus = 0 ↔
    ∃ s inputs tests r, c.Completes w s inputs tests r ∧ c.Delivered w (c.session w) r ∧
      ∀ x ∈ r.results, x.ok = true := by
  rw [Ending.exitStatus_eq_zero_iff]
  constructor
  · rintro ⟨r, done, passed⟩
    obtain ⟨⟨s, inputs, tests, completes⟩, delivered⟩ := ending_eq_reported_iff.1 done
    exact ⟨s, inputs, tests, r, completes, delivered, completes.allPassed_iff.1 passed⟩
  · rintro ⟨s, inputs, tests, r, completes, delivered, passed⟩
    exact ⟨r, ending_eq_reported_iff.2 ⟨⟨s, inputs, tests, completes⟩, delivered⟩,
      completes.allPassed_iff.2 passed⟩

theorem Completes.summary_eq {s : Settings} {inputs : List Path} {tests : List (List TestCase)}
    {r : Report} (h : c.Completes w s inputs tests r) : r.summary = Summary.of r.results := by
  obtain ⟨_, made, _⟩ := Schedule.Plan.report_of_run h.run
  exact congrArg Report.summary made

/-- Status 0 is for sessions that complete, and deliver a report in which all is well. Such a report
has one result for each test of each input, and its summary counts them all as passed. -/
theorem exitStatus_session (c : CommandLine) (w : Surroundings) :
    let session := c.session w
    let status := session.ending.exitStatus
    (status = 0 ↔ ∃ s inputs tests r, c.Completes w s inputs tests r ∧ c.Delivered w session r ∧
      ∀ x ∈ r.results, x.ok = true) ∧
    (∀ s inputs tests r, c.Completes w s inputs tests r → c.Delivered w session r →
      (∀ x ∈ r.results, x.ok = true) →
        session.ending = .reported r ∧ (r.results.map (·.test)).Perm tests.flatten ∧
        r.summary.total = r.results.length ∧
        r.summary.total = r.summary.passed + r.summary.failed ∧ r.summary.failed = 0 ∧
        ∀ outcome, (s.plan w.workingDir).MayCome w.files (loader w s) w.processors tests.flatten
          outcome → outcome = .ok r) ∧
    (status = 2 ↔ (∃ s, c.settings w = .ok s) ∧ c.Accepts w.files w.workingDir []) ∧
    (status ≠ 0 → status ≠ 2 → status = 1) ∧
    ∀ files, w.files.SameTree files →
      ∀ inputs, c.Accepts files w.workingDir inputs ↔ c.Accepts w.files w.workingDir inputs := by
  intro session status
  refine ⟨?_, fun s inputs tests r completes delivered passed => ?_, ?_, fun nonzero nontwo => ?_,
    fun files same inputs => ?_⟩
  · exact exitStatus_session_eq_zero_iff
  · obtain ⟨each, _, settled⟩ := Schedule.Plan.report_of_run completes.run
    have none : r.summary.failed = 0 := beq_iff_eq.1 (completes.allPassed_iff.2 passed)
    have counted := Summary.passed_add_failed r.results
    rw [← completes.summary_eq] at counted
    have total : r.summary.total = r.results.length := congrArg Summary.total completes.summary_eq
    exact ⟨ending_eq_reported_iff.2 ⟨⟨s, inputs, tests, completes⟩, delivered⟩, each, total,
      counted.symm, none, settled⟩
  · exact Ending.exitStatus_eq_two_iff.trans ending_eq_noInputs_iff
  · obtain zero | one | two := session.ending.exitStatus_cases
    · exact absurd zero nonzero
    · exact one
    · exact absurd two nontwo
  · rw [← collectInputs_eq_ok_iff, ← collectInputs_eq_ok_iff, collectInputs_of_sameTree same]

end

theorem loader_of_probe {launch : Launcher} {command answer : String} {pair : ArtifactPair}
    {module : List UInt8} (hprobe : (Probe.parse answer.toList).toOption.isSome = true)
    (h : launch ⟨command, pair, .probe, none, ""⟩ = .ended 0 (Text.Utf8.encodeString answer) [])
    (hcompile : ∀ source, launch ⟨command, pair, .compile, none, source⟩ = .ended 0 module []) :
    ∃ c, launch.loader command pair = .ok c ∧ ∀ source, c.compile source = .ok module := by
  cases hp : Probe.parse answer.toList with
  | error e =>
    rw [hp] at hprobe
    cases hprobe
  | ok p =>
    simp [Launcher.loader, Launcher.run, h, hcompile, Text.Utf8.encodeString, hp, Except.mapError]

namespace Sample

def content : String := "//: neplg2:test"

def answer : String := "\x7b\"compile\":true,\"compile_with_profile\":false\x7d"

def module : List UInt8 := Text.Utf8.encodeString
  "\x7b\"memory\":null,\"exports\":\x7b\"_start\":\x7b\"body\":[]\x7d\x7d\x7d"

def pair : ArtifactPair := ⟨⟨"/nepl-web-.js"⟩, ⟨"/nepl-web-_bg.wasm"⟩⟩

def files : Files where
  entries := [(["a.nepl"], .file (Text.Utf8.encodeString content)),
    (["nepl-web-_bg.wasm"], .file []), (["nepl-web-.js"], .file [])]
  workingDir := []

def surroundings : Surroundings where
  files := files
  workingDir := ⟨"/"⟩
  environment := fun _ => none
  ownDir := none
  processors := 1
  launcher := fun r => .ended 0
    (if r.mode = .probe then Text.Utf8.encodeString answer else module) []

def commandLine : CommandLine :=
  { empty with inputs := [⟨"a.nepl"⟩], output := some ⟨"out/report.json"⟩ }

def test : TestCase :=
  ⟨.commentBlock, "/a.nepl", "nepl:a.nepl:0", 1, ⟨[]⟩, none, none, none, none, content⟩

def outcome : Guest.SandboxOutcome := Guest.Image.runSandboxed (Engine.load module) ""

def report : Report := .of [⟨test, test.judgeSandboxed outcome, some (.of outcome)⟩]

theorem extracted : extractFile files ⟨"/a.nepl"⟩ = .ok [test] := by
  have read : files.read ⟨"/a.nepl"⟩ = .ok (Text.Utf8.encodeString content) := rfl
  have text : files.readText ⟨"/a.nepl"⟩ = .ok content.toList := by
    simp [Files.readText, read, Text.Utf8.decode?, Text.Utf8.encodeString, bind, Except.bind]
  have origin : Origin.ofPath? ⟨"/a.nepl"⟩ = some .commentBlock := rfl
  simp only [extractFile, origin, text]
  rfl

theorem found : findPair files ⟨"/"⟩ "nepl-web-" = some pair := by
  have listed : files.list ⟨"/"⟩ = .ok ["a.nepl", "nepl-web-_bg.wasm", "nepl-web-.js"] := rfl
  have kept : (["a.nepl", "nepl-web-_bg.wasm", "nepl-web-.js"].filter fun n =>
      "nepl-web-".toList.isPrefixOf n.toList && files.isFile ((Path.mk "/").join ⟨n⟩)) =
        ["nepl-web-_bg.wasm", "nepl-web-.js"] := rfl
  have names : artifactNames files ⟨"/"⟩ "nepl-web-" = ["nepl-web-.js", "nepl-web-_bg.wasm"] := by
    simp only [artifactNames, listed, kept]
    exact eq_of_sorted (sortNames_sorted _) (by decide) ((sortNames_perm _).trans (.swap ..))
  rw [findPair, names]
  rfl

theorem run : (Settings.default.plan ⟨"/"⟩).run files
    (loader surroundings Settings.default) 1 [test] = .ok report := by
  obtain ⟨capabilities, answers, compiles⟩ :
      ∃ c, loader surroundings Settings.default pair = .ok c ∧
        ∀ source, c.compile source = .ok module :=
    loader_of_probe (by decide +kernel) rfl fun _ => rfl
  have candidates : ((Settings.default.plan ⟨"/"⟩).search).candidates =
      [⟨"/"⟩, ⟨"/dist"⟩, ⟨"/web/dist"⟩] := rfl
  have loaded : (Settings.default.plan ⟨"/"⟩).load files (loader surroundings Settings.default) =
      .ok ⟨pair, capabilities, none⟩ := by
    have named : (Settings.default.plan ⟨"/"⟩).search.namePrefix = "nepl-web-" := rfl
    rw [Schedule.Plan.load, Compiler.Search.load, candidates, Compiler.loadFirst, named, found]
    simp only [answers]
    rfl
  have one : Schedule.effectiveWorkers (Settings.default.plan ⟨"/"⟩).jobs 1 [test].length = 1 :=
    rfl
  have compiled : Compiler.Loaded.compile ⟨pair, capabilities, none⟩ test.code = .ok module :=
    compiles test.code
  have ran : test.run ⟨pair, capabilities, none⟩ "main" =
      .ok ⟨test, test.judgeSandboxed outcome, some (.of outcome)⟩ := by
    have noSkip : test.attributes.has .skip = false := rfl
    simp only [TestCase.run, TestCase.judge, noSkip, compiled]
    rfl
  have entry : (Settings.default.plan ⟨"/"⟩).entry = "main" := rfl
  have only : Schedule.indexed [test] = [(0, test)] := rfl
  simp only [Schedule.Plan.run, one, if_true, Schedule.Plan.setup, loaded, entry, only,
    Schedule.runSerially, ran, Except.mapError, bind, Except.bind, pure, Except.pure]
  rfl

theorem completes : commandLine.Completes surroundings Settings.default [⟨"/a.nepl"⟩] [[test]]
    report where
  settings := by rfl
  accepts := ⟨[], rfl, rfl⟩
  ne_nil := List.cons_ne_nil _ _
  extracted := .cons extracted .nil
  run := run

theorem passed : ∀ x ∈ report.results, x.ok = true := by
  intro x hx
  obtain rfl := List.mem_singleton.1 hx
  have returned : outcome.exitCode = 0 := by decide +kernel
  exact (TestCase.ok_judgeSandboxed rfl rfl rfl outcome).2 returned

theorem delivered : commandLine.Delivered surroundings (commandLine.session surroundings) report := by
  obtain ⟨fs, written⟩ : ∃ fs, writeReport ⟨"/out/report.json"⟩ report.text files = .ok () fs :=
    ⟨_, rfl⟩
  have asked : commandLine.report? surroundings = .ok (some report) :=
    report?_eq_some_iff.2 ⟨_, _, _, completes⟩
  have session : commandLine.session surroundings = ⟨.reported report, "", fs⟩ := by
    have place : surroundings.workingDir.join ⟨"out/report.json"⟩ = ⟨"/out/report.json"⟩ := rfl
    have output : commandLine.output = some ⟨"out/report.json"⟩ := rfl
    have tree : surroundings.files = files := rfl
    simp only [CommandLine.session, asked, deliver, output, place, tree, written]
  rw [session]
  exact readText_of_writeReport written

end Sample

theorem exitStatus_session_written :
    let c := Sample.commandLine
    let w := Sample.surroundings
    ∃ s inputs tests r, c.Completes w s inputs tests r ∧ c.Delivered w (c.session w) r ∧
      (∀ x ∈ r.results, x.ok = true) ∧ (c.session w).ending.exitStatus = 0 ∧
      (r.results.map (·.test)).Perm tests.flatten ∧ tests = [[Sample.test]] ∧
      (∀ x ∈ r.results, x.runtime.isSome = true) ∧
      (c.session w).files.readText ⟨"/out/report.json"⟩ = .ok r.text.toList := by
  intro c w
  obtain ⟨zero, report, _⟩ := exitStatus_session Sample.commandLine Sample.surroundings
  obtain ⟨_, each, _⟩ := report _ _ _ _ Sample.completes Sample.delivered Sample.passed
  refine ⟨_, _, _, _, Sample.completes, Sample.delivered, Sample.passed,
    zero.2 ⟨_, _, _, _, Sample.completes, Sample.delivered, Sample.passed⟩, each, rfl, ?_,
    Sample.delivered⟩
  intro x hx
  obtain rfl := List.mem_singleton.1 hx
  rfl

end CommandLine

end Doctest
