import Doctest.Execute

namespace Doctest

open Guest (Engine Image SandboxOutcome)

namespace Attributes

variable {a b : Attributes}

def recognized : List String := Tag.all.map Tag.name

theorem has_congr (h : ∀ s ∈ recognized, s ∈ a.tags ↔ s ∈ b.tags) (tag : Tag) :
    a.has tag = b.has tag := by
  have mem : tag.name ∈ recognized := by cases tag <;> decide
  rw [Bool.eq_iff_iff, has, has, List.contains_iff_mem, List.contains_iff_mem]
  exact h tag.name mem

theorem normalizeString_congr (h : ∀ tag, a.has tag = b.has tag) (s : String) :
    a.normalizeString s = b.normalizeString s := by
  simp only [normalizeString, normalize, h]

end Attributes

theorem mismatch?_congr {a b : Attributes} (h : ∀ tag, a.has tag = b.has tag)
    (payload : String → Payload) (expected : Option String) (captured : String) :
    mismatch? a payload expected captured = mismatch? b payload expected captured := by
  cases expected with
  | none => rfl
  | some e => simp only [mismatch?, Attributes.normalizeString_congr h]

def TestResult.judgement (r : TestResult) : Verdict × Option Snapshot := (r.verdict, r.runtime)

namespace TestCase

variable {t u : TestCase} {c : Compiler.Loaded} {entry : String}

def IsRun (t : TestCase) : Prop :=
  t.attributes.has .compileFail = false ∧ t.attributes.has .compileOk = false

theorem judgeSandboxed_congr {a : Attributes} (h : ∀ tag, a.has tag = t.attributes.has tag)
    (o : SandboxOutcome) : { t with attributes := a }.judgeSandboxed o = t.judgeSandboxed o := by
  simp only [judgeSandboxed, h, mismatch?_congr h]

variable [Engine]

/-- The result of a test that is not skipped, by what the compiler makes of its code. -/
structure Answered (t : TestCase) (entry : String) (compiled : Except String Image)
    (r : TestResult) : Prop where
  test : r.test = t
  compileFail : t.attributes.has .compileFail = true → (r.ok = true ↔ ∃ e, compiled = .error e)
  compileOk : t.attributes.has .compileFail = false → t.attributes.has .compileOk = true →
    (r.ok = true ↔ ∃ image, compiled = .ok image)
  uncompiled : t.IsRun → ∀ e, compiled = .error e →
    r.ok = false ∧ r.verdict.reason = "compile error"
  called : t.IsRun → ∀ image, compiled = .ok image → ∀ spec, t.ret = some spec →
    r.verdict = spec.judgeDirect (image.callDirect entry spec.wantsMemory)
  processed : t.IsRun → ∀ image, compiled = .ok image → t.ret = none →
    r.verdict = t.judgeSandboxed (image.runSandboxed (t.stdin.getD "")) ∧
      r.runtime = some (.of (image.runSandboxed (t.stdin.getD "")))
  runtime : r.runtime.isSome = true ↔ t.IsRun ∧ (∃ image, compiled = .ok image) ∧ t.ret = none

theorem map_judgement_run (t : TestCase) (c : Compiler.Loaded) (entry : String) :
    (t.run c entry).map TestResult.judgement = t.judge c entry := by
  rw [run]
  cases t.judge c entry with
  | error e => rfl
  | ok v => rfl

theorem Answered.of_not_isRun {compiled : Except String Image} {v : Verdict} (h : ¬ t.IsRun)
    (hfail : t.attributes.has .compileFail = true → (v.ok = true ↔ ∃ e, compiled = .error e))
    (hok : t.attributes.has .compileFail = false → (v.ok = true ↔ ∃ image, compiled = .ok image)) :
    t.Answered entry compiled ⟨t, v, none⟩ where
  test := rfl
  compileFail := hfail
  compileOk none _ := hok none
  uncompiled run := absurd run h
  called run := absurd run h
  processed run := absurd run h
  runtime := iff_of_false Bool.false_ne_true fun run => h run.1

theorem Answered.of_isRun_error (h : t.IsRun) (e : String) :
    t.Answered entry (.error e) ⟨t, (Verdict.fail "compile error").withDetail e, none⟩ where
  test := rfl
  compileFail fails := absurd (fails.symm.trans h.1) Bool.noConfusion
  compileOk _ oks := absurd (oks.symm.trans h.2) Bool.noConfusion
  uncompiled _ _ _ := ⟨rfl, rfl⟩
  called _ _ compiled := by cases compiled
  processed _ _ compiled := by cases compiled
  runtime := iff_of_false Bool.false_ne_true fun ⟨_, ⟨_, compiled⟩, _⟩ => by cases compiled

theorem Answered.of_isRun_ok (h : t.IsRun) (image : Image) :
    let v := t.judgeImage entry image
    t.Answered entry (.ok image) ⟨t, v.1, v.2⟩ where
  test := rfl
  compileFail fails := absurd (fails.symm.trans h.1) Bool.noConfusion
  compileOk _ oks := absurd (oks.symm.trans h.2) Bool.noConfusion
  uncompiled _ _ compiled := by cases compiled
  called _ image' compiled spec hret := by
    cases compiled
    simp only [judgeImage, hret]
  processed _ image' compiled hret := by
    cases compiled
    simp only [judgeImage, hret, and_self]
  runtime := by
    cases hret : t.ret with
    | none => simp [judgeImage, hret, h]
    | some spec => simp [judgeImage, hret]

theorem answered (t : TestCase) (entry : String) (compiled : Except String Image) :
    let v := t.judgeCompiled entry compiled
    t.Answered entry compiled ⟨t, v.1, v.2⟩ := by
  simp only [judgeCompiled]
  cases hfail : t.attributes.has .compileFail with
  | true =>
    have notRun : ¬ t.IsRun := fun run => Bool.noConfusion (run.1.symm.trans hfail)
    cases compiled with
    | ok image =>
      exact .of_not_isRun notRun (by simp [Verdict.fail]) (by simp [hfail])
    | error e =>
      exact .of_not_isRun notRun (by simp [Verdict.pass, Verdict.withDetail]) (by simp [hfail])
  | false =>
    cases hok : t.attributes.has .compileOk with
    | true =>
      have notRun : ¬ t.IsRun := fun run => Bool.noConfusion (run.2.symm.trans hok)
      cases compiled with
      | ok image =>
        exact .of_not_isRun notRun (by simp [hfail]) (by simp [Verdict.pass])
      | error e =>
        exact .of_not_isRun notRun (by simp [hfail]) (by simp [Verdict.fail, Verdict.withDetail])
    | false =>
      have run : t.IsRun := ⟨hfail, hok⟩
      cases compiled with
      | ok image => exact .of_isRun_ok run image
      | error e => exact .of_isRun_error run e

theorem judge_congr {a : Attributes} (h : ∀ tag, a.has tag = t.attributes.has tag) :
    { t with attributes := a }.judge c entry = t.judge c entry := by
  have image (i : Image) :
      { t with attributes := a }.judgeImage entry i = t.judgeImage entry i := by
    simp only [judgeImage, judgeSandboxed_congr h]
  have compiled (r : Except String Image) :
      { t with attributes := a }.judgeCompiled entry r = t.judgeCompiled entry r := by
    simp only [judgeCompiled, h, image]
  simp only [judge, h, compiled]

theorem judge_of_ret (hcode : u.code = t.code) (hret : u.ret = t.ret) (hcalled : t.ret.isSome)
    (h : ∀ tag ∈ [.skip, .compileFail, .compileOk], u.attributes.has tag = t.attributes.has tag) :
    u.judge c entry = t.judge c entry := by
  obtain ⟨spec, hspec⟩ := Option.isSome_iff_exists.1 hcalled
  have image (i : Image) : u.judgeImage entry i = t.judgeImage entry i := by
    simp only [judgeImage, hret, hspec]
  have compiled (r : Except String Image) : u.judgeCompiled entry r = t.judgeCompiled entry r := by
    simp only [judgeCompiled, h .compileFail (by simp), h .compileOk (by simp), image]
  simp only [judge, hcode, h .skip (by simp), compiled]

/-- A skipped test passes whatever the compiler is. Any other test has a result unless the compiler
crashes on its code, and what the compiler makes of the code decides it. What a result says beside
its test is the same with other tags of no meaning, and where a value is expected also with other
streams and other tags about them. -/
theorem run_dispatch (t : TestCase) (entry : String) :
    (t.attributes.has .skip = true → ∀ c, t.run c entry = .ok ⟨t, .pass "skipped", none⟩) ∧
    (t.attributes.has .skip = false → ∀ c : Compiler.Loaded, match c.compile t.code with
      | .ok bytes => ∃ r, t.run c entry = .ok r ∧ t.Answered entry (.ok (Engine.load bytes)) r
      | .error (.error e) => ∃ r, t.run c entry = .ok r ∧ t.Answered entry (.error e) r
      | .error (.crash message) => t.run c entry = .error ⟨message⟩) ∧
    (∀ (u : TestCase) (c : Compiler.Loaded), u.code = t.code → u.ret = t.ret → t.ret.isSome →
      (∀ tag ∈ [.skip, .compileFail, .compileOk], u.attributes.has tag = t.attributes.has tag) →
      (u.run c entry).map TestResult.judgement = (t.run c entry).map TestResult.judgement) ∧
    ∀ (a : Attributes) (c : Compiler.Loaded),
      (∀ s ∈ Attributes.recognized, s ∈ a.tags ↔ s ∈ t.attributes.tags) →
      ({ t with attributes := a }.run c entry).map TestResult.judgement =
        (t.run c entry).map TestResult.judgement := by
  refine ⟨fun skip c => ?_, fun skip c => ?_, fun u c hcode hret hcalled h => ?_, fun a c h => ?_⟩
  · simp [run, judge, skip, Except.map]
  · cases hcompile : c.compile t.code with
    | ok bytes =>
      exact ⟨_, by simp [run, judge, skip, hcompile, Except.map], t.answered entry _⟩
    | error fault =>
      cases fault with
      | error e => exact ⟨_, by simp [run, judge, skip, hcompile, Except.map], t.answered entry _⟩
      | crash message => simp [run, judge, skip, hcompile, Except.map]
  · rw [map_judgement_run, map_judgement_run, judge_of_ret hcode hret hcalled h]
  · rw [map_judgement_run, map_judgement_run, judge_congr (Attributes.has_congr h)]

end TestCase

end Doctest
