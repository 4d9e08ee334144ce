import Doctest.Guest.Miniature.Engine
import Doctest.Proofs.Compiler.Search
import Doctest.Proofs.Judge.Calls
import Doctest.Proofs.Schedule.Results
import Doctest.Proofs.Schedule.Cancellation

namespace Doctest.Schedule

open Compiler (Call Capabilities CapabilitiesIn EntryPoint Loaded Loader)
open Guest (Engine)

variable {α β ε γ : Type}

def Plan.point (plan : Plan) : EntryPoint := .ofProfile plan.profile

def Plan.setupEach [Engine] (plan : Plan) (fs : Files) (loads : Nat → Loader) :
    Setup TestCase TestResult WorkerError := fun i => plan.setup fs (loads i) i

section Calls

def runSeriallyIn {m : Type → Type} [Monad m] (run : α → m (Except ε β)) :
    List (Indexed α) → m (Except ε (List (Indexed β)))
  | [] => return .ok []
  | t :: ts => do
    match ← run t.2 with
    | .error e => return .error e
    | .ok r => return (← runSeriallyIn run ts).map ((t.1, r) :: ·)

theorem runSerially_cons (run : α → Except ε β) (t : Indexed α) (ts : List (Indexed α)) :
    runSerially run (t :: ts) = match run t.2 with
      | .error e => .error e
      | .ok r => (runSerially run ts).map ((t.1, r) :: ·) := by
  rw [runSerially]
  cases run t.2 with
  | error e => rfl
  | ok r => cases runSerially run ts <;> rfl

theorem runSeriallyIn_silent (run : α → Except ε β) (items : List (Indexed α)) :
    runSeriallyIn (m := Id) run items = runSerially run items := by
  induction items with
  | nil => rfl
  | cons t ts ih =>
    rw [runSeriallyIn, runSerially_cons, ih]
    cases run t.2 <;> rfl

theorem runSeriallyIn_noting {runIn : α → StateM (List γ) (Except ε β)} {run : α → Except ε β}
    {notes : α → List γ} (h : ∀ a before, (runIn a).run before = (run a, before ++ notes a))
    (items : List (Indexed α)) (before : List γ) :
    ∃ ran, ran <+: items ∧ (runSeriallyIn runIn items).run before =
        (runSerially run items, before ++ ran.flatMap fun t => notes t.2) ∧
      ∀ done, runSerially run items = .ok done → ran = items := by
  induction items generalizing before with
  | nil =>
    refine ⟨[], List.prefix_refl _, ?_, fun _ _ => rfl⟩
    rw [List.flatMap_nil, List.append_nil]
    rfl
  | cons t ts ih =>
    rw [runSeriallyIn, runSerially_cons, StateT.run_bind, h]
    cases run t.2 with
    | error e =>
      refine ⟨[t], ⟨ts, rfl⟩, ?_, nofun⟩
      rw [List.flatMap_singleton]
      rfl
    | ok r =>
      obtain ⟨ran, hran, hrun, hall⟩ := ih (before ++ notes t.2)
      refine ⟨t :: ran, List.cons_prefix_cons.2 ⟨rfl, hran⟩, ?_, fun done hdone => ?_⟩
      · rw [List.flatMap_cons, ← List.append_assoc]
        change StateT.run (_ <$> runSeriallyIn runIn ts) (before ++ notes t.2) = _
        rw [StateT.run_map, hrun]
        rfl
      · cases hrest : runSerially run ts with
        | error e =>
          rw [hrest] at hdone
          cases hdone
        | ok rest => rw [hall rest hrest]

end Calls

namespace Plan

variable {plan : Plan} {fs : Files} {load : Loader}

theorem point_of_load {c : Loaded} (h : plan.load fs load = .ok c) : c.point = plan.point := by
  obtain ⟨c, -, known, rfl⟩ := load_eq_ok_iff.1 h
  rw [Loaded.point, point]
  cases hp : plan.profile with
  | none => rfl
  | some p =>
    obtain ⟨compile, hc⟩ := Option.isSome_iff_exists.1 (known (by rw [hp]; rfl))
    simp only [hc]
    rfl

theorem load_error_of_unknown (hp : plan.profile.isSome = true)
    (h : ∀ c, plan.search.load fs load = .ok c → c.capabilities.compileFor = none) :
    ∃ e, plan.load fs load = .error e := by
  cases hc : plan.load fs load with
  | error e => exact ⟨e, rfl⟩
  | ok c =>
    obtain ⟨c, found, known, -⟩ := load_eq_ok_iff.1 hc
    have has := known hp
    rw [h c found] at has
    cases has

def callsOf (point : EntryPoint) (items : List (Indexed TestCase)) : List Call :=
  items.flatMap fun t => t.2.calls point

theorem point_of_mem_callsOf {point : EntryPoint} {items : List (Indexed TestCase)} {call : Call}
    (h : call ∈ callsOf point items) : call.point = point := by
  obtain ⟨t, -, ht⟩ := List.mem_flatMap.1 h
  rw [TestCase.calls] at ht
  split at ht
  · cases ht
  · rw [List.mem_singleton.1 ht]

variable [Engine]

def runIn {m : Type → Type} [Monad m] (plan : Plan) (c : Loaded) (entryPoints : CapabilitiesIn m)
    (t : TestCase) : m (Except WorkerError TestResult) :=
  Except.mapError (fun e => .crashed e.message) <$> t.runIn entryPoints c.profile plan.entry

def workIn {m : Type → Type} [Monad m] (plan : Plan) (fs : Files) (load : Loader)
    (entryPoints : Capabilities → CapabilitiesIn m) (items : List (Indexed TestCase)) :
    m (Except WorkerError (List (Indexed TestResult))) :=
  match plan.load fs load with
  | .error e => return .error e
  | .ok c => runSeriallyIn (plan.runIn c (entryPoints c.capabilities)) items

theorem workIn_silent (i : Nat) (items : List (Indexed TestCase)) :
    plan.workIn fs load Capabilities.silent items = (plan.setup fs load).work i items := by
  rw [workIn, setup_eq, Setup.work]
  cases plan.load fs load with
  | error e => rfl
  | ok c =>
    have same : plan.runIn c c.capabilities.silent = fun t =>
        (t.run c plan.entry).mapError fun e => .crashed e.message := by
      funext t
      exact congrArg (Except.mapError _) (t.runIn_silent c plan.entry)
    change runSeriallyIn (m := Id) (plan.runIn c c.capabilities.silent) items = _
    rw [same, runSeriallyIn_silent]
    rfl

theorem runIn_recording {c : Loaded} (h : plan.load fs load = .ok c) (t : TestCase)
    (before : List Call) : (plan.runIn c c.capabilities.recording t).run before =
      ((t.run c plan.entry).mapError fun e => .crashed e.message,
        before ++ t.calls plan.point) := by
  rw [runIn, StateT.run_map, TestCase.runIn_recording, point_of_load h]
  rfl

theorem workIn_recording (plan : Plan) (fs : Files) (load : Loader) (i : Nat)
    (items : List (Indexed TestCase)) :
    ∃ ran, ran <+: items ∧ (plan.workIn fs load Capabilities.recording items).run [] =
        ((plan.setup fs load).work i items, callsOf plan.point ran) ∧
      ((∃ e, plan.load fs load = .error e) → ran = []) ∧
      ∀ done, (plan.setup fs load).work i items = .ok done → ran = items := by
  rw [workIn, setup_eq, Setup.work]
  cases hc : plan.load fs load with
  | error e =>
    refine ⟨[], List.nil_prefix, rfl, fun _ => rfl, fun done hdone => ?_⟩
    cases hdone
  | ok c =>
    obtain ⟨ran, hran, hrun, hall⟩ := runSeriallyIn_noting (runIn_recording hc) items []
    refine ⟨ran, hran, hrun, ?_, hall⟩
    rintro ⟨e, he⟩
    cases he

end Plan

namespace System

variable {setup : Setup α β ε} {shards : List (List (Indexed α))} {log : List (Entry α ε)}
  {s : System α β ε}

theorem Logged.ranBy_of_setup_error (h : Logged setup (.start shards) log s) {i : Nat} {e : ε}
    (hi : setup i = .error e) : ranBy i log = [] := by
  induction h with
  | start => rfl
  | @step log t a u logged _ ih =>
    rw [ranBy_append, ih, List.nil_append]
    cases a with
    | coordinator => exact congrArg (List.filterMap Event.ran?) (eventsOf_silent i .coordinator)
    | worker j =>
      by_cases hij : j = i
      · subst hij
        rw [ranBy_own, event?]
        cases hw : t.workers[j]? with
        | none => rfl
        | some w =>
          have sound := logged.reaches.invariant_start.sound.workers j w hw
          cases w with
          | running run done t todo => cases hi.symm.trans sound.1
          | checking run done todo => cases hi.symm.trans sound.1
          | _ => rfl
      · rw [ranBy, eventsOf_other (by simpa using hij)]
        rfl

theorem inevitably_of_setup_error {P : Except (RunFailure ε) (List (Indexed β)) → Prop}
    (tests : List α) (workers : Nat) (h : ∀ i, ∃ e, setup i = .error e)
    (hP : ∀ f, P (.error f)) : Inevitably setup P (.start (shard tests workers)) := by
  refine inevitably_of_reaches fun t r ht hr => ?_
  cases r with
  | error f => exact hP f
  | ok results =>
    -- results are there only with those of every worker, and the first worker has none
    obtain ⟨-, parts, whole, -⟩ := ht.invariant_start.concluded.ok results hr
    have count := congrArg List.length whole
    rw [List.length_mapIdx, length_shard, List.length_map] at count
    obtain ⟨items, -, work⟩ := getElem?_of_whole whole
      (List.getElem?_eq_getElem (show 0 < parts.length by omega))
    obtain ⟨e, he⟩ := h 0
    cases (Setup.work_of_error he items).symm.trans work

end System

section Alike

variable {plan : Plan} {fs : Files} {load load' : Loader} {point : EntryPoint}

inductive LoadedAlike (point : EntryPoint) :
    Except (Fault Chain) Capabilities → Except (Fault Chain) Capabilities → Prop
  | ok {c c' : Capabilities} : c.Alike point c' → LoadedAlike point (.ok c) (.ok c')
  | error (e : Fault Chain) : LoadedAlike point (.error e) (.error e)

inductive FoundAlike (point : EntryPoint) : Except ε Loaded → Except ε Loaded → Prop
  | ok {pair : Compiler.ArtifactPair} {c c' : Capabilities} : c.Alike point c' →
      FoundAlike point (.ok ⟨pair, c, none⟩) (.ok ⟨pair, c', none⟩)
  | error (e : ε) : FoundAlike point (.error e) (.error e)

theorem loadFirst_alike (h : ∀ pair, LoadedAlike point (load pair) (load' pair)) (start : String)
    (dirs : List Path) : FoundAlike point (Compiler.loadFirst fs start load dirs)
      (Compiler.loadFirst fs start load' dirs) := by
  induction dirs with
  | nil => exact .error _
  | cons dir dirs ih =>
    rw [Compiler.loadFirst, Compiler.loadFirst]
    cases Compiler.findPair fs dir start with
    | none => exact ih
    | some pair =>
      have alike := h pair
      dsimp only
      generalize load pair = answer at alike ⊢
      generalize load' pair = answer' at alike ⊢
      cases alike with
      | ok same => exact .ok same
      | error e =>
        cases e with
        | crash message => exact .error _
        | error causes =>
          -- the search goes on, and keeps this error unless a later directory crashes
          dsimp only
          generalize Compiler.loadFirst fs start load dirs = found at ih ⊢
          generalize Compiler.loadFirst fs start load' dirs = found' at ih ⊢
          cases ih with
          | ok same => exact .ok same
          | error e => cases e <;> exact .error _

theorem FoundAlike.mapError {x x' : Except ε Loaded} (h : FoundAlike point x x') (f : ε → γ) :
    FoundAlike point (x.mapError f) (x'.mapError f) := by
  cases h with
  | ok same => exact .ok same
  | error e => exact .error _

theorem setup_congr [Engine] (h : ∀ pair, LoadedAlike plan.point (load pair) (load' pair)) :
    plan.setup fs load = plan.setup fs load' := by
  have found : FoundAlike plan.point (plan.search.load fs load) (plan.search.load fs load') :=
    (loadFirst_alike h _ _).mapError _
  rw [Plan.setup_eq, Plan.setup_eq, Plan.load, Plan.load]
  generalize plan.search.load fs load = x at found ⊢
  generalize plan.search.load fs load' = x' at found ⊢
  cases found with
  | error e => rfl
  | @ok pair c c' same =>
    dsimp only
    obtain ⟨e, he, he'⟩ | ⟨d, d', hd, hd', answers⟩ := Compiler.withProfile_alike same pair
    · rw [he, he']
    · rw [hd, hd']
      funext i
      exact congrArg Except.ok (funext fun t =>
        congrArg (Except.mapError _) (t.run_congr answers plan.entry))

end Alike

namespace Plan

section

variable [Engine]

def callsIn (plan : Plan) (fs : Files) (loads : Nat → Loader)
    (log : List (Entry TestCase WorkerError)) (i : Nat) : List Call :=
  match plan.load fs (loads i) with
  | .error _ => []
  | .ok c => (ranBy i log).flatMap fun t => ((plan.runIn c c.capabilities.recording t.2).run []).2

variable {plan : Plan} {fs : Files} {load : Loader} {loads : Nat → Loader} {tests : List TestCase}
  {workers : Nat} {log : List (Entry TestCase WorkerError)}
  {s : System TestCase TestResult WorkerError}

theorem setupEach_of_load_error {i : Nat} {e : WorkerError}
    (h : plan.load fs (loads i) = .error e) : plan.setupEach fs loads i = .error e := by
  rw [setupEach, setup_eq, h]
  rfl

theorem callsIn_eq
    (h : System.Logged (plan.setupEach fs loads) (.start (shard tests workers)) log s) (i : Nat) :
    plan.callsIn fs loads log i = callsOf plan.point (ranBy i log) := by
  rw [callsIn]
  cases hc : plan.load fs (loads i) with
  | error e =>
    rw [h.ranBy_of_setup_error (setupEach_of_load_error hc)]
    rfl
  | ok c =>
    refine congrArg (List.flatMap · (ranBy i log)) (funext fun t => ?_)
    rw [runIn_recording hc]
    rfl

theorem run_of_one {processors : Nat}
    (h : effectiveWorkers plan.jobs processors tests.length = 1) :
    plan.run fs load processors tests = (((plan.setup fs load).work 0 (indexed tests)).mapError
      .serial).map fun results => Report.of (merge plan.order results) := by
  simp only [run, h, if_true, Setup.work]
  cases plan.setup fs load 0 <;> rfl

theorem inevitably_error_of_load_error (processors : Nat) {e : WorkerError}
    (h : plan.load fs load = .error e) :
    plan.Inevitably fs load processors tests fun outcome => ∃ e, outcome = .error e := by
  have fails (i : Nat) : plan.setup fs load i = .error e := by
    rw [setup_eq, h]
    rfl
  rw [Inevitably]
  split
  · next one =>
    rw [run_of_one one, Setup.work_of_error (fails 0)]
    exact ⟨_, rfl⟩
  · exact System.inevitably_of_setup_error tests _ (fun i => ⟨e, fails i⟩) fun f => ⟨_, rfl⟩

/-- Whatever workers do in a run, alone or with others, they ask for the code of tests at the entry
point of the plan, and compilers that differ elsewhere make no difference. A compiler that has no
such entry point makes a run fail before anything is asked, whatever tests there are. -/
theorem calls_at_point (plan : Plan) (fs : Files) (loads : Nat → Loader) (tests : List TestCase) :
    (∀ workers log s,
      System.Logged (plan.setupEach fs loads) (.start (shard tests workers)) log s → ∀ i,
        plan.callsIn fs loads log i = callsOf plan.point (ranBy i log) ∧
        ∀ call ∈ plan.callsIn fs loads log i, call.point = plan.point) ∧
    (∀ i processors, effectiveWorkers plan.jobs processors tests.length = 1 → ∃ outcome calls,
      (plan.workIn fs (loads i) Capabilities.recording (indexed tests)).run [] = (outcome, calls) ∧
      plan.workIn fs (loads i) Capabilities.silent (indexed tests) = outcome ∧
      plan.run fs (loads i) processors tests =
        (outcome.mapError .serial).map (fun results => Report.of (merge plan.order results)) ∧
      (∀ call ∈ calls, call.point = plan.point) ∧
      ∀ results, outcome = .ok results → calls = callsOf plan.point (indexed tests)) ∧
    (∀ loads' : Nat → Loader, (∀ i pair, LoadedAlike plan.point (loads i pair) (loads' i pair)) →
      plan.setupEach fs loads = plan.setupEach fs loads') ∧
    (plan.profile.isSome = true →
      (∀ i c, plan.search.load fs (loads i) = .ok c → c.capabilities.compileFor = none) →
      (∀ workers, System.Inevitably (plan.setupEach fs loads) (fun r => ∃ f, r = .error f)
        (.start (shard tests workers))) ∧
      (∀ workers log s,
        System.Logged (plan.setupEach fs loads) (.start (shard tests workers)) log s → ∀ i,
          ranBy i log = [] ∧ plan.callsIn fs loads log i = []) ∧
      ∀ i processors,
        plan.Inevitably fs (loads i) processors tests (fun outcome => ∃ e, outcome = .error e) ∧
        ((plan.workIn fs (loads i) Capabilities.recording (indexed tests)).run []).2 = []) := by
  refine ⟨fun workers log s h i => ⟨callsIn_eq h i, fun call hcall => ?_⟩,
    fun i processors one => ?_, fun loads' alike => ?_, fun hp unknown => ?_⟩
  · rw [callsIn_eq h] at hcall
    exact point_of_mem_callsOf hcall
  · obtain ⟨ran, -, hrun, -, hall⟩ := workIn_recording plan fs (loads i) 0 (indexed tests)
    exact ⟨_, _, hrun, workIn_silent 0 _, run_of_one one, fun _ => point_of_mem_callsOf,
      fun results ok => by rw [hall results ok]⟩
  · funext i
    exact congrFun (setup_congr (alike i)) i
  · have fails (i : Nat) := load_error_of_unknown hp (unknown i)
    have unset (i : Nat) : ∃ e, plan.setupEach fs loads i = .error e := by
      obtain ⟨e, he⟩ := fails i
      exact ⟨e, setupEach_of_load_error he⟩
    refine ⟨fun workers => System.inevitably_of_setup_error tests workers unset fun f => ⟨f, rfl⟩,
      fun workers log s h i => ?_, fun i processors => ⟨?_, ?_⟩⟩
    · obtain ⟨e, he⟩ := unset i
      have idle := h.ranBy_of_setup_error he
      rw [callsIn_eq h, idle]
      exact ⟨rfl, rfl⟩
    · obtain ⟨e, he⟩ := fails i
      exact inevitably_error_of_load_error processors he
    · obtain ⟨ran, -, hrun, none, -⟩ := workIn_recording plan fs (loads i) 0 (indexed tests)
      rw [hrun, none (fails i)]
      rfl

end

namespace Sample

def plan : Plan := ⟨⟨none, ⟨"/"⟩, none, ""⟩, some 1, "main", some "debug", .shard⟩

def files : Files := ⟨[(["a.js"], .file []), (["a_bg.wasm"], .file [])], []⟩

def pair : Compiler.ArtifactPair := ⟨⟨"/a.js"⟩, ⟨"/a_bg.wasm"⟩⟩

def test (tag : String) : TestCase :=
  ⟨.fencedBlock, "a.n.md", "nmd:a.n.md:0", 1, ⟨[tag]⟩, none, none, none, none, "code"⟩

theorem search_load {load : Loader} {c : Capabilities} (h : load pair = .ok c) :
    plan.search.load files load = .ok ⟨pair, c, none⟩ := by
  have names : Compiler.artifactNames files ⟨"/"⟩ "" = ["a.js", "a_bg.wasm"] :=
    Compiler.artifactNames_of_listed files _ _ rfl rfl (.refl _) (by decide)
  have found : Compiler.findPair files ⟨"/"⟩ "" = some pair := by
    rw [Compiler.findPair_eq, names]
    rfl
  have ranked : plan.search.ranked = [] ++ ⟨"/"⟩ :: [⟨"/dist"⟩, ⟨"/web/dist"⟩] := by decide
  exact (Compiler.Search.Outcome.loaded ranked nofun found h).load_eq

def known : Capabilities := ⟨fun _ => .ok [], some fun _ _ => .ok []⟩

def other : Capabilities := ⟨fun _ => .error (.error "plain"), some fun _ _ => .ok []⟩

def unknown : Capabilities := ⟨fun _ => .ok [], none⟩

def run (t : TestCase) : Except WorkerError TestResult :=
  (t.run ⟨pair, known, some "debug"⟩ "main").mapError fun e => .crashed e.message

theorem setupEach_known : plan.setupEach files (fun _ _ => .ok known) = fun _ => .ok run := by
  have loaded : plan.load files (fun _ => .ok known) = .ok ⟨pair, known, some "debug"⟩ :=
    load_eq_ok_iff.2 ⟨_, search_load rfl, fun _ => rfl, rfl⟩
  funext i
  rw [setupEach, setup_eq, loaded]
  rfl

def tests : List TestCase := [test "skip", test "compile_ok"]

def whole : List (Entry TestCase WorkerError) × System TestCase TestResult WorkerError :=
  System.follow (fun _ => .ok run)
    [.worker 0, .worker 1, .worker 1, .worker 0, .worker 1, .worker 0] ([], .start (shard tests 2))

theorem ranBy_whole : ranBy 0 whole.1 = [(0, test "skip")] ∧
    ranBy 1 whole.1 = [(1, test "compile_ok")] := by
  decide +kernel

end Sample

theorem calls_at_point_debug :
    let plan := Sample.plan
    let files := Sample.files
    let loads (c : Capabilities) : Nat → Loader := fun _ _ => .ok c
    (∃ log s, System.Logged (plan.setupEach files (loads Sample.known))
        (.start (shard Sample.tests 2)) log s ∧
      ranBy 0 log = [(0, Sample.test "skip")] ∧ plan.callsIn files (loads Sample.known) log 0 = [] ∧
      plan.callsIn files (loads Sample.known) log 1 = [⟨.profile "debug", "code"⟩]) ∧
    (effectiveWorkers plan.jobs 4 Sample.tests.length = 1 ∧
      ∀ call ∈ ((plan.workIn files (loads Sample.known 0) Capabilities.recording
        (indexed Sample.tests)).run []).2, call.point = .profile "debug") ∧
    (LoadedAlike plan.point (.ok Sample.known) (.ok Sample.other) ∧
      plan.setupEach files (loads Sample.known) = plan.setupEach files (loads Sample.other)) ∧
    plan.profile.isSome = true ∧
    (∀ c, plan.search.load files (loads Sample.unknown 0) = .ok c →
      c.capabilities.compileFor = none) ∧
    ∃ e, plan.run files (loads Sample.unknown 0) 4 [] = .error e := by
  intro plan files loads
  obtain ⟨logged, alone, alike, -⟩ :=
    calls_at_point plan files (loads Sample.known) Sample.tests
  have same : LoadedAlike plan.point (.ok Sample.known) (.ok Sample.other) := .ok rfl
  have lacking (c : Loaded) (h : plan.search.load files (loads Sample.unknown 0) = .ok c) :
      c.capabilities.compileFor = none := by
    obtain rfl := Except.ok.inj ((Sample.search_load rfl).symm.trans h)
    rfl
  refine ⟨?_, ⟨rfl, ?_⟩, ⟨same, alike _ fun _ _ => same⟩, rfl, lacking, ?_⟩
  · have h : System.Logged (plan.setupEach files (loads Sample.known))
        (.start (shard Sample.tests 2)) Sample.whole.1 Sample.whole.2 := by
      rw [show plan.setupEach files (loads Sample.known) = _ from Sample.setupEach_known]
      exact System.Logged.start.follow _
    refine ⟨_, _, h, Sample.ranBy_whole.1, ?_, ?_⟩
    · rw [(logged 2 _ _ h 0).1, Sample.ranBy_whole.1]
      decide +kernel
    · rw [(logged 2 _ _ h 1).1, Sample.ranBy_whole.2]
      decide +kernel
  · obtain ⟨outcome, calls, hrun, -, -, points, -⟩ := alone 0 4 rfl
    rw [hrun]
    exact points
  · have fails := (calls_at_point plan files (loads Sample.unknown) []).2.2.2 rfl fun _ => lacking
    exact (fails.2.2 0 4).1.run

end Plan

end Doctest.Schedule
