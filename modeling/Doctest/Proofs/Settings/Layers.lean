import Doctest.Proofs.Document.Values
import Doctest.Proofs.Settings.Fields
import Doctest.Proofs.Text.Utf8
import Doctest.Session

/-! Layers of settings. A settings file, the environment and the command line each say something
about some of the fields. A field has its value from the first of them that says anything about it,
flags before variables and variables before the file, and none of its value from what is said about
another. A number of jobs in the environment that is none is refused, whatever flags say. -/

namespace Doctest

open Decimal (NatText)
open Json (Value)
open Text (Blank)

namespace Settings

abbrev Layer := (f : Field) → Option f.Held

def Layer.over (l : Layer) (values : Values) : Values := fun f => (l f).getD (values f)

theorem foldr_over (layers : List Layer) (values : Values) (f : Field) :
    layers.foldr Layer.over values f = (layers.findSome? (· f)).getD (values f) := by
  induction layers with
  | nil => rfl
  | cons l layers ih =>
    rw [List.foldr_cons, Layer.over, ih, List.findSome?_cons]
    cases l f <;> rfl

def recordLayer (v : Value) : Layer := fun f => (v.written? f.place f.key).bind f.read?

theorem get_of_ofJson? {v : Value} {s : Settings} (h : ofJson? v = some s) :
    s.get = (recordLayer v).over default.get := by
  funext f
  have read := slot_of_ofJson? h f
  rw [Layer.over, recordLayer]
  cases hw : v.written? f.place f.key with
  | none =>
    rw [hw] at read
    exact (Option.some.inj read).symm
  | some x =>
    rw [hw, slot] at read
    rw [Option.bind_some, read, Option.getD_some]

inductive Holds (fs : Files) (p : Path) (v : Value) : Prop
  | mk {text : List Char} {s : Settings} :
      fs.readText p = .ok text → Value.ofChars? text = .ok v → ofJson? v = some s → Holds fs p v

inductive FileLayer (fs : Files) (workingDir : Path) : Option Path → Layer → Prop
  | absent : fs.isFile (workingDir.join usualFile) = false →
      FileLayer fs workingDir none fun _ => none
  | usual {v : Value} : Holds fs (workingDir.join usualFile) v →
      FileLayer fs workingDir none (recordLayer v)
  | given {p : Path} {v : Value} : Holds fs (workingDir.join p) v →
      FileLayer fs workingDir (some p) (recordLayer v)

theorem lookup_of_readText {fs : Files} {p : Path} {text : List Char}
    (h : fs.readText p = .ok text) : ∃ bytes, fs.lookup p = .ok (.file bytes) := by
  cases found : fs.lookup p with
  | error e => simp [Files.readText, Files.read, found, bind, Except.bind] at h
  | ok entry =>
    cases entry with
    | file bytes => exact ⟨bytes, rfl⟩
    | directory => simp [Files.readText, Files.read, found, bind, Except.bind] at h

namespace Holds

variable {fs : Files} {p : Path} {v : Value}

theorem isFile (h : Holds fs p v) : fs.isFile p = true := by
  obtain ⟨text, -, -⟩ := h
  obtain ⟨bytes, found⟩ := lookup_of_readText text
  rw [Files.isFile, found]

theorem load (h : Holds fs p v) :
    ∃ s, Settings.load fs p = .ok s ∧ s.get = (recordLayer v).over default.get := by
  obtain ⟨text, value, record⟩ := h
  obtain ⟨bytes, found⟩ := lookup_of_readText text
  have present : fs.isPresent p = true := by rw [Files.isPresent, found]; rfl
  refine ⟨_, ?_, get_of_ofJson? record⟩
  simp [Settings.load, present, text, value, record]

end Holds

theorem ofFile_of_fileLayer {fs : Files} {workingDir : Path} {file : Option Path} {l : Layer}
    (h : FileLayer fs workingDir file l) :
    ∃ s, ofFile fs workingDir file = .ok s ∧ s.get = l.over default.get := by
  cases h with
  | absent none => exact ⟨default, by simp [ofFile, none], rfl⟩
  | usual holds =>
    obtain ⟨s, loaded, values⟩ := holds.load
    exact ⟨s, by simp [ofFile, holds.isFile, loaded], values⟩
  | given holds => exact holds.load

inductive JobsText : List Char → Nat → Prop
  | mk {before t after : List Char} {n : Nat} :
      Blank before → NatText t n → n < 2 ^ wordSize → Blank after →
      JobsText (before ++ (t ++ after)) n

theorem jobsText_iff {s : List Char} {n : Nat} :
    JobsText s n ↔ Decimal.unsigned? wordSize (Text.trim s) = some n := by
  rw [Decimal.unsigned?_eq_some_iff]
  constructor
  · rintro ⟨hbefore, text, bound, hafter⟩
    rw [Text.trim_between hbefore hafter, trim_of_intText text.intText]
    exact ⟨text, bound⟩
  · rintro ⟨text, bound⟩
    obtain ⟨before, hbefore, start⟩ := Text.exists_trimStart s
    obtain ⟨after, hafter, rest⟩ := Text.exists_trimEnd (Text.trimStart s)
    rw [start, rest]
    exact .mk hbefore text bound hafter

inductive JobsGiven (env : Environment) : Option Nat → Prop
  | unset : env "NMTEST_JOBS" = none → JobsGiven env none
  | set {text : String} {n : Nat} :
      env "NMTEST_JOBS" = some text → JobsText text.toList n → JobsGiven env (some n)

def variableLayer (env : Environment) (jobs : Option Nat) : Layer
  | .compilerDir => ((env "NMTEST_COMPILER_DIR").map Path.mk).map some
  | .installDir => ((env "NMTEST_INSTALL_DIR").map Path.mk).map some
  | .jobs => jobs.map some
  | .profile => (env "NMTEST_PROFILE").map fun name => if name = "" then none else some name
  | .nodeCommand => env "NMTEST_NODE"
  | .entryExport | .artifactPrefix | .resultOrder => none

theorem applyJobs_of_jobsGiven {env : Environment} {jobs : Option Nat} (h : JobsGiven env jobs)
    (s : Settings) : s.applyJobs env = .ok { s with jobs := jobs <|> s.jobs } := by
  cases h with
  | unset none => rw [applyJobs, none]; rfl
  | set hset text =>
    simp only [applyJobs, hset, jobsText_iff.1 text]
    rfl

theorem getD_map_some {α : Type} (x y : Option α) : (x.map some).getD y = (x <|> y) := by
  cases x <;> rfl

theorem getD_profile (given profile : Option String) :
    (given.map fun name => if name = "" then none else some name).getD profile =
      match given with
      | some "" => none
      | some name => some name
      | none => profile := by
  split
  · rfl
  · next nonempty => simpa using nonempty
  · rfl

theorem get_of_applyEnv {env : Environment} {jobs : Option Nat} (h : JobsGiven env jobs)
    (s : Settings) :
    ∃ s', s.applyEnv env = (s', none) ∧ s'.get = (variableLayer env jobs).over s.get := by
  have applied : s.applyEnv env =
      (({ s.applyDirs env with jobs := jobs <|> s.jobs } : Settings).applyNames env, none) := by
    rw [applyEnv, applyJobs_of_jobsGiven h]
    rfl
  refine ⟨_, applied, ?_⟩
  funext f
  cases f with
  | compilerDir | installDir | jobs => exact (getD_map_some _ _).symm
  | profile => exact (getD_profile _ _).symm
  | entryExport | nodeCommand | artifactPrefix | resultOrder => rfl

theorem applyEnv_of_bad {env : Environment} (h : ∀ jobs, ¬ JobsGiven env jobs) :
    ∃ text, env "NMTEST_JOBS" = some text ∧
      ∀ s : Settings, (s.applyEnv env).2 = some (.badJobs text) := by
  cases hset : env "NMTEST_JOBS" with
  | none => exact absurd (.unset hset) (h none)
  | some text =>
    refine ⟨text, rfl, fun s => ?_⟩
    have refused : Decimal.unsigned? wordSize (Text.trim text.toList) = none := by
      rw [Option.eq_none_iff_forall_ne_some]
      exact fun n number => h (some n) (.set hset (jobsText_iff.2 number))
    simp [applyEnv, applyJobs, hset, refused]

def flagLayer (c : CommandLine) : Layer
  | .compilerDir => c.compilerDir.map some
  | .installDir => c.installDir.map some
  | .jobs => c.jobs.map some
  | .profile => c.profile.map some
  | .entryExport => c.entry
  | .resultOrder => c.resultOrder
  | .nodeCommand | .artifactPrefix => none

theorem get_apply (c : CommandLine) (s : Settings) :
    (c.apply s).get = (flagLayer c).over s.get := by
  funext f
  cases f with
  | compilerDir | installDir | jobs | profile => exact (getD_map_some _ _).symm
  | entryExport | resultOrder | nodeCommand | artifactPrefix => rfl

/-- The layers of a session, those that go before others first. -/
inductive Layers (c : CommandLine) (w : Surroundings) : List Layer → Prop
  | mk {jobs : Option Nat} {written : Layer} :
      JobsGiven w.environment jobs → FileLayer w.files w.workingDir c.config written →
      Layers c w [flagLayer c, variableLayer w.environment jobs, written]

end Settings

namespace CommandLine

open Settings

def layered (c : CommandLine) (w : Surroundings) : Except SettingsError Settings :=
  (ofLayers w.files w.workingDir c.config w.environment).map c.apply

theorem settings_eq (c : CommandLine) (w : Surroundings) : c.settings w =
    (c.layered w).map fun s => { s with installDir := s.installDir <|> w.ownDir } := by
  rw [settings, layered]
  cases ofLayers w.files w.workingDir c.config w.environment <;> rfl

theorem layered_eq (c : CommandLine) (w : Surroundings) : c.layered w =
    (ofFile w.files w.workingDir c.config).bind fun s =>
      match s.applyEnv w.environment with
      | (s, none) => .ok (c.apply s)
      | (_, some e) => .error e := by
  rw [layered, ofLayers]
  cases ofFile w.files w.workingDir c.config with
  | error e => rfl
  | ok s =>
    simp only [bind, Except.bind]
    obtain ⟨s', refused⟩ := s.applyEnv w.environment
    cases refused <;> rfl

variable {c : CommandLine} {w : Surroundings}

theorem get_of_layers {layers : List Layer} (h : Layers c w layers) :
    ∃ s, c.layered w = .ok s ∧
      ∀ f, s.get f = (layers.findSome? (· f)).getD (default.get f) := by
  obtain ⟨hjobs, hfile⟩ := h
  obtain ⟨base, hbase, values⟩ := ofFile_of_fileLayer hfile
  obtain ⟨s, hs, values'⟩ := get_of_applyEnv hjobs base
  refine ⟨c.apply s, ?_, fun f => ?_⟩
  · simp only [layered_eq, hbase, Except.bind, hs]
  · rw [← foldr_over, get_apply, values', values]
    rfl

theorem error_of_bad (h : ∀ jobs, ¬ JobsGiven w.environment jobs) :
    ∃ text, w.environment "NMTEST_JOBS" = some text ∧
      c.layered w =
        (ofFile w.files w.workingDir c.config).bind fun _ => .error (.badJobs text) := by
  obtain ⟨text, hset, refused⟩ := applyEnv_of_bad h
  refine ⟨text, hset, ?_⟩
  rw [layered_eq]
  congr 1
  funext s
  have bad := refused s
  split
  · next none => rw [none] at bad; cases bad
  · next some => rw [some] at bad; exact congrArg Except.error (Option.some.inj bad)

/-- Each field has its value from the first layer that says anything about it, or its default. So
whatever else is said, what is said about a field alone tells its value. A number of jobs in the
environment that is none is an error, whatever the other layers say, and is told as such where
there is no other. -/
theorem layered_precedence (c : CommandLine) (w : Surroundings) :
    (∀ layers, Layers c w layers → ∃ s, c.layered w = .ok s ∧
      ∀ f, s.get f = (layers.findSome? (· f)).getD (default.get f)) ∧
    (∀ layers c' w' layers' s s', Layers c w layers → Layers c' w' layers' →
      c.layered w = .ok s → c'.layered w' = .ok s' →
      ∀ f, layers'.map (· f) = layers.map (· f) → s'.get f = s.get f) ∧
    ((∀ jobs, ¬ JobsGiven w.environment jobs) →
      (∃ e, c.layered w = .error e) ∧ (∃ e, c.settings w = .error e) ∧
      ∀ written, FileLayer w.files w.workingDir c.config written → ∃ text,
        w.environment "NMTEST_JOBS" = some text ∧ c.layered w = .error (.badJobs text)) := by
  refine ⟨fun layers h => get_of_layers h,
    fun layers c' w' layers' s s' h h' hs hs' f same => ?_, fun bad => ?_⟩
  · obtain ⟨t, ht, values⟩ := get_of_layers h
    obtain ⟨t', ht', values'⟩ := get_of_layers h'
    obtain rfl := Except.ok.inj (hs.symm.trans ht)
    obtain rfl := Except.ok.inj (hs'.symm.trans ht')
    have alike := congrArg (List.findSome? id) same
    simp only [List.findSome?_map, Function.id_comp] at alike
    rw [values, values', alike]
  · obtain ⟨text, hset, fails⟩ := error_of_bad (c := c) bad
    have layered : ∃ e, c.layered w = .error e := by
      rw [fails]
      cases ofFile w.files w.workingDir c.config <;> exact ⟨_, rfl⟩
    refine ⟨layered, ?_, fun written hfile => ⟨text, hset, ?_⟩⟩
    · obtain ⟨e, he⟩ := layered
      exact ⟨e, by rw [settings_eq, he]; rfl⟩
    · obtain ⟨s, hs, -⟩ := ofFile_of_fileLayer hfile
      rw [fails, hs]
      rfl

namespace Layered

def content : String :=
  "\x7b\"profile\":\"debug\",\"entry_export\":\"start\",\"node_command\":\"deno\"\x7d"

def record : Value :=
  .object [("profile", .string "debug"), ("entry_export", .string "start"),
    ("node_command", .string "deno")]

def around (jobs : String) : Surroundings where
  files := ⟨[(["a.json"], .file (Text.Utf8.encodeString content))], []⟩
  workingDir := ⟨"/"⟩
  environment := fun name =>
    if name = "NMTEST_JOBS" then some jobs else if name = "NMTEST_PROFILE" then some "" else none
  ownDir := none
  processors := 1
  launcher := fun _ => .ended 0 [] []

def flags (jobs : Option Nat) : CommandLine :=
  { empty with config := some ⟨"a.json"⟩, entry := some "go", jobs := jobs }

theorem holds (jobs : String) : Holds (around jobs).files ⟨"/a.json"⟩ record := by
  have read : (around jobs).files.read ⟨"/a.json"⟩ = .ok (Text.Utf8.encodeString content) := rfl
  have text : (around jobs).files.readText ⟨"/a.json"⟩ = .ok content.toList := by
    simp [Files.readText, read, Text.Utf8.decode?, Text.Utf8.encodeString, bind, Except.bind]
  have value : Value.ofChars? content.toList = .ok record := by cbv
  exact .mk text value rfl

theorem layers (jobs : Option Nat) : Layers (flags jobs) (around " +03\n")
    [flagLayer (flags jobs), variableLayer (around " +03\n").environment (some 3),
      recordLayer record] :=
  .mk (.set rfl (jobsText_iff.2 (by decide))) (.given (holds _))

end Layered

theorem layered_precedence_each :
    (∃ layers, Layers (Layered.flags (some 4)) (Layered.around " +03\n") layers) ∧
    (∃ s s', (Layered.flags (some 4)).layered (Layered.around " +03\n") = .ok s ∧
      (Layered.flags none).layered (Layered.around " +03\n") = .ok s' ∧
      s.jobs = some 4 ∧ s'.jobs = some 3 ∧ s.profile = none ∧ s'.profile = s.profile ∧
      s.entryExport = "go" ∧ s.nodeCommand = "deno" ∧ s.artifactPrefix = "nepl-web-") ∧
    (∀ jobs, ¬ JobsGiven (Layered.around "-3").environment jobs) ∧
    ∃ e, (Layered.flags (some 4)).layered (Layered.around "-3") = .error e := by
  have layers := Layered.layers
  obtain ⟨each, alone, -⟩ := layered_precedence (Layered.flags (some 4)) (Layered.around " +03\n")
  obtain ⟨s, hs, values⟩ := each _ (layers _)
  obtain ⟨s', hs', values'⟩ := (layered_precedence (Layered.flags none) _).1 _ (layers _)
  have profile := alone _ _ _ _ _ _ (layers _) (layers none) hs hs' .profile rfl
  have bad (jobs : Option Nat) : ¬ JobsGiven (Layered.around "-3").environment jobs := by
    rintro (unset | ⟨hset, text⟩)
    · cases unset
    · cases hset
      rw [jobsText_iff] at text
      exact absurd (Option.isSome_of_eq_some text) (by decide)
  refine ⟨⟨_, layers _⟩, ⟨s, s', hs, hs', values .jobs, values' .jobs, values .profile, profile,
    values .entryExport, values .nodeCommand, values .artifactPrefix⟩, bad, ?_⟩
  exact ((layered_precedence (Layered.flags (some 4)) (Layered.around "-3")).2.2 bad).1

end CommandLine

end Doctest
