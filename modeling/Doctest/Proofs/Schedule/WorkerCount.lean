import Doctest.Proofs.Schedule.Completeness
import Doctest.Proofs.Schedule.Termination

namespace Doctest.Schedule

open Compiler (Loaded Loader)
open Guest (Engine)

variable {α β ε : Type}

theorem exists_map_ok {f : α → Except ε β} {l : List α} (h : ∀ a ∈ l, ∃ b, f a = .ok b) :
    ∃ bs : List β, l.map f = bs.map .ok := by
  induction l with
  | nil => exact ⟨[], rfl⟩
  | cons a l ih =>
    obtain ⟨b, hb⟩ := h a List.mem_cons_self
    obtain ⟨bs, hbs⟩ := ih fun c hc => h c (List.mem_cons_of_mem a hc)
    exact ⟨b :: bs, by simp [hb, hbs]⟩

theorem ok_of_map_ok {f : α → Except ε β} {l : List α} {bs : List β}
    (h : l.map f = bs.map .ok) {a : α} (ha : a ∈ l) : ∃ b, f a = .ok b := by
  have answered : f a ∈ bs.map Except.ok := h ▸ List.mem_map_of_mem ha
  obtain ⟨b, _, hb⟩ := List.mem_map.1 answered
  exact ⟨b, hb.symm⟩

theorem indexed_map_ok {run : α → Except ε β} {items : List α} {rs : List β}
    (h : items.map run = rs.map .ok) :
    (indexed items).map (fun t => (t.1, run t.2)) = (indexed rs).map succeeded := by
  rw [← indexed_map, h, indexed_map]
  rfl

theorem exists_results {run : α → Except ε β} {items : List α} {done : List (Indexed β)}
    (h : (done.map succeeded).Perm ((indexed items).map fun t => (t.1, run t.2))) :
    ∃ rs : List β, items.map run = rs.map .ok ∧ done.Perm (indexed rs) := by
  obtain ⟨rs, hrs⟩ : ∃ rs : List β, items.map run = rs.map .ok := by
    apply exists_map_ok
    intro a ha
    obtain ⟨i, hi⟩ := List.mem_iff_getElem?.1 ha
    have answered := List.mem_map_of_mem (f := fun t => (t.1, run t.2)) (mem_indexed.2 hi)
    obtain ⟨d, _, hd⟩ := List.mem_map.1 (h.mem_iff.2 answered)
    exact ⟨d.2, (congrArg Prod.snd hd).symm⟩
  refine ⟨rs, hrs, ?_⟩
  rw [indexed_map_ok hrs] at h
  exact (List.map_perm_map_iff succeeded_injective).1 h

theorem runSerially_indexed_iff {run : α → Except ε β} {items : List α}
    {done : List (Indexed β)} : runSerially run (indexed items) = .ok done ↔
      ∃ rs : List β, items.map run = rs.map .ok ∧ done = indexed rs := by
  rw [runSerially_eq_ok_iff]
  constructor
  · intro h
    obtain ⟨rs, hrs, _⟩ := exists_results (.of_eq h.symm)
    rw [indexed_map_ok hrs] at h
    exact ⟨rs, hrs, (List.map_injective_iff.2 succeeded_injective h).symm⟩
  · rintro ⟨rs, hrs, rfl⟩
    exact indexed_map_ok hrs

section Alike

variable {x : Except ε (α → Except ε β)} {items : List α} {k : Nat}

theorem whole_of_alike (hk : 0 < k) {parts : List (List (Indexed β))}
    (h : (shard items k).mapIdx (Setup.work fun _ => x) = parts.map .ok) :
    ∃ run rs, x = .ok run ∧ items.map run = rs.map .ok ∧ parts.flatten.Perm (indexed rs) := by
  have hlen : (shard items k).length = parts.length := by
    simpa using congrArg List.length h
  have first : 0 < parts.length := by
    rw [← hlen, length_shard]
    omega
  obtain ⟨_, _, hwork⟩ := getElem?_of_whole h (List.getElem?_eq_getElem first)
  obtain ⟨run, rfl, _⟩ := Setup.work_eq_ok_iff.1 hwork
  have answers : (shard items k).flatten.map (fun t => (t.1, run t.2)) =
      parts.flatten.map succeeded := by
    rw [List.map_flatten, List.map_flatten]
    congr 1
    refine List.ext_getElem (by simp [hlen]) fun i hi _ => ?_
    have inside : i < parts.length := by simpa [hlen] using hi
    obtain ⟨part, hp, hw⟩ := getElem?_of_whole h (List.getElem?_eq_getElem inside)
    rw [List.getElem?_eq_getElem (hlen ▸ inside), Option.some.injEq] at hp
    rw [Setup.work_of_ok rfl, runSerially_eq_ok_iff, ← hp] at hw
    simpa using hw
  obtain ⟨rs, hrs, hperm⟩ := exists_results <| by
    rw [← answers]
    exact (flatten_shard_perm hk).map _
  exact ⟨run, rs, rfl, hrs, hperm⟩

theorem work_ne_error {run : α → Except ε β} {rs : List β} (hrs : items.map run = rs.map .ok)
    {i : Nat} {part : List (Indexed α)} (hk : 0 < k) (hp : (shard items k)[i]? = some part)
    (e : ε) : Setup.work (fun _ => .ok run) i part ≠ .error e := by
  obtain ⟨done, hdone⟩ : ∃ done : List (Indexed β),
      part.map (fun t => (run t.2).map (t.1, ·)) = done.map .ok := by
    apply exists_map_ok
    rintro ⟨j, a⟩ hj
    have hmem := List.mem_of_getElem? (mem_of_getElem?_shard hk hp hj).2
    obtain ⟨b, hb⟩ := ok_of_map_ok hrs hmem
    exact ⟨(j, b), by simp only [hb, Except.map]⟩
  rw [Setup.work_of_ok rfl, runSerially_eq_mapM, mapM_eq_ok_iff.2 hdone]
  nofun

variable {s : System α β ε}

theorem results_of_alike (hk : 0 < k)
    (hs : System.Reaches (fun _ => x) (.start (shard items k)) s)
    {results : List (Indexed β)} (hr : s.coordinator = .finished (.ok results)) :
    ∃ run rs, x = .ok run ∧ items.map run = rs.map .ok ∧ results.Perm (indexed rs) ∧
      results.Pairwise fun a b => before k a.1 b.1 := by
  obtain ⟨_, parts, hwhole, rfl⟩ := hs.invariant_start.concluded.ok results hr
  obtain ⟨run, rs, hx, hrs, hperm⟩ := whole_of_alike hk hwhole
  refine ⟨run, rs, hx, hrs, hperm, ?_⟩
  have dealt : ((shard items k).flatten.map Prod.fst).Pairwise fun i j => before k i j :=
    List.pairwise_map.2 (flatten_shard_pairwise hk)
  rw [← map_fst_of_whole hwhole] at dealt
  exact List.pairwise_map.1 dealt

theorem not_failed_of_alike (hk : 0 < k)
    (hs : System.Reaches (fun _ => x) (.start (shard items k)) s) {run : α → Except ε β}
    {rs : List β} (hx : x = .ok run) (hrs : items.map run = rs.map .ok) (f : RunFailure ε) :
    s.coordinator ≠ .finished (.error f) := by
  intro hf
  obtain ⟨i, e, part, _, hpart, herr⟩ := hs.invariant_start.concluded.error f hf
  subst hx
  exact work_ne_error hrs hk hpart e herr

end Alike

def Plan.Ready (plan : Plan) (fs : Files) (load : Loader) (tests : List TestCase) : Prop :=
  ∃ c, plan.search.load fs load = .ok c ∧
    (plan.profile.isSome → c.capabilities.compileFor.isSome) ∧
    ∀ t ∈ tests, t.attributes.has .skip = false →
      ∀ message, { c with profile := plan.profile }.compile t.code ≠ .error (.crash message)

def Plan.conclude (plan : Plan)
    (r : Except (RunFailure WorkerError) (List (Indexed TestResult))) : Except RunError Report :=
  (r.mapError .sharded).map fun results => Report.of (merge plan.order results)

variable {plan : Plan} {fs : Files} {load : Loader} {tests : List TestCase}

theorem Plan.load_eq_ok_iff {c' : Loaded} : plan.load fs load = .ok c' ↔
    ∃ c, plan.search.load fs load = .ok c ∧
      (plan.profile.isSome → c.capabilities.compileFor.isSome) ∧
      c' = { c with profile := plan.profile } := by
  simp only [Plan.load]
  match plan.search.load fs load with
  | .error (.error e) => simp
  | .error (.crash message) => simp
  | .ok c =>
    simp only [Loaded.withProfile]
    cases hp : plan.profile <;> cases hc : c.capabilities.compileFor <;>
      simp [Except.mapError, hc]
    all_goals exact eq_comm

theorem mapError_eq_ok_iff {δ : Type} {f : ε → δ} {x : Except ε β} {b : β} :
    x.mapError f = .ok b ↔ x = .ok b := by
  cases x <;> simp [Except.mapError]

/-- What the order of results makes of those in the order of discovery. -/
def Order.arrange (order : Order) (workers : Nat) (results : List β) : List β :=
  match order with
  | .discovery => results
  | .shard => byRemainder workers results

theorem merge_eq_arrange {order : Order} {results : List (Indexed β)} {rs : List β} {k : Nat}
    (h : results.Perm (indexed rs)) (sorted : results.Pairwise fun a b => before k a.1 b.1) :
    merge order results = order.arrange k rs := by
  cases order with
  | discovery => exact merge_discovery h
  | shard => exact merge_shard h sorted

theorem indexed_pairwise_before_one (items : List α) :
    (indexed items).Pairwise fun a b => before 1 a.1 b.1 := by
  apply (indexed_pairwise items).imp
  intro a b hab
  simp [before, Nat.mod_one, Nat.le_of_lt hab]

variable [Engine]

def Plan.serially (plan : Plan) (fs : Files) (load : Loader) (tests : List TestCase) :
    Except WorkerError (List TestResult) := do
  let c ← plan.load fs load
  tests.mapM fun t => (t.run c plan.entry).mapError fun e => .crashed e.message

def Plan.Inevitably (plan : Plan) (fs : Files) (load : Loader) (processors : Nat)
    (tests : List TestCase) (P : Except RunError Report → Prop) : Prop :=
  let workers := effectiveWorkers plan.jobs processors tests.length
  if workers = 1 then P (plan.run fs load processors tests)
  else System.Inevitably (plan.setup fs load) (P <| plan.conclude ·) (.start (shard tests workers))

theorem run_ok_iff {t : TestCase} {c : Loaded} {entry : String} :
    (∃ r, t.run c entry = .ok r) ↔ (t.attributes.has .skip = false →
      ∀ message, c.compile t.code ≠ .error (.crash message)) := by
  simp only [TestCase.run, TestCase.judge]
  cases t.attributes.has .skip with
  | true => simp [Except.map]
  | false =>
    match c.compile t.code with
    | .ok bytes => simp [Except.map]
    | .error (.error e) => simp [Except.map]
    | .error (.crash message) => simp [Except.map]

theorem Plan.serially_eq_ok_iff {results : List TestResult} :
    plan.serially fs load tests = .ok results ↔ ∃ c, plan.load fs load = .ok c ∧
      tests.map (fun t => (t.run c plan.entry).mapError fun e => WorkerError.crashed e.message) =
        results.map .ok := by
  simp only [serially]
  cases plan.load fs load with
  | error e => simp [bind, Except.bind]
  | ok c => simp [bind, Except.bind, mapM_eq_ok_iff]

theorem Plan.ready_iff :
    plan.Ready fs load tests ↔ ∃ results, plan.serially fs load tests = .ok results := by
  simp only [serially_eq_ok_iff, load_eq_ok_iff]
  constructor
  · rintro ⟨c, hc, hprofile, hcrash⟩
    obtain ⟨results, hresults⟩ : ∃ results : List TestResult, tests.map (fun t =>
        (t.run { c with profile := plan.profile } plan.entry).mapError
          fun e => WorkerError.crashed e.message) = results.map .ok := by
      apply exists_map_ok
      intro t ht
      obtain ⟨r, hr⟩ := run_ok_iff.2 (hcrash t ht)
      exact ⟨r, mapError_eq_ok_iff.2 hr⟩
    exact ⟨results, _, ⟨c, hc, hprofile, rfl⟩, hresults⟩
  · rintro ⟨results, _, ⟨c, hc, hprofile, rfl⟩, hresults⟩
    refine ⟨c, hc, hprofile, fun t ht => ?_⟩
    obtain ⟨r, hr⟩ := ok_of_map_ok hresults ht
    exact run_ok_iff.1 ⟨r, mapError_eq_ok_iff.1 hr⟩

theorem Plan.setup_eq (plan : Plan) (fs : Files) (load : Loader) :
    plan.setup fs load = fun _ => (plan.load fs load).map fun c t =>
      (t.run c plan.entry).mapError fun e => .crashed e.message := by
  funext i
  simp only [setup]
  cases plan.load fs load <;> rfl

/-- How a run comes out, with so many workers. Only the order of shards tells the number. -/
structure Plan.Agrees (plan : Plan) (fs : Files) (load : Loader) (tests : List TestCase)
    (workers : Nat) (outcome : Except RunError Report) : Prop where
  ok_iff : (∃ report, outcome = .ok report) ↔ plan.Ready fs load tests
  report : ∀ report, outcome = .ok report → ∃ results,
    plan.serially fs load tests = .ok results ∧
      report = Report.of (plan.order.arrange workers results)

theorem Plan.agrees_of_ok {k : Nat} {outcome : Except RunError Report} {results : List TestResult}
    (h : plan.serially fs load tests = .ok results)
    (ho : outcome = .ok (Report.of (plan.order.arrange k results))) :
    plan.Agrees fs load tests k outcome where
  ok_iff := ⟨fun _ => ready_iff.2 ⟨results, h⟩, fun _ => ⟨_, ho⟩⟩
  report := fun _ hr => ⟨results, h, Except.ok.inj (hr.symm.trans ho)⟩

theorem Plan.agrees_of_error {k : Nat} {outcome : Except RunError Report} {e : RunError}
    (h : ∀ results, plan.serially fs load tests ≠ .ok results) (ho : outcome = .error e) :
    plan.Agrees fs load tests k outcome where
  ok_iff := by
    constructor
    · rintro ⟨report, hr⟩
      cases hr.symm.trans ho
    · intro ready
      obtain ⟨results, hr⟩ := ready_iff.1 ready
      exact absurd hr (h results)
  report := fun _ hr => nomatch hr.symm.trans ho

theorem Plan.agrees_run_of_one {processors : Nat}
    (h : effectiveWorkers plan.jobs processors tests.length = 1) :
    plan.Agrees fs load tests 1 (plan.run fs load processors tests) := by
  let run (c : Loaded) (t : TestCase) : Except WorkerError TestResult :=
    (t.run c plan.entry).mapError fun e => .crashed e.message
  have whole : plan.run fs load processors tests =
      (((plan.load fs load).bind fun c => runSerially (run c) (indexed tests)).mapError
        .serial).map fun results => Report.of (merge plan.order results) := by
    simp only [Plan.run, setup_eq, h, if_true]
    cases plan.load fs load <;> rfl
  rw [whole]
  cases hc : plan.load fs load with
  | error e =>
    refine agrees_of_error (fun results hr => ?_) rfl
    obtain ⟨c, hload, _⟩ := serially_eq_ok_iff.1 hr
    cases hc.symm.trans hload
  | ok c =>
    simp only [Except.bind]
    cases hrun : runSerially (run c) (indexed tests) with
    | error e =>
      refine agrees_of_error (fun results hr => ?_) rfl
      obtain ⟨c', hload, hresults⟩ := serially_eq_ok_iff.1 hr
      obtain rfl := Except.ok.inj (hc.symm.trans hload)
      cases hrun.symm.trans (runSerially_indexed_iff.2 ⟨results, hresults, rfl⟩)
    | ok done =>
      obtain ⟨results, hresults, rfl⟩ := runSerially_indexed_iff.1 hrun
      apply agrees_of_ok (serially_eq_ok_iff.2 ⟨c, hc, hresults⟩)
      have merged : merge plan.order (indexed results) = plan.order.arrange 1 results :=
        merge_eq_arrange (.refl _) (indexed_pairwise_before_one results)
      simp only [Except.mapError, Except.map, merged]

theorem Plan.agrees_conclude {k : Nat} (hk : 0 < k) {s : System TestCase TestResult WorkerError}
    (hs : System.Reaches (plan.setup fs load) (.start (shard tests k)) s)
    {r : Except (RunFailure WorkerError) (List (Indexed TestResult))}
    (hr : s.coordinator = .finished r) : plan.Agrees fs load tests k (plan.conclude r) := by
  rw [setup_eq] at hs
  cases r with
  | ok results =>
    obtain ⟨run, rs, hx, hrs, hperm, hsorted⟩ := results_of_alike hk hs hr
    obtain ⟨c, hc, rfl⟩ : ∃ c, plan.load fs load = .ok c ∧ _ = run := by
      cases hc : plan.load fs load with
      | error e => simp [hc, Except.map] at hx
      | ok c => exact ⟨c, rfl, by simpa [hc, Except.map] using hx⟩
    apply agrees_of_ok (serially_eq_ok_iff.2 ⟨c, hc, hrs⟩)
    simp only [conclude, Except.mapError, Except.map, merge_eq_arrange hperm hsorted]
  | error f =>
    refine agrees_of_error (fun rs h => ?_) rfl
    obtain ⟨c, hc, hrs⟩ := serially_eq_ok_iff.1 h
    have hx := congrArg (Except.map fun c t =>
      (TestCase.run t c plan.entry).mapError fun e => WorkerError.crashed e.message) hc
    exact absurd hr (not_failed_of_alike hk hs hx hrs f)

theorem Plan.Inevitably.run {processors : Nat} {P : Except RunError Report → Prop}
    (h : plan.Inevitably fs load processors tests P) : P (plan.run fs load processors tests) := by
  simp only [Inevitably] at h
  split at h
  · exact h
  · next hne =>
    let shards := shard tests (effectiveWorkers plan.jobs processors tests.length)
    obtain ⟨s, hs, hr⟩ : MayFinish (plan.setup fs load) shards _ := mayFinish_runShards shards
    have concluded := h.of_reaches hs hr
    simp only [Plan.run, if_neg hne]
    exact concluded

/-- A run has an end, whatever number of workers is asked for and whatever order they make their
steps in. Whether it gives a report depends on neither. -/
theorem agrees_of_jobs (plan : Plan) (fs : Files) (load : Loader) (processors : Nat)
    (tests : List TestCase) (jobs : Nat) :
    Plan.Inevitably { plan with jobs := some jobs } fs load processors tests
      (plan.Agrees fs load tests (min (max jobs 1) (max tests.length 1))) := by
  let asked : Plan := { plan with jobs := some jobs }
  have same {k : Nat} {outcome : Except RunError Report}
      (h : asked.Agrees fs load tests k outcome) : plan.Agrees fs load tests k outcome :=
    ⟨h.ok_iff, h.report⟩
  have workers : effectiveWorkers (some jobs) processors tests.length =
    min (max jobs 1) (max tests.length 1) := rfl
  have hk := effectiveWorkers_pos (some jobs) processors tests.length
  rw [← workers]
  simp only [Plan.Inevitably]
  split
  · next h =>
    rw [h]
    exact same (Plan.agrees_run_of_one h)
  · apply System.inevitably_of_reaches
    intro s r hs hr
    exact same (Plan.agrees_conclude hk hs hr)

end Doctest.Schedule
