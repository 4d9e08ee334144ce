import Doctest.Proofs.Schedule.WorkerCount

namespace Doctest.Schedule

open Compiler (Loader)
open Guest (Engine)

variable {β : Type}

theorem byRemainder_perm (k : Nat) (items : List β) : (byRemainder k items).Perm items := by
  have sorted := (indexed items).mergeSort_perm fun a b => before k a.1 b.1
  have restored := sorted.map Prod.snd
  rwa [map_snd_indexed] at restored

theorem Order.arrange_perm (order : Order) (k : Nat) (results : List β) :
    (order.arrange k results).Perm results := by
  cases order with
  | discovery => exact .refl results
  | shard => exact byRemainder_perm k results

variable [Engine]

theorem test_of_run {t : TestCase} {c : Compiler.Loaded} {entry : String} {r : TestResult}
    (h : t.run c entry = .ok r) : r.test = t := by
  rw [TestCase.run] at h
  cases hj : t.judge c entry with
  | error e =>
    rw [hj] at h
    cases h
  | ok judged =>
    rw [hj] at h
    cases h
    rfl

variable {plan : Plan} {fs : Files} {load : Loader} {tests : List TestCase}

theorem Plan.map_test_of_serially {results : List TestResult}
    (h : plan.serially fs load tests = .ok results) : results.map (·.test) = tests := by
  obtain ⟨c, _, hresults⟩ := serially_eq_ok_iff.1 h
  have pairs := map_eq_map_iff_forall₂.1 hresults
  have own : List.Forall₂ (fun t r => id t = r.test) tests results :=
    pairs.imp fun _ _ hr => (test_of_run (mapError_eq_ok_iff.1 hr)).symm
  rw [← map_eq_map_iff_forall₂.2 own, List.map_id]

/-- What a run may come to over all orders of its workers' steps. A single worker has one order. -/
def Plan.MayCome (plan : Plan) (fs : Files) (load : Loader) (processors : Nat)
    (tests : List TestCase) (outcome : Except RunError Report) : Prop :=
  let workers := effectiveWorkers plan.jobs processors tests.length
  if workers = 1 then outcome = plan.run fs load processors tests
  else ∃ r, MayFinish (plan.setup fs load) (shard tests workers) r ∧ outcome = plan.conclude r

theorem Plan.MayCome.agrees {processors : Nat} {outcome : Except RunError Report}
    (h : plan.MayCome fs load processors tests outcome) :
    plan.Agrees fs load tests (effectiveWorkers plan.jobs processors tests.length) outcome := by
  simp only [MayCome] at h
  split at h
  · next one =>
    rw [h, one]
    exact agrees_run_of_one one
  · obtain ⟨r, ⟨s, hs, hr⟩, rfl⟩ := h
    exact agrees_conclude (effectiveWorkers_pos ..) hs hr

theorem Plan.mayCome_run (plan : Plan) (fs : Files) (load : Loader) (processors : Nat)
    (tests : List TestCase) :
    plan.MayCome fs load processors tests (plan.run fs load processors tests) := by
  rw [MayCome]
  split
  · rfl
  · next several =>
    refine ⟨_, mayFinish_runShards _, ?_⟩
    simp only [run]
    rw [if_neg several]
    rfl

theorem Plan.report_of_run {processors : Nat} {report : Report}
    (h : plan.run fs load processors tests = .ok report) :
    (report.results.map (·.test)).Perm tests ∧ report = Report.of report.results ∧
      ∀ outcome, plan.MayCome fs load processors tests outcome → outcome = .ok report := by
  let k := effectiveWorkers plan.jobs processors tests.length
  have agrees := (plan.mayCome_run fs load processors tests).agrees
  obtain ⟨results, hserially, rfl⟩ := agrees.report report h
  refine ⟨?_, rfl, fun outcome may => ?_⟩
  · have arranged := (plan.order.arrange_perm k results).map (·.test)
    rwa [map_test_of_serially hserially] at arranged
  · obtain ⟨report, same⟩ := may.agrees.ok_iff.2 (agrees.ok_iff.1 ⟨_, h⟩)
    obtain ⟨results', hserially', rfl⟩ := may.agrees.report report same
    obtain rfl := Except.ok.inj (hserially.symm.trans hserially')
    exact same

end Doctest.Schedule
