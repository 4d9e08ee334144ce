import Doctest.Proofs.Schedule.Steps

namespace Doctest.Schedule

variable {α β ε : Type} {setup : Setup α β ε}

theorem total_set {γ : Type} (f : γ → Nat) {l : List γ} {i : Nat} {a b : γ}
    (h : l[i]? = some b) : total f (l.set i a) + f b = total f l + f a := by
  induction l generalizing i with
  | nil => simp at h
  | cons c l ih =>
    cases i with
    | zero =>
      simp only [List.getElem?_cons_zero, Option.some.injEq] at h
      subst h
      simp only [List.set_cons_zero, total]
      omega
    | succ i =>
      have rest := ih (by simpa using h)
      simp only [List.set_cons_succ, total]
      omega

def Worker.weight (w : Worker α β ε) : Nat := w.remaining + if w.isGone then 0 else 1

@[simp] theorem Worker.weight_settled (o : Outcome β ε) :
    (Worker.settled o : Worker α β ε).weight = 3 := rfl

@[simp] theorem Worker.weight_sending (o : Outcome β ε) :
    (Worker.sending o : Worker α β ε).weight = 2 := rfl

@[simp] theorem Worker.weight_gone : (Worker.gone : Worker α β ε).weight = 0 := rfl

theorem Worker.Advance.weight_lt {i : Nat} {flag : Bool} {w w' : Worker α β ε}
    (h : w.Advance setup i flag w') : w'.weight < w.weight := by
  cases h with
  | goOn =>
    simp only [weight, remaining, isGone, Bool.false_eq_true, if_false, List.length_cons]
    omega
  | _ => simp [weight, remaining, isGone]

def Coordinator.remaining : Coordinator β ε → Nat
  | .receiving _ => 1
  | .finished _ => 0

namespace System

def remaining (s : System α β ε) : Nat :=
  total Worker.weight s.workers + s.channel.length + s.coordinator.remaining

theorem Step.remaining_lt {s t : System α β ε} (h : Step setup s t) :
    t.remaining < s.remaining := by
  cases h with
  | @work i w w' hw ha =>
    have sum := total_set Worker.weight (a := w') hw
    have less := ha.weight_lt
    simp only [remaining]
    omega
  | @raise i o hw =>
    have sum := total_set Worker.weight (a := .sending o) hw
    simp only [Worker.weight_settled, Worker.weight_sending] at sum
    simp only [remaining]
    omega
  | @send i o hw =>
    have sum := total_set Worker.weight (a := .gone) hw
    simp only [Worker.weight_sending, Worker.weight_gone] at sum
    simp only [remaining, List.length_append, List.length_singleton]
    omega
  | receive hc hm => simp [remaining, hc, hm, Coordinator.remaining]
  | abort hc hm =>
    simp only [remaining, hc, hm, Coordinator.remaining, List.length_cons]
    omega
  | conclude hc hm hg => simp [remaining, hc, Coordinator.remaining]

theorem exists_step_of_worker {s : System α β ε} {i : Nat} {w : Worker α β ε}
    (hw : s.workers[i]? = some w) (hne : w ≠ .gone) : ∃ t, Step setup s t := by
  cases w with
  | starting todo =>
    cases hs : setup i with
    | ok run => exact ⟨_, .work hw (.setUp hs)⟩
    | error e => exact ⟨_, .work hw (.setUpFails hs)⟩
  | checking run done todo =>
    cases todo with
    | nil => exact ⟨_, .work hw .complete⟩
    | cons t todo =>
      cases hc : s.cancelled with
      | true => exact ⟨_, .work hw (by rw [hc]; exact .cutShort)⟩
      | false => exact ⟨_, .work hw (by rw [hc]; exact .goOn)⟩
  | running run done t todo =>
    cases hr : run t.2 with
    | ok r => exact ⟨_, .work hw (.test hr)⟩
    | error e => exact ⟨_, .work hw (.testFails hr)⟩
  | settled o => exact ⟨_, .raise hw⟩
  | sending o => exact ⟨_, .send hw⟩
  | gone => exact absurd rfl hne

theorem exists_step {s : System α β ε} {parts : List (Option (List (Indexed β)))}
    (hc : s.coordinator = .receiving parts) : ∃ t, Step setup s t := by
  cases hm : s.channel with
  | cons m channel =>
    obtain ⟨i, o⟩ := m
    cases o with
    | ok results => exact ⟨_, .receive hc hm⟩
    | error e => exact ⟨_, .abort hc hm⟩
  | nil =>
    by_cases hg : ∀ w ∈ s.workers, w = .gone
    · exact ⟨_, .conclude hc hm hg⟩
    · simp only [Classical.not_forall] at hg
      obtain ⟨w, hw, hne⟩ := hg
      obtain ⟨i, hi⟩ := List.mem_iff_getElem?.1 hw
      exact exists_step_of_worker hi hne

/-- Whatever the order of steps, a system comes to an end, and to one with the property. -/
inductive Inevitably (setup : Setup α β ε)
    (P : Except (RunFailure ε) (List (Indexed β)) → Prop) : System α β ε → Prop
  | finished {s r} : s.coordinator = .finished r → P r → Inevitably setup P s
  | step {s} : (∃ t, s.Next setup t) → (∀ t, s.Next setup t → Inevitably setup P t) →
      Inevitably setup P s

theorem inevitably_of_reaches {P : Except (RunFailure ε) (List (Indexed β)) → Prop}
    {s : System α β ε}
    (h : ∀ t r, Reaches setup s t → t.coordinator = .finished r → P r) :
    Inevitably setup P s := by
  induction hn : s.remaining using Nat.strongRecOn generalizing s with
  | ind n ih =>
    cases hc : s.coordinator with
    | finished r => exact .finished hc (h s r (.refl s) hc)
    | receiving parts =>
      obtain ⟨t, ht⟩ : ∃ t, Step setup s t := exists_step hc
      refine .step ⟨t, next_iff_step.2 ht⟩ fun u hu => ?_
      have less := (next_iff_step.1 hu).remaining_lt
      refine ih u.remaining (hn ▸ less) (fun v r hv hr => h v r ?_ hr) rfl
      exact Reaches.trans (.step (.refl s) hu) hv

theorem Next.finished {s t : System α β ε} {r : Except (RunFailure ε) (List (Indexed β))}
    (h : s.Next setup t) (hr : s.coordinator = .finished r) : t.coordinator = .finished r := by
  cases next_iff_step.1 h with
  | work => exact hr
  | raise => exact hr
  | send => exact hr
  | receive hc => cases hr.symm.trans hc
  | abort hc => cases hr.symm.trans hc
  | conclude hc => cases hr.symm.trans hc

theorem Inevitably.of_finished {P : Except (RunFailure ε) (List (Indexed β)) → Prop}
    {s : System α β ε} (h : Inevitably setup P s) {r : Except (RunFailure ε) (List (Indexed β))}
    (hr : s.coordinator = .finished r) : P r := by
  induction h with
  | finished hc hp => cases hr.symm.trans hc; exact hp
  | step hex _ ih =>
    obtain ⟨t, ht⟩ := hex
    exact ih t ht (ht.finished hr)

theorem Inevitably.of_reaches {P : Except (RunFailure ε) (List (Indexed β)) → Prop}
    {s t : System α β ε} (h : Inevitably setup P s) (hst : Reaches setup s t)
    {r : Except (RunFailure ε) (List (Indexed β))} (hr : t.coordinator = .finished r) : P r := by
  have later : Inevitably setup P t := by
    clear hr
    induction hst with
    | refl => exact h
    | step _ hn ih =>
      cases ih with
      | finished hc hp => exact .finished (hn.finished hc) hp
      | step _ hall => exact hall _ hn
  exact later.of_finished hr

theorem exists_finished_steps {n : Nat} {s : System α β ε} (hn : s.remaining ≤ n) :
    ∃ r, (s.steps setup n).coordinator = .finished r := by
  induction n generalizing s with
  | zero =>
    cases hc : s.coordinator with
    | finished r => exact ⟨r, hc⟩
    | receiving parts =>
      simp only [remaining, hc, Coordinator.remaining] at hn
      omega
  | succ n ih =>
    rw [steps]
    cases hs : s.stepFirst setup with
    | some t =>
      have less := (next_iff_step.1 (next_of_stepFirst hs)).remaining_lt
      exact ih (by omega)
    | none =>
      cases hc : s.coordinator with
      | finished r => exact ⟨r, rfl⟩
      | receiving parts =>
        -- Somebody can make a step, so the search for a step did not come back empty.
        obtain ⟨t, ht⟩ : ∃ t, Step setup s t := exists_step hc
        obtain ⟨a, ha⟩ := next_iff_step.2 ht
        simp only [stepFirst] at hs
        split at hs
        · cases hs
        · next hnone =>
          cases a with
          | coordinator => cases hs.symm.trans ha
          | worker i =>
            rw [List.findSome?_eq_none_iff] at hnone
            have inside : i < s.workers.length := by
              apply Nat.lt_of_not_le
              intro hi
              have none : s.workers[i]? = none := List.getElem?_eq_none hi
              simp [step, stepWorker, none] at ha
            cases (hnone i (List.mem_range.2 inside)).symm.trans ha

end System

theorem System.remaining_start (shards : List (List (Indexed α))) :
    (start shards : System α β ε).remaining =
      total Worker.remaining (start shards : System α β ε).workers + shards.length + 1 := by
  induction shards with
  | nil => rfl
  | cons items shards ih =>
    simp only [remaining, start, Coordinator.remaining, List.map_cons, total, List.length_cons,
      List.length_nil] at ih ⊢
    simp only [Worker.weight, Worker.isGone, Bool.false_eq_true, if_false] at ih ⊢
    omega

theorem mayFinish_runShards (shards : List (List (Indexed α))) :
    MayFinish setup shards (runShards setup shards) := by
  obtain ⟨r, hr⟩ : ∃ r, ((System.start shards).steps setup _).coordinator = .finished r :=
    System.exists_finished_steps (Nat.le_of_eq (System.remaining_start shards))
  have result : runShards setup shards = r := by
    simp only [runShards, hr]
  rw [result]
  exact ⟨_, System.reaches_steps setup _ _, hr⟩

end Doctest.Schedule
