import Doctest.Schedule.Run

namespace Doctest.Schedule

variable {α β ε : Type} {setup : Setup α β ε}

inductive Worker.Advance (setup : Setup α β ε) (i : Nat) :
    Bool → Worker α β ε → Worker α β ε → Prop
  | setUp {flag run todo} : setup i = .ok run →
      Advance setup i flag (.starting todo) (.checking run [] todo)
  | setUpFails {flag e todo} : setup i = .error e →
      Advance setup i flag (.starting todo) (.settled (.error e))
  | complete {flag run done} : Advance setup i flag (.checking run done []) (.settled (.ok done))
  | cutShort {run done t todo} :
      Advance setup i true (.checking run done (t :: todo)) (.settled (.ok done))
  | goOn {run done t todo} :
      Advance setup i false (.checking run done (t :: todo)) (.running run done t todo)
  | test {flag run done r todo} {t : Indexed α} : run t.2 = .ok r →
      Advance setup i flag (.running run done t todo) (.checking run (done ++ [(t.1, r)]) todo)
  | testFails {flag run done e todo} {t : Indexed α} : run t.2 = .error e →
      Advance setup i flag (.running run done t todo) (.settled (.error e))

theorem Worker.advance_eq_some {i : Nat} {flag : Bool} {w w' : Worker α β ε} :
    w.advance setup i flag = some w' ↔ Advance setup i flag w w' := by
  constructor
  · intro h
    cases w with
    | starting todo =>
      cases hs : setup i with
      | ok run =>
        simp only [advance, hs, Option.some.injEq] at h
        exact h ▸ .setUp hs
      | error e =>
        simp only [advance, hs, Option.some.injEq] at h
        exact h ▸ .setUpFails hs
    | checking run done todo =>
      cases todo with
      | nil =>
        simp only [advance, Option.some.injEq] at h
        exact h ▸ .complete
      | cons t todo =>
        cases flag with
        | false =>
          simp only [advance, Bool.false_eq_true, if_false, Option.some.injEq] at h
          exact h ▸ .goOn
        | true =>
          simp only [advance, if_true, Option.some.injEq] at h
          exact h ▸ .cutShort
    | running run done t todo =>
      cases hr : run t.2 with
      | ok r =>
        simp only [advance, hr, Option.some.injEq] at h
        exact h ▸ .test hr
      | error e =>
        simp only [advance, hr, Option.some.injEq] at h
        exact h ▸ .testFails hr
    | settled o => simp [advance] at h
    | sending o => simp [advance] at h
    | gone => simp [advance] at h
  · intro h
    cases h with
    | setUp h => simp [advance, h]
    | setUpFails h => simp [advance, h]
    | complete => rfl
    | cutShort => rfl
    | goOn => rfl
    | test h => simp [advance, h]
    | testFails h => simp [advance, h]

def Worker.outcome? : Worker α β ε → Option (Outcome β ε)
  | .settled o | .sending o => some o
  | _ => none

theorem Worker.Advance.outcome?_eq_none {i : Nat} {flag : Bool} {w w' : Worker α β ε}
    (h : w.Advance setup i flag w') : w.outcome? = none := by
  cases h <;> rfl

theorem Worker.Advance.ne_gone {i : Nat} {flag : Bool} {w w' : Worker α β ε}
    (h : w.Advance setup i flag w') : w ≠ .gone ∧ w' ≠ .gone := by
  cases h <;> exact ⟨nofun, nofun⟩

inductive System.Step (setup : Setup α β ε) : System α β ε → System α β ε → Prop
  | work {s : System α β ε} {i w w'} : s.workers[i]? = some w →
      w.Advance setup i s.cancelled w' → Step setup s { s with workers := s.workers.set i w' }
  | raise {s : System α β ε} {i o} : s.workers[i]? = some (.settled o) →
      Step setup s { s with
        workers := s.workers.set i (.sending o)
        cancelled := s.cancelled || o.toOption.isNone }
  | send {s : System α β ε} {i o} : s.workers[i]? = some (.sending o) →
      Step setup s { s with
        workers := s.workers.set i .gone
        channel := s.channel ++ [(i, o)] }
  | receive {s : System α β ε} {parts i results channel} : s.coordinator = .receiving parts →
      s.channel = (i, .ok results) :: channel →
      Step setup s { s with
        channel
        coordinator := .receiving (parts.set i (some results)) }
  | abort {s : System α β ε} {parts i e channel} : s.coordinator = .receiving parts →
      s.channel = (i, .error e) :: channel →
      Step setup s { s with
        cancelled := true
        channel
        coordinator := .finished (.error (.shard i e)) }
  | conclude {s : System α β ε} {parts} : s.coordinator = .receiving parts → s.channel = [] →
      (∀ w ∈ s.workers, w = .gone) →
      Step setup s { s with coordinator := .finished (collect 0 parts) }

theorem Worker.isGone_iff {w : Worker α β ε} : w.isGone = true ↔ w = .gone := by
  cases w <;> simp [isGone]

theorem System.stepWorker_cases {s t : System α β ε} {i : Nat}
    (h : s.stepWorker setup i = some t) : ∃ w, s.workers[i]? = some w ∧
      ((∃ w', w.Advance setup i s.cancelled w' ∧ t = { s with workers := s.workers.set i w' }) ∨
        (∃ o, w = .settled o ∧ t = { s with
          workers := s.workers.set i (.sending o)
          cancelled := s.cancelled || o.toOption.isNone }) ∨
        ∃ o, w = .sending o ∧ t = { s with
          workers := s.workers.set i .gone
          channel := s.channel ++ [(i, o)] }) := by
  cases hw : s.workers[i]? with
  | none => simp [stepWorker, hw] at h
  | some w =>
    refine ⟨w, rfl, ?_⟩
    cases w with
    | settled o =>
      simp only [stepWorker, hw, Option.bind_eq_bind, Option.bind_some, Option.pure_def,
        Option.some.injEq] at h
      exact .inr (.inl ⟨o, rfl, h.symm⟩)
    | sending o =>
      simp only [stepWorker, hw, Option.bind_eq_bind, Option.bind_some, Option.pure_def,
        Option.some.injEq] at h
      exact .inr (.inr ⟨o, rfl, h.symm⟩)
    | _ =>
      simp only [stepWorker, hw, Option.bind_eq_bind, Option.bind_some, Option.pure_def,
        Option.bind_eq_some_iff, Option.some.injEq] at h
      obtain ⟨w', hw', rfl⟩ := h
      exact .inl ⟨w', Worker.advance_eq_some.1 hw', rfl⟩

theorem System.step_of_stepWorker {s t : System α β ε} {i : Nat}
    (h : s.stepWorker setup i = some t) : Step setup s t := by
  obtain ⟨w, hw, ⟨w', ha, rfl⟩ | ⟨o, rfl, rfl⟩ | ⟨o, rfl, rfl⟩⟩ := stepWorker_cases h
  · exact .work hw ha
  · exact .raise hw
  · exact .send hw

theorem System.stepWorker_of_advance {s : System α β ε} {i : Nat} {w w' : Worker α β ε}
    (hw : s.workers[i]? = some w) (h : w.Advance setup i s.cancelled w') :
    s.stepWorker setup i = some { s with workers := s.workers.set i w' } := by
  have hw' := Worker.advance_eq_some.2 h
  cases w with
  | settled o => simp [Worker.advance] at hw'
  | sending o => simp [Worker.advance] at hw'
  | _ => simp [stepWorker, hw, hw']

theorem System.step_of_stepCoordinator {s t : System α β ε} (h : s.stepCoordinator = some t) :
    Step setup s t := by
  cases hc : s.coordinator with
  | finished r => simp [stepCoordinator, hc] at h
  | receiving parts =>
    cases hm : s.channel with
    | nil =>
      simp only [stepCoordinator, hc, hm] at h
      split at h
      · next hg =>
        obtain rfl := Option.some.inj h
        have gone : ∀ w ∈ s.workers, w = .gone := fun w hw =>
          Worker.isGone_iff.1 (List.all_eq_true.1 hg w hw)
        have concluded : Step setup s _ := .conclude hc hm gone
        simpa only [hm] using concluded
      · cases h
    | cons m channel =>
      obtain ⟨i, o⟩ := m
      cases o with
      | ok results =>
        simp only [stepCoordinator, hc, hm, Option.some.injEq] at h
        exact h ▸ .receive hc hm
      | error e =>
        simp only [stepCoordinator, hc, hm, Option.some.injEq] at h
        exact h ▸ .abort hc hm

theorem System.next_iff_step {s t : System α β ε} : s.Next setup t ↔ Step setup s t := by
  constructor
  · rintro ⟨a, h⟩
    cases a with
    | worker i => exact step_of_stepWorker h
    | coordinator => exact step_of_stepCoordinator h
  · intro h
    cases h with
    | work hw ha => exact ⟨.worker _, stepWorker_of_advance hw ha⟩
    | @raise i o hw => exact ⟨.worker i, by simp [step, stepWorker, hw]⟩
    | @send i o hw => exact ⟨.worker i, by simp [step, stepWorker, hw]⟩
    | receive hc hm => exact ⟨.coordinator, by simp [step, stepCoordinator, hc, hm]⟩
    | abort hc hm => exact ⟨.coordinator, by simp [step, stepCoordinator, hc, hm]⟩
    | conclude hc hm hg =>
      have all : s.workers.all (·.isGone) = true :=
        List.all_eq_true.2 fun w hw => Worker.isGone_iff.2 (hg w hw)
      exact ⟨.coordinator, by simp only [step, stepCoordinator, hc, hm, all, if_true]⟩

theorem System.Reaches.invariant {P : System α β ε → Prop} {s t : System α β ε}
    (h : Reaches setup s t) (hs : P s) (step : ∀ u v, P u → Step setup u v → P v) : P t := by
  induction h with
  | refl => exact hs
  | step _ hn ih => exact step _ _ ih (next_iff_step.1 hn)

end Doctest.Schedule
