import Doctest.Proofs.Schedule.Steps

/-! What holds at every point of a run, whatever the order of its steps. An outcome is all of its
shard's work, or a part of it once the flag is up; and the flag is up only where a failure is still
on its way to the coordinator or has ended the run. So results are put together from whole shards. -/

namespace Doctest.Schedule

variable {α β ε : Type} {setup : Setup α β ε} {shards : List (List (Indexed α))}

theorem runSerially_append (run : α → Except ε β) (ts us : List (Indexed α)) :
    runSerially run (ts ++ us) = do
      let rs ← runSerially run ts
      return rs ++ (← runSerially run us) := by
  induction ts with
  | nil => cases h : runSerially run us <;> simp [runSerially, h, bind, Except.bind, pure, Except.pure]
  | cons t ts ih =>
    cases h : run t.2 <;> cases hs : runSerially run ts <;> cases hu : runSerially run us <;>
      simp [runSerially, h, hs, hu, ih, bind, Except.bind, pure, Except.pure]

theorem runSerially_concat_ok {run : α → Except ε β} {ran : List (Indexed α)}
    {done : List (Indexed β)} {t : Indexed α} {r : β} (hd : runSerially run ran = .ok done)
    (hr : run t.2 = .ok r) : runSerially run (ran ++ [t]) = .ok (done ++ [(t.1, r)]) := by
  simp only [runSerially_append, runSerially, hd, hr]
  rfl

theorem runSerially_append_error {run : α → Except ε β} {ran todo : List (Indexed α)}
    {done : List (Indexed β)} {t : Indexed α} {e : ε} (hd : runSerially run ran = .ok done)
    (hr : run t.2 = .error e) : runSerially run (ran ++ t :: todo) = .error e := by
  simp only [runSerially_append, runSerially, hd, hr]
  rfl

def Setup.work (setup : Setup α β ε) (i : Nat) (items : List (Indexed α)) : Outcome β ε :=
  (setup i).bind (runSerially · items)

theorem Setup.work_of_ok {i : Nat} {run : α → Except ε β} (h : setup i = .ok run)
    (items : List (Indexed α)) : setup.work i items = runSerially run items := by
  rw [work, h]
  rfl

theorem Setup.work_of_error {i : Nat} {e : ε} (h : setup i = .error e)
    (items : List (Indexed α)) : setup.work i items = .error e := by
  rw [work, h]
  rfl

/-- Only under a raised flag may an outcome be that of the shard's first tests alone. -/
def Settles (setup : Setup α β ε) (shards : List (List (Indexed α))) (flag : Bool) (i : Nat)
    (o : Outcome β ε) : Prop :=
  ∃ items, shards[i]? = some items ∧
    (o = setup.work i items ∨
      flag = true ∧ ∃ ran done, ran <+: items ∧ setup.work i ran = .ok done ∧ o = .ok done)

theorem Settles.mono {flag flag' : Bool} {i : Nat} {o : Outcome β ε}
    (h : Settles setup shards flag i o) (hf : flag = true → flag' = true) :
    Settles setup shards flag' i o := by
  obtain ⟨items, hi, ho | ⟨raised, part⟩⟩ := h
  · exact ⟨items, hi, .inl ho⟩
  · exact ⟨items, hi, .inr ⟨hf raised, part⟩⟩

theorem Settles.error {flag : Bool} {i : Nat} {e : ε}
    (h : Settles (β := β) setup shards flag i (.error e)) :
    ∃ items, shards[i]? = some items ∧ setup.work i items = .error e := by
  obtain ⟨items, hi, ho | ⟨_, _, _, _, _, ho⟩⟩ := h
  · exact ⟨items, hi, ho.symm⟩
  · cases ho

theorem Settles.whole {i : Nat} {o : Outcome β ε} (h : Settles setup shards false i o) :
    ∃ items, shards[i]? = some items ∧ setup.work i items = o := by
  obtain ⟨items, hi, ho | ⟨raised, _⟩⟩ := h
  · exact ⟨items, hi, ho.symm⟩
  · cases raised

def Worker.Sound (setup : Setup α β ε) (shards : List (List (Indexed α))) (flag : Bool)
    (i : Nat) : Worker α β ε → Prop
  | .starting todo => shards[i]? = some todo
  | .checking run done todo =>
    setup i = .ok run ∧ ∃ ran, shards[i]? = some (ran ++ todo) ∧ runSerially run ran = .ok done
  | .running run done t todo =>
    setup i = .ok run ∧
      ∃ ran, shards[i]? = some (ran ++ t :: todo) ∧ runSerially run ran = .ok done
  | .settled o | .sending o => Settles setup shards flag i o
  | .gone => True

theorem Worker.Sound.mono {flag flag' : Bool} {i : Nat} {w : Worker α β ε}
    (h : w.Sound setup shards flag i) (hf : flag = true → flag' = true) :
    w.Sound setup shards flag' i := by
  cases w with
  | settled o => exact Settles.mono h hf
  | sending o => exact Settles.mono h hf
  | _ => exact h

theorem Worker.Sound.advance {flag : Bool} {i : Nat} {w w' : Worker α β ε}
    (h : w.Sound setup shards flag i) (ha : w.Advance setup i flag w') :
    w'.Sound setup shards flag i := by
  cases ha with
  | setUp hs => exact ⟨hs, [], h, rfl⟩
  | setUpFails hs => exact ⟨_, h, .inl (Setup.work_of_error hs _).symm⟩
  | complete =>
    obtain ⟨hs, ran, hi, hd⟩ := h
    refine ⟨ran, by simpa using hi, .inl ?_⟩
    rw [Setup.work_of_ok hs, hd]
  | @cutShort run done t todo =>
    obtain ⟨hs, ran, hi, hd⟩ := h
    refine ⟨_, hi, .inr ⟨rfl, ran, done, List.prefix_append .., ?_, rfl⟩⟩
    rw [Setup.work_of_ok hs, hd]
  | goOn => exact h
  | test hr =>
    obtain ⟨hs, ran, hi, hd⟩ := h
    exact ⟨hs, ran ++ [_], by simpa using hi, runSerially_concat_ok hd hr⟩
  | testFails hr =>
    obtain ⟨hs, ran, hi, hd⟩ := h
    refine ⟨_, hi, .inl ?_⟩
    rw [Setup.work_of_ok hs, runSerially_append_error hd hr]

theorem getElem?_set_cases {γ : Type} {l : List γ} {i j : Nat} {a b : γ}
    (h : (l.set i a)[j]? = some b) : j = i ∧ b = a ∨ l[j]? = some b := by
  rw [List.getElem?_set] at h
  split at h
  · next hij =>
    split at h
    · exact .inl ⟨hij.symm, (Option.some.inj h).symm⟩
    · cases h
  · exact .inr h

namespace System

structure Sound (setup : Setup α β ε) (shards : List (List (Indexed α))) (s : System α β ε) :
    Prop where
  workers : ∀ i (w : Worker α β ε), s.workers[i]? = some w → w.Sound setup shards s.cancelled i
  channel : ∀ i o, (i, o) ∈ s.channel → Settles setup shards s.cancelled i o
  parts : ∀ parts, s.coordinator = .receiving parts → ∀ i results,
    parts[i]? = some (some results) → Settles setup shards s.cancelled i (.ok results)

theorem Sound.start : (System.start shards : System α β ε).Sound setup shards where
  workers := by
    intro i w hw
    simp only [System.start, List.getElem?_map, Option.map_eq_some_iff] at hw
    obtain ⟨todo, ht, rfl⟩ := hw
    exact ht
  channel := by simp [System.start]
  parts := by
    rintro parts hp i results hr
    simp only [System.start, Coordinator.receiving.injEq] at hp
    subst hp
    obtain ⟨_, _, heard⟩ := List.mem_map.1 (List.mem_of_getElem? hr)
    cases heard

theorem Sound.step {s t : System α β ε} (h : s.Sound setup shards) (hst : Step setup s t) :
    t.Sound setup shards := by
  cases hst with
  | work hw ha =>
    refine ⟨fun j v hv => ?_, h.channel, h.parts⟩
    obtain ⟨rfl, rfl⟩ | hv := getElem?_set_cases hv
    · exact (h.workers _ _ hw).advance ha
    · exact h.workers j v hv
  | @raise i o hw =>
    have raised : s.cancelled = true → (s.cancelled || o.toOption.isNone) = true := by
      intro hc
      rw [hc, Bool.true_or]
    refine ⟨fun j v hv => ?_, fun j m hm => (h.channel j m hm).mono raised,
      fun parts hp j results hr => (h.parts parts hp j results hr).mono raised⟩
    obtain ⟨rfl, rfl⟩ | hv := getElem?_set_cases hv
    · exact Settles.mono (h.workers _ _ hw) raised
    · exact (h.workers j v hv).mono raised
  | send hw =>
    refine ⟨fun j v hv => ?_, fun j m hm => ?_, h.parts⟩
    · obtain ⟨rfl, rfl⟩ | hv := getElem?_set_cases hv
      · trivial
      · exact h.workers j v hv
    · simp only [List.mem_append, List.mem_singleton, Prod.mk.injEq] at hm
      obtain hm | ⟨rfl, rfl⟩ := hm
      · exact h.channel j m hm
      · exact h.workers _ _ hw
  | receive hc hm =>
    refine ⟨h.workers, fun j o ho => h.channel j o (by simp [hm, ho]), ?_⟩
    rintro parts hp j results hr
    obtain rfl := Coordinator.receiving.inj hp
    obtain ⟨rfl, hj⟩ | hr := getElem?_set_cases hr
    · obtain rfl := Option.some.inj hj
      exact h.channel _ _ (by simp [hm])
    · exact h.parts _ hc j results hr
  | abort hc hm =>
    have raised : s.cancelled = true → true = true := fun _ => rfl
    refine ⟨fun j v hv => (h.workers j v hv).mono raised, fun j o ho => ?_, ?_⟩
    · exact (h.channel j o (by simp [hm, ho])).mono raised
    · rintro parts hp
      cases hp
  | conclude hc hm hg =>
    refine ⟨h.workers, h.channel, ?_⟩
    rintro parts hp
    cases hp

end System

end Doctest.Schedule
