import Doctest.Proofs.Schedule.Conclusion
import Doctest.Proofs.Schedule.Dealing

namespace Doctest.Schedule

variable {α β ε : Type}

theorem map_eq_map_iff_forall₂ {γ δ ζ : Type} {f : γ → ζ} {g : δ → ζ} {l : List γ}
    {l' : List δ} : l.map f = l'.map g ↔ List.Forall₂ (fun a b => f a = g b) l l' := by
  rw [← List.forall₂_eq_eq_eq, List.forall₂_map_left_iff, List.forall₂_map_right_iff]

theorem mapM_eq_ok_iff {γ δ : Type} {f : γ → Except ε δ} {l : List γ} {bs : List δ} :
    l.mapM f = .ok bs ↔ l.map f = bs.map .ok := by
  induction l generalizing bs with
  | nil => cases bs <;> simp [pure, Except.pure]
  | cons a l ih =>
    rw [List.mapM_cons]
    cases hf : f a with
    | error e => cases bs <;> simp [hf, bind, Except.bind]
    | ok b =>
      cases hl : l.mapM f with
      | error e =>
        cases bs with
        | nil => simp [bind, Except.bind]
        | cons c cs =>
          have rest : l.map f ≠ cs.map .ok := by
            rw [Ne, ← ih, hl]
            nofun
          simp [hf, bind, Except.bind, rest]
      | ok ds =>
        cases bs with
        | nil => simp [bind, Except.bind, pure, Except.pure]
        | cons c cs =>
          have rest := @ih cs
          rw [hl, Except.ok.injEq] at rest
          simp [hf, bind, Except.bind, pure, Except.pure, rest]

theorem runSerially_eq_mapM (run : α → Except ε β) (items : List (Indexed α)) :
    runSerially run items = items.mapM fun t => (run t.2).map (t.1, ·) := by
  induction items with
  | nil => rfl
  | cons t items ih =>
    rw [runSerially, List.mapM_cons, ih]
    cases run t.2 <;> rfl

def succeeded (d : Indexed β) : Indexed (Except ε β) := (d.1, .ok d.2)

theorem succeeded_injective :
    Function.Injective (succeeded : Indexed β → Indexed (Except ε β)) := by
  rintro ⟨i, b⟩ ⟨j, c⟩ h
  simpa [succeeded] using h

theorem runSerially_eq_ok_iff {run : α → Except ε β} {items : List (Indexed α)}
    {done : List (Indexed β)} : runSerially run items = .ok done ↔
      items.map (fun t => (t.1, run t.2)) = done.map succeeded := by
  rw [runSerially_eq_mapM, mapM_eq_ok_iff, map_eq_map_iff_forall₂, map_eq_map_iff_forall₂]
  have each (t : Indexed α) (d : Indexed β) :
      (run t.2).map (t.1, ·) = .ok d ↔ (t.1, run t.2) = succeeded d := by
    cases run t.2 <;> simp [Except.map, succeeded, Prod.ext_iff]
  simp only [each]

theorem Setup.work_eq_ok_iff {setup : Setup α β ε} {i : Nat} {items : List (Indexed α)}
    {done : List (Indexed β)} : setup.work i items = .ok done ↔
      ∃ run, setup i = .ok run ∧ runSerially run items = .ok done := by
  cases hs : setup i with
  | error e => simp [work, hs, Except.bind]
  | ok run => simp [work, hs, Except.bind]

theorem map_fst_of_runSerially {run : α → Except ε β} {items : List (Indexed α)}
    {done : List (Indexed β)} (h : runSerially run items = .ok done) :
    done.map Prod.fst = items.map Prod.fst := by
  have answers := congrArg (List.map Prod.fst) (runSerially_eq_ok_iff.1 h)
  rw [List.map_map, List.map_map] at answers
  exact answers.symm

theorem mem_of_runSerially {run : α → Except ε β} {items : List (Indexed α)}
    {done : List (Indexed β)} (h : runSerially run items = .ok done) {i : Nat} {r : β}
    (hr : (i, r) ∈ done) : ∃ t, (i, t) ∈ items ∧ run t = .ok r := by
  have answered : (i, Except.ok r) ∈ items.map fun t => (t.1, run t.2) := by
    rw [runSerially_eq_ok_iff.1 h]
    exact List.mem_map.2 ⟨(i, r), hr, rfl⟩
  obtain ⟨⟨j, t⟩, ht, heq⟩ := List.mem_map.1 answered
  simp only [Prod.mk.injEq] at heq
  obtain ⟨rfl, hrun⟩ := heq
  exact ⟨t, ht, hrun⟩

section Whole

variable {setup : Setup α β ε} {shards : List (List (Indexed α))}
  {parts : List (List (Indexed β))}

theorem getElem?_of_whole (h : shards.mapIdx setup.work = parts.map .ok) {i : Nat}
    {part : List (Indexed β)} (hp : parts[i]? = some part) :
    ∃ items, shards[i]? = some items ∧ setup.work i items = .ok part := by
  have hi : (shards.mapIdx setup.work)[i]? = some (.ok part) := by
    rw [h, List.getElem?_map, hp]
    rfl
  simpa only [List.getElem?_mapIdx, Option.map_eq_some_iff] using hi

theorem map_fst_of_whole (h : shards.mapIdx setup.work = parts.map .ok) :
    parts.flatten.map Prod.fst = shards.flatten.map Prod.fst := by
  have hlen : shards.length = parts.length := by
    simpa using congrArg List.length h
  rw [List.map_flatten, List.map_flatten]
  congr 1
  refine List.ext_getElem (by simp [hlen]) fun i hi _ => ?_
  have inside : i < parts.length := by simpa using hi
  obtain ⟨items, hs, hw⟩ := getElem?_of_whole h (List.getElem?_eq_getElem inside)
  obtain ⟨run, _, hr⟩ := Setup.work_eq_ok_iff.1 hw
  rw [List.getElem?_eq_getElem (hlen ▸ inside), Option.some.injEq] at hs
  simp [hs, map_fst_of_runSerially hr]

end Whole

/-- Where a run ends well, nobody failed on the way, the flag was never up, every outcome was that of
a whole shard, and the results are those of all tests. No run ends for want of results. -/
theorem complete_of_finished {setup : Setup α β ε} {tests : List α} {workers : Nat}
    (hw : 2 ≤ workers) {s : System α β ε}
    (hs : System.Reaches setup (.start (shard tests workers)) s) :
    (∀ results, s.coordinator = .finished (.ok results) →
      (∀ u, System.Reaches setup (.start (shard tests workers)) u → System.Reaches setup u s →
        u.cancelled = false ∧
        ∀ i o, u.Pending i o → ∃ items done, (shard tests workers)[i]? = some items ∧
          o = .ok done ∧ done.map Prod.fst = items.map Prod.fst) ∧
      (results.map Prod.fst).Perm (List.range tests.length) ∧
      ∀ i r, (i, r) ∈ results → ∃ run t, setup (i % workers) = .ok run ∧
        tests[i]? = some t ∧ run t = .ok r) ∧
    ∀ i, s.coordinator ≠ .finished (.error (.noResults i)) := by
  have hpos : 0 < workers := by omega
  have inv := hs.invariant_start
  constructor
  · intro results hr
    obtain ⟨_, parts, hwhole, rfl⟩ := inv.concluded.ok results hr
    refine ⟨fun u hu hus => ?_, ?_, fun i r hir => ?_⟩
    · have sound := hu.invariant_start
      have hfail := System.not_failed_of_reaches hus inv hr
      have down : u.cancelled = false := Bool.eq_false_iff.2 fun hup => hfail (sound.flagged hup)
      refine ⟨down, fun i o hp => ?_⟩
      have settled := sound.sound.pending hp
      rw [down] at settled
      obtain ⟨items, hi, ho⟩ := settled.whole
      cases o with
      | error e => exact absurd (.inl ⟨i, e, hp⟩) hfail
      | ok done =>
        obtain ⟨run, _, hdone⟩ := Setup.work_eq_ok_iff.1 ho
        exact ⟨items, done, hi, rfl, map_fst_of_runSerially hdone⟩
    · rw [map_fst_of_whole hwhole, ← map_fst_indexed]
      exact (flatten_shard_perm hpos).map Prod.fst
    · obtain ⟨part, hpart, hir⟩ := List.mem_flatten.1 hir
      obtain ⟨j, hj⟩ := List.mem_iff_getElem?.1 hpart
      obtain ⟨items, hi, hwork⟩ := getElem?_of_whole hwhole hj
      obtain ⟨run, hrun, hdone⟩ := Setup.work_eq_ok_iff.1 hwork
      obtain ⟨t, ht, htr⟩ := mem_of_runSerially hdone hir
      obtain ⟨rfl, htest⟩ := mem_of_getElem?_shard hpos hi ht
      exact ⟨run, t, hrun, htest, htr⟩
  · intro i hi
    obtain ⟨_, _, _, hf, _⟩ := inv.concluded.error _ hi
    cases hf

theorem complete_of_finished_three_tests :
    ∃ s : System Nat Nat String,
      System.Reaches (fun _ => .ok fun n => .ok (n + 1)) (.start (shard [5, 6, 7] 2)) s ∧
        s.coordinator = .finished (.ok [(0, 6), (2, 8), (1, 7)]) ∧
        ([0, 2, 1] : List Nat).Perm (List.range 3) := by
  have reached := System.reaches_steps (fun _ => .ok fun n => .ok (n + 1)) 30
    (.start (shard [5, 6, 7] 2) : System Nat Nat String)
  exact ⟨_, reached, rfl, ((complete_of_finished (by decide) reached).1 _ rfl).2.1⟩

end Doctest.Schedule
