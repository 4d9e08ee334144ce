import Doctest.Proofs.Schedule.Soundness

namespace Doctest.Schedule

variable {α β ε : Type} {setup : Setup α β ε} {shards : List (List (Indexed α))}

theorem collect_map_some (n : Nat) (parts : List (List (Indexed β))) :
    collect (ε := ε) n (parts.map some) = .ok parts.flatten := by
  induction parts generalizing n with
  | nil => rfl
  | cons part parts ih =>
    simp only [List.map_cons, collect, ih]
    rfl

namespace System

/-- An outcome that a worker came to and that the coordinator did not receive yet. -/
def Pending (s : System α β ε) (i : Nat) (o : Outcome β ε) : Prop :=
  (∃ w, s.workers[i]? = some w ∧ w.outcome? = some o) ∨ (i, o) ∈ s.channel

def Failed (s : System α β ε) : Prop :=
  (∃ i e, s.Pending i (.error e)) ∨ ∃ f, s.coordinator = .finished (.error f)

theorem Sound.pending {s : System α β ε} (h : s.Sound setup shards) {i : Nat}
    {o : Outcome β ε} (hp : s.Pending i o) : Settles setup shards s.cancelled i o := by
  obtain ⟨w, hw, ho⟩ | hm := hp
  · have sound := h.workers i w hw
    cases w with
    | settled o' => exact Option.some.inj ho ▸ sound
    | sending o' => exact Option.some.inj ho ▸ sound
    | _ => cases ho
  · exact h.channel i o hm

structure Quiet (s : System α β ε) : Prop where
  gone : ∀ w ∈ s.workers, w = .gone
  channel : s.channel = []
  cancelled : s.cancelled = false

theorem Quiet.not_pending {s : System α β ε} (h : s.Quiet) {i : Nat} {o : Outcome β ε} :
    ¬ s.Pending i o := by
  rintro (⟨w, hw, ho⟩ | hm)
  · rw [h.gone w (List.mem_of_getElem? hw)] at ho
    cases ho
  · simp [h.channel] at hm

theorem Pending.step {s t : System α β ε} {i : Nat} {o : Outcome β ε} (h : s.Pending i o)
    (hst : Step setup s t) : t.Pending i o ∨ s.channel.head? = some (i, o) := by
  obtain ⟨w, hw, ho⟩ | hm := h
  · refine .inl ?_
    have other {j : Nat} {v v' : Worker α β ε} (hv : s.workers[j]? = some v)
        (hne : v.outcome? ≠ some o) : (s.workers.set j v')[i]? = some w := by
      rw [List.getElem?_set_ne, hw]
      rintro rfl
      rw [hw, Option.some.injEq] at hv
      exact hne (hv ▸ ho)
    cases hst with
    | work hv ha => exact .inl ⟨w, other hv (by simp [ha.outcome?_eq_none]), ho⟩
    | @raise j o' hv =>
      by_cases hij : j = i
      · subst hij
        obtain rfl := Option.some.inj (hw.symm.trans hv)
        have inside := (List.getElem?_eq_some_iff.1 hv).1
        exact .inl ⟨.sending o', List.getElem?_set_self inside, ho⟩
      · exact .inl ⟨w, by rwa [List.getElem?_set_ne hij], ho⟩
    | @send j o' hv =>
      by_cases hij : j = i
      · subst hij
        obtain rfl := Option.some.inj (hw.symm.trans hv)
        obtain rfl := Option.some.inj ho
        exact .inr (List.mem_append_right _ (List.mem_singleton.2 rfl))
      · exact .inl ⟨w, by rwa [List.getElem?_set_ne hij], ho⟩
    | receive => exact .inl ⟨w, hw, ho⟩
    | abort => exact .inl ⟨w, hw, ho⟩
    | conclude => exact .inl ⟨w, hw, ho⟩
  · cases hst with
    | work => exact .inl (.inr hm)
    | raise => exact .inl (.inr hm)
    | send => exact .inl (.inr (List.mem_append_left _ hm))
    | conclude => exact .inl (.inr hm)
    | receive _ hc =>
      rw [hc, List.mem_cons] at hm
      obtain heq | hm := hm
      · exact .inr (by rw [hc, heq]; rfl)
      · exact .inl (.inr hm)
    | abort _ hc =>
      rw [hc, List.mem_cons] at hm
      obtain heq | hm := hm
      · exact .inr (by rw [hc, heq]; rfl)
      · exact .inl (.inr hm)

theorem Failed.step {s t : System α β ε} (h : s.Failed) (hst : Step setup s t) : t.Failed := by
  obtain ⟨i, e, hp⟩ | ⟨f, hf⟩ := h
  · obtain hp | hm := hp.step hst
    · exact .inl ⟨i, e, hp⟩
    · have hmem := List.mem_of_head? hm
      cases hst with
      | work => exact .inl ⟨i, e, .inr hmem⟩
      | raise => exact .inl ⟨i, e, .inr hmem⟩
      | send => exact .inl ⟨i, e, .inr (List.mem_append_left _ hmem)⟩
      | receive _ hc => simp [hc] at hm
      | abort => exact .inr ⟨_, rfl⟩
      | conclude => exact .inl ⟨i, e, .inr hmem⟩
  · cases hst with
    | work => exact .inr ⟨f, hf⟩
    | raise => exact .inr ⟨f, hf⟩
    | send => exact .inr ⟨f, hf⟩
    | receive hc => cases hf.symm.trans hc
    | abort => exact .inr ⟨_, rfl⟩
    | conclude hc => cases hf.symm.trans hc

structure Accounted (shards : List (List (Indexed α))) (s : System α β ε) : Prop where
  workers : s.workers.length = shards.length
  parts : ∀ parts, s.coordinator = .receiving parts → parts.length = shards.length
  heard : ∀ parts, s.coordinator = .receiving parts → ∀ i, s.workers[i]? = some .gone →
    (∃ o, (i, o) ∈ s.channel) ∨ ∃ results, parts[i]? = some (some results)

theorem Accounted.start : (System.start shards : System α β ε).Accounted shards where
  workers := by simp [System.start]
  parts := by
    intro parts hp
    simp only [System.start, Coordinator.receiving.injEq] at hp
    simp [← hp]
  heard := by
    intro parts _ i hi
    simp [System.start] at hi

theorem Accounted.step {s t : System α β ε} (h : s.Accounted shards) (hst : Step setup s t) :
    t.Accounted shards := by
  cases hst with
  | work hw ha =>
    refine ⟨by simp [h.workers], h.parts, fun parts hp j hj => ?_⟩
    obtain ⟨rfl, hg⟩ | hj := getElem?_set_cases hj
    · exact absurd hg.symm ha.ne_gone.2
    · exact h.heard parts hp j hj
  | raise hw =>
    refine ⟨by simp [h.workers], h.parts, fun parts hp j hj => ?_⟩
    obtain ⟨rfl, hg⟩ | hj := getElem?_set_cases hj
    · cases hg
    · exact h.heard parts hp j hj
  | @send i o hw =>
    refine ⟨by simp [h.workers], h.parts, fun parts hp j hj => ?_⟩
    obtain ⟨rfl, _⟩ | hj := getElem?_set_cases hj
    · exact .inl ⟨o, List.mem_append_right _ (List.mem_singleton.2 rfl)⟩
    · obtain ⟨o', ho⟩ | hr := h.heard parts hp j hj
      · exact .inl ⟨o', List.mem_append_left _ ho⟩
      · exact .inr hr
  | @receive parts i results channel hc hm =>
    refine ⟨h.workers, ?_, ?_⟩
    · rintro _ ⟨⟩
      simp [h.parts parts hc]
    · rintro _ ⟨⟩ j hj
      by_cases hij : i = j
      · subst hij
        have inside : i < parts.length := by
          rw [h.parts parts hc, ← h.workers]
          exact (List.getElem?_eq_some_iff.1 hj).1
        exact .inr ⟨results, List.getElem?_set_self inside⟩
      · rw [List.getElem?_set_ne hij]
        obtain ⟨o, ho⟩ | hr := h.heard parts hc j hj
        · rw [hm, List.mem_cons] at ho
          obtain heq | ho := ho
          · exact absurd (congrArg Prod.fst heq).symm hij
          · exact .inl ⟨o, ho⟩
        · exact .inr hr
  | abort => exact ⟨h.workers, nofun, nofun⟩
  | conclude => exact ⟨h.workers, nofun, nofun⟩

/-- How the coordinator may have ended: with all the work there was, or with some shard's error. -/
structure Concluded (setup : Setup α β ε) (shards : List (List (Indexed α)))
    (s : System α β ε) : Prop where
  ok : ∀ results, s.coordinator = .finished (.ok results) → s.Quiet ∧
    ∃ parts : List (List (Indexed β)),
      shards.mapIdx setup.work = parts.map .ok ∧ results = parts.flatten
  error : ∀ f, s.coordinator = .finished (.error f) →
    ∃ i e items, f = .shard i e ∧ shards[i]? = some items ∧ setup.work i items = .error e

theorem exists_parts {parts : List (Option (List (Indexed β)))}
    (hlen : parts.length = shards.length)
    (heard : ∀ i items, shards[i]? = some items →
      ∃ part, parts[i]? = some (some part) ∧ setup.work i items = .ok part) :
    ∃ whole : List (List (Indexed β)),
      parts = whole.map some ∧ shards.mapIdx setup.work = whole.map .ok := by
  refine ⟨parts.map (·.getD []), ?_, ?_⟩
  · refine List.ext_getElem (by simp) fun i hi _ => ?_
    obtain ⟨part, hp, _⟩ := heard i _ (List.getElem?_eq_getElem (hlen ▸ hi))
    rw [List.getElem?_eq_getElem hi, Option.some.injEq] at hp
    simp [hp]
  · refine List.ext_getElem (by simp [hlen]) fun i hi _ => ?_
    have inside : i < shards.length := by simpa using hi
    obtain ⟨part, hp, hw⟩ := heard i _ (List.getElem?_eq_getElem inside)
    rw [List.getElem?_eq_getElem (hlen ▸ inside), Option.some.injEq] at hp
    simp [hp, hw]

theorem Concluded.step {s t : System α β ε} (h : s.Concluded setup shards)
    (sound : s.Sound setup shards) (accounted : s.Accounted shards)
    (flagged : s.cancelled = true → s.Failed) (hst : Step setup s t) :
    t.Concluded setup shards := by
  -- A run that ended well has no steps left, and no step of a worker touches the coordinator.
  have idle : ∀ results, s.coordinator = .finished (.ok results) →
      ∀ (i : Nat) (w : Worker α β ε), s.workers[i]? = some w → w = .gone := fun results hr i w hw =>
    (h.ok results hr).1.gone w (List.mem_of_getElem? hw)
  cases hst with
  | work hw ha => exact ⟨fun results hr => absurd (idle results hr _ _ hw) ha.ne_gone.1, h.error⟩
  | raise hw => exact ⟨fun results hr => absurd (idle results hr _ _ hw) nofun, h.error⟩
  | send hw => exact ⟨fun results hr => absurd (idle results hr _ _ hw) nofun, h.error⟩
  | receive => exact ⟨nofun, nofun⟩
  | @abort parts i e channel hc hm =>
    refine ⟨nofun, ?_⟩
    rintro _ ⟨⟩
    obtain ⟨items, hi, he⟩ := (sound.channel i (.error e) (by simp [hm])).error
    exact ⟨i, e, items, rfl, hi, he⟩
  | @conclude parts hc hm hg =>
    have down : s.cancelled = false := by
      apply Bool.eq_false_iff.2
      intro hup
      obtain ⟨i, e, ⟨w, hw, ho⟩ | hp⟩ | ⟨f, hf⟩ := flagged hup
      · rw [hg w (List.mem_of_getElem? hw)] at ho
        cases ho
      · simp [hm] at hp
      · cases hc.symm.trans hf
    obtain ⟨whole, rfl, hwhole⟩ := exists_parts (accounted.parts parts hc) fun i items hi => by
      have inside : i < s.workers.length := by
        rw [accounted.workers]
        exact (List.getElem?_eq_some_iff.1 hi).1
      have gone : s.workers[i]? = some .gone := by
        rw [List.getElem?_eq_getElem inside, hg _ (List.getElem_mem inside)]
      obtain ⟨o, ho⟩ | ⟨results, hr⟩ := accounted.heard parts hc i gone
      · simp [hm] at ho
      · have settled := sound.parts parts hc i results hr
        rw [down] at settled
        obtain ⟨items', hi', hw⟩ := settled.whole
        obtain rfl := Option.some.inj (hi.symm.trans hi')
        exact ⟨results, hr, hw⟩
    rw [collect_map_some]
    refine ⟨?_, nofun⟩
    rintro _ ⟨⟩
    exact ⟨⟨hg, hm, down⟩, whole, hwhole, rfl⟩

structure Invariant (setup : Setup α β ε) (shards : List (List (Indexed α)))
    (s : System α β ε) : Prop where
  sound : s.Sound setup shards
  accounted : s.Accounted shards
  flagged : s.cancelled = true → s.Failed
  concluded : s.Concluded setup shards

theorem Invariant.start : (System.start shards : System α β ε).Invariant setup shards where
  sound := .start
  accounted := .start
  flagged := nofun
  concluded := ⟨nofun, nofun⟩

theorem Invariant.step {s t : System α β ε} (h : s.Invariant setup shards)
    (hst : Step setup s t) : t.Invariant setup shards where
  sound := h.sound.step hst
  accounted := h.accounted.step hst
  flagged := by
    intro hup
    by_cases hs : s.cancelled = true
    · exact (h.flagged hs).step hst
    · cases hst with
      | @raise i o hw =>
        have inside := (List.getElem?_eq_some_iff.1 hw).1
        cases o with
        | ok results => simp [hs, Except.toOption] at hup
        | error e =>
          exact .inl ⟨i, e, .inl ⟨.sending (.error e), List.getElem?_set_self inside, rfl⟩⟩
      | abort => exact .inr ⟨_, rfl⟩
      | _ => exact absurd hup hs
  concluded := h.concluded.step h.sound h.accounted h.flagged hst

theorem Reaches.invariant_start {s : System α β ε} (h : Reaches setup (.start shards) s) :
    s.Invariant setup shards :=
  h.invariant .start fun _ _ hu hst => hu.step hst

theorem Reaches.failed {s t : System α β ε} (h : Reaches setup s t) (hs : s.Failed) :
    t.Failed :=
  h.invariant hs fun _ _ hu hst => hu.step hst

theorem not_failed_of_reaches {s t : System α β ε} (hst : Reaches setup s t)
    (ht : t.Invariant setup shards) {results : List (Indexed β)}
    (hr : t.coordinator = .finished (.ok results)) : ¬ s.Failed := by
  intro hs
  obtain ⟨i, e, hp⟩ | ⟨f, hf⟩ := hst.failed hs
  · exact (ht.concluded.ok results hr).1.not_pending hp
  · cases hr.symm.trans hf

end System

end Doctest.Schedule
