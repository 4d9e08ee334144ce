import Doctest.Proofs.Schedule.Log

namespace Doctest.Schedule

variable {α β ε : Type} {setup : Setup α β ε}

def Worker.underway? : Worker α β ε → Option (Indexed α)
  | .running _ _ t _ => some t
  | _ => none

def Worker.isStopped : Worker α β ε → Bool
  | .settled _ | .sending _ | .gone => true
  | _ => false

theorem Worker.Advance.underway_of_flag {i : Nat} {w w' : Worker α β ε}
    (h : w.Advance setup i true w') :
    (w.event? setup i true).bind Event.cleared? = none ∧
      w.underway?.toList = ((w.event? setup i true).bind Event.ran?).toList ++ w'.underway?.toList := by
  cases h with
  | setUp hs => exact ⟨rfl, rfl⟩
  | setUpFails hs => exact ⟨rfl, rfl⟩
  | complete => exact ⟨rfl, rfl⟩
  | cutShort => exact ⟨rfl, rfl⟩
  | test hr => exact ⟨rfl, rfl⟩
  | testFails hr => exact ⟨rfl, rfl⟩

section Noted

variable {log : List (Entry α ε)} {i : Nat} {items : List (Indexed α)} {flag : Bool}
  {w : Worker α β ε}

theorem Worker.Noted.ran_prefix (h : w.Noted log i items flag) : ranBy i log <+: items := by
  cases w with
  | starting todo => exact ⟨todo, h⟩
  | checking run done todo => exact ⟨todo, h⟩
  | running run done t todo => exact ⟨t :: todo, h.1⟩
  | settled o => cases o <;> exact h.1
  | sending o => cases o <;> exact h.1
  | gone => exact h.1

theorem Worker.Noted.ran_all (h : w.Noted log i items flag) (stopped : w.isStopped = true) :
    ranBy i log = items ∨ flag = true ∨ FailedIn log i := by
  cases w with
  | settled o => cases o with
    | ok done => exact h.2.imp_right .inl
    | error e => exact .inr (.inr h.2)
  | sending o => cases o with
    | ok done => exact h.2.imp_right .inl
    | error e => exact .inr (.inr h.2)
  | gone => exact h.2
  | _ => cases stopped

theorem Worker.Noted.cleared_of_underway (h : w.Noted log i items flag) {t : Indexed α}
    (ht : w.underway? = some t) : (clearedBy i log).getLast? = some t := by
  cases w with
  | running run done u todo => exact ht ▸ h.2
  | _ => cases ht

end Noted

namespace System

def underway? (s : System α β ε) (i : Nat) : Option (Indexed α) :=
  s.workers[i]?.bind Worker.underway?

theorem underway?_set {l : List (Worker α β ε)} {i : Nat} {w w' : Worker α β ε}
    (hw : l[i]? = some w) (j : Nat) : (l.set i w')[j]?.bind Worker.underway? =
      if i = j then w'.underway? else l[j]?.bind Worker.underway? := by
  rw [List.getElem?_set]
  split
  · next hij =>
    subst hij
    rw [if_pos (List.getElem?_eq_some_iff.1 hw).1]
    rfl
  · rfl

theorem underway_of_step {s t : System α β ε} {a : Actor} (hup : s.cancelled = true)
    (hst : s.step setup a = some t) :
    t.cancelled = true ∧ ∀ i, clearedBy i [(a, s.event? setup a)] = [] ∧
      (s.underway? i).toList = ranBy i [(a, s.event? setup a)] ++ (t.underway? i).toList := by
  have silent (i : Nat) (e : Option (Event α ε)) (h : eventsOf i [(a, e)] = []) :
      clearedBy i [(a, e)] = [] ∧ ranBy i [(a, e)] = [] := by
    rw [clearedBy, ranBy, h]
    exact ⟨rfl, rfl⟩
  cases a with
  | coordinator =>
    obtain ⟨hw, _, raised, _⟩ := of_stepCoordinator hst
    refine ⟨raised hup, fun i => ?_⟩
    obtain ⟨cleared, ran⟩ := silent i none (eventsOf_silent i .coordinator)
    rw [event?, cleared, ran, underway?, underway?, hw]
    exact ⟨rfl, rfl⟩
  | worker i =>
    obtain ⟨w, hw, turn⟩ := stepWorker_cases hst
    have event : s.event? setup (.worker i) = w.event? setup i true := by
      rw [event?, hw, hup]
      rfl
    rw [event]
    -- all that matters is what becomes of the worker whose turn it was
    have only {w' : Worker α β ε} {u : System α β ε} (hu : u.workers = s.workers.set i w')
        (own : (w.event? setup i true).bind Event.cleared? = none ∧ w.underway?.toList =
          ((w.event? setup i true).bind Event.ran?).toList ++ w'.underway?.toList) (j : Nat) :
        clearedBy j [(.worker i, w.event? setup i true)] = [] ∧ (s.underway? j).toList =
          ranBy j [(.worker i, w.event? setup i true)] ++ (u.underway? j).toList := by
      rw [underway?, underway?, hu, underway?_set hw]
      by_cases hij : i = j
      · subst hij
        rw [clearedBy_own, ranBy_own, own.1, if_pos rfl, hw]
        exact ⟨rfl, own.2⟩
      · obtain ⟨cleared, ran⟩ := silent j _ (eventsOf_other (by simpa using hij) _)
        rw [cleared, ran, if_neg hij]
        exact ⟨rfl, rfl⟩
    obtain ⟨w', ha, rfl⟩ | ⟨o, rfl, rfl⟩ | ⟨o, rfl, rfl⟩ := turn
    · rw [hup] at ha
      exact ⟨hup, only rfl ha.underway_of_flag⟩
    · exact ⟨by rw [hup]; rfl, only rfl ⟨rfl, rfl⟩⟩
    · exact ⟨hup, only rfl ⟨rfl, rfl⟩⟩

theorem Logged.underway {s t : System α β ε} {later : List (Entry α ε)}
    (h : Logged setup s later t) (hup : s.cancelled = true) :
    t.cancelled = true ∧ ∀ i, clearedBy i later = [] ∧
      (s.underway? i).toList = ranBy i later ++ (t.underway? i).toList := by
  induction h with
  | start => exact ⟨hup, fun i => ⟨rfl, rfl⟩⟩
  | @step later t a u _ hst ih =>
    obtain ⟨up, before⟩ := ih
    obtain ⟨up', next⟩ := underway_of_step up hst
    refine ⟨up', fun i => ?_⟩
    obtain ⟨cleared, ran⟩ := before i
    obtain ⟨cleared', ran'⟩ := next i
    rw [clearedBy_append, cleared, cleared', ranBy_append, ran, ran', List.append_assoc]
    exact ⟨rfl, rfl⟩

theorem gone_of_stuck {s : System α β ε} (h : ∀ t, ¬ s.Next setup t) {i : Nat} {w : Worker α β ε}
    (hw : s.workers[i]? = some w) : w = .gone := by
  apply Classical.byContradiction
  intro hne
  obtain ⟨t, ht⟩ : ∃ t, Step setup s t := exists_step_of_worker hw hne
  exact h t (next_iff_step.2 ht)

theorem Logged.exists_worker {shards : List (List (Indexed α))} {log : List (Entry α ε)}
    {s : System α β ε} (h : Logged setup (.start shards) log s) {i : Nat}
    {items : List (Indexed α)} (hi : shards[i]? = some items) :
    ∃ w, s.workers[i]? = some w ∧ w.Noted log i items s.cancelled := by
  have inside : i < s.workers.length := by
    rw [h.reaches.invariant_start.accounted.workers]
    exact (List.getElem?_eq_some_iff.1 hi).1
  have hw := List.getElem?_eq_getElem inside
  obtain ⟨items', hi', hn⟩ := h.noted.workers i _ hw
  obtain rfl := Option.some.inj (hi.symm.trans hi')
  exact ⟨_, hw, hn⟩

theorem Logged.ranBy_later {shards : List (List (Indexed α))} {log later : List (Entry α ε)}
    {s t : System α β ε} (h : Logged setup (.start shards) log s) (hlater : Logged setup s later t)
    (hup : s.cancelled = true) (i : Nat) : ranBy i later = [] ∨
      ∃ u, ranBy i later = [u] ∧ (clearedBy i log).getLast? = some u := by
  obtain ⟨_, ran⟩ := (hlater.underway hup).2 i
  cases hu : s.underway? i with
  | none =>
    rw [hu] at ran
    exact .inl (List.append_eq_nil_iff.1 ran.symm).1
  | some u =>
    obtain ⟨w, hw, under⟩ := Option.bind_eq_some_iff.1 hu
    obtain ⟨items, _, hn⟩ := h.noted.workers i w hw
    rw [hu] at ran
    obtain ⟨none, _⟩ | ⟨one, _⟩ := List.append_eq_singleton_iff.1 ran.symm
    · exact .inl none
    · exact .inr ⟨u, one, hn.cleared_of_underway under⟩

theorem Logged.not_cancelled {shards : List (List (Indexed α))} {log : List (Entry α ε)}
    {s : System α β ε} (h : Logged setup (.start shards) log s)
    (nobody : ∀ i, ¬ FailedIn log i) : s.cancelled = false := by
  apply Bool.eq_false_iff.2
  intro hup
  obtain ⟨j, failed⟩ := h.noted.flagged hup
  exact nobody j failed

end System

/-- In a run, whatever the order of its steps, every worker runs tests from the front of its shard,
and stops before the end only for the flag or a failure of its own. Once the flag is up a worker
runs one more test at most, which it had cleared before. Every run has an end; where nobody fails,
the flag is never up and at the end all tests were run. -/
theorem ranBy_of_logged {tests : List α} {workers : Nat} {log : List (Entry α ε)}
    {s : System α β ε} (h : System.Logged setup (.start (shard tests workers)) log s) :
    (∀ i items, (shard tests workers)[i]? = some items → ∃ w, s.workers[i]? = some w ∧
      ranBy i log <+: items ∧
      (w.isStopped = true → ranBy i log = items ∨ s.cancelled = true ∨ FailedIn log i)) ∧
    (s.cancelled = true → ∀ later t, System.Logged setup s later t → t.cancelled = true ∧
      ∀ i, clearedBy i later = [] ∧ (ranBy i later = [] ∨
        ∃ u, ranBy i later = [u] ∧ (clearedBy i log).getLast? = some u)) ∧
    log.length + s.remaining ≤ (System.start (shard tests workers) : System α β ε).remaining ∧
    ((∀ i, ¬ FailedIn log i) → s.cancelled = false ∧ ((∀ t, ¬ s.Next setup t) →
      ∀ i items, (shard tests workers)[i]? = some items → ranBy i log = items)) := by
  refine ⟨fun i items hi => ?_, fun hup later t hlater => ?_, h.length_add_remaining_le,
    fun nobody => ?_⟩
  · obtain ⟨w, hw, hn⟩ := h.exists_worker hi
    exact ⟨w, hw, hn.ran_prefix, hn.ran_all⟩
  · obtain ⟨up, each⟩ := hlater.underway hup
    exact ⟨up, fun i => ⟨(each i).1, h.ranBy_later hlater hup i⟩⟩
  · have down := h.not_cancelled nobody
    refine ⟨down, fun stuck i items hi => ?_⟩
    obtain ⟨w, hw, hn⟩ := h.exists_worker hi
    obtain rfl := System.gone_of_stuck stuck hw
    obtain all | up | failed := hn.ran_all rfl
    · exact all
    · cases down.symm.trans up
    · exact absurd failed (nobody i)

theorem ranBy_of_logged_six :
    let run (n : Nat) : Except String Nat := if n = 6 then .error "six" else .ok n
    let setup : Setup Nat Nat String := fun _ => .ok run
    (∃ log s later t, System.Logged setup (.start (shard [5, 6, 7] 2)) log s ∧
      s.cancelled = true ∧ System.Logged setup s later t ∧ ranBy 1 log = [(1, 6)] ∧
      ranBy 0 later = [(0, 5)] ∧ t.cancelled = true ∧ ∀ i, clearedBy i later = [] ∧
        (ranBy i later = [] ∨ ∃ u, ranBy i later = [u] ∧ (clearedBy i log).getLast? = some u)) ∧
    ∃ log s, System.Logged setup (.start (shard [5] 1)) log s ∧ (∀ i, ¬ FailedIn log i) ∧
      (∀ t, ¬ s.Next setup t) ∧ s.cancelled = false ∧
      ∀ i items, (shard [5] 1)[i]? = some items → ranBy i log = items := by
  intro run setup
  constructor
  · let first := System.follow setup
      [.worker 0, .worker 1, .worker 0, .worker 1, .worker 1, .worker 1]
      ([], .start (shard [5, 6, 7] 2))
    let s : System Nat Nat String :=
      ⟨[.running run [] (0, 5) [(2, 7)], .sending (.error "six")], true, [], .receiving [none, none]⟩
    let second := System.follow setup [.worker 0, .worker 0] ([], s)
    have before : System.Logged setup (.start (shard [5, 6, 7] 2)) first.1 s :=
      System.Logged.start.follow _
    have after : System.Logged setup s second.1 second.2 := System.Logged.start.follow _
    obtain ⟨raised, each⟩ := (ranBy_of_logged before).2.1 rfl _ _ after
    exact ⟨first.1, s, second.1, second.2, before, rfl, after, rfl, rfl, raised, each⟩
  · let whole := System.follow setup
      [.worker 0, .worker 0, .worker 0, .worker 0, .worker 0, .worker 0, .coordinator, .coordinator]
      ([], .start (shard [5] 1))
    let s : System Nat Nat String := ⟨[.gone], false, [], .finished (.ok [(0, 5)])⟩
    have logged : System.Logged setup (.start (shard [5] 1)) whole.1 s :=
      System.Logged.start.follow _
    have events : whole.1.filterMap (·.2) = [.setUp none, .cleared (0, 5), .ran (0, 5) none] := rfl
    have nobody : ∀ i, ¬ FailedIn whole.1 i := by
      rintro i ⟨e, he, failed⟩
      have known : e ∈ whole.1.filterMap (·.2) := mem_of_mem_eventsOf he
      simp only [events, List.mem_cons, List.not_mem_nil, or_false] at known
      obtain rfl | rfl | rfl := known <;> cases failed
    have stuck : ∀ t, ¬ s.Next setup t := by
      rintro t ⟨a, ha⟩
      cases a with
      | coordinator => cases ha
      | worker i => cases i <;> cases ha
    obtain ⟨down, all⟩ := (ranBy_of_logged logged).2.2.2 nobody
    exact ⟨whole.1, s, logged, nobody, stuck, down, all stuck⟩

end Doctest.Schedule
