import Doctest.Proofs.Schedule.Conclusion
import Doctest.Proofs.Schedule.Termination

/-! Runs with a log of them. The log has one entry a step: whose turn it was and, where a worker was
set up, looked at the flag, or ran a test, what came of it. From the log alone it can be told which
tests each worker ran, in which order, and why it stopped. -/

namespace Doctest.Schedule

variable {α β ε : Type} {setup : Setup α β ε} {shards : List (List (Indexed α))}

inductive Event (α ε : Type)
  | setUp : Option ε → Event α ε
  | cleared : Indexed α → Event α ε
  | ran : Indexed α → Option ε → Event α ε

def Event.error? : Event α ε → Option ε
  | .setUp e | .ran _ e => e
  | .cleared _ => none

def Event.ran? : Event α ε → Option (Indexed α)
  | .ran t _ => some t
  | _ => none

def Event.cleared? : Event α ε → Option (Indexed α)
  | .cleared t => some t
  | _ => none

abbrev Entry (α ε : Type) := Actor × Option (Event α ε)

def errorOf : Except ε β → Option ε
  | .ok _ => none
  | .error e => some e

def Worker.event? (setup : Setup α β ε) (i : Nat) (flag : Bool) :
    Worker α β ε → Option (Event α ε)
  | .starting _ => some (.setUp (errorOf (setup i)))
  | .checking _ _ (t :: _) => if flag then none else some (.cleared t)
  | .running run _ t _ => some (.ran t (errorOf (run t.2)))
  | _ => none

def System.event? (setup : Setup α β ε) (s : System α β ε) : Actor → Option (Event α ε)
  | .worker i => s.workers[i]?.bind (·.event? setup i s.cancelled)
  | .coordinator => none

/-- Some order of steps leads from one system to another, and this is the log of them. -/
inductive System.Logged (setup : Setup α β ε) (s : System α β ε) :
    List (Entry α ε) → System α β ε → Prop
  | start : Logged setup s [] s
  | step {log t a u} : Logged setup s log t → t.step setup a = some u →
      Logged setup s (log ++ [(a, t.event? setup a)]) u

def System.follow (setup : Setup α β ε) :
    List Actor → List (Entry α ε) × System α β ε → List (Entry α ε) × System α β ε
  | [], run => run
  | a :: turns, (log, s) =>
    match s.step setup a with
    | some t => follow setup turns (log ++ [(a, s.event? setup a)], t)
    | none => follow setup turns (log, s)

theorem System.Logged.follow {s t : System α β ε} {log : List (Entry α ε)}
    (h : Logged setup s log t) (turns : List Actor) :
    Logged setup s (System.follow setup turns (log, t)).1 (System.follow setup turns (log, t)).2 := by
  induction turns generalizing log t with
  | nil => exact h
  | cons a turns ih =>
    rw [System.follow]
    split
    · next u hu => exact ih (h.step hu)
    · exact ih h

def eventsOf (i : Nat) (log : List (Entry α ε)) : List (Event α ε) :=
  log.filterMap fun entry => if entry.1 = .worker i then entry.2 else none

def ranBy (i : Nat) (log : List (Entry α ε)) : List (Indexed α) :=
  (eventsOf i log).filterMap Event.ran?

def clearedBy (i : Nat) (log : List (Entry α ε)) : List (Indexed α) :=
  (eventsOf i log).filterMap Event.cleared?

def FailedIn (log : List (Entry α ε)) (i : Nat) : Prop := ∃ e ∈ eventsOf i log, e.error?.isSome

theorem eventsOf_append (i : Nat) (log later : List (Entry α ε)) :
    eventsOf i (log ++ later) = eventsOf i log ++ eventsOf i later := List.filterMap_append

theorem mem_of_mem_eventsOf {i : Nat} {e : Event α ε} {log : List (Entry α ε)}
    (h : e ∈ eventsOf i log) : e ∈ log.filterMap (·.2) := by
  obtain ⟨entry, hentry, heq⟩ := List.mem_filterMap.1 h
  split at heq
  · exact List.mem_filterMap.2 ⟨entry, hentry, heq⟩
  · cases heq

theorem eventsOf_own (i : Nat) (e : Option (Event α ε)) :
    eventsOf i [(.worker i, e)] = e.toList := by
  cases e <;> simp [eventsOf]

theorem eventsOf_other {i : Nat} {a : Actor} (h : a ≠ .worker i) (e : Option (Event α ε)) :
    eventsOf i [(a, e)] = [] := by
  simp [eventsOf, h]

theorem eventsOf_silent (i : Nat) (a : Actor) :
    eventsOf i [(a, (none : Option (Event α ε)))] = [] := by
  simp [eventsOf]

theorem ranBy_append (i : Nat) (log later : List (Entry α ε)) :
    ranBy i (log ++ later) = ranBy i log ++ ranBy i later := by
  rw [ranBy, eventsOf_append, List.filterMap_append]
  rfl

theorem clearedBy_append (i : Nat) (log later : List (Entry α ε)) :
    clearedBy i (log ++ later) = clearedBy i log ++ clearedBy i later := by
  rw [clearedBy, eventsOf_append, List.filterMap_append]
  rfl

theorem ranBy_own (i : Nat) (e : Option (Event α ε)) :
    ranBy i [(.worker i, e)] = (e.bind Event.ran?).toList := by
  rw [ranBy, eventsOf_own]
  cases e with
  | none => rfl
  | some e => cases e <;> rfl

theorem clearedBy_own (i : Nat) (e : Option (Event α ε)) :
    clearedBy i [(.worker i, e)] = (e.bind Event.cleared?).toList := by
  rw [clearedBy, eventsOf_own]
  cases e with
  | none => rfl
  | some e => cases e <;> rfl

theorem failedIn_own {i : Nat} {e : Event α ε} (h : e.error?.isSome) (log : List (Entry α ε)) :
    FailedIn (log ++ [(.worker i, some e)]) i := by
  refine ⟨e, ?_, h⟩
  rw [eventsOf_append, eventsOf_own]
  exact List.mem_append_right _ (List.mem_singleton.2 rfl)

theorem FailedIn.append {log : List (Entry α ε)} {i : Nat} (h : FailedIn log i)
    (later : List (Entry α ε)) : FailedIn (log ++ later) i := by
  obtain ⟨e, he, failed⟩ := h
  exact ⟨e, eventsOf_append i log later ▸ List.mem_append_left _ he, failed⟩

/-- What the log says of a worker, by how far it is. One that stopped before the end of its tests saw
the flag raised or has failed. -/
def Worker.Noted (log : List (Entry α ε)) (i : Nat) (items : List (Indexed α)) (flag : Bool) :
    Worker α β ε → Prop
  | .starting todo | .checking _ _ todo => ranBy i log ++ todo = items
  | .running _ _ t todo =>
    ranBy i log ++ t :: todo = items ∧ (clearedBy i log).getLast? = some t
  | .settled (.error _) | .sending (.error _) => ranBy i log <+: items ∧ FailedIn log i
  | .settled (.ok _) | .sending (.ok _) =>
    ranBy i log <+: items ∧ (ranBy i log = items ∨ flag = true)
  | .gone =>
    ranBy i log <+: items ∧ (ranBy i log = items ∨ flag = true ∨ FailedIn log i)

section Noted

variable {log : List (Entry α ε)} {i : Nat} {items : List (Indexed α)} {flag : Bool}
  {w w' : Worker α β ε}

theorem Worker.Noted.mono {flag' : Bool} (h : w.Noted log i items flag)
    (hf : flag = true → flag' = true) : w.Noted log i items flag' := by
  have stopped {p : Prop} (hp : p ∨ flag = true) : p ∨ flag' = true := hp.imp_right hf
  cases w with
  | settled o => cases o with
    | ok => exact ⟨h.1, stopped h.2⟩
    | error => exact h
  | sending o => cases o with
    | ok => exact ⟨h.1, stopped h.2⟩
    | error => exact h
  | gone => exact ⟨h.1, h.2.imp_right (.imp_left hf)⟩
  | _ => exact h

theorem Worker.Noted.unheard {later : List (Entry α ε)} (h : w.Noted log i items flag)
    (silent : eventsOf i later = []) : w.Noted (log ++ later) i items flag := by
  simp only [Noted, ranBy, clearedBy, FailedIn, eventsOf_append, silent, List.append_nil] at h ⊢
  exact h

theorem Worker.Noted.raise {o : Outcome β ε} (h : (settled o).Noted log i items flag) :
    (sending o : Worker α β ε).Noted log i items flag := by
  cases o <;> exact h

theorem Worker.Noted.send {o : Outcome β ε} (h : (sending o).Noted log i items flag) :
    (gone : Worker α β ε).Noted log i items flag := by
  cases o with
  | ok done => exact ⟨h.1, h.2.imp_right .inl⟩
  | error e => exact ⟨h.1, .inr (.inr h.2)⟩

theorem Worker.Noted.advance (h : w.Noted log i items flag) (ha : w.Advance setup i flag w') :
    w'.Noted (log ++ [(.worker i, w.event? setup i flag)]) i items flag := by
  have ran (e : Option (Event α ε)) := (ranBy_append i log _).trans (congrArg _ (ranBy_own i e))
  cases ha with
  | @setUp _ run todo hs =>
    have event : event? setup i flag (.starting todo : Worker α β ε) = some (.setUp none) := by
      rw [event?, hs]
      rfl
    simp only [Noted, event, ran] at h ⊢
    simpa [Event.ran?] using h
  | @setUpFails _ e todo hs =>
    have event : event? setup i flag (.starting todo : Worker α β ε) = some (.setUp (some e)) := by
      rw [event?, hs]
      rfl
    simp only [Noted, event, ran] at h ⊢
    exact ⟨⟨todo, by simpa [Event.ran?] using h⟩, failedIn_own rfl log⟩
  | complete =>
    simp only [Noted, List.append_nil] at h ⊢
    rw [ran, h]
    simp [event?]
  | cutShort =>
    simp only [Noted] at h ⊢
    rw [ran, ← h]
    simp [event?]
  | goOn =>
    simp only [Noted] at h ⊢
    rw [ran, clearedBy_append, clearedBy_own]
    simpa [event?, Event.ran?, Event.cleared?] using h
  | @test _ run done r todo t hr =>
    have event : event? setup i flag (.running run done t todo) = some (.ran t none) := by
      rw [event?, hr]
      rfl
    simp only [Noted, event, ran] at h ⊢
    simpa [Event.ran?] using h.1
  | @testFails _ run done e todo t hr =>
    have event : event? setup i flag (.running run done t todo) = some (.ran t (some e)) := by
      rw [event?, hr]
      rfl
    simp only [Noted, event, ran] at h ⊢
    exact ⟨⟨todo, by simpa [Event.ran?] using h.1⟩, failedIn_own rfl log⟩

end Noted

namespace System

structure Noted (shards : List (List (Indexed α))) (log : List (Entry α ε)) (s : System α β ε) :
    Prop where
  workers : ∀ i (w : Worker α β ε), s.workers[i]? = some w →
    ∃ items, shards[i]? = some items ∧ w.Noted log i items s.cancelled
  sent : ∀ i e, (i, .error e) ∈ s.channel → ∃ j, FailedIn log j
  flagged : s.cancelled = true → ∃ j, FailedIn log j

theorem Noted.start : (System.start shards : System α β ε).Noted shards [] where
  workers := by
    intro i w hw
    simp only [System.start, List.getElem?_map, Option.map_eq_some_iff] at hw
    obtain ⟨items, hi, rfl⟩ := hw
    exact ⟨items, hi, rfl⟩
  sent := by simp [System.start]
  flagged := nofun

theorem of_stepCoordinator {s t : System α β ε} (h : s.stepCoordinator = some t) :
    t.workers = s.workers ∧ (∀ m ∈ t.channel, m ∈ s.channel) ∧
      (s.cancelled = true → t.cancelled = true) ∧
      (t.cancelled = true → s.cancelled = true ∨ ∃ i e, (i, .error e) ∈ s.channel) := by
  rw [stepCoordinator] at h
  split at h
  · cases h
  · next hm =>
    obtain rfl := Option.some.inj h
    exact ⟨rfl, fun m hmem => hm ▸ List.mem_cons_of_mem _ hmem, id, .inl⟩
  · next i e channel hc hm =>
    obtain rfl := Option.some.inj h
    exact ⟨rfl, fun m hmem => hm ▸ List.mem_cons_of_mem _ hmem, fun _ => rfl,
      fun _ => .inr ⟨i, e, hm ▸ List.mem_cons_self⟩⟩
  · split at h
    · obtain rfl := Option.some.inj h
      exact ⟨rfl, fun m hmem => hmem, id, .inl⟩
    · cases h

theorem Noted.step {s t : System α β ε} {log : List (Entry α ε)} {a : Actor}
    (h : s.Noted shards log) (hst : s.step setup a = some t) :
    t.Noted shards (log ++ [(a, s.event? setup a)]) := by
  have later {j : Nat} (hj : FailedIn log j) : ∃ j, FailedIn (log ++ [(a, s.event? setup a)]) j :=
    ⟨j, hj.append _⟩
  have sent (i : Nat) (e : ε) (hm : (i, .error e) ∈ s.channel) := (h.sent i e hm).elim fun _ => later
  have flagged (hc : s.cancelled = true) := (h.flagged hc).elim fun _ => later
  cases a with
  | coordinator =>
    obtain ⟨hw, hchannel, raised, reason⟩ := of_stepCoordinator hst
    refine ⟨fun i w hi => ?_, fun i e hm => sent i e (hchannel _ hm), fun hup => ?_⟩
    · obtain ⟨items, hitems, noted⟩ := h.workers i w (hw ▸ hi)
      exact ⟨items, hitems, (noted.mono raised).unheard (eventsOf_silent i .coordinator)⟩
    · obtain hup | ⟨i, e, hm⟩ := reason hup
      · exact flagged hup
      · exact sent i e hm
  | worker i =>
    obtain ⟨w, hw, turn⟩ := stepWorker_cases hst
    obtain ⟨items, hitems, noted⟩ := h.workers i w hw
    have event : s.event? setup (.worker i) = w.event? setup i s.cancelled := by
      rw [event?, hw]
      rfl
    rw [event] at later sent flagged ⊢
    -- only the worker whose turn it was is another one after it
    have workers {w' : Worker α β ε} {flag : Bool} (raised : s.cancelled = true → flag = true)
        (hw' : w'.Noted (log ++ [(.worker i, w.event? setup i s.cancelled)]) i items flag)
        (j : Nat) (v : Worker α β ε) (hv : (s.workers.set i w')[j]? = some v) :
        ∃ items, shards[j]? = some items ∧
          v.Noted (log ++ [(.worker i, w.event? setup i s.cancelled)]) j items flag := by
      by_cases hij : i = j
      · subst hij
        rw [List.getElem?_set_self (List.getElem?_eq_some_iff.1 hw).1, Option.some.injEq] at hv
        exact ⟨items, hitems, hv ▸ hw'⟩
      · rw [List.getElem?_set_ne hij] at hv
        obtain ⟨items, hitems, noted⟩ := h.workers j v hv
        exact ⟨items, hitems, (noted.mono raised).unheard (eventsOf_other (by simp [hij]) _)⟩
    obtain ⟨w', ha, rfl⟩ | ⟨o, rfl, rfl⟩ | ⟨o, rfl, rfl⟩ := turn
    · exact ⟨workers id (noted.advance ha), sent, flagged⟩
    · have silent := eventsOf_silent (α := α) (ε := ε) i (.worker i)
      have raised : s.cancelled = true → (s.cancelled || o.toOption.isNone) = true := by
        intro hc
        rw [hc, Bool.true_or]
      refine ⟨workers raised ((noted.mono raised).raise.unheard silent), sent, fun hup => ?_⟩
      cases o with
      | ok done => exact flagged (by simpa [Except.toOption] using hup)
      | error e => exact later noted.2
    · have silent := eventsOf_silent (α := α) (ε := ε) i (.worker i)
      refine ⟨workers id (noted.send.unheard silent), fun j e hm => ?_, flagged⟩
      obtain hm | hm := List.mem_append.1 hm
      · exact sent j e hm
      · obtain ⟨rfl, rfl⟩ := Prod.mk.inj (List.mem_singleton.1 hm)
        exact later noted.2

theorem Logged.noted {s : System α β ε} {log : List (Entry α ε)}
    (h : Logged setup (.start shards) log s) : s.Noted shards log := by
  induction h with
  | start => exact .start
  | step _ hst ih => exact ih.step hst

theorem Logged.reaches {s t : System α β ε} {log : List (Entry α ε)} (h : Logged setup s log t) :
    Reaches setup s t := by
  induction h with
  | start => exact .refl s
  | step _ hst ih => exact ih.step ⟨_, hst⟩

theorem Logged.length_add_remaining_le {s t : System α β ε} {log : List (Entry α ε)}
    (h : Logged setup s log t) : log.length + t.remaining ≤ s.remaining := by
  induction h with
  | start => simp
  | step _ hst ih =>
    have less := (next_iff_step.1 ⟨_, hst⟩).remaining_lt
    rw [List.length_append, List.length_singleton]
    omega

end System

end Doctest.Schedule
