import Doctest.Guest.Direct
import Doctest.Proofs.Guest.Miniature
import Doctest.Proofs.Text.Utf8

namespace Doctest.Guest

def Host.Within (h g : Host) : Prop :=
  ∀ source name f, h.find? source name = some f → g.find? source name = some f

theorem Host.within_append (h g : Host) : h.Within (h ++ g) := by
  intro source name f hf
  rw [find?, Option.map_eq_some_iff] at hf ⊢
  obtain ⟨entry, hentry, rfl⟩ := hf
  exact ⟨entry, by rw [List.find?_append, hentry]; rfl, rfl⟩

theorem Host.within_append_left {h g : Host} {a b : String} (hh : ∀ entry ∈ h, entry.1.1 = a)
    (hg : ∀ entry ∈ g, entry.1.1 = b) (hab : a ≠ b) : g.Within (h ++ g) := by
  intro source name f hf
  have offered : source = b := hg _ (mem_of_find? hf)
  have apart : h.find? source name = none := by
    cases hfound : h.find? source name with
    | none => rfl
    | some other => exact absurd ((hh _ (mem_of_find? hfound)).symm.trans offered) hab
  rw [find?, Option.map_eq_none_iff] at apart
  rw [find?, List.find?_append, apart]
  exact hf

theorem Shape.within_both (shape : Shape) : shape.host.Within Shape.both.host := by
  cases shape with
  | empty => nofun
  | print => exact Host.within_append printHost systemHost
  | system =>
    have prints : ∀ entry ∈ printHost, entry.1.1 = printSource := by
      simp [printHost]
    have calls : ∀ entry ∈ systemHost, entry.1.1 = systemSource := by
      intro entry hentry
      obtain ⟨c, _, rfl⟩ := List.mem_map.1 hentry
      rfl
    exact Host.within_append_left prints calls (by decide)
  | both => exact fun _ _ _ hf => hf

section

variable [Engine] {m : Engine.Module}

theorem LinksByName.instantiate_within (links : LinksByName) {h g : Host} (hwithin : h.Within g)
    {i : Engine.Instance} (hi : Engine.instantiate h m = .ok i) :
    Engine.instantiate g m = .ok i := by
  have same : ∀ key ∈ Engine.imports m, h.find? key.1 key.2 = g.find? key.1 key.2 := by
    intro key hkey
    obtain ⟨f, hf⟩ := links.found hi key hkey
    rw [hf, hwithin _ _ _ hf]
  rw [← links.agrees same, hi]

theorem LinksByName.started_both (links : LinksByName) {shape : Shape} {s : Started}
    (hs : started m shape = .ok s) : started m .both = .ok s := by
  rw [started] at hs ⊢
  cases hinstance : Engine.instantiate shape.host m with
  | error e => simp [hinstance, bind, Except.bind] at hs
  | ok i =>
    rw [links.instantiate_within shape.within_both hinstance]
    rwa [hinstance] at hs

theorem firstStarted_of_same {shapes : List Shape} {s : Started}
    (hsome : ∃ shape ∈ shapes, started m shape = .ok s)
    (hsame : ∀ shape ∈ shapes, ∀ t, started m shape = .ok t → t = s) :
    firstStarted m shapes = .ok s := by
  induction shapes with
  | nil =>
    obtain ⟨shape, hshape, _⟩ := hsome
    cases hshape
  | cons shape shapes ih =>
    rw [firstStarted]
    cases hstarted : started m shape with
    | ok t => rw [hsame shape List.mem_cons_self t hstarted]
    | error e =>
      obtain ⟨other, hother, hs⟩ := hsome
      obtain rfl | hother := List.mem_cons.1 hother
      · simp [hs] at hstarted
      · have rest := ih ⟨other, hother, hs⟩ fun r hr => hsame r (List.mem_cons_of_mem shape hr)
        simp only [rest]

theorem firstStarted_of_failed {shapes : List Shape} {reason : Shape → String}
    (hfailed : ∀ shape ∈ shapes, started m shape = .error (reason shape)) :
    firstStarted m shapes = .error (shapes.map fun shape => shape.name ++ ": " ++ reason shape) := by
  induction shapes with
  | nil => rfl
  | cons shape shapes ih =>
    have rest := ih fun r hr => hfailed r (List.mem_cons_of_mem shape hr)
    rw [firstStarted, hfailed shape List.mem_cons_self]
    simp only [rest]
    rfl

theorem LinksByName.exists_reason (links : LinksByName) {e : String}
    (he : started m .both = .error e) :
    ∃ reason : Shape → String, ∀ shape, started m shape = .error (reason shape) := by
  have each : ∀ shape, ∃ reason, started m shape = .error reason := by
    intro shape
    cases hstarted : started m shape with
    | ok s => simp [links.started_both hstarted] at he
    | error reason => exact ⟨reason, rfl⟩
  exact Classical.axiomOfChoice each

theorem Started.callEntry_ne_notInstantiated (s : Started) (entry : String) (wantMemory : Bool)
    (attempts : List String) :
    (s.callEntry entry wantMemory).failure ≠ some (.notInstantiated attempts) := by
  fun_cases s.callEntry entry wantMemory with
  | case3 type code => cases code.run s.process <;> simp [calledOutcome]
  | _ => simp [DirectOutcome.failed]

/-- A direct call is the call on the widest host, if the module starts there. If not, it starts on
none of the hosts, and the outcome holds nothing but why, host by host. -/
theorem callDirect_eq_widest (links : LinksByName) (m : Engine.Module) (entry : String)
    (wantMemory : Bool) :
    let outcome := Image.callDirect (.ok m) entry wantMemory
    match started m .both with
    | .ok s =>
      outcome = s.callEntry entry wantMemory ∧
        ∀ attempts, outcome.failure ≠ some (.notInstantiated attempts)
    | .error _ =>
      ∃ reason : Shape → String, (∀ shape, started m shape = .error (reason shape)) ∧
        outcome = ⟨none, none, "", some (.notInstantiated ["empty: " ++ reason .empty,
          "env: " ++ reason .print, "wasi: " ++ reason .system, "env+wasi: " ++ reason .both])⟩ := by
  intro outcome
  cases hboth : started m .both with
  | ok s =>
    have first : firstStarted m Shape.all = .ok s := by
      apply firstStarted_of_same
      · exact ⟨.both, by decide, hboth⟩
      · intro shape _ t ht
        rw [links.started_both ht] at hboth
        exact Except.ok.inj hboth
    have same : outcome = s.callEntry entry wantMemory := by
      simp only [outcome, Image.callDirect, first]
    refine ⟨same, fun attempts => ?_⟩
    rw [same]
    exact s.callEntry_ne_notInstantiated entry wantMemory attempts
  | error e =>
    obtain ⟨reason, hreason⟩ := links.exists_reason hboth
    have failed : ∀ shape ∈ Shape.all, started m shape = .error (reason shape) :=
      fun shape _ => hreason shape
    have first := firstStarted_of_failed failed
    refine ⟨reason, hreason, ?_⟩
    simp only [outcome, Image.callDirect, first]
    rfl

end

theorem callDirect_eq_widest_print :
    let print : Import := ⟨printSource, "print_i32", ⟨[.i32], []⟩⟩
    let say : Stmt := .call "print_i32" [.const 5]
    let p : Program := ⟨[print], none, [], [("main", ⟨[], [], .i32 (.const 7)⟩)], [say]⟩
    let q : Program := { p with start := [say, .trap .unreachable] }
    LinksByName ∧
      Image.callDirect (.ok p) "main" false = ⟨some (.i32 7), none, "5\n", none⟩ ∧
      ∃ attempts, attempts.length = 4 ∧ Image.callDirect (.ok q) "main" false =
        ⟨none, none, "", some (.notInstantiated attempts)⟩ := by
  intro print say p q
  obtain ⟨same, _⟩ := callDirect_eq_widest miniature_linksByName p "main" false
  obtain ⟨reason, _, failed⟩ := callDirect_eq_widest miniature_linksByName q "main" false
  have called : Image.callDirect (.ok p) "main" false =
      ⟨some (.i32 7), none, Text.Utf8.decodeString (Text.Utf8.encodeString "5\n"), none⟩ :=
    same.trans rfl
  rw [Text.Utf8.decodeString_encodeString] at called
  exact ⟨miniature_linksByName, called, _, rfl, failed⟩

end Doctest.Guest
