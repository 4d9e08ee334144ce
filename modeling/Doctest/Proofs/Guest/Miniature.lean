import Doctest.Guest.Miniature.Engine
import Doctest.Proofs.Guest.Laws

namespace Doctest.Guest

open Text.Exit (barren barren_append barren_intercalate find?_of_barren divides_expected divides_with)

namespace Machine

variable {α β : Type} {calls : HostFunction → Prop} {traps : String → Prop} {fs : Linked}

def Obeys (calls : HostFunction → Prop) (traps : String → Prop) (run : Machine α) : Prop :=
  ∀ m, (run m).All calls traps fun _ => True

theorem Obeys.pure (a : α) : Obeys calls traps (pure a : Machine α) := fun _ => trivial

theorem Obeys.bind {run : Machine α} {next : α → Machine β} (h : Obeys calls traps run)
    (hnext : ∀ a, Obeys calls traps (next a)) : Obeys calls traps (run >>= next) :=
  fun m => (h m).bind fun r _ => hnext r.1 r.2

structure Sound (calls : HostFunction → Prop) (traps : String → Prop) (fs : Linked) : Prop where
  functions : ∀ f ∈ fs.functions, calls f.2
  traps (t : CodeTrap) : traps t.message

theorem Obeys.load (h : Sound calls traps fs) (address : UInt32) :
    Obeys calls traps (load address) := by
  intro m
  rw [Guest.load]
  cases m.readWord? address.toNat with
  | some w => trivial
  | none => exact h.traps _

theorem Obeys.store (h : Sound calls traps fs) (address : UInt32) (bs : List UInt8) :
    Obeys calls traps (store address bs) := by
  intro m
  rw [Guest.store]
  split
  · trivial
  · exact h.traps _

theorem Obeys.call (h : Sound calls traps fs) (name : String) (args : List UInt32) :
    Obeys calls traps (fs.call name args) := by
  intro m
  rw [Linked.call]
  cases hf : fs.functions.find? (·.1 = name) with
  | some f => exact ⟨h.functions f (List.mem_of_find?_eq_some hf), fun _ _ => trivial⟩
  | none => exact h.traps _

theorem Obeys.times {run : Machine Unit} (h : Obeys calls traps run) (n : Nat) :
    Obeys calls traps (times n run) := by
  induction n with
  | zero => exact .pure ()
  | succ n ih => exact h.bind fun _ => ih

mutual

theorem Obeys.eval (h : Sound calls traps fs) : ∀ e : Expr, Obeys calls traps (e.eval fs)
  | .const w => .pure w
  | .load a => (Obeys.eval h a).bind fun address => .load h address
  | .add a b => (Obeys.eval h a).bind fun _ => (Obeys.eval h b).bind fun _ => .pure _
  | .call name args => (Obeys.evalAll h args).bind fun values => .call h name values

theorem Obeys.evalAll (h : Sound calls traps fs) :
    ∀ es : List Expr, Obeys calls traps (evalAll fs es)
  | [] => .pure []
  | e :: es => (Obeys.eval h e).bind fun _ => (Obeys.evalAll h es).bind fun _ => .pure _

end

mutual

theorem Obeys.exec (h : Sound calls traps fs) : ∀ stmt : Stmt, Obeys calls traps (stmt.exec fs)
  | .call name args => (Obeys.evalAll h args).bind fun values =>
    (Obeys.call h name values).bind fun _ => .pure ()
  | .store a e => (Obeys.eval h a).bind fun address =>
    (Obeys.eval h e).bind fun w => .store h address _
  | .storeByte a e => (Obeys.eval h a).bind fun address =>
    (Obeys.eval h e).bind fun w => .store h address _
  | .when e body => by
    rw [Stmt.exec]
    apply (Obeys.eval h e).bind
    intro w
    split
    · exact Obeys.execAll h body
    · exact .pure ()
  | .repeat n body => (Obeys.execAll h body).times n
  | .trap t => fun _ => h.traps t

theorem Obeys.execAll (h : Sound calls traps fs) :
    ∀ body : List Stmt, Obeys calls traps (execAll fs body)
  | [] => .pure ()
  | stmt :: body => (Obeys.exec h stmt).bind fun _ => Obeys.execAll h body

end

theorem Obeys.returns (h : Sound calls traps fs) (r : Returns) :
    Obeys calls traps (r.eval fs) := by
  cases r with
  | i32 e => exact (Obeys.eval h e).bind fun _ => .pure _
  | _ => exact .pure _

theorem Obeys.run (h : Sound calls traps fs) (f : Function) : Obeys calls traps (f.run fs) :=
  (Obeys.execAll h f.body).bind fun _ => .returns h f.returns

end Machine

namespace ProgramInstance

variable {calls : HostFunction → Prop} {traps : String → Prop} {i : ProgramInstance}

theorem all_perform {α : Type} {run : Machine α} (h : Machine.Obeys calls traps run) :
    (i.perform run).All calls traps fun r => r.2.linked = i.linked :=
  (h i.memory).bind fun _ _ => rfl

theorem all_start (h : Machine.Sound calls traps i.linked) :
    i.start.All calls traps fun j => j.linked = i.linked :=
  (all_perform (.execAll h i.program.start)).bind fun _ same => same

theorem all_export (h : Machine.Sound calls traps i.linked) {name : String} {type : FunctionType}
    {code : Code (Answer × ProgramInstance)} (hexport : i.export? name = some (.function type code)) :
    code.All calls traps fun _ => True := by
  rw [export?] at hexport
  split at hexport
  · next f _ =>
    cases hexport
    exact (all_perform (.run h f)).imp_ends fun _ _ => trivial
  · split at hexport
    · cases hexport
    · cases hexport

end ProgramInstance

theorem resolveImport_eq_ok {h : Host} {i : Import} {f : HostFunction}
    (hf : resolveImport h i = .ok f) : h.find? i.source i.name = some f := by
  rw [resolveImport] at hf
  split at hf
  · cases hf
  · next g hg =>
    split at hf
    · cases hf
      exact hg
    · cases hf

theorem link_cons_eq_ok {h : Host} {i : Import} {imports : List Import}
    {fs : List (String × HostFunction)} :
    link h (i :: imports) = .ok fs ↔ ∃ f rest, resolveImport h i = .ok f ∧
      link h imports = .ok rest ∧ fs = (i.name, f) :: rest := by
  rw [link]
  cases resolveImport h i with
  | error e => simp [bind, Except.bind]
  | ok f =>
    cases link h imports with
    | error e => simp [bind, Except.bind]
    | ok rest => simp [bind, Except.bind, pure, Except.pure, eq_comm]

theorem resolved_of_link {h : Host} {imports : List Import} {fs : List (String × HostFunction)}
    (hlink : link h imports = .ok fs) :
    (∀ i ∈ imports, ∃ f, resolveImport h i = .ok f) ∧
      ∀ f ∈ fs, ∃ i, resolveImport h i = .ok f.2 := by
  induction imports generalizing fs with
  | nil =>
    cases hlink
    simp
  | cons i imports ih =>
    obtain ⟨f, rest, hf, hrest, rfl⟩ := link_cons_eq_ok.1 hlink
    obtain ⟨asked, given⟩ := ih hrest
    exact ⟨List.forall_mem_cons.2 ⟨⟨f, hf⟩, asked⟩, List.forall_mem_cons.2 ⟨⟨i, hf⟩, given⟩⟩

theorem link_congr {h g : Host} {imports : List Import}
    (hsame : ∀ i ∈ imports, h.find? i.source i.name = g.find? i.source i.name) :
    link h imports = link g imports := by
  induction imports with
  | nil => rfl
  | cons i imports ih =>
    have first : resolveImport h i = resolveImport g i := by
      rw [resolveImport, resolveImport, hsame i List.mem_cons_self]
    rw [link, link, first, ih fun j hj => hsame j (List.mem_cons_of_mem i hj)]

theorem link_error {h : Host} {imports : List Import} {e : LinkError}
    (hlink : link h imports = .error e) : ∃ i ∈ imports, resolveImport h i = .error e := by
  induction imports with
  | nil => cases hlink
  | cons i imports ih =>
    rw [link] at hlink
    cases hf : resolveImport h i with
    | error e' =>
      simp only [hf, bind, Except.bind, Except.error.injEq] at hlink
      exact ⟨i, List.mem_cons_self, hlink ▸ hf⟩
    | ok f =>
      cases hrest : link h imports with
      | error e' =>
        simp only [hf, hrest, bind, Except.bind, Except.error.injEq] at hlink
        obtain ⟨j, hj, he⟩ := ih (hlink ▸ hrest)
        exact ⟨j, List.mem_cons_of_mem i hj, he⟩
      | ok rest => simp [hf, hrest, bind, Except.bind, pure, Except.pure] at hlink

theorem barren_describeAll (types : List ValueType) :
    barren (ValueType.describeAll types).toList = true := by
  have each : ∀ n ∈ (types.map ValueType.name).map String.toList, barren n = true := by
    intro n hn
    simp only [List.map_map, List.mem_map, Function.comp_apply] at hn
    obtain ⟨type, _, rfl⟩ := hn
    cases type <;> decide
  have names := barren_intercalate (s := ", ".toList) (by decide) each
  rw [ValueType.describeAll, String.toList_append, String.toList_append,
    String.toList_intercalate]
  exact barren_append (barren_append (by decide) names) (by decide)

theorem barren_describe (type : FunctionType) : barren type.describe.toList = true := by
  have params := barren_describeAll type.params
  have results := barren_describeAll type.results
  unfold FunctionType.describe
  rw [String.toList_append, String.toList_append, String.toList_append, String.toList_append]
  exact barren_append (barren_append (barren_append (barren_append (by decide) params)
    (by decide)) results) (by decide)

theorem blames_notProvided (i : Import) :
    Blames (LinkError.notProvided i).message (i.source, i.name) := by
  let rest := " type Func(".toList ++ (i.type.describe.toList ++ ")".toList)
  have barrenTail : barren (" with".toList ++ rest) = true :=
    barren_append (by decide) (barren_append (by decide)
      (barren_append (barren_describe i.type) (by decide)))
  have parts : (LinkError.notProvided i).message = "cannot find definition for import " ++
      i.source ++ "::" ++ i.name ++ " with type Func(" ++ i.type.describe ++ ")" := rfl
  have split : " with type Func(" = " with" ++ " type Func(" := by decide
  refine ⟨"cannot find definition for import ".toList, " with".toList ++ rest, ?_, by decide,
    divides_with rest, find?_of_barren barrenTail⟩
  rw [parts, split]
  simp only [String.toList_append, List.append_assoc, rest]

theorem blames_otherType (i : Import) (found : FunctionType) :
    Blames (LinkError.otherType i found).message (i.source, i.name) := by
  let rest := " ".toList ++ (i.type.describe.toList ++ (" but found ".toList ++
    found.describe.toList))
  have barrenTail : barren (": expected".toList ++ rest) = true :=
    barren_append (by decide) (barren_append (by decide) (barren_append (barren_describe i.type)
      (barren_append (by decide) (barren_describe found))))
  have parts : (LinkError.otherType i found).message = "function type mismatch for import " ++
      i.source ++ "::" ++ i.name ++ ": " ++
        ("expected " ++ i.type.describe ++ " but found " ++ found.describe) := rfl
  have split : ": expected".toList ++ " ".toList = ": ".toList ++ "expected ".toList := by decide
  refine ⟨"function type mismatch for import ".toList, ": expected".toList ++ rest, ?_, by decide,
    divides_expected rest, find?_of_barren barrenTail⟩
  rw [parts]
  simp only [String.toList_append, List.append_assoc, rest]
  rw [← List.append_assoc ": expected".toList, split, List.append_assoc]

theorem Program.instantiate_of_link {p : Program} {h : Host} {fs : List (String × HostFunction)}
    {m : Memory} (hlink : link h p.imports = .ok fs) (hm : p.initialMemory? = some m) :
    p.instantiate h = .ok ⟨p, ⟨fs, p.exposesMemory⟩, m⟩ := by
  rw [instantiate, hlink, hm]

theorem Program.instantiate_eq_ok {p : Program} {h : Host} {i : ProgramInstance}
    (hi : p.instantiate h = .ok i) : link h p.imports = .ok i.linked.functions := by
  rw [instantiate] at hi
  split at hi
  · cases hi
  · next fs hfs =>
    split at hi
    · cases hi
    · cases hi
      exact hfs

theorem CodeTrap.plain (t : CodeTrap) : Plain t.message := by
  cases t <;> exact find?_of_barren (by decide)

theorem Machine.sound_plain (fs : Linked) : Sound (fun _ => True) Plain fs :=
  ⟨fun _ _ => trivial, CodeTrap.plain⟩

theorem Program.instantiate_error {p : Program} {h : Host} {e : String}
    (he : p.instantiate h = .error e) :
    Plain e ∨ ∃ key ∈ p.imports.map fun i => (i.source, i.name), Blames e key := by
  rw [instantiate] at he
  split at he
  · next e' hlink =>
    cases he
    obtain ⟨i, hi, unresolved⟩ := link_error hlink
    refine .inr ⟨_, List.mem_map_of_mem hi, ?_⟩
    rw [resolveImport] at unresolved
    split at unresolved
    · cases unresolved
      exact blames_notProvided i
    · split at unresolved
      · cases unresolved
      · cases unresolved
        exact blames_otherType i _
  · split at he
    · cases he
      exact .inl (CodeTrap.plain _)
    · cases he

theorem miniature_linksByName : LinksByName where
  found {h p i} hi key hkey := by
    obtain ⟨j, hj, rfl⟩ := List.mem_map.1 hkey
    obtain ⟨f, hf⟩ := (resolved_of_link (Program.instantiate_eq_ok hi)).1 j hj
    exact ⟨f, resolveImport_eq_ok hf⟩
  agrees {h g p} hsame := by
    have same : link h p.imports = link g p.imports :=
      link_congr fun i hi => hsame _ (List.mem_map_of_mem hi)
    change p.instantiate h = p.instantiate g
    rw [Program.instantiate, Program.instantiate, same]

theorem miniature_callsItsHost : CallsItsHost := by
  intro h p i hi
  have offers : ∀ f ∈ i.linked.functions, h.Offers f.2 := by
    intro f hf
    obtain ⟨j, hj⟩ := (resolved_of_link (Program.instantiate_eq_ok hi)).2 f hf
    exact ⟨_, Host.mem_of_find? (resolveImport_eq_ok hj)⟩
  have sound : Machine.Sound h.Offers (fun _ => True) i.linked := ⟨offers, fun _ => trivial⟩
  refine (ProgramInstance.all_start sound).imp_ends fun j same => ?_
  intro name type code hexport
  rw [← same] at sound
  exact ProgramInstance.all_export sound hexport

theorem miniature_namesNoCode : NamesNoCode where
  start _ := (ProgramInstance.all_start (Machine.sound_plain _)).imp_ends fun _ _ => trivial
  function hexport := ProgramInstance.all_export (Machine.sound_plain _) hexport
  instantiate he := Program.instantiate_error he

end Doctest.Guest
