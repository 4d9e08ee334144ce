import Doctest.Proofs.Files.Tree
import Doctest.Proofs.Path.Steps

/-! Where a path leads, and where it leads once it is normalized. A step up takes back the name
before it, so a path comes down to a route: up some directories, and down through names. A normalized
path goes down through the same names, but of the directories that its route goes up it leaves out
every two. -/

namespace Doctest

namespace Path

def Step.lead (loc : Location) : Step → Location
  | .root => []
  | .here => loc
  | .up => loc.dropLast
  | .name n => loc ++ [n]

/-- The location that a path leads to, in a tree where every name is a directory. -/
def leads (p : Path) (loc : Location) : Location := p.steps.foldl Step.lead loc

structure Route where
  above : Nat
  names : List String
  deriving DecidableEq

namespace Route

def stay : Route := ⟨0, []⟩

def push (r : Route) : Step → Route
  | .root => stay
  | .here => r
  | .up => if r.names = [] then ⟨r.above + 1, []⟩ else ⟨r.above, r.names.dropLast⟩
  | .name n => ⟨r.above, r.names ++ [n]⟩

def lead (r : Route) (loc : Location) : Location := loc.take (loc.length - r.above) ++ r.names

def moves (r : Route) : List Step :=
  (if r.above % 2 = 1 then [.up] else []) ++ r.names.map .name

end Route

def route (p : Path) : Route := p.steps.foldl Route.push .stay

/-- How many directories above its start a path comes at most. -/
def climb (p : Path) : Nat := p.route.above

def rooted (p : Path) : List Step := if p.isAbsolute then [.root] else []

def origin (p : Path) (loc : Location) : Location := if p.isAbsolute then [] else loc

namespace Route

variable {r : Route} {s : Step}

theorem lead_push (h : s.IsMove) (r : Route) (loc : Location) :
    (r.push s).lead loc = s.lead (r.lead loc) := by
  cases h with
  | name => simp [push, lead, Step.lead]
  | up =>
    by_cases hnames : r.names = []
    · have shorter : loc.take (loc.length - (r.above + 1)) =
          (loc.take (loc.length - r.above)).dropLast := by
        rw [List.dropLast_eq_take, List.take_take, List.length_take]
        congr 1
        omega
      simp [push, lead, Step.lead, hnames, shorter]
    · simp [push, lead, Step.lead, hnames, List.dropLast_append_of_ne_nil]

theorem lead_foldl {ms : List Step} (h : Moves ms) (r : Route) (loc : Location) :
    (ms.foldl push r).lead loc = ms.foldl Step.lead (r.lead loc) := by
  induction ms generalizing r with
  | nil => rfl
  | cons s ms ih =>
    rw [List.foldl_cons, List.foldl_cons, ih (fun m hm => h m (List.mem_cons_of_mem s hm)),
      lead_push (h s List.mem_cons_self)]

theorem moves_concat (above : Nat) (names : List String) (n : String) :
    (Route.mk above (names ++ [n])).moves = (Route.mk above names).moves ++ [.name n] := by
  rw [moves, moves, List.map_append, ← List.append_assoc]
  rfl

theorem pushStep_up_concat (done : List Step) (n : String) :
    pushStep (done ++ [.name n]) .up = done := by
  have more : ¬(done ++ [.name n] = [] ∨ done ++ [.name n] = [.root]) := by
    cases done <;> simp
  rw [pushStep, if_neg more, List.dropLast_concat]

theorem pushStep_moves (h : s.IsMove) (r : Route) : pushStep r.moves s = (r.push s).moves := by
  obtain ⟨above, names⟩ := r
  cases h with
  | name => exact (moves_concat above names _).symm
  | up =>
    obtain rfl | ⟨names, n, rfl⟩ := names.eq_nil_or_concat
    · rcases Nat.mod_two_eq_zero_or_one above with even | odd
      · simp [push, moves, pushStep, even, Nat.add_mod]
      · simp [push, moves, pushStep, odd, Nat.add_mod]
    · rw [List.concat_eq_append, moves_concat, pushStep_up_concat]
      simp [push]

theorem pushStep_root {done : List Step} (hdone : Moves done) (h : s.IsMove) :
    pushStep (.root :: done) s = .root :: pushStep done s := by
  cases h with
  | name => rfl
  | up =>
    have other : done ≠ [.root] := by
      rintro rfl
      exact nomatch hdone .root List.mem_cons_self
    cases done with
    | nil => rfl
    | cons t done => simp [pushStep, other]

theorem isMove_moves (h : ∀ n ∈ r.names, IsName n) : Moves r.moves := by
  rw [moves]
  refine List.forall_mem_append.2 ⟨?_, List.forall_mem_map.2 fun n hn => .name (h n hn)⟩
  split
  · exact List.forall_mem_singleton.2 .up
  · exact nofun

theorem isName_stay : ∀ n ∈ stay.names, IsName n := fun _ h => nomatch h

theorem isName_push (hs : s.IsMove) (h : ∀ n ∈ r.names, IsName n) :
    ∀ n ∈ (r.push s).names, IsName n := by
  cases hs with
  | name hname => exact List.forall_mem_append.2 ⟨h, List.forall_mem_singleton.2 hname⟩
  | up =>
    rw [push]
    split
    · exact nofun
    · exact fun n hn => h n (List.dropLast_subset _ hn)

theorem isName_foldl {ms : List Step} (hms : Moves ms) (h : ∀ n ∈ r.names, IsName n) :
    ∀ n ∈ (ms.foldl push r).names, IsName n := by
  induction ms generalizing r with
  | nil => exact h
  | cons s ms ih =>
    exact ih (fun m hm => hms m (List.mem_cons_of_mem s hm))
      (isName_push (hms s List.mem_cons_self) h)

theorem above_le_foldl {ms : List Step} (h : Moves ms) (r : Route) :
    r.above ≤ (ms.foldl push r).above := by
  induction ms generalizing r with
  | nil => exact Nat.le_refl _
  | cons s ms ih =>
    refine Nat.le_trans ?_ (ih (fun m hm => h m (List.mem_cons_of_mem s hm)) (r.push s))
    cases h s List.mem_cons_self with
    | name => exact Nat.le_refl _
    | up =>
      rw [push]
      split
      · exact Nat.le_succ _
      · exact Nat.le_refl _

theorem foldl_pushStep {ms : List Step} (h : Moves ms) (r : Route) :
    ms.foldl pushStep r.moves = (ms.foldl push r).moves := by
  induction ms generalizing r with
  | nil => rfl
  | cons s ms ih =>
    rw [List.foldl_cons, List.foldl_cons, pushStep_moves (h s List.mem_cons_self),
      ih fun m hm => h m (List.mem_cons_of_mem s hm)]

theorem foldl_pushStep_root {ms : List Step} (h : Moves ms) (hr : ∀ n ∈ r.names, IsName n) :
    ms.foldl pushStep (.root :: r.moves) = .root :: (ms.foldl push r).moves := by
  induction ms generalizing r with
  | nil => rfl
  | cons s ms ih =>
    have hs := h s List.mem_cons_self
    rw [List.foldl_cons, List.foldl_cons, pushStep_root (isMove_moves hr) hs,
      pushStep_moves hs, ih (fun m hm => h m (List.mem_cons_of_mem s hm)) (isName_push hs hr)]

theorem foldl_push_moves (r : Route) : r.moves.foldl push stay = ⟨r.above % 2, r.names⟩ := by
  have down (above : Nat) (names : List String) (done : List String) :
      (names.map Step.name).foldl push ⟨above, done⟩ = ⟨above, done ++ names⟩ := by
    induction names generalizing done with
    | nil => simp
    | cons n names ih => simp [push, ih]
  rw [moves, List.foldl_append]
  rcases Nat.mod_two_eq_zero_or_one r.above with even | odd
  · rw [if_neg (by omega), even]
    exact down 0 r.names []
  · rw [if_pos odd, odd]
    exact down 1 r.names []

end Route

variable (p : Path)

theorem route_eq : p.route = p.moves.foldl Route.push .stay := by
  obtain ⟨_, hsteps⟩ | ⟨_, hsteps | hsteps⟩ := p.steps_cases
  · rw [route, hsteps]
    rfl
  · rw [route, hsteps]
  · rw [route, hsteps]
    rfl

theorem leads_eq_foldl (loc : Location) : p.leads loc = p.moves.foldl Step.lead (p.origin loc) := by
  obtain ⟨habsolute, hsteps⟩ | ⟨hrelative, hsteps | hsteps⟩ := p.steps_cases
  · simp [leads, hsteps, origin, habsolute, Step.lead]
  · simp [leads, hsteps, origin, hrelative]
  · simp [leads, hsteps, origin, hrelative, Step.lead]

theorem foldl_pushStep_steps : p.steps.foldl pushStep [] = p.moves.foldl pushStep p.rooted := by
  obtain ⟨habsolute, hsteps⟩ | ⟨hrelative, hsteps | hsteps⟩ := p.steps_cases
  · simp [hsteps, rooted, habsolute, pushStep]
  · simp [hsteps, rooted, hrelative]
  · simp [hsteps, rooted, hrelative, pushStep]

theorem isName_route : ∀ n ∈ p.route.names, IsName n := by
  rw [route_eq]
  exact Route.isName_foldl p.isMove_moves Route.isName_stay

theorem isMove_route : Moves p.route.moves := Route.isMove_moves p.isName_route

theorem plain_route : Plain (p.rooted ++ p.route.moves) := by
  rw [rooted]
  split
  · exact .absolute p.isMove_route
  · exact .relative p.isMove_route

theorem normalize_eq : p.normalize = ofSteps (p.rooted ++ p.route.moves) := by
  rw [normalize, foldl_pushStep_steps, route_eq, rooted]
  split
  · exact congrArg ofSteps (Route.foldl_pushStep_root p.isMove_moves Route.isName_stay)
  · exact congrArg ofSteps (Route.foldl_pushStep p.isMove_moves .stay)

theorem isPlain_normalize : p.normalize.IsPlain := ⟨_, p.plain_route, p.normalize_eq⟩

theorem steps_normalize : p.normalize.steps = p.rooted ++ p.route.moves := by
  rw [normalize_eq, p.plain_route.steps_ofSteps]

theorem leads_eq (loc : Location) : p.leads loc = p.route.lead (p.origin loc) := by
  have nowhere : Route.stay.lead (p.origin loc) = p.origin loc := by simp [Route.stay, Route.lead]
  rw [leads_eq_foldl, route_eq, Route.lead_foldl p.isMove_moves, nowhere]

theorem isAbsolute_normalize : p.normalize.isAbsolute = p.isAbsolute := by
  rw [Bool.eq_iff_iff, isAbsolute_iff_steps, steps_normalize, rooted]
  cases p.isAbsolute with
  | true => simp
  | false =>
    have other : p.route.moves.head? ≠ some .root := fun h =>
      nomatch p.isMove_route .root (List.mem_of_mem_head? h)
    simp [other]

theorem here_not_mem_normalize : Step.here ∉ p.normalize.steps := by
  rw [steps_normalize, rooted]
  intro h
  obtain h | h := List.mem_append.1 h
  · split at h <;> simp at h
  · exact nomatch p.isMove_route _ h

theorem route_normalize : p.normalize.route = ⟨p.climb % 2, p.route.names⟩ := by
  rw [route, steps_normalize, rooted]
  split
  · exact Route.foldl_push_moves p.route
  · exact Route.foldl_push_moves p.route

theorem leads_normalize (loc : Location) :
    p.normalize.leads loc = (Route.mk (p.climb % 2) p.route.names).lead (p.origin loc) := by
  rw [leads_eq, route_normalize, origin, isAbsolute_normalize, origin]

theorem normalize_twice : p.normalize.normalize = p.normalize := by
  have moves : p.normalize.route.moves = p.route.moves := by
    rw [route_normalize, Route.moves, Route.moves, climb, Nat.mod_mod]
  rw [p.normalize.normalize_eq, moves, rooted, isAbsolute_normalize, ← rooted, ← normalize_eq]

theorem climb_of_leads (h : ∀ loc, p.normalize.leads loc = p.leads loc) :
    p.isAbsolute = true ∨ p.climb ≤ 1 := by
  by_cases habsolute : p.isAbsolute = true
  · exact .inl habsolute
  · have lengths := congrArg List.length (h (List.replicate p.climb ""))
    rw [leads_normalize, leads_eq, origin, if_neg habsolute] at lengths
    simp only [Route.lead, List.length_append, List.length_take, List.length_replicate] at lengths
    rw [← climb] at lengths
    omega

end Path

namespace Files

open Doctest.Path (Moves Route stepText stepOf isFiller)

def followFrom (fs : Files) (loc : Location) (p : Path) : Except FileError Location :=
  fs.follow (p.origin loc) (piecesOf p)

variable {fs : Files} {start loc found : Location} {r : Route}

theorem follow_move {s : Path.Step} (h : s.IsMove) :
    fs.follow loc [stepText s] = .ok found ↔ fs.enter loc = .ok loc ∧ found = s.lead loc := by
  have next (l : Location) : fs.follow l [stepText s] = fs.enter l >>= fun l => .ok (s.lead l) := by
    rw [follow]
    cases h with
    | up => rfl
    | name h => simp [stepText, h.notHere, h.notUp, Path.Step.lead, follow]
  rw [next, bind_eq_ok_iff]
  constructor
  · rintro ⟨l, henter, hfound⟩
    obtain rfl := eq_of_enter henter
    exact ⟨henter, (Except.ok.inj hfound).symm⟩
  · rintro ⟨henter, rfl⟩
    exact ⟨loc, henter, rfl⟩

theorem follow_push {s : Path.Step} (h : s.IsMove) (hnames : ∀ n ∈ r.names, Path.IsName n)
    (hr : fs.follow start (r.moves.map stepText) = .ok loc) (henter : fs.enter loc = .ok loc)
    (hclimb : start = [] ∨ (r.push s).above ≤ 1) :
    fs.follow start ((r.push s).moves.map stepText) = .ok (s.lead loc) := by
  obtain ⟨above, names⟩ := r
  cases h with
  | name h =>
    rw [Route.push, Route.moves_concat, List.map_append, follow_append, hr]
    exact (follow_move (.name h)).2 ⟨henter, rfl⟩
  | up =>
    obtain rfl | ⟨names, n, rfl⟩ := names.eq_nil_or_concat
    · rcases Nat.mod_two_eq_zero_or_one above with even | odd
      · have here : (Route.mk above []).moves = [] := by simp [Route.moves, even]
        have up : (Route.mk (above + 1) []).moves = [.up] := by
          simp [Route.moves, Nat.add_mod, even]
        rw [here] at hr
        obtain rfl : start = loc := Except.ok.inj hr
        rw [Route.push, if_pos rfl, up]
        exact (follow_move .up).2 ⟨henter, rfl⟩
      · have up : (Route.mk above []).moves = [.up] := by simp [Route.moves, odd]
        have here : (Route.mk (above + 1) []).moves = [] := by
          simp [Route.moves, Nat.add_mod, odd]
        rw [Route.push, if_pos rfl] at hclimb ⊢
        have twice : ¬above + 1 ≤ 1 := by omega
        obtain rfl := hclimb.resolve_right twice
        rw [up] at hr
        obtain ⟨_, rfl⟩ := (follow_move .up).1 hr
        rw [here]
        rfl
    · rw [List.concat_eq_append] at hr hnames ⊢
      rw [Route.moves_concat, List.map_append, follow_append] at hr
      obtain ⟨l, hl, hloc⟩ := bind_eq_ok_iff.1 hr
      have last := hnames n (List.mem_append_right names List.mem_cons_self)
      obtain ⟨_, rfl⟩ := (follow_move (.name last)).1 hloc
      have back : (Route.mk above (names ++ [n])).push .up = ⟨above, names⟩ := by simp [Route.push]
      rw [back, hl, Path.Step.lead, Path.Step.lead, List.dropLast_concat]

theorem follow_pieces {pieces : List (List Char)} {r : Route}
    (hpieces : ∀ piece ∈ pieces, piece ≠ [] ∧ '/' ∉ piece) (hnames : ∀ n ∈ r.names, Path.IsName n)
    (hr : fs.follow start (r.moves.map stepText) = .ok loc) (h : fs.follow loc pieces = .ok found) :
    let route := ((pieces.filter (!isFiller ·)).map stepOf).foldl Route.push r
    start = [] ∨ route.above ≤ 1 → fs.follow start (route.moves.map stepText) = .ok found := by
  induction pieces generalizing r loc with
  | nil =>
    intro _ _
    obtain rfl := Except.ok.inj h
    exact hr
  | cons piece pieces ih =>
    intro route hclimb
    obtain ⟨hne, hslash⟩ := hpieces piece List.mem_cons_self
    have hrest := fun p hp => hpieces p (List.mem_cons_of_mem piece hp)
    by_cases hdot : piece = ['.']
    · subst hdot
      rw [follow, bind_eq_ok_iff] at h
      obtain ⟨l, henter, h⟩ := h
      obtain rfl := eq_of_enter henter
      exact ih hrest hnames hr h hclimb
    · have keeps : isFiller piece = false := by simpa [isFiller] using ⟨hne, hdot⟩
      have hmove := Path.isMove_stepOf hslash keeps
      have pushed : route =
          ((pieces.filter (!isFiller ·)).map stepOf).foldl Route.push (r.push (stepOf piece)) := by
        simp only [route]
        rw [List.filter_cons_of_pos (by rw [keeps]; rfl), List.map_cons, List.foldl_cons]
      rw [← List.singleton_append, ← Path.Step.stepText_stepOf piece, follow_append,
        bind_eq_ok_iff] at h
      obtain ⟨l, hl, h⟩ := h
      obtain ⟨henter, rfl⟩ := (follow_move hmove).1 hl
      have moves : Moves ((pieces.filter (!isFiller ·)).map stepOf) := by
        intro s hs
        obtain ⟨q, hq, rfl⟩ := List.mem_map.1 hs
        obtain ⟨hq, hkeep⟩ := List.mem_filter.1 hq
        exact Path.isMove_stepOf (hrest q hq).2 (by simpa using hkeep)
      rw [pushed] at hclimb ⊢
      have step := follow_push hmove hnames hr henter
        (hclimb.imp_right (Nat.le_trans (Route.above_le_foldl moves _)))
      exact ih hrest (Route.isName_push hmove hnames) step h hclimb

theorem piecesOf_normalize (p : Path) : piecesOf p.normalize = p.route.moves.map stepText := by
  have kept : ∀ piece ∈ p.route.moves.map stepText, piece ≠ [] := by
    intro piece hpiece
    obtain ⟨s, hs, rfl⟩ := List.mem_map.1 hpiece
    exact (p.isMove_route s hs).stepText_ne_nil
  have read : (Text.splitOn '/' (Path.textOf p.route.moves)).filter (· ≠ []) =
      p.route.moves.map stepText := by
    by_cases hne : p.route.moves = []
    · rw [hne]
      rfl
    · rw [Path.splitOn_textOf hne p.isMove_route]
      exact List.filter_eq_self.2 fun piece hpiece => decide_eq_true (kept piece hpiece)
  rw [piecesOf, p.normalize_eq, Path.rooted]
  split
  · rw [List.singleton_append, Path.ofSteps_root, String.toList_ofList]
    exact read
  · rw [List.nil_append, Path.ofSteps_moves p.isMove_route, String.toList_ofList, read]

theorem followFrom_normalize {p : Path} (h : fs.followFrom loc p = .ok found)
    (hclimb : p.isAbsolute = true ∨ p.climb ≤ 1) : fs.followFrom loc p.normalize = .ok found := by
  have pieces : ∀ piece ∈ piecesOf p, piece ≠ [] ∧ '/' ∉ piece := by
    intro piece hpiece
    obtain ⟨hmem, hne⟩ := List.mem_filter.1 hpiece
    exact ⟨of_decide_eq_true hne, Text.not_mem_of_mem_splitOn hmem⟩
  have route : ((piecesOf p).filter (!isFiller ·)).map stepOf = p.moves := by
    rw [piecesOf, List.filter_filter, Path.moves, Path.movesOf]
    congr 2
    funext piece
    by_cases hne : piece = []
    · rw [hne]
      rfl
    · simp [hne]
  have begun : fs.follow (p.origin loc) (Route.stay.moves.map stepText) = .ok (p.origin loc) := rfl
  have reached := follow_pieces pieces Route.isName_stay begun h
  rw [route, ← p.route_eq] at reached
  have origin : p.normalize.origin loc = p.origin loc := by
    rw [Path.origin, Path.origin, p.isAbsolute_normalize]
  rw [followFrom, origin, piecesOf_normalize]
  refine reached (hclimb.imp_left fun habsolute => ?_)
  rw [Path.origin, if_pos habsolute]

end Files

namespace Path

/-- A normalized path leads from everywhere to where the path does, just if it starts at the root or
comes up no more than one directory above its start; then it can be followed in every tree in which
the path can. It has no dots, and it stays as it is when it is normalized once more. -/
theorem normalize_leads (p : Path) :
    ((∀ loc, p.normalize.leads loc = p.leads loc) ↔ p.isAbsolute = true ∨ p.climb ≤ 1) ∧
      (p.isAbsolute = true ∨ p.climb ≤ 1 → ∀ (fs : Files) (loc found : Location),
        fs.followFrom loc p = .ok found → fs.followFrom loc p.normalize = .ok found) ∧
      Step.here ∉ p.normalize.steps ∧ p.normalize.normalize = p.normalize := by
  refine ⟨⟨p.climb_of_leads, fun h loc => ?_⟩, fun hclimb fs loc found h =>
    Files.followFrom_normalize h hclimb, p.here_not_mem_normalize, p.normalize_twice⟩
  rw [leads_normalize, leads_eq]
  obtain habsolute | hclimb := h
  · simp [origin, habsolute, Route.lead]
  · rw [Nat.mod_eq_of_lt (Nat.lt_succ_of_le hclimb)]
    rfl

theorem normalize_leads_beside :
    let p : Path := ⟨"a/../../b/./c/"⟩
    let fs : Files := ⟨[(["w", "a"], .directory), (["b", "c"], .directory)], []⟩
    p.normalize = ⟨"../b/c"⟩ ∧ p.climb ≤ 1 ∧ p.leads ["w"] = ["b", "c"] ∧
      fs.followFrom ["w"] p = .ok ["b", "c"] ∧ fs.followFrom ["w"] p.normalize = .ok ["b", "c"] := by
  intro p fs
  have climb : p.climb ≤ 1 := by decide
  have followed : fs.followFrom ["w"] p = .ok ["b", "c"] := by decide
  exact ⟨by decide, climb, by decide, followed,
    (normalize_leads p).2.1 (.inr climb) fs _ _ followed⟩

/-- Two steps up at the start of a path are taken for none. -/
theorem climb_lost :
    let p : Path := ⟨"../.."⟩
    p.normalize = ⟨""⟩ ∧ p.leads ["a", "b", "c"] = ["a"] ∧
      p.normalize.leads ["a", "b", "c"] = ["a", "b", "c"] := by
  decide

end Path

end Doctest
