import Doctest.Compiler.Load
import Doctest.Proofs.Compiler.Pairing
import Doctest.Proofs.Path.Normal
import Mathlib.Data.List.Induction

/-! What a search finds. Of all directories in the order of their rank the first one with a pair
that loads gives the compiler; that no directory is looked at again is not seen in what is found. A
search that fails has been to every directory once, and names each that has a pair. -/

namespace Doctest

section

variable {α β : Type} [DecidableEq α]

theorem findSome?_filter_of_none {f : α → Option β} {a : α} (h : f a = none) (l : List α) :
    (l.filter fun b => !b == a).findSome? f = l.findSome? f := by
  induction l with
  | nil => rfl
  | cons b l ih =>
    by_cases hb : b = a
    · rw [hb, List.filter_cons_of_neg (by simp), ih, List.findSome?_cons, h]
    · rw [List.filter_cons_of_pos (by simpa using hb), List.findSome?_cons, ih, ← List.findSome?_cons]

theorem findSome?_eraseDups (f : α → Option β) (l : List α) :
    l.eraseDups.findSome? f = l.findSome? f := by
  match l with
  | [] => rfl
  | a :: l =>
    rw [List.eraseDups_cons, List.findSome?_cons, List.findSome?_cons]
    cases h : f a with
    | some b => rfl
    | none => exact (findSome?_eraseDups f _).trans (findSome?_filter_of_none h l)
termination_by l.length
decreasing_by
  have := List.length_filter_le (fun b => !b == a) l
  rw [List.length_cons]
  omega

theorem eraseDups_ordered (l : List α) :
    l.eraseDups.Pairwise fun a b => l.idxOf a < l.idxOf b := by
  induction l using List.reverseRecOn with
  | nil => exact .nil
  | append_singleton l a ih =>
    rw [List.eraseDups_append]
    have before {b : α} (h : b ∈ l) : (l ++ [a]).idxOf b = l.idxOf b := List.idxOf_append_of_mem h
    refine List.pairwise_append.2 ⟨?_, ?_, ?_⟩
    · refine ih.imp_of_mem fun {b c} hb hc hbc => ?_
      rw [before (List.mem_eraseDups.1 hb), before (List.mem_eraseDups.1 hc)]
      exact hbc
    · by_cases h : a ∈ l <;> simp [List.removeAll, List.eraseDups_cons, h]
    · intro b hb c hc
      obtain ⟨hmem, hnew⟩ : c = a ∧ c ∉ l := by simpa [List.removeAll] using hc
      have hb := List.mem_eraseDups.1 hb
      rw [before hb, hmem, List.idxOf_append_of_notMem (hmem ▸ hnew)]
      exact Nat.lt_add_right _ (List.idxOf_lt_length_iff.2 hb)

end

namespace Compiler

structure FirstSeen (ranked tried : List Path) : Prop where
  same : ∀ dir, dir ∈ tried ↔ dir ∈ ranked
  ordered : tried.Pairwise fun a b => ranked.idxOf a < ranked.idxOf b

theorem firstSeen_eraseDups (ranked : List Path) : FirstSeen ranked ranked.eraseDups :=
  ⟨fun _ => List.mem_eraseDups, eraseDups_ordered ranked⟩

theorem FirstSeen.unique {ranked tried tried' : List Path} (h : FirstSeen ranked tried)
    (h' : FirstSeen ranked tried') : tried = tried' := by
  have nodup {tried : List Path} (h : FirstSeen ranked tried) : tried.Nodup :=
    h.ordered.imp fun hab => by
      rintro rfl
      exact Nat.lt_irrefl _ hab
  have hperm : tried.Perm tried' := (List.perm_ext_iff_of_nodup (nodup h) (nodup h')).2 fun dir =>
    (h.same dir).trans (h'.same dir).symm
  exact hperm.eq_of_pairwise (fun a b _ _ hab hba => absurd hba (Nat.lt_asymm hab)) h.ordered
    h'.ordered

section

variable (fs : Files) (start : String) (load : Loader)

def Passed (dir : Path) : Prop :=
  ∀ pair, findPair fs dir start = some pair → ∃ causes, load pair = .error (.error causes)

inductive Reported : List Path → List LoadFailure → Prop
  | nil : Reported [] []
  | without {dir : Path} {dirs : List Path} {failures : List LoadFailure} :
      findPair fs dir start = none → Reported dirs failures → Reported (dir :: dirs) failures
  | failed {dir : Path} {pair : ArtifactPair} {causes : Chain} {dirs : List Path}
      {failures : List LoadFailure} :
      findPair fs dir start = some pair → load pair = .error (.error causes) →
      Reported dirs failures → Reported (dir :: dirs) (⟨dir, causes⟩ :: failures)

def settled (dir : Path) : Option (Except String Loaded) :=
  (findPair fs dir start).bind fun pair =>
    match load pair with
    | .ok capabilities => some (.ok ⟨pair, capabilities, none⟩)
    | .error (.crash message) => some (.error message)
    | .error (.error _) => none

def loadFirstIn {m : Type → Type} [Monad m]
    (load : ArtifactPair → m (Except (Fault Chain) Capabilities)) :
    List Path → m (Except (Fault (List LoadFailure)) Loaded)
  | [] => return .error (.error [])
  | dir :: dirs =>
    match findPair fs dir start with
    | none => loadFirstIn load dirs
    | some pair => do
      match ← load pair with
      | .ok capabilities => return .ok ⟨pair, capabilities, none⟩
      | .error (.crash message) => return .error (.crash message)
      | .error (.error causes) =>
        match ← loadFirstIn load dirs with
        | .error (.error failures) => return .error (.error (⟨dir, causes⟩ :: failures))
        | r => return r

def recording (pair : ArtifactPair) :
    StateM (List ArtifactPair) (Except (Fault Chain) Capabilities) := do
  modify (· ++ [pair])
  return load pair

variable {fs start load}

theorem Reported.unique {dirs : List Path} {failures failures' : List LoadFailure}
    (h : Reported fs start load dirs failures) (h' : Reported fs start load dirs failures') :
    failures = failures' := by
  induction h generalizing failures' with
  | nil =>
    cases h'
    rfl
  | without hnone _ ih =>
    cases h' with
    | without _ h' => exact ih h'
    | failed hsome => rw [hnone] at hsome; cases hsome
  | failed hpair hload _ ih =>
    cases h' with
    | without hnone => rw [hpair] at hnone; cases hnone
    | failed hpair' hload' h' =>
      obtain rfl := Option.some.inj (hpair.symm.trans hpair')
      cases hload.symm.trans hload'
      rw [ih h']

theorem settled_of_findPair {dir : Path} {pair : ArtifactPair}
    (h : findPair fs dir start = some pair) : settled fs start load dir =
      match load pair with
      | .ok capabilities => some (.ok ⟨pair, capabilities, none⟩)
      | .error (.crash message) => some (.error message)
      | .error (.error _) => none := by
  rw [settled, h]
  rfl

theorem settled_eq_none_iff {dir : Path} :
    settled fs start load dir = none ↔ Passed fs start load dir := by
  rw [Passed]
  cases hpair : findPair fs dir start with
  | none => simp [settled, hpair]
  | some pair =>
    rw [settled_of_findPair hpair]
    cases hload : load pair with
    | ok capabilities => simp [hload]
    | error fault => cases fault <;> simp [hload]

theorem loadFirst_of_settled {dirs : List Path} {r : Except String Loaded}
    (h : dirs.findSome? (settled fs start load) = some r) :
    loadFirst fs start load dirs = r.mapError .crash := by
  induction dirs with
  | nil => cases h
  | cons dir dirs ih =>
    rw [List.findSome?_cons] at h
    rw [loadFirst]
    cases hpair : findPair fs dir start with
    | none =>
      rw [settled, hpair] at h
      exact ih h
    | some pair =>
      rw [settled_of_findPair hpair] at h
      cases hload : load pair with
      | ok capabilities =>
        rw [hload] at h
        obtain rfl := Option.some.inj h
        simp [hload, Except.mapError]
      | error fault =>
        rw [hload] at h
        cases fault with
        | crash message =>
          obtain rfl := Option.some.inj h
          simp [hload, Except.mapError]
        | error causes =>
          have rest := ih h
          cases r <;> simp [hload, rest, Except.mapError]

theorem loadFirst_of_passed (dirs : List Path) (h : ∀ dir ∈ dirs, Passed fs start load dir) :
    ∃ failures, loadFirst fs start load dirs = .error (.error failures) ∧
      Reported fs start load dirs failures := by
  induction dirs with
  | nil => exact ⟨[], rfl, .nil⟩
  | cons dir dirs ih =>
    obtain ⟨failures, hload, hreported⟩ := ih fun d hd => h d (List.mem_cons_of_mem dir hd)
    rw [loadFirst]
    cases hpair : findPair fs dir start with
    | none => exact ⟨failures, hload, .without hpair hreported⟩
    | some pair =>
      obtain ⟨causes, hcauses⟩ := h dir List.mem_cons_self pair hpair
      refine ⟨⟨dir, causes⟩ :: failures, ?_, .failed hpair hcauses hreported⟩
      simp [hcauses, hload]

theorem loadFirstIn_pure (dirs : List Path) :
    loadFirstIn (m := Id) fs start load dirs = loadFirst fs start load dirs := by
  induction dirs with
  | nil => rfl
  | cons dir dirs ih =>
    rw [loadFirstIn, loadFirst, ih]
    cases findPair fs dir start with
    | none => rfl
    | some pair =>
      cases load pair with
      | ok capabilities => rfl
      | error fault =>
        cases fault with
        | crash message => rfl
        | error causes =>
          cases loadFirst fs start load dirs with
          | ok loaded => rfl
          | error fault => cases fault <;> rfl

theorem loadFirstIn_recording (dirs : List Path) (asked : List ArtifactPair) :
    ∃ calls, (loadFirstIn fs start (recording load) dirs).run asked =
        (loadFirst fs start load dirs, asked ++ calls) ∧
      calls <+: dirs.filterMap (findPair fs · start) ∧
      calls.Pairwise fun pair _ => ∃ causes, load pair = .error (.error causes) := by
  induction dirs generalizing asked with
  | nil => exact ⟨[], by rw [List.append_nil]; rfl, List.prefix_refl _, .nil⟩
  | cons dir dirs ih =>
    rw [loadFirstIn, loadFirst, List.filterMap_cons]
    cases hpair : findPair fs dir start with
    | none => exact ih asked
    | some pair =>
      cases hload : load pair with
      | ok capabilities =>
        exact ⟨[pair], by simp [recording, hload]; rfl, by simp, List.pairwise_singleton ..⟩
      | error fault =>
        cases fault with
        | crash message =>
          exact ⟨[pair], by simp [recording, hload]; rfl, by simp, List.pairwise_singleton ..⟩
        | error causes =>
          obtain ⟨calls, hrun, hcalls, hfailed⟩ := ih (asked ++ [pair])
          refine ⟨pair :: calls, ?_, ?_, List.pairwise_cons.2 ⟨fun _ _ => ⟨causes, hload⟩, hfailed⟩⟩
          · simp only [recording, hload, bind_pure_comp, bind_map_left, StateT.run_bind,
              StateT.run_modify, pure_bind, hrun, List.append_assoc, List.singleton_append]
            cases loadFirst fs start load dirs with
            | ok loaded => rfl
            | error fault => cases fault <;> rfl
          · simpa using hcalls

end

section

variable {base : Path}

theorem isPlain_dist (h : base.IsPlain) : (base.join dist).IsPlain := by
  have name : (Path.Step.name "dist").IsMove := .name (by constructor <;> decide)
  have spelled : dist = Path.ofSteps [.name "dist"] := by decide
  rw [spelled]
  exact h.join (List.cons_ne_nil _ _) (List.forall_mem_singleton.2 name)

theorem isPlain_webDist (h : base.IsPlain) : (base.join webDist).IsPlain := by
  have names : Path.Moves [.name "web", .name "dist"] := by
    rw [Path.Moves, List.forall_mem_cons, List.forall_mem_singleton]
    exact ⟨.name (by constructor <;> decide), .name (by constructor <;> decide)⟩
  have spelled : webDist = Path.ofSteps [.name "web", .name "dist"] := by decide
  rw [spelled]
  exact h.join (List.cons_ne_nil _ _) names

theorem isPlain_withDist (h : base.IsPlain) : ∀ dir ∈ withDist base, dir.IsPlain := by
  rw [withDist, List.forall_mem_cons, List.forall_mem_cons, List.forall_mem_singleton]
  exact ⟨h, isPlain_dist h, isPlain_webDist h⟩

theorem isPlain_besides (hint : Path) : ∀ dir ∈ besides hint, dir.IsPlain := by
  rw [besides]
  split
  · rw [List.forall_mem_cons, List.forall_mem_singleton]
    exact ⟨isPlain_dist (Path.isPlain_normalize _), Path.isPlain_normalize _⟩
  · split
    · rw [List.forall_mem_cons, List.forall_mem_singleton]
      exact ⟨isPlain_webDist (Path.isPlain_normalize _), Path.isPlain_normalize _⟩
    · exact nofun

end

namespace Search

variable (s : Search)

/-- What a search gives, by the directories that it ranks. -/
inductive Outcome (fs : Files) (load : Loader) : Except (Fault NoArtifacts) Loaded → Prop
  | loaded {before rest : List Path} {dir : Path} {pair : ArtifactPair}
      {capabilities : Capabilities} :
      s.ranked = before ++ dir :: rest → (∀ d ∈ before, Passed fs s.namePrefix load d) →
      findPair fs dir s.namePrefix = some pair → load pair = .ok capabilities →
      Outcome fs load (.ok ⟨pair, capabilities, none⟩)
  | crashed {before rest : List Path} {dir : Path} {pair : ArtifactPair} {message : String} :
      s.ranked = before ++ dir :: rest → (∀ d ∈ before, Passed fs s.namePrefix load d) →
      findPair fs dir s.namePrefix = some pair → load pair = .error (.crash message) →
      Outcome fs load (.error (.crash message))
  | missing {tried : List Path} {failures : List LoadFailure} :
      (∀ d ∈ s.ranked, Passed fs s.namePrefix load d) → FirstSeen s.ranked tried →
      Reported fs s.namePrefix load tried failures →
      Outcome fs load (.error (.error ⟨tried, failures⟩))

def loadIn {m : Type → Type} [Monad m] (fs : Files)
    (load : ArtifactPair → m (Except (Fault Chain) Capabilities)) :
    m (Except (Fault NoArtifacts) Loaded) := do
  let r ← loadFirstIn fs s.namePrefix load s.candidates
  return r.mapError (·.map (⟨s.candidates, ·⟩))

theorem isPlain_nearHint : ∀ dir ∈ s.nearHint, dir.IsPlain := by
  rw [nearHint]
  split
  · exact nofun
  · exact List.forall_mem_append.2
      ⟨isPlain_withDist (Path.isPlain_normalize _), isPlain_besides _⟩

theorem isPlain_nearInstall : ∀ dir ∈ s.nearInstall, dir.IsPlain := by
  rw [nearInstall]
  split
  · exact nofun
  · refine List.forall_mem_append.2 ⟨isPlain_withDist (Path.isPlain_normalize _), ?_⟩
    rw [List.forall_mem_cons, List.forall_mem_singleton]
    exact ⟨isPlain_dist (Path.isPlain_normalize _), isPlain_webDist (Path.isPlain_normalize _)⟩

theorem isPlain_ranked : ∀ dir ∈ s.ranked, dir.IsPlain :=
  List.forall_mem_append.2 ⟨List.forall_mem_append.2
    ⟨s.isPlain_nearHint, isPlain_withDist (Path.isPlain_normalize _)⟩, s.isPlain_nearInstall⟩

variable {s} {fs : Files} {load : Loader}

theorem load_of_settled {before rest : List Path} {dir : Path} {r : Except String Loaded}
    (hranked : s.ranked = before ++ dir :: rest)
    (hbefore : ∀ d ∈ before, Passed fs s.namePrefix load d)
    (h : settled fs s.namePrefix load dir = some r) : s.load fs load = r.mapError .crash := by
  have first : s.candidates.findSome? (settled fs s.namePrefix load) = some r := by
    rw [candidates, findSome?_eraseDups, List.findSome?_eq_some_iff]
    exact ⟨before, dir, rest, hranked, h, fun d hd => settled_eq_none_iff.2 (hbefore d hd)⟩
  rw [Search.load, loadFirst_of_settled first]
  cases r <;> rfl

theorem load_of_passed {tried : List Path} {failures : List LoadFailure}
    (h : ∀ d ∈ s.ranked, Passed fs s.namePrefix load d) (htried : FirstSeen s.ranked tried)
    (hfailures : Reported fs s.namePrefix load tried failures) :
    s.load fs load = .error (.error ⟨tried, failures⟩) := by
  obtain rfl : s.candidates = tried := (firstSeen_eraseDups s.ranked).unique htried
  obtain ⟨failures', hload, hreported⟩ := loadFirst_of_passed s.candidates fun d hd =>
    h d ((htried.same d).1 hd)
  rw [Search.load, hload, hreported.unique hfailures]
  rfl

theorem Outcome.load_eq {r : Except (Fault NoArtifacts) Loaded} (h : s.Outcome fs load r) :
    s.load fs load = r := by
  cases h with
  | loaded hranked hbefore hpair hload =>
    exact load_of_settled (r := .ok _) hranked hbefore (by rw [settled_of_findPair hpair, hload])
  | crashed hranked hbefore hpair hload =>
    exact load_of_settled (r := .error _) hranked hbefore
      (by rw [settled_of_findPair hpair, hload])
  | missing hpassed htried hfailures => exact load_of_passed hpassed htried hfailures

theorem exists_outcome (s : Search) (fs : Files) (load : Loader) : ∃ r, s.Outcome fs load r := by
  cases h : s.ranked.findSome? (settled fs s.namePrefix load) with
  | none =>
    have passed : ∀ d ∈ s.ranked, Passed fs s.namePrefix load d := fun d hd =>
      settled_eq_none_iff.1 (List.findSome?_eq_none_iff.1 h d hd)
    have seen := firstSeen_eraseDups s.ranked
    obtain ⟨failures, _, hreported⟩ := loadFirst_of_passed s.ranked.eraseDups fun d hd =>
      passed d ((seen.same d).1 hd)
    exact ⟨_, .missing passed seen hreported⟩
  | some r =>
    obtain ⟨before, dir, rest, hranked, hsettled, hbefore⟩ := List.findSome?_eq_some_iff.1 h
    have passed : ∀ d ∈ before, Passed fs s.namePrefix load d := fun d hd =>
      settled_eq_none_iff.1 (hbefore d hd)
    cases hpair : findPair fs dir s.namePrefix with
    | none =>
      rw [settled, hpair] at hsettled
      cases hsettled
    | some pair =>
      rw [settled_of_findPair hpair] at hsettled
      cases hload : load pair with
      | ok capabilities => exact ⟨_, .loaded hranked passed hpair hload⟩
      | error fault =>
        cases fault with
        | crash message => exact ⟨_, .crashed hranked passed hpair hload⟩
        | error causes =>
          rw [hload] at hsettled
          cases hsettled

theorem loadIn_pure (s : Search) (fs : Files) (load : Loader) :
    s.loadIn (m := Id) fs load = s.load fs load := by
  rw [loadIn, loadFirstIn_pure, Search.load]
  rfl

/-- The first directory with a pair that loads gives the compiler. If there is none, all directories
are named once in the order of their rank, those that have a pair with what was wrong with it. The
loader is asked for one pair of a directory, and no more once a pair has loaded. -/
theorem load_ranked (s : Search) (fs : Files) (load : Loader) :
    (∀ a ∈ s.ranked, ∀ b ∈ s.ranked, a.steps = b.steps → a = b) ∧
      FirstSeen s.ranked s.candidates ∧
      (∀ r, s.load fs load = r ↔ s.Outcome fs load r) ∧
      s.loadIn (m := Id) fs load = s.load fs load ∧
      ∃ calls, (s.loadIn fs (recording load)).run [] = (s.load fs load, calls) ∧
        calls <+: s.candidates.filterMap (findPair fs · s.namePrefix) ∧
        calls.Pairwise fun pair _ => ∃ causes, load pair = .error (.error causes) := by
  refine ⟨fun a ha b hb => (s.isPlain_ranked a ha).eq_of_steps (s.isPlain_ranked b hb),
    firstSeen_eraseDups s.ranked,
    fun r => ⟨?_, Outcome.load_eq⟩, s.loadIn_pure fs load, ?_⟩
  · rintro rfl
    obtain ⟨r, h⟩ := s.exists_outcome fs load
    rwa [h.load_eq]
  · obtain ⟨calls, hrun, hcalls, hfailed⟩ :=
      @loadFirstIn_recording fs s.namePrefix load s.candidates []
    refine ⟨calls, ?_, hcalls, hfailed⟩
    rw [loadIn, StateT.run_bind, hrun]
    rfl

theorem load_ranked_beside :
    let s : Search := ⟨none, ⟨"w"⟩, some ⟨"x/.."⟩, ""⟩
    let fs : Files := ⟨[(["w", "dist", "a.js"], .file []), (["w", "dist", "a_bg.wasm"], .file []),
      (["dist", "b.js"], .file []), (["dist", "b_bg.wasm"], .file [])], []⟩
    let capabilities : Capabilities := ⟨fun _ => .ok [], none⟩
    let load : Loader := fun pair =>
      if pair.script = ⟨"w/dist/a.js"⟩ then .error (.error ["broken"]) else .ok capabilities
    s.ranked = [⟨"w"⟩, ⟨"w/dist"⟩, ⟨"w/web/dist"⟩, ⟨"w"⟩, ⟨"w/dist"⟩, ⟨"w/web/dist"⟩, ⟨"dist"⟩,
        ⟨"web/dist"⟩] ∧
      s.load fs load = .ok ⟨⟨⟨"dist/b.js"⟩, ⟨"dist/b_bg.wasm"⟩⟩, capabilities, none⟩ := by
  intro s fs capabilities load
  have ranked : s.ranked = [⟨"w"⟩, ⟨"w/dist"⟩, ⟨"w/web/dist"⟩, ⟨"w"⟩, ⟨"w/dist"⟩, ⟨"w/web/dist"⟩] ++
      ⟨"dist"⟩ :: [⟨"web/dist"⟩] := by decide
  have work : findPair fs ⟨"w"⟩ s.namePrefix = none := by
    have empty : artifactNames fs ⟨"w"⟩ s.namePrefix = [] :=
      artifactNames_of_listed fs _ _ rfl rfl .nil .nil
    rw [findPair_eq, empty]
    rfl
  have broken : findPair fs ⟨"w/dist"⟩ s.namePrefix =
      some ⟨⟨"w/dist/a.js"⟩, ⟨"w/dist/a_bg.wasm"⟩⟩ := by
    have two : artifactNames fs ⟨"w/dist"⟩ s.namePrefix = ["a.js", "a_bg.wasm"] :=
      artifactNames_of_listed fs _ _ rfl rfl (.refl _) (by decide)
    rw [findPair_eq, two]
    rfl
  have missing : findPair fs ⟨"w/web/dist"⟩ s.namePrefix = none := rfl
  have found : findPair fs ⟨"dist"⟩ s.namePrefix = some ⟨⟨"dist/b.js"⟩, ⟨"dist/b_bg.wasm"⟩⟩ := by
    have two : artifactNames fs ⟨"dist"⟩ s.namePrefix = ["b.js", "b_bg.wasm"] :=
      artifactNames_of_listed fs _ _ rfl rfl (.refl _) (by decide)
    rw [findPair_eq, two]
    rfl
  have passed : ∀ d ∈ [⟨"w"⟩, ⟨"w/dist"⟩, ⟨"w/web/dist"⟩, ⟨"w"⟩, ⟨"w/dist"⟩, ⟨"w/web/dist"⟩],
      Passed fs s.namePrefix load d := by
    simp [Passed, work, broken, missing, load]
  obtain ⟨_, _, outcome, _⟩ := s.load_ranked fs load
  exact ⟨ranked, (outcome _).2 (.loaded ranked passed found rfl)⟩

end Search

end Compiler

end Doctest
