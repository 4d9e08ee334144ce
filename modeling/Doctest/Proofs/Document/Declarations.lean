import Doctest.Document.Extract
import Doctest.Proofs.Document.Marker
import Doctest.Proofs.Document.Scan
import Mathlib.Data.List.Nodup

namespace Doctest.Document

open Text (Line)

theorem declaration?_of_isFence {l : Line} (h : isFence l = true) :
    declaration? (Text.trimEnd l) = none := by
  obtain ⟨t, rfl⟩ := List.isPrefixOf_iff_prefix.1 h
  rw [declaration?_trimEnd]
  rfl

theorem le_beforeFence (ls : List Line) (n : Nat) : n ≤ beforeFence ls n := by
  rw [beforeFence]
  omega

theorem lt_closing (ls : List Line) (n : Nat) : n < closing ls n := by
  have first := le_beforeFence ls n
  have second := le_beforeFence ls (opening ls n)
  rw [closing]
  rw [opening] at *
  omega

namespace Found

variable {ls : List Line} {n : Nat} {ss : List Section}

theorem lt_line (h : Found ls n ss) : ∀ s ∈ ss, n < s.line := by
  induction h with
  | done => nofun
  | pass _ _ _ ih => exact fun s hs => Nat.lt_of_succ_lt (ih s hs)
  | @take n _ _ _ _ _ _ _ _ _ ih =>
    have after := lt_closing ls (n + 1)
    intro s hs
    obtain rfl | hs := List.mem_cons.1 hs
    · exact Nat.lt_succ_self n
    · have rest := ih s hs
      omega

theorem pairwise_line (h : Found ls n ss) : ss.Pairwise fun s t => s.line < t.line := by
  induction h with
  | done => exact .nil
  | pass _ _ _ ih => exact ih
  | @take n _ _ _ _ _ _ _ _ hrest ih =>
    exact .cons (fun t ht => Nat.lt_trans (lt_closing ls (n + 1)) (hrest.lt_line t ht)) ih

theorem code_eq (h : Found ls n ss) :
    ∀ s ∈ ss, s.code = Text.joinLines ((codeAt ls s.line).map reveal) := by
  induction h with
  | done => nofun
  | pass _ _ _ ih => exact ih
  | take _ _ _ _ _ ih => exact List.forall_mem_cons.2 ⟨rfl, ih⟩

theorem not_inMetadata (h : Found ls n ss) :
    ∀ s ∈ ss, ∀ t ∈ ss, ¬InMetadata ls s.line t.line := by
  induction h with
  | done => nofun
  | pass _ _ _ ih => exact ih
  | @take n _ _ _ _ _ _ _ _ hrest ih =>
    have closed : beforeFence ls (n + 1) < closing ls (n + 1) := by
      have := le_beforeFence ls (opening ls (n + 1))
      rw [closing]
      rw [opening] at *
      omega
    intro s hs t ht
    obtain rfl | hs := List.mem_cons.1 hs
    · obtain rfl | ht := List.mem_cons.1 ht
      · exact fun inside => Nat.lt_irrefl _ inside.1
      · intro inside
        have before : t.line ≤ beforeFence ls (n + 1) := inside.2
        have after := hrest.lt_line t ht
        omega
    · obtain rfl | ht := List.mem_cons.1 ht
      · intro inside
        have before : s.line < n + 1 := inside.1
        have after := Nat.lt_trans (lt_closing ls (n + 1)) (hrest.lt_line s hs)
        omega
      · exact ih s hs t ht

theorem accounted (h : Found ls n ss) {i : Nat} {l : Line} (hi : n ≤ i) (hl : ls[i]? = some l)
    (hdeclaration : (declaration? (Text.trimEnd l)).isSome) :
    ∃ s ∈ ss, i + 1 = s.line ∨ InMetadata ls s.line (i + 1) ∨ InCode ls s.line (i + 1) := by
  have notFence {m : Nat} (hm : beforeFence ls m = i) : False := by
    rw [← hm] at hl
    rw [declaration?_of_isFence (isFence_of_beforeFence hl)] at hdeclaration
    cases hdeclaration
  induction h with
  | done hlength =>
    have := (List.getElem?_eq_some_iff.1 hl).1
    omega
  | @pass n l' ss hget hnone _ ih =>
    apply ih
    rcases Nat.lt_or_eq_of_le hi with hi | rfl
    · exact hi
    · rw [hget] at hl
      obtain rfl := Option.some.inj hl
      rw [hnone] at hdeclaration
      cases hdeclaration
  | @take n l' attributes fence ss hget hsome hfence hopens hrest ih =>
    by_cases hclosing : closing ls (n + 1) ≤ i
    · obtain ⟨s, hs, place⟩ := ih hclosing
      exact ⟨s, List.mem_cons_of_mem _ hs, place⟩
    · refine ⟨_, List.mem_cons_self, ?_⟩
      have first : beforeFence ls (n + 1) ≠ i := notFence
      have second : beforeFence ls (opening ls (n + 1)) ≠ i := notFence
      simp only [InMetadata, InCode]
      rw [closing] at hclosing
      rw [opening] at *
      omega

end Found

theorem extractTests_of_fencedSections {content : List Char} {ss : List Section} (fs : Files)
    (p : Path) (h : fencedSections 1 (Text.lines content) = .ok ss) :
    extractTests fs p content .fencedBlock =
      .ok (ss.mapIdx fun i s => s.toTest fs p .fencedBlock i) := by
  simp only [extractTests, sections, h]

theorem sections_of_extractTests {fs : Files} {p : Path} {content : List Char} {origin : Origin}
    {tests : List TestCase} (h : extractTests fs p content origin = .ok tests) :
    ∃ ss, sections content origin = .ok ss ∧
      tests = ss.mapIdx fun i s => s.toTest fs p origin i := by
  rw [extractTests] at h
  split at h
  · next ss hss => exact ⟨ss, hss, (Except.ok.inj h).symm⟩
  · cases h

theorem found_of_extractTests {fs : Files} {p : Path} {content : List Char}
    {tests : List TestCase} (h : extractTests fs p content .fencedBlock = .ok tests) :
    ∃ ss, Found (Text.lines content) 0 ss ∧
      tests = ss.mapIdx fun i s => s.toTest fs p .fencedBlock i := by
  obtain ⟨ss, hss, htests⟩ := sections_of_extractTests h
  exact ⟨ss, found_of_fencedSections hss, htests⟩

theorem map_toTest {α : Type} {f : TestCase → α} {g : Section → α} {fs : Files} {p : Path}
    {origin : Origin} (h : ∀ s i, f (s.toTest fs p origin i) = g s) (ss : List Section) :
    (ss.mapIdx fun i s => s.toTest fs p origin i).map f = ss.map g := by
  apply List.ext_getElem?
  intro i
  simp only [List.getElem?_map, List.getElem?_mapIdx, Option.map_map]
  exact congrArg (Option.map · ss[i]?) (funext fun s => h s i)

theorem map_line_toTest (fs : Files) (p : Path) (origin : Origin) (ss : List Section) :
    (ss.mapIdx fun i s => s.toTest fs p origin i).map (·.line) = ss.map (·.line) :=
  map_toTest (fun _ _ => rfl) ss

/-- The code of each test is that between its fences. A declaration outside of all code is that of
one test, unless it stands between the declaration of a test and its fence; then it is none's. -/
theorem count_declaration {fs : Files} {p : Path} {content : List Char} {tests : List TestCase}
    (h : extractTests fs p content .fencedBlock = .ok tests) :
    let ls := Text.lines content
    let numbers := tests.map (·.line)
    (∀ t ∈ tests, t.code = String.ofList (Text.joinLines ((codeAt ls t.line).map reveal))) ∧
      ∀ i l, ls[i]? = some l → (declaration? (Text.trimEnd l)).isSome →
        (∀ n ∈ numbers, ¬InCode ls n (i + 1)) →
        numbers.count (i + 1) = if ∃ n ∈ numbers, InMetadata ls n (i + 1) then 0 else 1 := by
  obtain ⟨ss, found, rfl⟩ := found_of_extractTests h
  intro ls numbers
  have hnumbers : numbers = ss.map (·.line) := map_line_toTest fs p .fencedBlock ss
  constructor
  · intro t ht
    obtain ⟨i, hi, rfl⟩ := List.mem_mapIdx.1 ht
    exact congrArg String.ofList (found.code_eq _ (List.getElem_mem hi))
  · intro i l hl hdeclaration hcode
    rw [hnumbers] at hcode ⊢
    have distinct : (ss.map (·.line)).Nodup :=
      List.pairwise_map.2 (found.pairwise_line.imp Nat.ne_of_lt)
    split
    · next hmetadata =>
      obtain ⟨n, hn, inside⟩ := hmetadata
      obtain ⟨s, hs, rfl⟩ := List.mem_map.1 hn
      rw [List.count_eq_zero]
      intro hline
      obtain ⟨t, ht, hline⟩ := List.mem_map.1 hline
      exact found.not_inMetadata s hs t ht (hline ▸ inside)
    · next hmetadata =>
      obtain ⟨s, hs, hline | inside | inside⟩ :=
        found.accounted (Nat.zero_le i) hl hdeclaration
      · exact List.count_eq_one_of_mem distinct (hline ▸ List.mem_map_of_mem hs)
      · exact absurd ⟨_, List.mem_map_of_mem hs, inside⟩ hmetadata
      · exact absurd inside (hcode _ (List.mem_map_of_mem hs))

theorem count_declaration_guide :
    let content :=
      "neplg2:test\nneplg2:test[skip]\n```\nneplg2:test\n```\nneplg2:test\n```\nx\n```".toList
    let ls := Text.lines content
    ∃ tests, extractTests ⟨[], []⟩ ⟨"guide.n.md"⟩ content .fencedBlock = .ok tests ∧
      tests.map (·.line) = [1, 6] ∧
      ∀ i l, ls[i]? = some l → (declaration? (Text.trimEnd l)).isSome →
        (∀ n ∈ [1, 6], ¬InCode ls n (i + 1)) →
        [1, 6].count (i + 1) = if ∃ n ∈ [1, 6], InMetadata ls n (i + 1) then 0 else 1 := by
  intro content ls
  let word := "neplg2:test".toList
  have second : fencedSections 6 [word, fenceMark, ['x'], fenceMark] =
      .ok [⟨6, ⟨[]⟩, [], ['x']⟩] := by
    have taken := @fencedSections_take word fenceMark fenceMark ⟨[]⟩ [] [['x']] rfl (by decide) rfl
      (by decide) rfl 6 []
    rwa [fencedSections_nil] at taken
  have first : fencedSections 1 ls =
      .ok [⟨1, ⟨[]⟩, ["neplg2:test[skip]".toList], word⟩, ⟨6, ⟨[]⟩, [], ['x']⟩] := by
    have taken := @fencedSections_take word fenceMark fenceMark ⟨[]⟩
      ["neplg2:test[skip]".toList] [word] rfl (by decide) rfl (by decide) rfl 1
      [word, fenceMark, ['x'], fenceMark]
    exact taken.trans (congrArg _ second)
  have extracted := extractTests_of_fencedSections ⟨[], []⟩ ⟨"guide.n.md"⟩ first
  exact ⟨_, extracted, rfl, (count_declaration extracted).2⟩

/-- The second declaration follows the first before any fence. It is neither refused nor a test. -/
theorem declaration_lost :
    let content := "neplg2:test\nneplg2:test[skip]\n```\nx\n```".toList
    let ls := Text.lines content
    ∃ tests, extractTests ⟨[], []⟩ ⟨"guide.n.md"⟩ content .fencedBlock = .ok tests ∧
      tests.map (·.line) = [1] ∧ ¬InCode ls 1 2 ∧
      ∃ l, ls[1]? = some l ∧ (declaration? (Text.trimEnd l)).isSome := by
  intro content ls
  have found : fencedSections 1 ls =
      .ok [⟨1, ⟨[]⟩, ["neplg2:test[skip]".toList], ['x']⟩] := by
    have taken := @fencedSections_take "neplg2:test".toList fenceMark fenceMark ⟨[]⟩
      ["neplg2:test[skip]".toList] [['x']] rfl (by decide) rfl (by decide) rfl 1 []
    rwa [fencedSections_nil] at taken
  have extracted := extractTests_of_fencedSections ⟨[], []⟩ ⟨"guide.n.md"⟩ found
  exact ⟨_, extracted, rfl, by decide, _, rfl, by decide⟩

end Doctest.Document
