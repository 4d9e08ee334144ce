import Doctest.Compiler.Artifact
import Doctest.Proofs.Files.Tree
import Doctest.Proofs.Text.ByteOrder

namespace Doctest.Compiler

open Files (SameTree)
open Text.Utf8 (encodeString)

structure Eligible (fs : Files) (dir : Path) (start n : String) : Prop where
  listed : ∃ names, fs.list dir = .ok names ∧ n ∈ names
  starts : start.toList <+: n.toList
  isFile : fs.isFile (dir.join ⟨n⟩) = true

def NoLater (a b : String) : Prop := encodeString a ≤ encodeString b

def scriptName (stem : List Char) : String := String.ofList (stem ++ scriptEnding)

def payloadName (stem : List Char) : String := String.ofList (stem ++ payloadEnding)

def pairIn (dir : Path) (script payload : List Char) : ArtifactPair :=
  ⟨dir.join ⟨scriptName script⟩, dir.join ⟨payloadName payload⟩⟩

/-- The stems of the script and of the payload to take where there are some names. -/
inductive Chosen (there : String → Prop) : List Char → List Char → Prop
  | paired {stem : List Char} : there (scriptName stem) → there (payloadName stem) →
      (∀ other, there (scriptName other) → there (payloadName other) →
        NoLater (scriptName stem) (scriptName other)) → Chosen there stem stem
  | firsts {script payload : List Char} :
      (∀ stem, there (scriptName stem) → ¬there (payloadName stem)) →
      there (scriptName script) →
      (∀ other, there (scriptName other) → NoLater (scriptName script) (scriptName other)) →
      there (payloadName payload) →
      (∀ other, there (payloadName other) → NoLater (payloadName payload) (payloadName other)) →
      Chosen there script payload

theorem noLater_iff {a b : String} : NoLater a b ↔ a ≤ b := Text.Utf8.encodeString_le_iff

theorem append_inj_of_ofList {s t ending : List Char}
    (h : String.ofList (s ++ ending) = String.ofList (t ++ ending)) : s = t :=
  List.append_cancel_right (String.ofList_injective h)

theorem NoLater.eq_script {s t : List Char} (h : NoLater (scriptName s) (scriptName t))
    (h' : NoLater (scriptName t) (scriptName s)) : s = t :=
  append_inj_of_ofList (String.le_antisymm (noLater_iff.1 h) (noLater_iff.1 h'))

theorem NoLater.eq_payload {s t : List Char} (h : NoLater (payloadName s) (payloadName t))
    (h' : NoLater (payloadName t) (payloadName s)) : s = t :=
  append_inj_of_ofList (String.le_antisymm (noLater_iff.1 h) (noLater_iff.1 h'))

theorem Chosen.there {there : String → Prop} {script payload : List Char}
    (h : Chosen there script payload) :
    there (scriptName script) ∧ there (payloadName payload) := by
  cases h with
  | paired hscript hpayload _ => exact ⟨hscript, hpayload⟩
  | firsts _ hscript _ hpayload _ => exact ⟨hscript, hpayload⟩

theorem Chosen.unique {there : String → Prop} {script payload script' payload' : List Char}
    (h : Chosen there script payload) (h' : Chosen there script' payload') :
    script = script' ∧ payload = payload' := by
  cases h with
  | paired hscript hpayload least =>
    cases h' with
    | paired hscript' hpayload' least' =>
      have same := (least _ hscript' hpayload').eq_script (least' _ hscript hpayload)
      exact ⟨same, same⟩
    | firsts apart => exact absurd hpayload (apart _ hscript)
  | firsts apart hscript least hpayload least' =>
    cases h' with
    | paired hscript' hpayload' => exact absurd hpayload' (apart _ hscript')
    | firsts _ hscript' least₂ hpayload' least₂' =>
      exact ⟨(least _ hscript').eq_script (least₂ _ hscript),
        (least' _ hpayload').eq_payload (least₂' _ hpayload)⟩

section

variable {names : List String} {ending stem : List Char}

theorem mem_stems : stem ∈ stems ending (names.map String.toList) ↔
    String.ofList (stem ++ ending) ∈ names := by
  simp only [stems, List.mem_map, List.mem_filter, List.isSuffixOf_iff_suffix]
  constructor
  · rintro ⟨_, ⟨⟨n, hn, rfl⟩, front, hfront⟩, rfl⟩
    have cut : n.toList.take (n.toList.length - ending.length) = front := by
      rw [← hfront]
      simp
    rw [cut, hfront, String.ofList_toList]
    exact hn
  · intro h
    exact ⟨stem ++ ending, ⟨⟨_, h, String.toList_ofList⟩, List.suffix_append stem ending⟩,
      by simp⟩

theorem stems_sorted (ending : List Char) (h : names.Pairwise (· ≤ ·)) :
    (stems ending (names.map String.toList)).Pairwise fun s t =>
      String.ofList (s ++ ending) ≤ String.ofList (t ++ ending) := by
  rw [stems, List.pairwise_map, List.pairwise_filter, List.pairwise_map]
  refine h.imp fun {a b} hab ha hb => ?_
  have whole {n : String} (hn : ending.isSuffixOf n.toList = true) :
      String.ofList (n.toList.take (n.toList.length - ending.length) ++ ending) = n := by
    rw [List.suffix_iff_eq_append.1 (List.isSuffixOf_iff_suffix.1 hn), String.ofList_toList]
  rwa [whole ha, whole hb]

end

section

variable {names : List String} {script payload : List Char}

theorem stems_eq_nil_iff {ending : List Char} : stems ending (names.map String.toList) = [] ↔
    ∀ n ∈ names, ¬ending <:+ n.toList := by
  simp [stems, List.filter_eq_nil_iff]

theorem noLater_of_sorted {ending stem : List Char} (front : List (List Char))
    {back : List (List Char)} (h : names.Pairwise (· ≤ ·))
    (hstems : stems ending (names.map String.toList) = front ++ stem :: back) :
    ∀ other ∈ stem :: back, NoLater (String.ofList (stem ++ ending))
      (String.ofList (other ++ ending)) := by
  have sorted := stems_sorted ending h
  rw [hstems] at sorted
  have after := List.pairwise_cons.1 (List.pairwise_append.1 sorted).2.1
  exact List.forall_mem_cons.2 ⟨noLater_iff.2 (String.le_refl _), fun other hother =>
    noLater_iff.2 (after.1 other hother)⟩

theorem choose?_eq_none_iff {names : List (List Char)} : choose? names = none ↔
    stems scriptEnding names = [] ∨ stems payloadEnding names = [] := by
  simp only [choose?]
  split
  · next stem hfind =>
    have script := List.ne_nil_of_mem (List.mem_of_find?_eq_some hfind)
    have payload := List.ne_nil_of_mem (List.contains_iff_mem.1 (List.find?_some hfind))
    simp [script, payload]
  · cases stems scriptEnding names <;> cases stems payloadEnding names <;> simp

theorem chosen_of_choose? (h : names.Pairwise (· ≤ ·))
    (hchoose : choose? (names.map String.toList) = some (script, payload)) :
    Chosen (· ∈ names) script payload := by
  simp only [choose?] at hchoose
  split at hchoose
  · next stem hfind =>
    obtain ⟨rfl, rfl⟩ := Prod.mk.inj (Option.some.inj hchoose)
    obtain ⟨hpayload, front, back, hstems, hfront⟩ := List.find?_eq_some_iff_append.1 hfind
    have hscript : scriptName stem ∈ names :=
      mem_stems.1 (hstems ▸ List.mem_append_right front List.mem_cons_self)
    refine .paired hscript (mem_stems.1 (List.contains_iff_mem.1 hpayload)) ?_
    intro other hother hpaired
    -- a stem in front of the one that was found is not shared
    have mem : other ∈ front ++ stem :: back := hstems ▸ mem_stems.2 hother
    obtain before | rest := List.mem_append.1 mem
    · have lone := hfront other before
      rw [List.contains_iff_mem.2 (mem_stems.2 hpaired)] at lone
      cases lone
    · exact noLater_of_sorted front h hstems other rest
  · next hfind =>
    rw [List.find?_eq_none] at hfind
    simp only [Option.bind_eq_bind, Option.bind_eq_some_iff] at hchoose
    obtain ⟨s, hs, p, hp, hpair⟩ := hchoose
    obtain ⟨rfl, rfl⟩ := Prod.mk.inj (Option.some.inj hpair)
    obtain ⟨scripts, hscripts⟩ := List.head?_eq_some_iff.1 hs
    obtain ⟨payloads, hpayloads⟩ := List.head?_eq_some_iff.1 hp
    refine .firsts (fun stem hscript hpayload => ?_)
      (mem_stems.1 (List.mem_of_mem_head? hs)) (fun other hother => ?_)
      (mem_stems.1 (List.mem_of_mem_head? hp)) (fun other hother => ?_)
    · exact hfind stem (mem_stems.2 hscript) (List.contains_iff_mem.2 (mem_stems.2 hpayload))
    · exact noLater_of_sorted [] h hscripts other (hscripts ▸ mem_stems.2 hother)
    · exact noLater_of_sorted [] h hpayloads other (hpayloads ▸ mem_stems.2 hother)

theorem choose?_of_chosen (h : names.Pairwise (· ≤ ·)) (hchosen : Chosen (· ∈ names) script payload) :
    choose? (names.map String.toList) = some (script, payload) := by
  cases hchoose : choose? (names.map String.toList) with
  | none =>
    obtain ⟨hscript, hpayload⟩ := hchosen.there
    obtain none | none := choose?_eq_none_iff.1 hchoose
    · exact absurd none (List.ne_nil_of_mem (mem_stems.2 hscript))
    · exact absurd none (List.ne_nil_of_mem (mem_stems.2 hpayload))
  | some pair =>
    obtain ⟨rfl, rfl⟩ := (chosen_of_choose? h hchoose).unique hchosen
    rfl

end

variable (fs : Files) (dir : Path) (start : String)

theorem artifactNames_sorted : (artifactNames fs dir start).Pairwise (· ≤ ·) := by
  rw [artifactNames]
  split
  · exact .nil
  · exact sortNames_sorted _

theorem artifactNames_of_listed {names kept sorted : List String} (hlist : fs.list dir = .ok names)
    (hkept : names.filter (fun n => start.toList.isPrefixOf n.toList &&
      fs.isFile (dir.join ⟨n⟩)) = kept)
    (hperm : kept.Perm sorted) (hsorted : sorted.Pairwise (· ≤ ·)) :
    artifactNames fs dir start = sorted := by
  simp only [artifactNames, hlist, hkept]
  exact eq_of_sorted (sortNames_sorted kept) hsorted ((sortNames_perm kept).trans hperm)

theorem mem_artifactNames {n : String} :
    n ∈ artifactNames fs dir start ↔ Eligible fs dir start n := by
  rw [artifactNames]
  constructor
  · intro h
    split at h
    · cases h
    · next names hlist =>
      have kept := (sortNames_perm _).mem_iff.1 h
      simp only [List.mem_filter, Bool.and_eq_true, List.isPrefixOf_iff_prefix] at kept
      exact ⟨⟨names, hlist, kept.1⟩, kept.2.1, kept.2.2⟩
  · rintro ⟨⟨names, hlist, hmem⟩, hstarts, hfile⟩
    rw [hlist]
    refine (sortNames_perm _).mem_iff.2 (List.mem_filter.2 ⟨hmem, ?_⟩)
    rw [Bool.and_eq_true, List.isPrefixOf_iff_prefix]
    exact ⟨hstarts, hfile⟩

theorem findPair_eq : findPair fs dir start =
    (choose? ((artifactNames fs dir start).map String.toList)).map fun x => pairIn dir x.1 x.2 := by
  rw [findPair]
  cases choose? ((artifactNames fs dir start).map String.toList) <;> rfl

theorem artifactNames_of_sameTree {fs gs : Files} (h : SameTree fs gs) :
    artifactNames gs dir start = artifactNames fs dir start := by
  rw [artifactNames, artifactNames, h.isFile_eq]
  obtain ⟨e, hf, hg⟩ | ⟨names, names', hf, hg, hperm⟩ := h.list_cases dir
  · rw [hf, hg]
  · rw [hf, hg]
    exact sortNames_congr (hperm.filter _)

/-- There is no pair just if scripts or payloads are missing among the files that count. The pair
is the one pair that is chosen from the set of their names, in whatever order they are listed. -/
theorem findPair_chosen (fs : Files) (dir : Path) (start : String) :
    (findPair fs dir start = none ↔
        (∀ n, Eligible fs dir start n → ¬scriptEnding <:+ n.toList) ∨
          ∀ n, Eligible fs dir start n → ¬payloadEnding <:+ n.toList) ∧
      (∀ pair, findPair fs dir start = some pair ↔ ∃ script payload,
        Chosen (Eligible fs dir start) script payload ∧ pair = pairIn dir script payload) ∧
      ∀ gs, SameTree fs gs → findPair gs dir start = findPair fs dir start := by
  have sorted := artifactNames_sorted fs dir start
  have mem : (· ∈ artifactNames fs dir start) = Eligible fs dir start :=
    funext fun n => propext (mem_artifactNames fs dir start)
  refine ⟨?_, fun pair => ⟨fun h => ?_, ?_⟩, fun gs h => ?_⟩
  · rw [findPair_eq, Option.map_eq_none_iff, choose?_eq_none_iff, stems_eq_nil_iff,
      stems_eq_nil_iff, ← mem]
  · rw [findPair_eq] at h
    obtain ⟨⟨script, payload⟩, hchoose, rfl⟩ := Option.map_eq_some_iff.1 h
    exact ⟨script, payload, mem ▸ chosen_of_choose? sorted hchoose, rfl⟩
  · rintro ⟨script, payload, chosen, rfl⟩
    rw [findPair_eq, choose?_of_chosen sorted (mem ▸ chosen)]
    rfl
  · rw [findPair_eq, findPair_eq, artifactNames_of_sameTree dir start h]

theorem findPair_chosen_second :
    let names := ["a.js", "b.js", "b_bg.wasm"]
    let fs : Files := ⟨names.map fun n => (["c", n], .file []), []⟩
    let gs : Files := ⟨fs.entries.reverse, []⟩
    SameTree fs gs ∧ Chosen (Eligible fs ⟨"c"⟩ "") ['b'] ['b'] ∧
      findPair gs ⟨"c"⟩ "" = some ⟨⟨"c/b.js"⟩, ⟨"c/b_bg.wasm"⟩⟩ := by
  intro names fs gs
  have same : SameTree fs gs := ⟨rfl, List.reverse_perm _, by decide⟩
  have sorted : names.Pairwise (· ≤ ·) := by decide
  have artifacts : artifactNames fs ⟨"c"⟩ "" = names :=
    artifactNames_of_listed fs ⟨"c"⟩ "" rfl rfl (.refl names) sorted
  have there : (· ∈ names) = Eligible fs ⟨"c"⟩ "" :=
    funext fun n => propext (artifacts ▸ mem_artifactNames fs ⟨"c"⟩ "")
  have chosen : Chosen (Eligible fs ⟨"c"⟩ "") ['b'] ['b'] :=
    there ▸ chosen_of_choose? sorted (by decide)
  obtain ⟨_, found, swapped⟩ := findPair_chosen fs ⟨"c"⟩ ""
  exact ⟨same, chosen, (swapped gs same).trans ((found _).2 ⟨_, _, chosen, rfl⟩)⟩

end Doctest.Compiler
