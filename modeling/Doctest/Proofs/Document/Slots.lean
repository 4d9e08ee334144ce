import Doctest.Proofs.Document.Block
import Doctest.Proofs.Document.Layout
import Mathlib.Logic.Relation

namespace Doctest

/-- The test when the metadata that follows line `m` has `new` lines in place of `old` ones. -/
def TestCase.moved (m old new : Nat) (t : TestCase) : TestCase :=
  if m < t.line then { t with line := t.line - old + new } else t

namespace Document

open Text (Line dropWhile_append_of_head takeWhile_append_of_head)

def slot? (l : Line) : Option Key := (keyValue? l).bind fun entry => Key.ofName? entry.1

def isBlockLine (l : Line) : Bool := (blockText? l).isSome

def takesBlock (l : Line) : Bool :=
  match entryAt l [] with
  | some (_, .block _) => true
  | _ => false

structure Piece where
  header : Line
  block : List Line
  deriving DecidableEq

namespace Piece

def lines (p : Piece) : List Line := p.header :: p.block

def slot? (p : Piece) : Option Key := Document.slot? p.header

def content? (p : Piece) : Option MetadataEntry := entryAt p.header p.block

structure Sound (p : Piece) : Prop where
  header : blockText? p.header = none
  block : ∀ l ∈ p.block, isBlockLine l = true
  noFence : ∀ l ∈ p.lines, isFence l = false

end Piece

def view (ls : List Line) : List Piece :=
  match ls with
  | [] => []
  | l :: ls =>
    if takesBlock l then ⟨l, ls.takeWhile isBlockLine⟩ :: view (ls.dropWhile isBlockLine)
    else ⟨l, []⟩ :: view ls
termination_by ls.length
decreasing_by
  · have := (List.dropWhile_sublist isBlockLine (l := ls)).length_le
    rw [List.length_cons]
    omega
  · simp

/-- An edit that leaves the last entry for each slot where it counts. -/
inductive Edit : List Piece → List Piece → Prop
  | insert {before after : List Piece} {l : Line} :
      isFence l = false → blockText? l = none → slot? l = none →
      Edit (before ++ after) (before ++ ⟨l, []⟩ :: after)
  | reorder {ps qs : List Piece} : ps.Perm qs →
      (∀ key, ps.filter (·.slot? = some key) = qs.filter (·.slot? = some key)) → Edit ps qs
  | remove {before between after : List Piece} {p q : Piece} {key : Key} :
      p.slot? = some key → q.slot? = some key →
      Edit (before ++ p :: (between ++ q :: after)) (before ++ (between ++ q :: after))

theorem lines_view (ls : List Line) : (view ls).flatMap Piece.lines = ls := by
  fun_induction view ls with
  | case1 => rfl
  | case2 l ls _ ih =>
    rw [List.flatMap_cons, ih, Piece.lines, List.cons_append, List.takeWhile_append_dropWhile]
  | case3 l ls _ ih =>
    rw [List.flatMap_cons, ih]
    rfl

theorem block_view (ls : List Line) : ∀ p ∈ view ls, ∀ l ∈ p.block, isBlockLine l = true := by
  fun_induction view ls with
  | case1 => nofun
  | case2 l ls _ ih => exact List.forall_mem_cons.2 ⟨fun m hm => List.mem_takeWhile_imp hm, ih⟩
  | case3 l ls _ ih => exact List.forall_mem_cons.2 ⟨nofun, ih⟩

theorem view_flatMap {ps : List Piece} (hheader : ∀ p ∈ ps, blockText? p.header = none)
    (hblock : ∀ p ∈ ps, ∀ l ∈ p.block, isBlockLine l = true)
    (htakes : ∀ p ∈ ps, takesBlock p.header = true ∨ p.block = []) :
    view (ps.flatMap Piece.lines) = ps := by
  induction ps with
  | nil => rw [List.flatMap_nil, view]
  | cons p ps ih =>
    rw [List.forall_mem_cons] at hheader hblock htakes
    have rest := ih hheader.2 hblock.2 htakes.2
    have stops : ∀ l ∈ (ps.flatMap Piece.lines).head?, isBlockLine l = false := by
      cases ps with
      | nil => nofun
      | cons q ps =>
        rintro _ ⟨⟩
        rw [isBlockLine, hheader.2 q List.mem_cons_self]
        rfl
    rw [List.flatMap_cons, Piece.lines, List.cons_append, view]
    by_cases htaken : takesBlock p.header = true
    · rw [if_pos htaken, takeWhile_append_of_head hblock.1 stops,
        dropWhile_append_of_head hblock.1 stops, rest]
    · have none := htakes.1.resolve_left htaken
      rw [if_neg htaken, none, List.nil_append, rest, ← none]

theorem sound_view {ls : List Line} (hls : ∀ l ∈ ls, isFence l = false)
    (h : ∀ p ∈ view ls, blockText? p.header = none) : ∀ p ∈ view ls, p.Sound := by
  intro p hp
  refine ⟨h p hp, block_view ls p hp, fun l hl => hls l ?_⟩
  rw [← lines_view ls]
  exact List.mem_flatMap.2 ⟨p, hp, hl⟩

theorem map_entryAt (l : Line) (following : List Line) :
    (entryAt l following).map (·.1) = slot? l := by
  rw [entryAt, slot?]
  cases keyValue? l with
  | none => rfl
  | some entry =>
    obtain ⟨name, value⟩ := entry
    simp only [Option.bind_eq_bind, Option.bind_some]
    cases Key.ofName? name with
    | none => rfl
    | some key =>
      simp only [Option.bind_some]
      split <;> rfl

theorem entries_of_block {block : List Line} (h : ∀ l ∈ block, isBlockLine l = true) :
    entries block = [] := by
  induction block with
  | nil => rfl
  | cons l block ih =>
    obtain ⟨t, ht⟩ := Option.isSome_iff_exists.1 (h l List.mem_cons_self)
    rw [entries, entryAt_of_blockText? ht, ih fun m hm => h m (List.mem_cons_of_mem l hm)]

theorem entries_flatMap {ps : List Piece} (h : ∀ p ∈ ps, p.Sound) :
    entries (ps.flatMap Piece.lines) = ps.filterMap Piece.content? := by
  induction ps with
  | nil => rfl
  | cons p ps ih =>
    have sound := h p List.mem_cons_self
    have rest : ∀ q ∈ ps, q.Sound := fun q hq => h q (List.mem_cons_of_mem p hq)
    have stops : ∀ l ∈ (ps.flatMap Piece.lines).head?, blockText? l = none := by
      cases ps with
      | nil => nofun
      | cons q ps =>
        rintro _ ⟨⟩
        exact (rest q List.mem_cons_self).header
    rw [List.flatMap_cons, entries_append stops, ih rest, Piece.lines, entries,
      entries_of_block sound.block, List.filterMap_cons, Piece.content?]
    cases entryAt p.header p.block <;> rfl

theorem lastFor_filterMap (key : Key) (ps : List Piece) :
    lastFor key (ps.filterMap Piece.content?) =
      (((ps.filter (·.slot? = some key)).getLast?).bind Piece.content?).map (·.2) := by
  induction ps using List.reverseRecOn with
  | nil => rfl
  | append_singleton ps p ih =>
    have slot : p.content?.map (·.1) = p.slot? := map_entryAt p.header p.block
    rw [List.filterMap_append, List.filter_append]
    cases hcontent : p.content? with
    | none =>
      rw [hcontent] at slot
      have other : [p].filter (·.slot? = some key) = [] := by simp [← slot]
      simp [hcontent, other, ih]
    | some entry =>
      obtain ⟨k, c⟩ := entry
      rw [hcontent] at slot
      have single : [p].filterMap Piece.content? = [(k, c)] := by simp [hcontent]
      rw [single, lastFor_concat]
      by_cases hk : k = key
      · simp [hk, ← slot, hcontent]
      · simp [hk, ← slot, ih]

namespace Edit

variable {ps qs : List Piece}

theorem sound (h : Edit ps qs) (hps : ∀ p ∈ ps, p.Sound) : ∀ q ∈ qs, q.Sound := by
  cases h with
  | insert hfence hblock _ =>
    rw [List.forall_mem_append, List.forall_mem_cons]
    rw [List.forall_mem_append] at hps
    exact ⟨hps.1, ⟨hblock, nofun, List.forall_mem_singleton.2 hfence⟩, hps.2⟩
  | reorder hperm _ => exact fun q hq => hps q (hperm.mem_iff.2 hq)
  | remove _ _ =>
    rw [List.forall_mem_append, List.forall_mem_cons] at hps
    exact List.forall_mem_append.2 ⟨hps.1, hps.2.2⟩

theorem getLast?_eq (h : Edit ps qs) (key : Key) :
    (qs.filter (·.slot? = some key)).getLast? = (ps.filter (·.slot? = some key)).getLast? := by
  cases h with
  | insert _ _ hslot => simp [Piece.slot?, hslot]
  | reorder _ hsame => rw [hsame key]
  | @remove before between after p q k hp hq =>
    by_cases hk : k = key
    · subst hk
      simp [hp, hq, List.getLast?_append, List.getLast?_cons]
    · simp [hp, hq, hk]

end Edit

section

variable {ls : List Line} {ps : List Piece}

theorem sound_of_edits (hls : ∀ l ∈ ls, isFence l = false)
    (hview : ∀ p ∈ view ls, blockText? p.header = none)
    (h : Relation.ReflTransGen Edit (view ls) ps) : ∀ p ∈ ps, p.Sound := by
  induction h with
  | refl => exact sound_view hls hview
  | tail _ hedit ih => exact hedit.sound ih

theorem lastFor_of_edits (hls : ∀ l ∈ ls, isFence l = false)
    (hview : ∀ p ∈ view ls, blockText? p.header = none)
    (h : Relation.ReflTransGen Edit (view ls) ps) (key : Key) :
    lastFor key (entries (ps.flatMap Piece.lines)) = lastFor key (entries ls) := by
  have same : (ps.filter (·.slot? = some key)).getLast? =
      ((view ls).filter (·.slot? = some key)).getLast? := by
    induction h with
    | refl => rfl
    | tail _ hedit ih => rw [hedit.getLast?_eq, ih]
  conv => rhs; rw [← lines_view ls]
  rw [entries_flatMap (sound_of_edits hls hview h), entries_flatMap (sound_view hls hview),
    lastFor_filterMap, lastFor_filterMap, same]

end

theorem toTest_congr {s : Section} {metadata : List Line}
    (h : ∀ key, lastFor key (entries metadata) = lastFor key (entries s.metadata)) (fs : Files)
    (p : Path) (origin : Origin) (i : Nat) :
    Section.toTest { s with metadata } fs p origin i = s.toTest fs p origin i := by
  simp only [Section.toTest, h]

theorem toTest_withMetadata {s : Section} {m : Nat} {old new : List Line}
    (h : s.line = m → ∀ key, lastFor key (entries new) = lastFor key (entries s.metadata))
    (fs : Files) (p : Path) (origin : Origin) (i : Nat) :
    (s.withMetadata m old.length new).toTest fs p origin i =
      (s.toTest fs p origin i).moved m old.length new.length := by
  rw [Section.withMetadata, TestCase.moved]
  by_cases hm : s.line = m
  · rw [if_pos hm, toTest_congr (h hm), if_neg]
    exact fun later => Nat.lt_irrefl m (Nat.lt_of_lt_of_eq later hm)
  · rw [if_neg hm]
    by_cases hlater : m < s.line
    · rw [if_pos hlater, if_pos (show m < (s.toTest fs p origin i).line from hlater)]
      rfl
    · rw [if_neg hlater, if_neg (show ¬m < (s.toTest fs p origin i).line from hlater)]

/-- Edits of the metadata of the test in line `n` leave all tests as they are, save for the lines at
which later ones begin. -/
theorem extractTests_of_edits {fs : Files} {p : Path} {content content' : List Char}
    {tests : List TestCase} {n : Nat} {pieces : List Piece}
    (h : extractTests fs p content .fencedBlock = .ok tests) (hn : n ∈ tests.map (·.line)) :
    let ls := Text.lines content
    let old := metadataAt ls n
    let new := pieces.flatMap Piece.lines
    (∀ q ∈ view old, blockText? q.header = none) → Relation.ReflTransGen Edit (view old) pieces →
      Text.lines content' = ls.take n ++ (new ++ ls.drop (beforeFence ls n)) →
      extractTests fs p content' .fencedBlock =
        .ok (tests.map (TestCase.moved n old.length new.length)) := by
  intro ls old new hview hedits hlines
  obtain ⟨ss, hss, rfl⟩ := sections_of_extractTests h
  rw [map_line_toTest] at hn
  obtain ⟨s, hs, rfl⟩ := List.mem_map.1 hn
  have noFence : ∀ l ∈ old, isFence l = false := by
    simp only [old, metadataAt, passage_beforeFence]
    exact isFence_of_mem_takeWhile
  have noFence' : ∀ l ∈ new, isFence l = false := by
    intro l hl
    obtain ⟨q, hq, hl⟩ := List.mem_flatMap.1 hl
    exact (sound_of_edits noFence hview hedits q hq).noFence l hl
  have edited := (FallsInto.of_fencedSections hss).replaceAt hs noFence'
  have same : ∀ u ∈ ss, u.line = s.line → ∀ key,
      lastFor key (entries new) = lastFor key (entries u.metadata) := by
    intro u hu hline key
    have found : Found ls 0 ss := found_of_fencedSections hss
    have own : u.metadata = old := by
      rw [found.metadata_eq u hu, hline]
      exact (passage_beforeFence ls s.line).symm
    rw [own]
    exact lastFor_of_edits noFence hview hedits key
  rw [extractTests_of_fencedSections fs p (hlines ▸ edited.fencedSections_eq)]
  congr 1
  apply List.ext_getElem (by simp)
  intro j hj _
  simp only [List.getElem_mapIdx, List.getElem_map]
  exact toTest_withMetadata (same _ (List.getElem_mem _)) fs p .fencedBlock j

theorem extractTests_of_edits_guide :
    let rest := "\n```\nx\n```\nneplg2:test\n```\ny\n```".toList
    let content := "neplg2:test\nstdin: mlstr:\n##: a\nret: 1\nstdin: b".toList ++ rest
    let content' := "neplg2:test\nstdin: b\nnote: c\nret: 1".toList ++ rest
    ∃ tests, extractTests ⟨[], []⟩ ⟨"guide.n.md"⟩ content .fencedBlock = .ok tests ∧
      tests.map (·.line) = [1, 9] ∧
      extractTests ⟨[], []⟩ ⟨"guide.n.md"⟩ content' .fencedBlock =
        .ok (tests.map (TestCase.moved 1 4 3)) := by
  intro rest content content'
  let word := "neplg2:test".toList
  let text : Piece := ⟨"stdin: mlstr:".toList, ["##: a".toList]⟩
  let number : Piece := ⟨"ret: 1".toList, []⟩
  let name : Piece := ⟨"stdin: b".toList, []⟩
  let note : Piece := ⟨"note: c".toList, []⟩
  have second : fencedSections 9 [word, fenceMark, ['y'], fenceMark] =
      .ok [⟨9, ⟨[]⟩, [], ['y']⟩] := by
    have taken := @fencedSections_take word fenceMark fenceMark ⟨[]⟩ [] [['y']] rfl (by decide) rfl
      (by decide) rfl 9 []
    rwa [fencedSections_nil] at taken
  have first : fencedSections 1 (Text.lines content) =
      .ok [⟨1, ⟨[]⟩, [text, number, name].flatMap Piece.lines, ['x']⟩, ⟨9, ⟨[]⟩, [], ['y']⟩] := by
    have taken := @fencedSections_take word fenceMark fenceMark ⟨[]⟩
      ([text, number, name].flatMap Piece.lines) [['x']] rfl (by decide) rfl (by decide) rfl 1
      [word, fenceMark, ['y'], fenceMark]
    exact taken.trans (congrArg _ second)
  have extracted := extractTests_of_fencedSections ⟨[], []⟩ ⟨"guide.n.md"⟩ first
  have region : metadataAt (Text.lines content) 1 = [text, number, name].flatMap Piece.lines := by
    decide
  have viewed : view (metadataAt (Text.lines content) 1) = [text, number, name] := by
    rw [region]
    exact view_flatMap (by decide) (by decide) (by decide)
  have edits : Relation.ReflTransGen Edit [text, number, name] [name, note, number] := by
    have removed : Edit [text, number, name] [number, name] :=
      @Edit.remove [] [number] [] text name .stdin (by decide) (by decide)
    have swapped : Edit [number, name] [name, number] :=
      .reorder (.swap ..) (by intro key; cases key <;> decide)
    have added : Edit [name, number] [name, note, number] :=
      @Edit.insert [name] [number] note.header (by decide) (by decide) (by decide)
    exact .tail (.tail (.single removed) swapped) added
  have written : Text.lines content' = (Text.lines content).take 1 ++
      ([name, note, number].flatMap Piece.lines ++
        (Text.lines content).drop (beforeFence (Text.lines content) 1)) := by decide
  have kept := extractTests_of_edits extracted (by decide) (by rw [viewed]; decide)
    (by rw [viewed]; exact edits) written
  rw [region] at kept
  exact ⟨_, extracted, rfl, kept⟩

end Document

end Doctest
