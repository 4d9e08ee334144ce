import Doctest.Proofs.Document.Entries
import Doctest.Proofs.Document.Numbering
import Mathlib.Data.List.Induction

namespace Doctest

open Document
open Text (Line)

namespace Origin

def put : Origin → Line → Line
  | .fencedBlock, l => l
  | .commentBlock, l => commentMark ++ ' ' :: l

def seen : Origin → Line → Line
  | .fencedBlock, l => l
  | .commentBlock, l => said l

def kept : Origin → Line → Line
  | .fencedBlock, l => l
  | .commentBlock, l => Text.trimEnd l

def inMetadata : Origin → Line → Bool
  | .fencedBlock, l => !isFence l
  | .commentBlock, l => isComment l && (declared? l).isNone

def blockText? : Origin → Line → Option Line
  | .fencedBlock, l => Document.blockText? l
  | .commentBlock, l => (comment? l).bind Document.blockText?

end Origin

namespace Expectations

def empty : Expectations := ⟨none, none, none, none⟩

def withText (e : Expectations) (key : Key) (text : String) : Expectations :=
  match key with
  | .stdin => { e with stdin := some text }
  | .stdout => { e with stdout := some text }
  | .stderr => { e with stderr := some text }
  | .ret => e

def enter (fs : Files) (base : Path) (e : Expectations) : MetadataEntry → Expectations
  | (.ret, c) => { e with ret := c.returnSpec? }
  | (key, c) => e.withText key (c.load fs base)

def readOn (fs : Files) (base : Path) (origin : Origin) (e : Expectations) (ls : List Line) :
    Expectations :=
  (entries ((ls.takeWhile origin.inMetadata).map origin.seen)).foldl (enter fs base) e

end Expectations

namespace Document

def blockHeader (key : Key) : Line := key.name ++ ": ".toList ++ blockWord

def blockLine (l : Line) : Line := blockMark ++ ' ' :: l

theorem lastFor_concat (key k : Key) (c : Content) (es : List MetadataEntry) :
    lastFor key (es ++ [(k, c)]) = if k = key then some c else lastFor key es := by
  by_cases h : k = key <;> simp [lastFor, List.filter_append, h]

theorem expected_eq_foldl (fs : Files) (base : Path) (metadata : List Line) :
    expected fs base metadata = (entries metadata).foldl (Expectations.enter fs base) .empty := by
  rw [expected]
  induction entries metadata using List.reverseRecOn with
  | nil => rfl
  | append_singleton es e ih =>
    obtain ⟨k, c⟩ := e
    rw [List.foldl_concat, ← ih]
    cases k <;> simp [lastFor_concat, Expectations.enter, Expectations.withText]

section

variable {pre rest : List Line}

theorem leadingBlock_append (h : ∀ l ∈ rest.head?, blockText? l = none) :
    leadingBlock (pre ++ rest) = leadingBlock pre := by
  induction pre with
  | nil =>
    cases rest with
    | nil => rfl
    | cons l rest => simp only [List.nil_append, leadingBlock, h l rfl]
  | cons l pre ih => rw [List.cons_append, leadingBlock, leadingBlock, ih]

theorem entries_append (h : ∀ l ∈ rest.head?, blockText? l = none) :
    entries (pre ++ rest) = entries pre ++ entries rest := by
  induction pre with
  | nil => rfl
  | cons l pre ih =>
    have same : entryAt l (pre ++ rest) = entryAt l pre := by
      simp only [entryAt, leadingBlock_append h]
    rw [List.cons_append, entries, entries, same, ih]
    cases entryAt l pre <;> rfl

end

theorem entryAt_of_blockText? {l t : Line} (h : blockText? l = some t) (following : List Line) :
    entryAt l following = none := by
  rw [blockText?, Option.map_eq_some_iff] at h
  obtain ⟨text, mark, _⟩ := h
  have nothing : keyValue? l = none := by
    rw [keyValue?, Text.after?_eq_some.1 mark]
    rfl
  rw [entryAt, nothing]
  rfl

theorem leadingBlock_map {f g : Line → Line} (h : ∀ l, blockText? (f l) = some (g l))
    (block : List Line) : leadingBlock (block.map f) = block.map g := by
  induction block with
  | nil => rfl
  | cons l block ih => rw [List.map_cons, leadingBlock, h, ih, List.map_cons]

theorem entries_map {f g : Line → Line} (h : ∀ l, blockText? (f l) = some (g l))
    (block : List Line) : entries (block.map f) = [] := by
  induction block with
  | nil => rfl
  | cons l block ih => rw [List.map_cons, entries, entryAt_of_blockText? (h l), ih]

theorem dropBlank_trimEnd (s : Line) : dropBlank (Text.trimEnd s) = Text.trimEnd (dropBlank s) := by
  cases s with
  | nil => rfl
  | cons c s =>
    cases hc : Text.isBlank c <;> by_cases hs : Text.trimEnd s = [] <;>
      simp [Text.trimEnd_cons, dropBlank, hc, hs]

theorem blockText?_trimEnd (l : Line) :
    blockText? (Text.trimEnd l) = (blockText? l).map Text.trimEnd := by
  have mark : Text.trimEnd blockMark = blockMark := rfl
  rw [blockText?, blockText?, Text.trimStart_trimEnd, Text.after?_trimEnd mark, Option.map_map,
    Option.map_map]
  exact congrArg (Option.map · _) (funext dropBlank_trimEnd)

section

variable (origin : Origin)

theorem blockText?_blockLine (l : Line) :
    blockText? (origin.seen (origin.put (blockLine l))) = some (origin.kept l) := by
  have plain : blockText? (blockLine l) = some l := rfl
  cases origin with
  | fencedBlock => exact plain
  | commentBlock =>
    have spaced : blockText? (' ' :: blockLine l) = some l := rfl
    rw [Origin.seen, Origin.put, said, List.drop_left, blockText?_trimEnd, spaced]
    rfl

theorem entryAt_blockHeader {key : Key} (h : key ≠ .ret) (following : List Line) :
    entryAt (origin.seen (origin.put (blockHeader key))) following =
      some (key, .block (leadingBlock following)) := by
  cases key with
  | ret => exact absurd rfl h
  | stdin => cases origin <;> rfl
  | stdout => cases origin <;> rfl
  | stderr => cases origin <;> rfl

theorem inMetadata_block (key : Key) (block : List Line) :
    ∀ l ∈ (blockHeader key :: block.map blockLine).map origin.put, origin.inMetadata l = true := by
  have header : origin.inMetadata (origin.put (blockHeader key)) = true := by
    cases origin <;> cases key <;> rfl
  have line (l : Line) : origin.inMetadata (origin.put (blockLine l)) = true := by
    cases origin with
    | fencedBlock => rfl
    | commentBlock =>
      rw [Origin.inMetadata, Origin.put, declared?_append]
      rfl
  rw [List.map_cons, List.map_map]
  exact List.forall_mem_cons.2 ⟨header, List.forall_mem_map.2 fun l _ => line l⟩

theorem entries_block {key : Key} (h : key ≠ .ret) (block : List Line) :
    entries (((blockHeader key :: block.map blockLine).map origin.put).map origin.seen) =
      [(key, .block (block.map origin.kept))] := by
  have read : ((blockHeader key :: block.map blockLine).map origin.put).map origin.seen =
      origin.seen (origin.put (blockHeader key)) ::
        block.map fun l => origin.seen (origin.put (blockLine l)) := by
    simp only [List.map_cons, List.map_map]
    rfl
  have texts := blockText?_blockLine origin
  rw [read, entries, entryAt_blockHeader origin h, leadingBlock_map texts, entries_map texts]

theorem blockText?_seen {l : Line} (h : origin.inMetadata l = true) :
    blockText? (origin.seen l) = origin.blockText? l := by
  cases origin with
  | fencedBlock => rfl
  | commentBlock =>
    have comment : isComment l = true := (Bool.and_eq_true_iff.1 h).1
    rw [Origin.blockText?, comment?_eq, if_pos comment]
    rfl

end

theorem Found.metadata_eq {ls : List Line} {n : Nat} {ss : List Section} (h : Found ls n ss) :
    ∀ s ∈ ss, s.metadata = (ls.drop s.line).takeWhile (!isFence ·) := by
  induction h with
  | done => nofun
  | pass _ _ _ ih => exact ih
  | take _ _ _ _ _ ih => exact List.forall_mem_cons.2 ⟨passage_beforeFence ls _, ih⟩

theorem metadata_sections {content : List Char} {origin : Origin} {ss : List Section}
    (h : sections content origin = .ok ss) :
    ∀ s ∈ ss, s.metadata =
      (((Text.lines content).drop s.line).takeWhile origin.inMetadata).map origin.seen := by
  intro s hs
  cases origin with
  | fencedBlock =>
    rw [(found_of_fencedSections (n := 0) h).metadata_eq s hs]
    exact (List.map_id _).symm
  | commentBlock =>
    obtain rfl := eq_of_sections_commentBlock h
    obtain ⟨i, l, hline, hget, _⟩ := declared_commentSections content 1 _ s hs
    have bound := (List.getElem?_eq_some_iff.1 hget).1
    have inside : s.line ≤ (topComment content).length := by omega
    have metadata := (metadata_commentSections content 1 _ s hs).2.1
    rw [Nat.add_sub_cancel, saidAfter, topComment, ← takeWhile_drop inside,
      List.takeWhile_takeWhile] at metadata
    have both : (fun l => decide ((declared? l).isNone = true ∧ isComment l = true)) =
        Origin.commentBlock.inMetadata :=
      funext fun l => by
        rw [Origin.inMetadata, Bool.and_comm, Bool.decide_and, Bool.decide_eq_true,
          Bool.decide_eq_true]
    rw [metadata, both]
    rfl

variable {fs : Files} {p : Path} {origin : Origin}

theorem expectations_of_sections {content : List Char} {tests : List TestCase}
    (h : extractTests fs p content origin = .ok tests) :
    ∀ t ∈ tests, t.expectations =
      Expectations.empty.readOn fs (baseOf p) origin ((Text.lines content).drop t.line) := by
  obtain ⟨ss, hss, rfl⟩ := sections_of_extractTests h
  intro t ht
  obtain ⟨i, hi, rfl⟩ := List.mem_mapIdx.1 ht
  rw [expectations_toTest, expected_eq_foldl, metadata_sections hss _ (List.getElem_mem hi)]
  rfl

theorem readOn_append {base : Path} {pre rest : List Line} (e : Expectations)
    (hpre : ∀ l ∈ pre, origin.inMetadata l = true)
    (hrest : ∀ l ∈ rest.head?, origin.blockText? l = none) :
    e.readOn fs base origin (pre ++ rest) =
      (e.readOn fs base origin pre).readOn fs base origin rest := by
  have stops : ∀ l ∈ ((rest.takeWhile origin.inMetadata).map origin.seen).head?,
      blockText? l = none := by
    cases rest with
    | nil => nofun
    | cons l rest =>
      by_cases hl : origin.inMetadata l = true
      · rw [List.takeWhile_cons_of_pos hl]
        rintro _ ⟨⟩
        rw [blockText?_seen origin hl]
        exact hrest l rfl
      · rw [List.takeWhile_cons_of_neg hl]
        nofun
  have whole : pre.takeWhile origin.inMetadata = pre := List.takeWhile_eq_self_iff.2 hpre
  simp only [Expectations.readOn]
  rw [List.takeWhile_append_of_pos hpre, whole, List.map_append, entries_append stops,
    List.foldl_append]

theorem readOn_block {base : Path} {key : Key} (hkey : key ≠ .ret) (e : Expectations)
    (block : List Line) :
    e.readOn fs base origin ((blockHeader key :: block.map blockLine).map origin.put) =
      e.withText key (String.ofList (Text.joinLines (block.map origin.kept))) := by
  have whole := List.takeWhile_eq_self_iff.2 (inMetadata_block origin key block)
  rw [Expectations.readOn, whole, entries_block origin hkey]
  cases key with
  | ret => exact absurd rfl hkey
  | stdin => rfl
  | stdout => rfl
  | stderr => rfl

theorem isLine_kept {block : List Line} (h : ∀ l ∈ block, Text.IsLine l) :
    ∀ l ∈ block.map origin.kept, Text.IsLine l := by
  intro _ hkept
  obtain ⟨l, hl, rfl⟩ := List.mem_map.1 hkept
  cases origin with
  | fencedBlock => exact h l hl
  | commentBlock => exact (h l hl).trimEnd

theorem joinLines_kept {block : List Line} (h : ∀ l ∈ block, Text.IsLine l) :
    Text.joinLines (block.map origin.kept) = Text.joinLines block ↔
      origin = .fencedBlock ∨ ∀ l ∈ block, ∀ c ∈ l.getLast?, Text.isBlank c = false := by
  have same : Text.joinLines (block.map origin.kept) = Text.joinLines block ↔
      ∀ l ∈ block, origin.kept l = l := by
    rw [Text.joinLines_inj (List.length_map _) (isLine_kept h) h]
    conv => lhs; rhs; rw [← List.map_id block]
    exact List.map_eq_map_iff
  cases origin with
  | fencedBlock => exact same.trans ⟨fun _ => .inl rfl, fun _ _ _ => rfl⟩
  | commentBlock =>
    rw [same, or_iff_right Origin.noConfusion]
    exact forall₂_congr fun l _ => Text.trimEnd_eq_self

/-- A block sets its text to its own lines, whatever stands before it and after. In a comment those
lines are the written ones just if none of them ends with a blank. -/
theorem expectations_of_block {content : List Char} {tests : List TestCase} {t : TestCase}
    {key : Key} {before block after : List Line}
    (h : extractTests fs p content origin = .ok tests) (ht : t ∈ tests) (hkey : key ≠ .ret)
    (hblock : ∀ l ∈ block, Text.IsLine l)
    (hlines : Text.lines content =
      before ++ ((blockHeader key :: block.map blockLine).map origin.put ++ after))
    (hline : t.line ≤ before.length) (hbefore : ∀ l ∈ before.drop t.line, origin.inMetadata l = true)
    (hafter : ∀ l ∈ after.head?, origin.blockText? l = none) :
    let read (e : Expectations) := e.readOn fs (baseOf p) origin
    let text := Text.joinLines (block.map origin.kept)
    t.expectations =
        read ((read .empty (before.drop t.line)).withText key (String.ofList text)) after ∧
      (text = Text.joinLines block ↔
        origin = .fencedBlock ∨ ∀ l ∈ block, ∀ c ∈ l.getLast?, Text.isBlank c = false) := by
  refine ⟨?_, joinLines_kept hblock⟩
  have header : ∀ l ∈ ((blockHeader key :: block.map blockLine).map origin.put ++ after).head?,
      origin.blockText? l = none := by
    rintro _ ⟨⟩
    cases origin <;> cases key <;> rfl
  rw [expectations_of_sections h t ht, hlines, List.drop_append_of_le_length hline,
    readOn_append _ hbefore header, readOn_append _ (inMetadata_block origin key block) hafter,
    readOn_block hkey]

theorem expectations_of_block_indented :
    let content :=
      "//: neplg2:test\n//: stdin: mlstr:\n//: ##:  a\n//: ##: \n//: stderr: b\nfn main".toList
    let block := [" a".toList, []]
    ∃ tests, extractTests ⟨[], []⟩ ⟨"a.nepl"⟩ content .commentBlock = .ok tests ∧
      (∀ l ∈ block, Text.IsLine l) ∧
      Text.lines content = ["//: neplg2:test".toList] ++
        ((blockHeader .stdin :: block.map blockLine).map Origin.commentBlock.put ++
          ["//: stderr: b".toList, "fn main".toList]) ∧
      ∀ t ∈ tests, t.line = 1 ∧ t.expectations = ⟨some " a\n", none, some "b", none⟩ := by
  intro content block
  let tests := (commentSections content 1 (leadingComment (Text.lines content))).mapIdx fun i s =>
    s.toTest ⟨[], []⟩ ⟨"a.nepl"⟩ .commentBlock i
  have extracted : extractTests ⟨[], []⟩ ⟨"a.nepl"⟩ content .commentBlock = .ok tests := rfl
  have plain : ∀ l ∈ block, Text.IsLine l := by decide
  have written : Text.lines content = ["//: neplg2:test".toList] ++
      ((blockHeader .stdin :: block.map blockLine).map Origin.commentBlock.put ++
        ["//: stderr: b".toList, "fn main".toList]) := by decide
  refine ⟨tests, extracted, plain, written, fun t ht => ?_⟩
  have numbers : tests.map (·.line) = [1] := by decide
  have first : t.line = 1 := List.mem_singleton.1 (numbers ▸ List.mem_map_of_mem ht)
  have read := (expectations_of_block extracted ht (by decide) plain written (by rw [first]; decide)
    (by rw [first]; nofun) (by rintro _ ⟨⟩; decide)).1
  rw [first] at read
  exact ⟨first, read.trans (by decide)⟩

/-- The line of the block ends with a blank, and the text does not. -/
theorem blank_dropped :
    let content := "//: neplg2:test\n//: stdout: mlstr:\n//: ##: x \nfn main".toList
    let block := ["x ".toList]
    ∃ tests, extractTests ⟨[], []⟩ ⟨"a.nepl"⟩ content .commentBlock = .ok tests ∧
      Text.lines content = ["//: neplg2:test".toList] ++
        ((blockHeader .stdout :: block.map blockLine).map Origin.commentBlock.put ++
          ["fn main".toList]) ∧
      tests.map (·.stdout) = [some "x"] ∧
      tests.map (·.stdout) ≠ [some (String.ofList (Text.joinLines block))] := by
  intro content block
  exact ⟨_, rfl, by decide, by decide, by decide⟩

end Document

end Doctest
