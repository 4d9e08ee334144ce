import Doctest.Proofs.Decimal.Integer
import Doctest.Proofs.Document.Comment

namespace Doctest.Document

open Text (Line Blank)

inductive DeclaredIn : Origin → Line → Attributes → Prop
  | fenced {l : Line} {a : Attributes} : Announces l a → DeclaredIn .fencedBlock l a
  | comment {blanks l : Line} {a : Attributes} : Blank blanks → Announces l a →
      DeclaredIn .commentBlock (commentMark ++ (blanks ++ l)) a

theorem declaredIn_fencedBlock {l : Line} {a : Attributes} :
    DeclaredIn .fencedBlock l a ↔ declaration? (Text.trimEnd l) = some a := by
  rw [declaration?_trimEnd, declaration?_eq_some]
  constructor
  · rintro ⟨h⟩
    exact h
  · exact .fenced

theorem Announces.trimStart {l : Line} {a : Attributes} (h : Announces l a) :
    Text.trimStart l = l := by
  apply Text.trimStart_of_head
  intro c hc
  cases h <;> cases hc <;> decide

theorem declared?_append (l : Line) :
    declared? (commentMark ++ l) = declaration? (Text.trimStart l) := by
  rw [declared?, said, List.drop_left, Text.trim_trimEnd, Text.trim, declaration?_trimEnd]

theorem declaredIn_commentBlock {l : Line} {a : Attributes} :
    DeclaredIn .commentBlock l a ↔ isComment l = true ∧ declared? l = some a := by
  constructor
  · rintro ⟨⟩
    next blanks l blank announced =>
    refine ⟨List.isPrefixOf_iff_prefix.2 (List.prefix_append _ _), ?_⟩
    rw [declared?_append, blank.trimStart_append, announced.trimStart, declaration?_eq_some]
    exact announced
  · rintro ⟨hcomment, hdeclared⟩
    obtain ⟨text, rfl⟩ := List.isPrefixOf_iff_prefix.1 hcomment
    obtain ⟨blanks, blank, whole⟩ := Text.exists_trimStart text
    rw [declared?_append, declaration?_eq_some] at hdeclared
    rw [whole]
    exact .comment blank hdeclared

theorem Found.declared {ls : List Line} {n : Nat} {ss : List Section} (h : Found ls n ss) :
    ∀ s ∈ ss, ∃ i l, s.line = i + 1 ∧ ls[i]? = some l ∧
      declaration? (Text.trimEnd l) = some s.attributes := by
  induction h with
  | done => nofun
  | pass _ _ _ ih => exact ih
  | take hget hsome _ _ _ ih => exact List.forall_mem_cons.2 ⟨⟨_, _, rfl, hget, hsome⟩, ih⟩

theorem declared_commentSections (code : List Char) (n : Nat) (ls : List Line) :
    ∀ s ∈ commentSections code n (ls.map said),
      ∃ i l, s.line = n + i ∧ ls[i]? = some l ∧ declared? l = some s.attributes := by
  intro s hs
  have declaration : (s.line, s.attributes) ∈ declarations n ls := by
    rw [← declarations_commentSections code]
    exact List.mem_map_of_mem hs
  obtain ⟨⟨l, m⟩, hmem, hdeclared⟩ := List.mem_filterMap.1 declaration
  obtain ⟨a, ha, hpair⟩ := Option.map_eq_some_iff.1 hdeclared
  obtain ⟨hline, rfl⟩ := Prod.mk.inj hpair
  obtain ⟨hle, hget⟩ := List.mk_mem_zipIdx_iff_le_and_getElem?_sub.1 hmem
  exact ⟨m - n, l, hline ▸ (Nat.add_sub_cancel' hle).symm, hget, ha⟩

theorem pairwise_line_commentSections (code : List Char) (n : Nat) (ls : List Line) :
    (commentSections code n (ls.map said)).Pairwise fun s t => s.line < t.line := by
  induction ls generalizing n with
  | nil => exact .nil
  | cons l ls ih =>
    rw [List.map_cons, commentSections]
    split
    · exact ih (n + 1)
    · exact .cons (fun s hs => (metadata_commentSections code (n + 1) ls s hs).1) (ih (n + 1))

theorem getElem?_topComment {content : List Char} {i : Nat} {l : Line}
    (h : (topComment content)[i]? = some l) :
    (Text.lines content)[i]? = some l ∧ isComment l = true := by
  obtain ⟨hi, rfl⟩ := List.getElem?_eq_some_iff.1 h
  have top : topComment content <+: Text.lines content := List.takeWhile_prefix isComment
  exact ⟨List.prefix_iff_getElem?.1 top i hi, List.mem_takeWhile_imp (List.getElem_mem hi)⟩

section

variable {content : List Char} {origin : Origin} {ss : List Section}

theorem eq_of_sections_commentBlock (h : sections content .commentBlock = .ok ss) :
    ss = commentSections content 1 ((topComment content).map said) := by
  rw [sections, leadingComment_eq] at h
  exact (Except.ok.inj h).symm

theorem pairwise_line_sections (h : sections content origin = .ok ss) :
    ss.Pairwise fun s t => s.line < t.line := by
  cases origin with
  | fencedBlock => exact (found_of_fencedSections (n := 0) h).pairwise_line
  | commentBlock =>
    obtain rfl := eq_of_sections_commentBlock h
    exact pairwise_line_commentSections content 1 _

theorem declared_sections (h : sections content origin = .ok ss) :
    ∀ s ∈ ss, ∃ i l, s.line = i + 1 ∧ (Text.lines content)[i]? = some l ∧
      ∀ a, DeclaredIn origin l a ↔ a = s.attributes := by
  intro s hs
  cases origin with
  | fencedBlock =>
    obtain ⟨i, l, hline, hget, hdeclared⟩ := (found_of_fencedSections (n := 0) h).declared s hs
    refine ⟨i, l, hline, hget, fun a => ?_⟩
    rw [declaredIn_fencedBlock, hdeclared, Option.some_inj, eq_comm]
  | commentBlock =>
    obtain rfl := eq_of_sections_commentBlock h
    obtain ⟨i, l, hline, hget, hdeclared⟩ := declared_commentSections content 1 _ s hs
    obtain ⟨hget, hcomment⟩ := getElem?_topComment hget
    refine ⟨i, l, by rw [hline, Nat.add_comm], hget, fun a => ?_⟩
    rw [declaredIn_commentBlock, and_iff_right hcomment, hdeclared, Option.some_inj, eq_comm]

end

theorem eq_of_numbered {kind file : String} {i j : Nat}
    (h : s!"{kind}:{file}:{i}" = s!"{kind}:{file}:{j}") : i = j :=
  Decimal.toString_injective ((String.append_right_inj _).1 h)

/-- Tests are numbered from zero, and no two names are the same. They stand in the order of their
lines, each of which is a declaration, and declares nothing but the test's own attributes. -/
theorem names_and_lines {fs : Files} {p : Path} {content : List Char} {origin : Origin}
    {tests : List TestCase} (h : extractTests fs p content origin = .ok tests) :
    let file := p.fileName?.getD ""
    let ls := Text.lines content
    (∀ (i : Nat) (t : TestCase), tests[i]? = some t → t.name = s!"{origin.tag}:{file}:{i}") ∧
      (tests.map (·.name)).Nodup ∧ (tests.map (·.line)).Pairwise (· < ·) ∧
      ∀ t ∈ tests, 1 ≤ t.line ∧ t.line ≤ ls.length ∧ ∃ l, ls[t.line - 1]? = some l ∧
        ∀ a, DeclaredIn origin l a ↔ a = t.attributes := by
  obtain ⟨ss, hss, rfl⟩ := sections_of_extractTests h
  intro file ls
  have named (i : Nat) (t : TestCase)
      (ht : (ss.mapIdx fun i s => s.toTest fs p origin i)[i]? = some t) :
      t.name = s!"{origin.tag}:{file}:{i}" := by
    rw [List.getElem?_mapIdx] at ht
    obtain ⟨s, _, rfl⟩ := Option.map_eq_some_iff.1 ht
    rfl
  refine ⟨named, ?_, ?_, ?_⟩
  · rw [List.Nodup, List.pairwise_map, List.pairwise_iff_getElem]
    intro i j hi hj hlt same
    rw [named i _ (List.getElem?_eq_getElem hi), named j _ (List.getElem?_eq_getElem hj)] at same
    exact Nat.ne_of_lt hlt (eq_of_numbered same)
  · rw [map_line_toTest]
    exact List.pairwise_map.2 (pairwise_line_sections hss)
  · intro t ht
    obtain ⟨i, hi, rfl⟩ := List.mem_mapIdx.1 ht
    obtain ⟨j, l, hline, hget, hdeclared⟩ := declared_sections hss ss[i] (List.getElem_mem hi)
    have inside := (List.getElem?_eq_some_iff.1 hget).1
    have line : (ss[i].toTest fs p origin i).line = j + 1 := hline
    rw [line]
    exact ⟨Nat.succ_pos j, inside, l, hget, hdeclared⟩

theorem names_and_lines_pair :
    let content := "//: neplg2:test\n//: ret: 1\n//:neplg2:test[x],skip] \nfn main".toList
    let ls := Text.lines content
    ∃ tests, extractTests ⟨[], []⟩ ⟨"lib/a.nepl"⟩ content .commentBlock = .ok tests ∧
      tests.map (·.name) = ["nepl:a.nepl:0", "nepl:a.nepl:1"] ∧ tests.map (·.line) = [1, 3] ∧
      (tests.map (·.name)).Nodup ∧ (tests.map (·.line)).Pairwise (· < ·) ∧
      ∀ t ∈ tests, 1 ≤ t.line ∧ t.line ≤ ls.length ∧ ∃ l, ls[t.line - 1]? = some l ∧
        ∀ a, DeclaredIn .commentBlock l a ↔ a = t.attributes := by
  intro content ls
  let tests := (commentSections content 1 (leadingComment (Text.lines content))).mapIdx fun i s =>
    s.toTest ⟨[], []⟩ ⟨"lib/a.nepl"⟩ .commentBlock i
  have extracted : extractTests ⟨[], []⟩ ⟨"lib/a.nepl"⟩ content .commentBlock = .ok tests := rfl
  exact ⟨tests, extracted, by decide, by decide, (names_and_lines extracted).2⟩

end Doctest.Document
