import Doctest.Document.Extract
import Doctest.Proofs.Document.Entries
import Doctest.Proofs.Document.Marker
import Mathlib.Data.List.Forall2

/-! Tests that are written into a fenced document are the tests that are found in it. -/

namespace Doctest.Document

open Json.Literal (Spells)
open Text (Line IsLine joinWith joinLines)

structure Passage where
  tags : List String
  stdin : Option String
  stdout : Option String
  stderr : Option String
  ret : Option ReturnSpec
  code : List Line

structure IsTag (tag : String) : Prop where
  nonempty : tag ≠ ""
  trimmed : Text.trim tag.toList = tag.toList
  noComma : ',' ∉ tag.toList
  isLine : IsLine tag.toList

inductive Declares : List String → Line → Prop
  | bare : Declares [] declarationWord
  | listed {tags : List String} : (∀ t ∈ tags, IsTag t) →
      Declares tags (declarationWord ++ '[' :: (joinWith [','] (tags.map String.toList) ++ [']']))

inductive WritesText (key : Key) : Option String → List Line → Prop
  | absent : WritesText key none []
  | given {q : Line} {s : String} :
      Spells q s.toList → WritesText key (some s) [key.name ++ ": ".toList ++ q]

inductive WritesReturn : Option ReturnSpec → List Line → Prop
  | absent : WritesReturn none []
  | i32 (n : Int32) :
      WritesReturn (some (.i32 n)) [Key.ret.name ++ ": ".toList ++ (toString n.toInt).toList]
  | str {q : Line} {s : String} :
      Spells q s.toList → WritesReturn (some (.str s)) [Key.ret.name ++ ": ".toList ++ q]

/-- Code stands as it is, unless it would be taken for something else, or hidden. -/
inductive WritesCode : Line → Line → Prop
  | plain {l : Line} : IsLine l → ¬ fenceMark <+: l → ¬ hiddenMark <+: Text.trimStart l →
      WritesCode l l
  | hidden {l : Line} : IsLine l → WritesCode l (hiddenMark ++ ' ' :: l)

/-- A declaration, lines for the keys in any order, and fenced code. -/
inductive Writes (p : Passage) : List Line → Prop
  | block {declaration language : Line} {lines : Key → List Line} {metadata code : List Line} :
      Declares p.tags declaration →
      WritesText .stdin p.stdin (lines .stdin) →
      WritesText .stdout p.stdout (lines .stdout) →
      WritesText .stderr p.stderr (lines .stderr) →
      WritesReturn p.ret (lines .ret) →
      metadata.Perm (Key.all.flatMap lines) →
      (∀ c ∈ language, isFenceInfoChar c = true) →
      List.Forall₂ WritesCode p.code code →
      Writes p (declaration :: (metadata ++ (fenceMark ++ language) :: (code ++ [fenceMark])))

/-- The lines of a document with some tests in it, and any lines between them that declare none. -/
inductive WritesAll : List Passage → List Line → Prop
  | nil : WritesAll [] []
  | other {l : Line} {passages : List Passage} {ls : List Line} :
      IsLine l → declaration? (Text.trimEnd l) = none → WritesAll passages ls →
      WritesAll passages (l :: ls)
  | passage {p : Passage} {passages : List Passage} {block ls : List Line} :
      Writes p block → WritesAll passages ls → WritesAll (p :: passages) (block ++ ls)

structure Passage.Given (p : Passage) (contents : Key → Option Content) : Prop where
  stdin : ∀ fs base, (contents .stdin).map (Content.load fs base) = p.stdin
  stdout : ∀ fs base, (contents .stdout).map (Content.load fs base) = p.stdout
  stderr : ∀ fs base, (contents .stderr).map (Content.load fs base) = p.stderr
  ret : (contents .ret).bind Content.returnSpec? = p.ret

structure Passage.Describes (p : Passage) (s : Section) : Prop where
  attributes : s.attributes = .ofTags p.tags
  given : p.Given fun key => lastFor key (entries s.metadata)
  code : s.code = joinLines p.code

theorem parse_joinWith {tags : List String} (h : ∀ t ∈ tags, IsTag t) :
    Attributes.parse (joinWith [','] (tags.map String.toList)) = .ofTags tags := by
  cases tags with
  | nil => rfl
  | cons tag tags =>
    have pieces : Text.splitOn ',' (joinWith [','] ((tag :: tags).map String.toList)) =
        (tag :: tags).map String.toList := by
      refine Text.splitOn_joinWith (List.cons_ne_nil _ _) fun l hl => ?_
      obtain ⟨t, ht, rfl⟩ := List.mem_map.1 hl
      exact (h t ht).noComma
    have trimmed : ((tag :: tags).map String.toList).map Text.trim =
        (tag :: tags).map String.toList := by
      rw [List.map_map]
      exact List.map_congr_left fun t ht => (h t ht).trimmed
    have kept : ((tag :: tags).map String.toList).filter (!·.isEmpty) =
        (tag :: tags).map String.toList := by
      apply List.filter_eq_self.2
      intro l hl
      obtain ⟨t, ht, rfl⟩ := List.mem_map.1 hl
      simpa using (h t ht).nonempty
    have back : ((tag :: tags).map String.toList).map String.ofList = tag :: tags := by
      rw [List.map_map]
      exact (List.map_congr_left fun t _ => String.ofList_toList).trans (List.map_id _)
    simp only [Attributes.parse]
    rw [pieces, trimmed, kept, back]

theorem declaration?_of_declares {tags : List String} {l : Line} (h : Declares tags l) :
    declaration? (Text.trimEnd l) = some (.ofTags tags) := by
  rw [declaration?_trimEnd, declaration?_eq_some]
  cases h with
  | bare => exact @Announces.bare [] nofun
  | listed htags =>
    rw [← parse_joinWith htags]
    exact @Announces.listed _ [] nofun

theorem reveal_of_writesCode {l l' : Line} (h : WritesCode l l') : reveal l' = l := by
  cases h with
  | plain _ _ hhidden => rw [reveal, Text.after?, if_neg (by simpa using hhidden)]
  | hidden _ =>
    have start : Text.trimStart (hiddenMark ++ ' ' :: l) = hiddenMark ++ ' ' :: l :=
      Text.trimStart_of_head fun c hc => by
        cases hc
        decide
    rw [reveal, start, Text.after?_append]
    rfl

theorem isFence_of_writesCode {l l' : Line} (h : WritesCode l l') : isFence l' = false := by
  cases h with
  | plain _ hfence _ => exact Bool.eq_false_iff.2 fun h => hfence (List.isPrefixOf_iff_prefix.1 h)
  | hidden _ => rfl

theorem isLine_append {a b : Line} (ha : IsLine a) (hb : IsLine b) : IsLine (a ++ b) :=
  ⟨fun h => (List.mem_append.1 h).elim ha.1 hb.1, fun h => (List.mem_append.1 h).elim ha.2 hb.2⟩

theorem isLine_of_writesCode {l l' : Line} (h : WritesCode l l') : IsLine l' := by
  cases h with
  | plain hl _ _ => exact hl
  | hidden hl => exact isLine_append (a := hiddenMark ++ [' ']) ⟨by decide, by decide⟩ hl

theorem opensFence_append {language : Line} (h : ∀ c ∈ language, isFenceInfoChar c = true) :
    opensFence (fenceMark ++ language) = true := by
  have rest : (language ++ []).dropWhile isFenceInfoChar = [] := List.dropWhile_append_of_pos h
  rw [List.append_nil] at rest
  rw [opensFence, Text.after?_append]
  simp only [rest, List.all_nil]

theorem head_of_spells {q s : List Char} (h : Spells q s) : q.head? = some '"' := by
  cases h with
  | quoted hb => rfl

theorem not_control_of_spells {q s : List Char} (h : Spells q s) : ∀ c ∈ q, 0x20 ≤ c.toNat := by
  cases h with
  | quoted hb =>
    have closing : ∀ c ∈ ['"'], 0x20 ≤ c.toNat := List.forall_mem_singleton.2 (by decide)
    exact List.forall_mem_cons.2 ⟨by decide, List.forall_mem_append.2 ⟨hb.not_control, closing⟩⟩

theorem holds_of_spells {q s : List Char} (key : Key) (h : Spells q s) :
    Holds [key.name ++ ": ".toList ++ q] key (some (.text q)) := by
  refine .line ?_ (not_control_of_spells h) (.inr ?_)
  · intro c hc
    rw [head_of_spells h] at hc
    cases hc
    decide
  · intro block
    have head := head_of_spells h
    rw [← trim_of_spells h, block] at head
    exact absurd head (by decide)

theorem WritesText.holds {key : Key} {text : Option String} {ls : List Line}
    (h : WritesText key text ls) :
    ∃ c, Holds ls key c ∧ ∀ fs base, c.map (Content.load fs base) = text := by
  cases h with
  | absent => exact ⟨none, .none key, fun _ _ => rfl⟩
  | given hq =>
    refine ⟨_, holds_of_spells key hq, fun fs base => ?_⟩
    rw [Option.map_some, Content.load, (standsFor_of_spells hq (trim_of_spells hq)).value,
      String.ofList_toList]

theorem WritesReturn.holds {ret : Option ReturnSpec} {ls : List Line} (h : WritesReturn ret ls) :
    ∃ c, Holds ls .ret c ∧ c.bind Content.returnSpec? = ret := by
  cases h with
  | absent => exact ⟨none, .none .ret, rfl⟩
  | i32 n =>
    have text := Decimal.intText_toString n.toInt
    refine ⟨_, .line ?_ ?_ (.inl rfl), ReturnSpec.parse_toString n⟩
    · intro c hc
      exact not_isBlank_of_intText text c (List.mem_of_mem_head? hc)
    · intro c hc
      obtain digit | rfl | rfl := text.isAsciiDigit_or_sign hc
      · exact Nat.le_trans (by decide) (Text.bounds_of_isAsciiDigit digit).1
      · decide
      · decide
  | str hq =>
    refine ⟨_, holds_of_spells .ret hq, ?_⟩
    rw [Option.bind_some, Content.returnSpec?, (standsFor_of_spells hq (trim_of_spells hq)).spec,
      String.ofList_toList]

theorem map_reveal_of_writesCode {code code' : List Line}
    (h : List.Forall₂ WritesCode code code') : code'.map reveal = code := by
  induction h with
  | nil => rfl
  | cons hl _ ih => rw [List.map_cons, reveal_of_writesCode hl, ih]

theorem forall_of_writesCode {P : Line → Prop} (hP : ∀ l l', WritesCode l l' → P l')
    {code code' : List Line} (h : List.Forall₂ WritesCode code code') : ∀ l ∈ code', P l := by
  induction h with
  | nil => nofun
  | cons hl _ ih => exact List.forall_mem_cons.2 ⟨hP _ _ hl, ih⟩

theorem isLine_joinWith {tags : List String} (h : ∀ t ∈ tags, IsTag t) :
    IsLine (joinWith [','] (tags.map String.toList)) := by
  have none {c : Char} (hcomma : c ∉ [',']) (htags : ∀ t ∈ tags, c ∉ t.toList) :
      c ∉ joinWith [','] (tags.map String.toList) := by
    intro hc
    obtain hsep | ⟨l, hl, hin⟩ := Text.mem_joinWith hc
    · exact hcomma hsep
    · obtain ⟨t, ht, rfl⟩ := List.mem_map.1 hl
      exact htags t ht hin
  exact ⟨none (by decide) fun t ht => (h t ht).isLine.1,
    none (by decide) fun t ht => (h t ht).isLine.2⟩

theorem isLine_of_declares {tags : List String} {l : Line} (h : Declares tags l) : IsLine l := by
  cases h with
  | bare => exact ⟨by decide, by decide⟩
  | listed htags =>
    have word : IsLine (declarationWord ++ ['[']) := ⟨by decide, by decide⟩
    have closed : IsLine [']'] := ⟨by decide, by decide⟩
    have whole := isLine_append word (isLine_append (isLine_joinWith htags) closed)
    rwa [List.append_assoc, List.singleton_append] at whole

theorem isLine_language {language : Line} (h : ∀ c ∈ language, isFenceInfoChar c = true) :
    IsLine language := by
  constructor
  · intro hlf
    exact absurd (h _ hlf) (by decide)
  · intro hcr
    exact absurd (h _ hcr) (by decide)

theorem holds_of_writes {p : Passage} {lines : Key → List Line}
    (hin : WritesText .stdin p.stdin (lines .stdin))
    (hout : WritesText .stdout p.stdout (lines .stdout))
    (herr : WritesText .stderr p.stderr (lines .stderr)) (hret : WritesReturn p.ret (lines .ret)) :
    ∃ contents, (∀ key, Holds (lines key) key (contents key)) ∧ p.Given contents := by
  obtain ⟨cin, inHeld, inLoads⟩ := hin.holds
  obtain ⟨cout, outHeld, outLoads⟩ := hout.holds
  obtain ⟨cerr, errHeld, errLoads⟩ := herr.holds
  obtain ⟨cret, retHeld, retReads⟩ := hret.holds
  refine ⟨Key.select cin cout cerr cret, fun key => ?_, inLoads, outLoads, errLoads, retReads⟩
  cases key with
  | stdin => exact inHeld
  | stdout => exact outHeld
  | stderr => exact errHeld
  | ret => exact retHeld

theorem fencedSections_of_writes {p : Passage} {block : List Line} (h : Writes p block) :
    (∀ l ∈ block, IsLine l) ∧ ∀ n rest, ∃ s : Section, p.Describes s ∧ ∃ m,
      fencedSections n (block ++ rest) = (s :: ·) <$> fencedSections m rest := by
  cases h with
  | @block declaration language lines metadata code hdeclares hin hout herr hret hperm hlanguage
      hcode =>
    obtain ⟨contents, held, given⟩ := holds_of_writes hin hout herr hret
    have fence : IsLine fenceMark := ⟨by decide, by decide⟩
    constructor
    · have before := forall_metadata (fun key => (held key).isLine) hperm
      have inside := forall_of_writesCode (fun _ _ => isLine_of_writesCode) hcode
      have after := List.forall_mem_append.2 ⟨inside, List.forall_mem_singleton.2 fence⟩
      exact List.forall_mem_cons.2 ⟨isLine_of_declares hdeclares, List.forall_mem_append.2 ⟨before,
        List.forall_mem_cons.2 ⟨isLine_append fence (isLine_language hlanguage), after⟩⟩⟩
    · intro n rest
      have found : (fun key => lastFor key (entries metadata)) = contents :=
        funext (lastFor_metadata held hperm)
      have describes : p.Describes ⟨n, .ofTags p.tags, metadata, joinLines (code.map reveal)⟩ :=
        ⟨rfl, found ▸ given, congrArg joinLines (map_reveal_of_writesCode hcode)⟩
      have taken := fencedSections_take (declaration?_of_declares hdeclares)
        (forall_metadata (fun key => (held key).noFence) hperm) (opensFence_append hlanguage)
        (forall_of_writesCode (fun _ _ => isFence_of_writesCode) hcode)
        (rfl : isFence fenceMark = true) n rest
      refine ⟨_, describes, n + 1 + metadata.length + 1 + code.length + 1, ?_⟩
      rw [List.cons_append, List.append_assoc, List.cons_append, List.append_assoc,
        List.singleton_append]
      exact taken

theorem isLine_of_writesAll {passages : List Passage} {ls : List Line}
    (h : WritesAll passages ls) : ∀ l ∈ ls, IsLine l := by
  induction h with
  | nil => nofun
  | other hl _ _ ih => exact List.forall_mem_cons.2 ⟨hl, ih⟩
  | passage hp _ ih => exact List.forall_mem_append.2 ⟨(fencedSections_of_writes hp).1, ih⟩

theorem WritesAll.eq_nil {passages : List Passage} (h : WritesAll passages []) :
    passages = [] := by
  generalize hls : ([] : List Line) = ls at h
  cases h with
  | nil => rfl
  | other => cases hls
  | passage hp _ =>
    cases hp
    cases hls

theorem WritesAll.lines_joinLines {passages : List Passage} {ls : List Line}
    (h : WritesAll passages ls) : WritesAll passages (Text.lines (joinLines ls)) := by
  cases ls with
  | nil =>
    rw [h.eq_nil]
    exact .other ⟨nofun, nofun⟩ rfl .nil
  | cons l ls => rwa [Text.lines_joinLines (List.cons_ne_nil l ls) (isLine_of_writesAll h)]

end Doctest.Document
