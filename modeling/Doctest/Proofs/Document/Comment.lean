import Doctest.Proofs.Document.Declarations

namespace Doctest

structure Expectations where
  stdin : Option String
  stdout : Option String
  stderr : Option String
  ret : Option ReturnSpec
  deriving DecidableEq

def TestCase.expectations (t : TestCase) : Expectations := ⟨t.stdin, t.stdout, t.stderr, t.ret⟩

namespace Document

open Text (Line)

def expected (fs : Files) (base : Path) (metadata : List Line) : Expectations :=
  let es := entries metadata
  let text key := (lastFor key es).map (Content.load fs base)
  ⟨text .stdin, text .stdout, text .stderr, (lastFor .ret es).bind Content.returnSpec?⟩

theorem mapIdx_toTest_code (code : List Char) (fs : Files) (p : Path) (origin : Origin)
    (ss : List Section) :
    (ss.map ({ · with code := code })).mapIdx (fun i s => s.toTest fs p origin i) =
      (ss.mapIdx fun i s => s.toTest fs p origin i).map
        ({ · with code := String.ofList code }) := by
  rw [List.mapIdx_eq_iff]
  intro i
  simp only [List.getElem?_map, List.getElem?_mapIdx, Option.map_map]
  rfl

theorem expectations_toTest (s : Section) (fs : Files) (p : Path) (origin : Origin) (i : Nat) :
    (s.toTest fs p origin i).expectations = expected fs (baseOf p) s.metadata := rfl

def isComment (l : Line) : Bool := commentMark.isPrefixOf l

def topComment (content : List Char) : List Line := (Text.lines content).takeWhile isComment

def said (l : Line) : Line := Text.trimEnd (l.drop commentMark.length)

def declared? (l : Line) : Option Attributes := declaration? (Text.trim (said l))

def saidAfter (n : Nat) (comment : List Line) : List Line :=
  ((comment.drop n).takeWhile fun l => (declared? l).isNone).map said

theorem comment?_eq (l : Line) : comment? l = if isComment l then some (said l) else none := by
  rw [comment?, Text.after?, isComment, said]
  split
  · rfl
  · rfl

theorem leadingComment_eq (ls : List Line) :
    leadingComment ls = (ls.takeWhile isComment).map said := by
  induction ls with
  | nil => rfl
  | cons l ls ih =>
    rw [leadingComment, comment?_eq]
    by_cases h : isComment l = true
    · rw [if_pos h, List.takeWhile_cons_of_pos h, List.map_cons, ih]
    · rw [if_neg h, List.takeWhile_cons_of_neg h, List.map_nil]

section

variable (code : List Char) (n : Nat) (ls : List Line)

/-- The declarations in a comment whose first line has number `n`, each with its own number. -/
def declarations : List (Nat × Attributes) :=
  (ls.zipIdx n).filterMap fun x => (declared? x.1).map (x.2, ·)

theorem declarations_cons (l : Line) :
    declarations n (l :: ls) =
      ((declared? l).map (n, ·)).toList ++ declarations (n + 1) ls := by
  rw [declarations, List.zipIdx_cons, List.filterMap_cons]
  cases (declared? l).map (n, ·) with
  | none => rfl
  | some declaration => rfl

theorem declarations_commentSections :
    (commentSections code n (ls.map said)).map (fun s => (s.line, s.attributes)) =
      declarations n ls := by
  induction ls generalizing n with
  | nil => rfl
  | cons l ls ih =>
    rw [declarations_cons, List.map_cons, commentSections, declared?]
    cases declaration? (Text.trim (said l)) with
    | none => exact ih (n + 1)
    | some attributes => exact congrArg (_ :: ·) (ih (n + 1))

theorem metadata_commentSections :
    ∀ s ∈ commentSections code n (ls.map said),
      n ≤ s.line ∧ s.metadata = saidAfter (s.line + 1 - n) ls ∧ s.code = code := by
  induction ls generalizing n with
  | nil => nofun
  | cons l ls ih =>
    have rest : ∀ s ∈ commentSections code (n + 1) (ls.map said),
        n ≤ s.line ∧ s.metadata = saidAfter (s.line + 1 - n) (l :: ls) ∧ s.code = code := by
      intro s hs
      obtain ⟨after, metadata, whole⟩ := ih (n + 1) s hs
      have behind : s.line + 1 - n = (s.line + 1 - (n + 1)) + 1 := by omega
      rw [behind]
      exact ⟨Nat.le_of_succ_le after, metadata, whole⟩
    rw [List.map_cons, commentSections]
    split
    · exact rest
    · refine List.forall_mem_cons.2 ⟨⟨Nat.le_refl n, ?_, rfl⟩, rest⟩
      have undeclared : (!isDeclaration ·) ∘ said = fun l => (declared? l).isNone :=
        funext fun l => Option.not_isSome _
      simp only [saidAfter, Nat.add_sub_cancel_left, List.drop_succ_cons, List.drop_zero,
        List.takeWhile_map, undeclared]

theorem commentSections_code (code' : List Char) :
    commentSections code' n ls = (commentSections code n ls).map ({ · with code := code' }) := by
  induction ls generalizing n with
  | nil => rfl
  | cons l ls ih =>
    rw [commentSections, commentSections]
    split
    · exact ih (n + 1)
    · exact congrArg (_ :: ·) (ih (n + 1))

end

/-- Source files are always read. There is one test for each declaration of the comment at the top,
in order, with the whole file for its code; what it expects is said between its declaration and the
next one, and below the comment only the code changes. -/
theorem tests_of_topComment (fs : Files) (p : Path) (content : List Char) :
    let comment := topComment content
    ∃ tests, extractTests fs p content .commentBlock = .ok tests ∧
      tests.map (fun t => (t.line, t.attributes)) = declarations 1 comment ∧
      (∀ t ∈ tests, t.code = String.ofList content ∧
        t.expectations = expected fs (baseOf p) (saidAfter t.line comment)) ∧
      ∀ content', topComment content' = comment →
        extractTests fs p content' .commentBlock =
          .ok (tests.map ({ · with code := String.ofList content' })) := by
  intro comment
  let ss := commentSections content 1 (comment.map said)
  have extracted (content' : List Char) (h : topComment content' = comment) :
      extractTests fs p content' .commentBlock =
        .ok ((commentSections content' 1 (comment.map said)).mapIdx fun i s =>
          s.toTest fs p .commentBlock i) := by
    rw [extractTests, sections, leadingComment_eq, ← h]
    rfl
  refine ⟨_, extracted content rfl, ?_, ?_, fun content' h => ?_⟩
  · rw [← declarations_commentSections content]
    exact map_toTest (fun _ _ => rfl) ss
  · intro t ht
    obtain ⟨i, hi, rfl⟩ := List.mem_mapIdx.1 ht
    have mem : ss[i] ∈ ss := List.getElem_mem hi
    obtain ⟨_, metadata, whole⟩ := metadata_commentSections content 1 comment ss[i] mem
    rw [Nat.add_sub_cancel] at metadata
    refine ⟨congrArg String.ofList whole, ?_⟩
    rw [expectations_toTest, metadata]
    rfl
  · rw [extracted content' h, commentSections_code content, mapIdx_toTest_code]

theorem tests_of_topComment_swap :
    let content := "//: neplg2:test[skip]\n//: stdin: hi\n//: neplg2:test\nfn main()".toList
    let edited := "//: neplg2:test[skip]\n//: stdin: hi\n//: neplg2:test\nfn f()\n//: ret: 1".toList
    topComment edited = topComment content ∧
      ∃ tests, extractTests ⟨[], []⟩ ⟨"a.nepl"⟩ content .commentBlock = .ok tests ∧
        tests.map (fun t => (t.line, t.attributes)) = [(1, ⟨["skip"]⟩), (3, ⟨[]⟩)] ∧
        extractTests ⟨[], []⟩ ⟨"a.nepl"⟩ edited .commentBlock =
          .ok (tests.map ({ · with code := String.ofList edited })) := by
  intro content edited
  have same : topComment edited = topComment content := by decide
  have found : declarations 1 (topComment content) = [(1, ⟨["skip"]⟩), (3, ⟨[]⟩)] := by decide
  obtain ⟨tests, extracted, declared, _, below⟩ :=
    tests_of_topComment ⟨[], []⟩ ⟨"a.nepl"⟩ content
  exact ⟨same, tests, extracted, declared.trans found, below edited same⟩

end Document

end Doctest
