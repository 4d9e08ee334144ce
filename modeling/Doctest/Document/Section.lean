import Doctest.Document.Metadata

/-! Sections of a document: what belongs to one test. In a source file a section is a declaration
in the comment at the top and the comment lines up to the next declaration. In a fenced document
it is a declaration, the lines up to a fence, and the code between that fence and the next. -/

namespace Doctest.Document

open Text (Line)

structure Section where
  line : Nat
  attributes : Attributes
  metadata : List Line
  code : List Char
  deriving DecidableEq

def leadingComment : List Line → List Line
  | [] => []
  | l :: ls =>
    match comment? l with
    | some t => t :: leadingComment ls
    | none => []

def isDeclaration (l : Line) : Bool := (declaration? (Text.trim l)).isSome

def commentSections (code : List Char) (n : Nat) : List Line → List Section
  | [] => []
  | l :: ls =>
    match declaration? (Text.trim l) with
    | none => commentSections code (n + 1) ls
    | some attributes =>
      ⟨n, attributes, ls.takeWhile (!isDeclaration ·), code⟩ :: commentSections code (n + 1) ls

structure MissingFence where
  line : Nat
  deriving DecidableEq

def fencedSections (n : Nat) (ls : List Line) : Except MissingFence (List Section) :=
  match ls with
  | [] => .ok []
  | l :: ls =>
    match declaration? (Text.trimEnd l) with
    | none => fencedSections (n + 1) ls
    | some attributes =>
      let metadata := ls.takeWhile (!isFence ·)
      let fenceLine := n + 1 + metadata.length
      match _h : ls.dropWhile (!isFence ·) with
      | [] => .error ⟨fenceLine⟩
      | fence :: body =>
        if opensFence fence then
          let code := body.takeWhile (!isFence ·)
          let rest := (body.dropWhile (!isFence ·)).drop 1
          (⟨n, attributes, metadata, Text.joinLines (code.map reveal)⟩ :: ·) <$>
            fencedSections (fenceLine + 1 + code.length + 1) rest
        else .error ⟨fenceLine⟩
termination_by ls.length
decreasing_by
  · simp
  · have h₁ := (List.dropWhile_sublist (!isFence ·) (l := ls)).length_le
    have h₂ := (List.dropWhile_sublist (!isFence ·) (l := body)).length_le
    rw [_h, List.length_cons] at h₁
    simp only [List.length_drop, List.length_cons]
    omega

end Doctest.Document
