import Doctest.Path

namespace Doctest.Compiler

structure Search where
  hint : Option Path
  workingDir : Path
  installDir : Option Path
  namePrefix : String
  deriving DecidableEq

def dist : Path := ⟨"dist"⟩

def webDist : Path := ⟨"web/dist"⟩

def withDist (base : Path) : List Path := [base, base.join dist, base.join webDist]

def besides (hint : Path) : List Path :=
  if hint.endsWith webDist then
    let root := (hint.join ⟨"../.."⟩).normalize
    [root.join dist, root]
  else if hint.endsWith dist then
    let parent := (hint.join ⟨".."⟩).normalize
    [parent.join webDist, parent]
  else []

namespace Search

def nearHint (s : Search) : List Path :=
  match s.hint with
  | none => []
  | some h =>
    let h := (s.workingDir.join h).normalize
    withDist h ++ besides h

def nearInstall (s : Search) : List Path :=
  match s.installDir with
  | none => []
  | some i =>
    let i := (s.workingDir.join i).normalize
    let up := (i.join ⟨".."⟩).normalize
    withDist i ++ [up.join dist, up.join webDist]

def ranked (s : Search) : List Path :=
  s.nearHint ++ withDist s.workingDir.normalize ++ s.nearInstall

def candidates (s : Search) : List Path := s.ranked.eraseDups

end Search

end Doctest.Compiler
