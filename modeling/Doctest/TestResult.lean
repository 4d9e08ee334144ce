import Doctest.TestCase

namespace Doctest

structure Snapshot where
  exitCode : Int32
  stdout : String
  stderr : String
  trapped : Option String
  deriving DecidableEq

structure Payload where
  stdout : Option String
  stderr : Option String
  ret : Option String
  deriving DecidableEq

structure Payloads where
  expected : Payload
  actual : Payload
  deriving DecidableEq

structure Verdict where
  ok : Bool
  reason : String
  detail : Option String
  payloads : Option Payloads
  deriving DecidableEq

def Verdict.pass (reason : String) : Verdict := ⟨true, reason, none, none⟩

def Verdict.fail (reason : String) : Verdict := ⟨false, reason, none, none⟩

structure TestResult where
  test : TestCase
  verdict : Verdict
  runtime : Option Snapshot
  deriving DecidableEq

def TestResult.ok (r : TestResult) : Bool := r.verdict.ok

structure Summary where
  total : Nat
  passed : Nat
  failed : Nat
  deriving DecidableEq

def Summary.of (rs : List TestResult) : Summary :=
  let passed := rs.countP TestResult.ok
  ⟨rs.length, passed, rs.length - passed⟩

structure Report where
  summary : Summary
  results : List TestResult
  deriving DecidableEq

def Report.of (rs : List TestResult) : Report := ⟨Summary.of rs, rs⟩

def Report.allPassed (r : Report) : Bool := r.summary.failed == 0

theorem Summary.passed_add_failed (rs : List TestResult) :
    (Summary.of rs).passed + (Summary.of rs).failed = (Summary.of rs).total := by
  have h : rs.countP TestResult.ok ≤ rs.length := List.countP_le_length
  simp only [Summary.of]
  omega

theorem Report.allPassed_iff (rs : List TestResult) :
    (Report.of rs).allPassed = true ↔ ∀ r ∈ rs, r.ok = true := by
  have h : rs.countP TestResult.ok ≤ rs.length := List.countP_le_length
  simp only [allPassed, Report.of, Summary.of, beq_iff_eq, ← List.countP_eq_length]
  omega

end Doctest
