import Doctest.Execute
import Doctest.Guest.Miniature.Engine
import Doctest.Proofs.Document.Values
import Doctest.Proofs.Guest.StoredString

namespace Doctest

open Guest (Answer Engine Image Memory ReturnValue)
open Text (Blank)
open Text.Utf8 (decodeString replacement)

theorem ofInt_eq_iff {a b : Int} : Int32.ofInt a = Int32.ofInt b ↔ a % 2 ^ 32 = b % 2 ^ 32 := by
  rw [← Int32.toInt_inj, Int32.toInt_ofInt, Int32.toInt_ofInt]
  constructor
  · intro h
    have same := congrArg (· % (2 ^ 32 : Int)) h
    exact Int.bmod_emod.symm.trans (same.trans Int.bmod_emod)
  · intro h
    rw [← Int.emod_bmod a, ← Int.emod_bmod b]
    exact congrArg (Int.bmod · Int32.size) h

namespace Guest

inductive Answer.IsInteger : Answer → Int → Prop
  | i32 {w : UInt32} : IsInteger (.i32 w) w.toInt32.toInt
  | i64 {n : Int} : IsInteger (.i64 n) n

theorem narrow?_of_isInteger {answer : Answer} {n : Int} (h : answer.IsInteger n) :
    narrow? answer = some (.i32 (Int32.ofInt n)) := by
  cases h with
  | i32 => rw [narrow?, Int32.ofInt_toInt]
  | i64 => rfl

section

variable [Engine]

/-- A module starts on some host, and a function of it that takes nothing and returns one value comes
back with an answer. -/
inductive Image.Answers (entry : String) (answer : Answer) : Image → Prop
  | module {m : Engine.Module} {s : Started} {type : FunctionType}
      {code : Code (Answer × Engine.Instance)} {i : Engine.Instance} {p : Process} :
      firstStarted m Shape.all = .ok s →
      Engine.export? s.inst entry = some (.function type code) →
      type.isEntry = true →
      code.run s.process = .ok (answer, i) p →
      Answers entry answer (.ok m)

theorem callDirect_of_answers {image : Image} {entry : String} {answer : Answer}
    (h : image.Answers entry answer) (wantMemory : Bool) :
    (image.callDirect entry wantMemory).value = narrow? answer ∧
      (image.callDirect entry wantMemory).failure = none := by
  cases h with
  | module hstarted hexport htype hrun =>
    simp [Image.callDirect, hstarted, Started.callEntry, hexport, htype, hrun, calledOutcome]

end

end Guest

namespace ReturnSpec

theorem judgeDirect_of_value (spec : ReturnSpec) {o : Guest.DirectOutcome} {value : ReturnValue}
    (hfailure : o.failure = none) (hvalue : o.value = some value) :
    let actual := ActualReturn.of spec value o.memory
    let v := spec.judgeDirect o
    v.ok = spec.agrees actual ∧ (v.ok = false → v.reason = "return mismatch" ∧
      ∃ ps, v.payloads = some ps ∧ ps.expected.ret = some spec.display ∧
        ps.actual.ret = some actual.display) := by
  intro actual v
  have judged : v = if spec.agrees actual then .pass "ok" else
      { Verdict.fail "return mismatch" with
        payloads := some {
          expected := ⟨none, none, some spec.display⟩
          actual := ⟨if o.stdout.isEmpty then none else some o.stdout, none,
            some actual.display⟩ } } := by
    simp only [v, judgeDirect, hfailure, hvalue]
    rfl
  rw [judged]
  cases h : spec.agrees actual with
  | true => exact ⟨rfl, fun fails => absurd fails Bool.noConfusion⟩
  | false => exact ⟨rfl, fun _ => ⟨rfl, _, rfl, rfl, rfl⟩⟩

theorem agrees_of_str (e : String) (m : Memory) (p : Int32) :
    (ReturnSpec.str e).agrees (.of (.str e) (.i32 p) (some m)) = true ↔
      ∃ bytes, m.string? p.toUInt32.toNat = some bytes ∧ decodeString bytes = e := by
  cases h : m.string? p.toUInt32.toNat with
  | none => simp [ActualReturn.of, h, agrees]
  | some bytes => simp [ActualReturn.of, h, agrees, @eq_comm _ e]

/-- A string that a call returns by its address is the expected one just if it lies in memory, its
length included, and its bytes are read as that string. So the expected one is found wherever it is
stored, and if it has no replacement characters nothing else is taken for it. What does not lie in
memory is shown as such, and does not match. -/
theorem judgeDirect_str (e stdout : String) (m : Memory) (p : Int32) :
    let v := (ReturnSpec.str e).judgeDirect ⟨some (.i32 p), some m, stdout, none⟩
    let a := p.toUInt32.toNat
    let inside := a + 4 ≤ m.size ∧ a + 4 + m.wordAt a ≤ m.size
    (v.ok = true ↔ inside ∧ decodeString (m.bytesAt (a + 4) (m.wordAt a)) = e) ∧
    (e.utf8ByteSize < 2 ^ 32 → m.Stores a e → v.ok = true) ∧
    (replacement ∉ e.toList → (v.ok = true ↔ e.utf8ByteSize < 2 ^ 32 ∧ m.Stores a e)) ∧
    (v.ok = false → v.reason = "return mismatch") ∧
    (¬ inside → v.ok = false ∧ ∃ ps, v.payloads = some ps ∧
      ps.actual.ret = some (ActualReturn.outOfBounds p.toUInt32).display) := by
  intro v a inside
  obtain ⟨agrees, fails⟩ := (ReturnSpec.str e).judgeDirect_of_value
    (o := ⟨some (.i32 p), some m, stdout, none⟩) rfl rfl
  have ok : v.ok = true ↔ ∃ bytes, m.string? a = some bytes ∧ decodeString bytes = e := by
    rw [← agrees_of_str, ← agrees]
  have read := m.string?_eq a
  refine ⟨?_, fun hsize stored => ?_, fun he => ?_, fun h => (fails h).1, fun outside => ?_⟩
  · rw [ok]
    by_cases h : inside
    · rw [if_pos h] at read
      simp [read, h]
    · rw [if_neg h] at read
      simp [read, h]
  · exact ok.2 ⟨_, Memory.string?_eq_some_encodeString.2 ⟨hsize, stored⟩,
      Text.Utf8.decodeString_encodeString e⟩
  · rw [ok, ← Memory.string?_eq_some_encodeString]
    simp only [Text.Utf8.decodeString_eq_iff he, exists_eq_right]
  · rw [if_neg outside] at read
    have mismatch : v.ok = false := by
      rw [← Bool.not_eq_true, ok]
      simp [read]
    obtain ⟨-, ps, shown, -, actual⟩ := fails mismatch
    have undecodable : ActualReturn.of (.str e) (.i32 p) (some m) = .outOfBounds p.toUInt32 := by
      simp only [ActualReturn.of, show m.string? p.toUInt32.toNat = none from read]
    exact ⟨mismatch, ps, shown, undecodable ▸ actual⟩

theorem judgeDirect_str_two_bytes :
    let m : Memory := ⟨#[7, 7, 2, 0, 0, 0, 0xC3, 0xA9, 9]⟩
    let cut : Memory := ⟨#[1, 0, 0, 0, 0xC3, 0xA9]⟩
    let judge := fun m p => (ReturnSpec.str "é").judgeDirect ⟨some (.i32 p), some m, "", none⟩
    m.Stores 2 "é" ∧ (judge m 2).ok = true ∧ (judge m 3).ok = false ∧ (judge m (-1)).ok = false ∧
      (judge cut 0).ok = false := by
  intro m cut judge
  have stored : m.Stores 2 "é" := by decide
  have found := (judgeDirect_str "é" "" m 2).2.1 (by decide) stored
  have long := ((judgeDirect_str "é" "" m 3).2.2.2.2 (by decide)).1
  have last := ((judgeDirect_str "é" "" m (-1)).2.2.2.2 (by decide)).1
  have other := (judgeDirect_str "é" "" cut 0).2.2.1 (by decide)
  refine ⟨stored, found, long, last, ?_⟩
  exact Bool.eq_false_iff.2 fun h => absurd (other.1 h).2 (by decide)

end ReturnSpec

theorem TestCase.ok_judgeImage_of_i32 [Engine] {test : TestCase} {image : Image} {entry : String}
    {v : Int32} {answer : Answer} {b : Int}
    (hret : test.ret = some (.i32 v)) (hinteger : answer.IsInteger b)
    (h : image.Answers entry answer) :
    (test.judgeImage entry image).1.ok = true ↔ v = Int32.ofInt b := by
  obtain ⟨value, failure⟩ := Guest.callDirect_of_answers h (ReturnSpec.i32 v).wantsMemory
  rw [Guest.narrow?_of_isInteger hinteger] at value
  have agrees := ((ReturnSpec.i32 v).judgeDirect_of_value failure value).1
  simp only [judgeImage, hret, agrees, ActualReturn.of, ReturnSpec.agrees, beq_iff_eq]

open Decimal (IntText)

/-- The decimal text of an integer of 64 bits is an expectation, which an integer that is returned
meets just if the two have the same remainder. The text of any other integer is none. -/
theorem judgeImage_of_intText [Engine] {before after t : List Char} {a : Int}
    (hbefore : Blank before) (hafter : Blank after) (ht : IntText t a) :
    let expectation := ReturnSpec.parse (before ++ (t ++ after))
    (¬ (-2 ^ 63 ≤ a ∧ a < 2 ^ 63) → expectation = none) ∧
    (-2 ^ 63 ≤ a ∧ a < 2 ^ 63 → expectation.isSome = true ∧
      ∀ (test : TestCase) (image : Image) (entry : String), test.ret = expectation →
        (∀ (answer : Answer) (b : Int), answer.IsInteger b → image.Answers entry answer →
          ((test.judgeImage entry image).1.ok = true ↔ a % 2 ^ 32 = b % 2 ^ 32)) ∧
        (image.Answers entry (.i64 a) → (test.judgeImage entry image).1.ok = true)) := by
  intro expectation
  have whole : Text.trim (before ++ (t ++ after)) = t :=
    (Text.trim_between hbefore hafter t).trans (trim_of_intText ht)
  have expects (spec : ReturnSpec) : expectation = some spec ↔
      (-2 ^ 63 ≤ a ∧ a < 2 ^ 63) ∧ spec = .i32 (Int32.ofInt a) := by
    rw [ReturnSpec.parse_eq_some_iff, whole, ReturnSpec.Expects.of_intText ht]
  refine ⟨fun outside => ?_, fun within => ?_⟩
  · rw [Option.eq_none_iff_forall_ne_some]
    exact fun spec h => outside ((expects spec).1 h).1
  · have narrowed := (expects _).2 ⟨within, rfl⟩
    refine ⟨Option.isSome_of_eq_some narrowed, fun test image entry hret => ?_⟩
    have judged (answer : Answer) (b : Int) (hinteger : answer.IsInteger b)
        (h : image.Answers entry answer) :
        (test.judgeImage entry image).1.ok = true ↔ a % 2 ^ 32 = b % 2 ^ 32 := by
      rw [TestCase.ok_judgeImage_of_i32 (hret.trans narrowed) hinteger h, ofInt_eq_iff]
    exact ⟨judged, fun h => (judged _ a .i64 h).2 rfl⟩

theorem judgeImage_of_intText_minus_one :
    let program : Int → Image := fun n => .ok ⟨[], none, [], [("main", ⟨[], [], .i64 n⟩)], []⟩
    let expectation := ReturnSpec.parse ([' '] ++ ("-0001".toList ++ ['\t']))
    let test : TestCase := ⟨.fencedBlock, "doc.n.md", "nmd:doc.n.md:0", 1, ⟨[]⟩, none, none, none,
      expectation, ""⟩
    Blank [' '] ∧ Blank ['\t'] ∧ IntText "-0001".toList (-1) ∧
      (program 4294967295).Answers "main" (.i64 4294967295) ∧
      (test.judgeImage "main" (program 4294967295)).1.ok = true ∧
      (program 4294967296).Answers "main" (.i64 4294967296) ∧
      (test.judgeImage "main" (program 4294967296)).1.ok = false ∧
      ReturnSpec.parse ([' '] ++ ("9223372036854775808".toList ++ ['\t'])) = none := by
  intro program expectation test
  have before : Blank [' '] := by decide
  have after : Blank ['\t'] := by decide
  have minus : IntText "-0001".toList (-1) := Decimal.int?_eq_some_iff.1 (by decide)
  have wide : IntText "9223372036854775808".toList 9223372036854775808 :=
    Decimal.int?_eq_some_iff.1 (by decide)
  have answers (n : Int) : (program n).Answers "main" (.i64 n) := .module rfl rfl rfl rfl
  have judged := ((judgeImage_of_intText before after minus).2 (by decide)).2 test
  have low := ((judged _ _ rfl).1 _ _ .i64 (answers 4294967295)).2 (by decide)
  have next := ((judged _ _ rfl).1 _ _ .i64 (answers 4294967296)).1
  refine ⟨before, after, minus, answers _, low, answers _, ?_,
    (judgeImage_of_intText before after wide).1 (by decide)⟩
  exact Bool.eq_false_iff.2 fun h => absurd (next h) (by decide)

end Doctest
