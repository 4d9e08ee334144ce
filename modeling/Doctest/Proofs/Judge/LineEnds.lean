import Doctest.Judge
import Doctest.Proofs.Text.Normal

namespace Doctest

namespace Text

/-- Each occurrence of a text, which is not empty, gives way to another one, from left to right. -/
def replaceAll (old new : List Char) (s : List Char) : List Char :=
  match s with
  | [] => []
  | c :: s =>
    if old <+: c :: s then new ++ replaceAll old new (s.drop (old.length - 1))
    else c :: replaceAll old new s
termination_by s.length

theorem replaceAll_append {old : List Char} (hne : old ≠ []) (new s : List Char) :
    replaceAll old new (old ++ s) = new ++ replaceAll old new s := by
  obtain ⟨c, old, rfl⟩ := List.exists_cons_of_ne_nil hne
  have found : c :: old <+: c :: (old ++ s) := List.prefix_append (c :: old) s
  have behind : (old ++ s).drop ((c :: old).length - 1) = s := by simp
  rw [List.cons_append, replaceAll, if_pos found, behind]

theorem replaceAll_cons {old : List Char} {c : Char} {s : List Char} (h : ¬ old <+: c :: s)
    (new : List Char) : replaceAll old new (c :: s) = c :: replaceAll old new s := by
  rw [replaceAll, if_neg h]

def onlyLf (s : List Char) : List Char :=
  replaceAll ['\r'] ['\n'] (replaceAll ['\r', '\n'] ['\n'] s)

theorem onlyLf_eq_unifyLineEnds (s : List Char) : onlyLf s = unifyLineEnds s := by
  fun_induction unifyLineEnds s with
  | case1 => simp [onlyLf, replaceAll]
  | case2 s ih =>
    have pair := replaceAll_append (List.cons_ne_nil '\r' ['\n']) ['\n'] s
    have kept : ¬ ['\r'] <+: '\n' :: replaceAll ['\r', '\n'] ['\n'] s := by
      simp [List.cons_prefix_cons]
    calc
      onlyLf ('\r' :: '\n' :: s)
        = replaceAll ['\r'] ['\n'] ('\n' :: replaceAll ['\r', '\n'] ['\n'] s) :=
          congrArg (replaceAll ['\r'] ['\n']) pair
      _ = '\n' :: onlyLf s := replaceAll_cons kept ['\n']
      _ = '\n' :: unifyLineEnds s := by rw [ih]
  | case3 c s hcrlf ih =>
    have single : ¬ ['\r', '\n'] <+: c :: s := by
      rintro ⟨t, ht⟩
      obtain ⟨rfl, rfl⟩ := List.cons.inj ht
      exact hcrlf t rfl rfl
    rw [onlyLf, replaceAll_cons single, ← ih]
    split
    · next hcr =>
      rw [hcr]
      exact replaceAll_append (List.cons_ne_nil '\r' []) ['\n'] _
    · next hcr =>
      have kept : ¬ ['\r'] <+: c :: replaceAll ['\r', '\n'] ['\n'] s := by
        simpa [List.cons_prefix_cons] using Ne.symm hcr
      exact replaceAll_cons kept ['\n']

def SameButFinalLf (s t : List Char) : Prop :=
  s = t ∨ s = t ++ ['\n'] ∧ ¬ ['\n'] <:+ t ∨ t = s ++ ['\n'] ∧ ¬ ['\n'] <:+ s

instance (s t : List Char) : Decidable (SameButFinalLf s t) :=
  inferInstanceAs (Decidable (_ ∨ _))

theorem dropFinalLf_eq_iff {s t : List Char} :
    dropFinalLf s = dropFinalLf t ↔ SameButFinalLf s t := by
  constructor
  · intro h
    by_cases hs : ['\n'] <:+ s
    · obtain ⟨u, rfl⟩ := hs
      rw [dropFinalLf_concat] at h
      by_cases ht : ['\n'] <:+ t
      · obtain ⟨v, rfl⟩ := ht
        rw [dropFinalLf_concat] at h
        exact .inl (by rw [h])
      · rw [dropFinalLf_eq_self_iff.2 ht] at h
        exact .inr (.inl ⟨by rw [h], ht⟩)
    · rw [dropFinalLf_eq_self_iff.2 hs] at h
      by_cases ht : ['\n'] <:+ t
      · obtain ⟨v, rfl⟩ := ht
        rw [dropFinalLf_concat] at h
        exact .inr (.inr ⟨by rw [h], hs⟩)
      · rw [dropFinalLf_eq_self_iff.2 ht] at h
        exact .inl h
  · rintro (rfl | ⟨rfl, ht⟩ | ⟨rfl, hs⟩)
    · rfl
    · rw [dropFinalLf_concat, dropFinalLf_eq_self_iff.2 ht]
    · rw [dropFinalLf_concat, dropFinalLf_eq_self_iff.2 hs]

end Text

open Guest (SandboxOutcome)
open Text (onlyLf SameButFinalLf)

theorem normalizeNewlines_eq_iff {s t : List Char} :
    normalizeNewlines s = normalizeNewlines t ↔ SameButFinalLf (onlyLf s) (onlyLf t) := by
  rw [Text.onlyLf_eq_unifyLineEnds, Text.onlyLf_eq_unifyLineEnds]
  exact Text.dropFinalLf_eq_iff

theorem normalizeString_of_newlines {a : Attributes} (hnewlines : a.has .normalizeNewlines = true)
    (hansi : a.has .stripAnsi = false) (s : String) :
    a.normalizeString s = String.ofList (normalizeNewlines s.toList) := by
  rw [Attributes.normalizeString, Attributes.normalize, hansi, hnewlines]
  rfl

theorem TestCase.judgeSandboxed_of_stdout {t : TestCase} {e : String}
    (hpanic : t.attributes.has .shouldPanic = false) (hstdout : t.stdout = some e)
    (hstderr : t.stderr = none) (o : SandboxOutcome) :
    let expected := t.attributes.normalizeString e
    let actual := t.attributes.normalizeString o.stdout
    t.judgeSandboxed o =
      if expected = actual then .pass "ok"
      else { Verdict.fail "stdout mismatch" with
        payloads := some ⟨.ofStdout expected, .ofStdout actual⟩ } := by
  intro expected actual
  have compared : mismatch? t.attributes .ofStdout t.stdout o.stdout =
      if expected = actual then none else some ⟨.ofStdout expected, .ofStdout actual⟩ := by
    rw [hstdout]
    rfl
  have quiet : mismatch? t.attributes .ofStderr t.stderr o.stderr = none := by
    rw [hstderr]
    rfl
  rw [judgeSandboxed, hpanic, compared, quiet]
  by_cases h : expected = actual
  · simp [h, hstdout]
  · simp [h]

/-- A test that asks for one kind of line ends, and expects nothing but a text on standard output,
passes just if that text and the captured one are the same with LF for every line end, but for an LF
at the end that only one of them has. Else it shows both texts, without CR, and they differ. -/
theorem TestCase.judgeSandboxed_newlines {t : TestCase} {e : String}
    (hnewlines : t.attributes.has .normalizeNewlines = true)
    (hansi : t.attributes.has .stripAnsi = false)
    (hpanic : t.attributes.has .shouldPanic = false) (hstdout : t.stdout = some e)
    (hstderr : t.stderr = none) (o : SandboxOutcome) :
    let v := t.judgeSandboxed o
    (v.ok = true ↔ SameButFinalLf (onlyLf e.toList) (onlyLf o.stdout.toList)) ∧
      (v.ok = false → v.reason = "stdout mismatch" ∧
        ∃ x y : String, v.payloads = some ⟨.ofStdout x, .ofStdout y⟩ ∧
          '\r' ∉ x.toList ∧ '\r' ∉ y.toList ∧ x ≠ y) := by
  intro v
  let expected := t.attributes.normalizeString e
  let actual := t.attributes.normalizeString o.stdout
  have judged : v = if expected = actual then .pass "ok"
      else { Verdict.fail "stdout mismatch" with
        payloads := some ⟨.ofStdout expected, .ofStdout actual⟩ } :=
    judgeSandboxed_of_stdout hpanic hstdout hstderr o
  have same : expected = actual ↔ SameButFinalLf (onlyLf e.toList) (onlyLf o.stdout.toList) := by
    rw [← normalizeNewlines_eq_iff, ← String.ofList_inj]
    simp only [expected, actual, normalizeString_of_newlines hnewlines hansi]
  have unified (s : String) : '\r' ∉ (t.attributes.normalizeString s).toList := by
    rw [normalizeString_of_newlines hnewlines hansi, String.toList_ofList]
    exact not_mem_normalizeNewlines s.toList
  rw [← same, judged]
  by_cases h : expected = actual
  · simp [h, Verdict.pass]
  · rw [if_neg h]
    refine ⟨iff_of_false Bool.false_ne_true h, fun _ => ⟨rfl, expected, actual, rfl, ?_⟩⟩
    exact ⟨unified e, unified o.stdout, h⟩

theorem TestCase.judgeSandboxed_newlines_final :
    let t : TestCase := ⟨.fencedBlock, "doc.n.md", "nmd:doc.n.md:0", 1, ⟨["normalize_newlines"]⟩,
      none, some "a\r\n", none, none, ""⟩
    t.attributes.has .normalizeNewlines = true ∧ t.attributes.has .stripAnsi = false ∧
      t.attributes.has .shouldPanic = false ∧
      (t.judgeSandboxed ⟨3, "a", "warning", none⟩).ok = true ∧
      (t.judgeSandboxed ⟨0, "a\r\r\n", "", none⟩).ok = false := by
  intro t
  have passes := (judgeSandboxed_newlines (t := t) (e := "a\r\n") (by decide) (by decide)
    (by decide) rfl rfl ⟨3, "a", "warning", none⟩).1
  have fails := (judgeSandboxed_newlines (t := t) (e := "a\r\n") (by decide) (by decide)
    (by decide) rfl rfl ⟨0, "a\r\r\n", "", none⟩).1
  simp only [Text.onlyLf_eq_unifyLineEnds] at passes fails
  refine ⟨by decide, by decide, by decide, passes.2 (by decide), ?_⟩
  exact Bool.eq_false_iff.2 fun h => absurd (fails.1 h) (by decide)

end Doctest
