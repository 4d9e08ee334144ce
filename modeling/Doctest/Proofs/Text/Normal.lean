import Doctest.Normal
import Doctest.Proofs.Text.Escape
import Doctest.Proofs.Text.Lines

namespace Doctest

open Text (unifyLineEnds dropFinalLf not_mem_unifyLineEnds unifyLineEnds_of_not_mem)
open Text.Escape (Clean esc strip strip_nil strip_of_clean strip_of_afterSequence?
  strip_cons_of_none clean_of_not_mem)

namespace Text

theorem unifyLineEnds_cons {c : Char} {s : List Char}
    (h : ∀ t, c = '\r' → s = '\n' :: t → False) :
    unifyLineEnds (c :: s) = (if c = '\r' then '\n' else c) :: unifyLineEnds s := by
  rw [unifyLineEnds]
  exact h

theorem cons_of_unifyLineEnds {s t : List Char} {c : Char} (hc : c ≠ '\n')
    (h : unifyLineEnds s = c :: t) : ∃ u, s = c :: u ∧ unifyLineEnds u = t := by
  fun_cases unifyLineEnds s with
  | case1 => cases h
  | case2 s => exact absurd (List.cons.inj h).1.symm hc
  | case3 d s hcr =>
    rw [unifyLineEnds_cons hcr] at h
    obtain ⟨hd, rfl⟩ := List.cons.inj h
    split at hd
    · exact absurd hd.symm hc
    · exact ⟨s, by rw [hd], rfl⟩

theorem suffix_unifyLineEnds {s t : List Char} (h : t <:+ unifyLineEnds s) :
    ∃ u, u <:+ s ∧ unifyLineEnds u = t := by
  fun_induction unifyLineEnds s with
  | case1 => exact ⟨[], List.suffix_rfl, (List.suffix_nil.1 h).symm⟩
  | case2 s ih =>
    obtain rfl | h := List.suffix_cons_iff.1 h
    · exact ⟨_, List.suffix_rfl, rfl⟩
    · obtain ⟨u, hu, rfl⟩ := ih h
      exact ⟨u, (hu.trans (List.suffix_cons _ s)).trans (List.suffix_cons _ _), rfl⟩
  | case3 c s hcr ih =>
    obtain rfl | h := List.suffix_cons_iff.1 h
    · exact ⟨c :: s, List.suffix_rfl, unifyLineEnds_cons hcr⟩
    · obtain ⟨u, hu, rfl⟩ := ih h
      exact ⟨u, hu.trans (List.suffix_cons c s), rfl⟩

theorem dropWhile_unifyLineEnds {p : Char → Bool} (hp : p '\r' = p '\n') (s : List Char) :
    (unifyLineEnds s).dropWhile p = unifyLineEnds (s.dropWhile p) := by
  -- What goes by characters that no line end is, or by such that each is, sees no difference.
  fun_induction unifyLineEnds s with
  | case1 => rfl
  | case2 s ih =>
    cases hlf : p '\n' <;> simp [hp, hlf, ih, unifyLineEnds]
  | case3 c s hcr ih =>
    have head : p (if c = '\r' then '\n' else c) = p c := by
      split
      · next h => rw [h, hp]
      · rfl
    rw [List.dropWhile_cons, List.dropWhile_cons, head]
    split
    · exact ih
    · exact (unifyLineEnds_cons hcr).symm

theorem dropFinalLf_concat (s : List Char) : dropFinalLf (s ++ ['\n']) = s := by
  simp [dropFinalLf]

theorem dropFinalLf_eq_self_iff {s : List Char} :
    dropFinalLf s = s ↔ ¬ ['\n'] <:+ s := by
  constructor
  · rintro h ⟨t, rfl⟩
    rw [dropFinalLf_concat] at h
    simpa using congrArg List.length h
  · intro h
    rw [dropFinalLf, if_neg]
    intro hlast
    obtain ⟨t, rfl⟩ := List.getLast?_eq_some_iff.1 hlast
    exact h (List.suffix_append t ['\n'])

theorem dropFinalLf_prefix (s : List Char) : dropFinalLf s <+: s := by
  rw [dropFinalLf]
  split
  · exact List.dropLast_prefix s
  · exact List.prefix_rfl

theorem suffix_dropFinalLf_iff {s : List Char} :
    ['\n'] <:+ dropFinalLf s ↔ ['\n', '\n'] <:+ s := by
  by_cases h : ['\n'] <:+ s
  · obtain ⟨t, rfl⟩ := h
    rw [dropFinalLf_concat]
    have two : ['\n', '\n'] = ['\n'] ++ ['\n'] := rfl
    rw [two, List.suffix_append_inj_of_length_eq rfl]
    exact (and_iff_left rfl).symm
  · rw [dropFinalLf_eq_self_iff.2 h]
    have shorter : ['\n'] <:+ ['\n', '\n'] := List.suffix_cons _ _
    exact ⟨fun one => absurd one h, fun both => absurd (shorter.trans both) h⟩

namespace Escape

theorem afterControl?_of_unifyLineEnds {s : List Char}
    (h : (afterControl? (unifyLineEnds s)).isSome) : (afterControl? s).isSome := by
  rw [afterControl?, dropWhile_unifyLineEnds (by decide), dropWhile_unifyLineEnds (by decide)] at h
  rw [afterControl?]
  split at h
  · next c t hdrop =>
    have hfinal : isFinal c = true := by
      cases hc : isFinal c with
      | true => rfl
      | false => simp [hc] at h
    have hc : c ≠ '\n' := by
      rintro rfl
      revert hfinal
      decide
    obtain ⟨u, hu, _⟩ := cons_of_unifyLineEnds hc hdrop
    simp [hu, hfinal]
  · cases h

theorem afterCommand?_of_unifyLineEnds {s : List Char}
    (h : (afterCommand? (unifyLineEnds s)).isSome) : (afterCommand? s).isSome := by
  rw [afterCommand?, dropWhile_unifyLineEnds (by decide)] at h
  rw [afterCommand?]
  split at h
  · next t hdrop =>
    obtain ⟨u, hu, _⟩ := cons_of_unifyLineEnds (by decide) hdrop
    rw [hu]
    rfl
  · next t hdrop =>
    obtain ⟨u, hu, hrest⟩ := cons_of_unifyLineEnds (by decide) hdrop
    obtain ⟨v, rfl, _⟩ := cons_of_unifyLineEnds (by decide) hrest
    rw [hu]
    rfl
  · cases h

theorem afterSequence?_of_unifyLineEnds {s : List Char}
    (h : (afterSequence? (unifyLineEnds s)).isSome) : (afterSequence? s).isSome := by
  generalize hs : unifyLineEnds s = t at h
  simp only [afterSequence?] at h
  split at h
  · obtain ⟨u, rfl, hu⟩ := cons_of_unifyLineEnds (by decide) hs
    obtain ⟨v, rfl, rfl⟩ := cons_of_unifyLineEnds (by decide) hu
    exact afterControl?_of_unifyLineEnds h
  · obtain ⟨u, rfl, hu⟩ := cons_of_unifyLineEnds (by decide) hs
    obtain ⟨v, rfl, rfl⟩ := cons_of_unifyLineEnds (by decide) hu
    exact afterCommand?_of_unifyLineEnds h
  · cases h

theorem Clean.unifyLineEnds {s : List Char} (h : Clean s) : Clean (unifyLineEnds s) := by
  intro t ht
  obtain ⟨u, hu, rfl⟩ := suffix_unifyLineEnds ht
  cases hseq : afterSequence? (Text.unifyLineEnds u) with
  | none => rfl
  | some rest =>
    have found := afterSequence?_of_unifyLineEnds (s := u) (by rw [hseq]; rfl)
    rw [h u hu] at found
    cases found

end Escape

end Text

theorem clean_normalizeNewlines {s : List Char} (h : Clean s) : Clean (normalizeNewlines s) :=
  h.unifyLineEnds.of_prefix (Text.dropFinalLf_prefix _)

theorem not_mem_normalizeNewlines (s : List Char) : '\r' ∉ normalizeNewlines s := fun h =>
  not_mem_unifyLineEnds s ((Text.dropFinalLf_prefix _).subset h)

theorem normalizeNewlines_normalizeNewlines (s : List Char) :
    normalizeNewlines (normalizeNewlines s) = dropFinalLf (normalizeNewlines s) := by
  rw [normalizeNewlines, unifyLineEnds_of_not_mem (not_mem_normalizeNewlines s)]

/-- Where stripping leaves no escape sequence over, normalizing again takes away one more LF at the
end and nothing else. -/
theorem normalize_normalize (a : Attributes) (s : List Char)
    (h : a.has .stripAnsi = true → Clean (strip s)) :
    a.normalize (a.normalize s) =
        (if a.has .normalizeNewlines then dropFinalLf (a.normalize s) else a.normalize s) ∧
      (a.normalize (a.normalize s) = a.normalize s ↔ (a.has .normalizeNewlines = true →
        ¬ ['\n', '\n'] <:+ unifyLineEnds (if a.has .stripAnsi then strip s else s))) := by
  generalize hstripped : (if a.has .stripAnsi then strip s else s) = stripped
  have once : a.normalize s =
      if a.has .normalizeNewlines then normalizeNewlines stripped else stripped := by
    rw [← hstripped]
    rfl
  have kept : (if a.has .stripAnsi then strip (a.normalize s) else a.normalize s) =
      a.normalize s := by
    split
    · next hstrip =>
      rw [if_pos hstrip] at hstripped
      have clean : Clean stripped := hstripped ▸ h hstrip
      rw [once]
      split
      · exact strip_of_clean (clean_normalizeNewlines clean)
      · exact strip_of_clean clean
    · rfl
  have twice : a.normalize (a.normalize s) =
      if a.has .normalizeNewlines then dropFinalLf (a.normalize s) else a.normalize s := by
    rw [Attributes.normalize, kept]
    split
    · next hnewlines => rw [once, if_pos hnewlines, normalizeNewlines_normalizeNewlines]
    · rfl
  refine ⟨twice, ?_⟩
  rw [twice]
  by_cases hnewlines : a.has .normalizeNewlines = true
  · rw [if_pos hnewlines, once, if_pos hnewlines, Text.dropFinalLf_eq_self_iff, normalizeNewlines,
      Text.suffix_dropFinalLf_iff]
    exact ⟨fun hends _ => hends, fun hends => hends hnewlines⟩
  · simp [hnewlines]

theorem normalize_normalize_colored :
    let a : Attributes := ⟨["normalize_newlines", "strip_ansi"]⟩
    let s := "\x1b[31mhi\r\n\n".toList
    (a.has .stripAnsi = true → Clean (strip s)) ∧
      a.normalize (a.normalize s) = dropFinalLf (a.normalize s) ∧
      a.normalize (a.normalize s) ≠ a.normalize s := by
  intro a s
  have stripped : strip s = "hi\r\n\n".toList := by
    have rest : Clean "hi\r\n\n".toList := clean_of_not_mem (by decide)
    exact (strip_of_afterSequence? rfl).trans (strip_of_clean rest)
  have clean : Clean (strip s) := by
    rw [stripped]
    exact clean_of_not_mem (by decide)
  obtain ⟨twice, same⟩ := normalize_normalize a s fun _ => clean
  refine ⟨fun _ => clean, twice, fun h => ?_⟩
  have ends : ¬['\n', '\n'] <:+ unifyLineEnds (strip s) := same.1 h rfl
  rw [stripped] at ends
  exact ends ⟨"hi".toList, by decide⟩

/-- A second LF at the end goes the second time, and so does a sequence that comes about where
another one was taken out. -/
theorem normalize_not_idempotent :
    let newlines : Attributes := ⟨["normalize_newlines"]⟩
    let ansi : Attributes := ⟨["strip_ansi"]⟩
    let s := "a\n\n".toList
    let t := "\x1b\x1b[m[m".toList
    newlines.normalize (newlines.normalize s) ≠ newlines.normalize s ∧
      ansi.normalize (ansi.normalize t) ≠ ansi.normalize t := by
  intro newlines ansi s t
  refine ⟨by decide, ?_⟩
  have once : strip t = "\x1b[m".toList := by
    have rest : Clean "[m".toList := clean_of_not_mem (by decide)
    have inner : strip "\x1b[m[m".toList = "[m".toList :=
      (strip_of_afterSequence? rfl).trans (strip_of_clean rest)
    exact (strip_cons_of_none rfl).trans (congrArg (esc :: ·) inner)
  have twice : strip "\x1b[m".toList = [] := (strip_of_afterSequence? rfl).trans strip_nil
  have normalized (u : List Char) : ansi.normalize u = strip u := rfl
  rw [normalized, normalized, once, twice]
  decide

end Doctest
