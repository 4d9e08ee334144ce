import Doctest.Proofs.Text.Sequence

namespace Doctest.Text.Escape

/-- No complete sequence begins anywhere in the text. -/
def Clean (s : List Char) : Prop := ∀ t, t <:+ s → afterSequence? t = none

theorem Clean.of_suffix {s t : List Char} (hs : Clean s) (ht : t <:+ s) : Clean t :=
  fun _ hu => hs _ (hu.trans ht)

theorem clean_of_not_mem {s : List Char} (h : esc ∉ s) : Clean s := by
  intro t ht
  fun_cases afterSequence? t with
  | case1 => exact absurd (ht.subset List.mem_cons_self) h
  | case2 => exact absurd (ht.subset List.mem_cons_self) h
  | case3 => rfl

theorem strip_of_clean {s : List Char} (h : Clean s) : strip s = s := by
  induction s with
  | nil => exact strip_nil
  | cons c s ih =>
    rw [strip_cons_of_none (h _ List.suffix_rfl), ih (h.of_suffix (List.suffix_cons c s))]

theorem afterSequence?_append {s rest : List Char} (h : afterSequence? s = some rest)
    (u : List Char) : afterSequence? (s ++ u) = some (rest ++ u) := by
  obtain ⟨q, hq, rfl⟩ := afterSequence?_eq_some_iff.1 h
  exact afterSequence?_eq_some_iff.2 ⟨q, hq, List.append_assoc ..⟩

theorem Clean.of_prefix {s t : List Char} (hs : Clean s) (ht : t <+: s) : Clean t := by
  intro v hv
  obtain ⟨u, rfl⟩ := ht
  have whole : afterSequence? (v ++ u) = none := by
    obtain ⟨w, rfl⟩ := hv
    exact hs _ ⟨w, by rw [List.append_assoc]⟩
  cases hseq : afterSequence? v with
  | none => rfl
  | some rest => simp [afterSequence?_append hseq] at whole

end Doctest.Text.Escape
