import Doctest.Document.Section
import Doctest.Proofs.Text.Span

namespace Doctest.Document

open Text (Line dropWhile_append_of_head dropWhile_append_stop takeWhile_append_of_head
  takeWhile_append_stop)

variable {α : Type}

theorem takeWhile_drop {p : α → Bool} {as : List α} {n : Nat}
    (h : n ≤ (as.takeWhile p).length) : (as.drop n).takeWhile p = (as.takeWhile p).drop n := by
  induction as generalizing n with
  | nil => simp
  | cons a as ih =>
    cases n with
    | zero => rfl
    | succ n =>
      by_cases ha : p a = true
      · rw [List.takeWhile_cons_of_pos ha] at h ⊢
        exact ih (Nat.le_of_succ_le_succ h)
      · rw [List.takeWhile_cons_of_neg ha] at h
        cases h

theorem fencedSections_nil (n : Nat) : fencedSections n [] = .ok [] := by
  rw [fencedSections]

theorem fencedSections_pass {l : Line} (h : declaration? (Text.trimEnd l) = none) (n : Nat)
    (ls : List Line) : fencedSections n (l :: ls) = fencedSections (n + 1) ls := by
  rw [fencedSections, h]

theorem isFence_of_opensFence {l : Line} (h : opensFence l = true) : isFence l = true := by
  rw [opensFence] at h
  split at h
  · next rest hrest =>
    rw [isFence, Text.after?_eq_some.1 hrest, List.isPrefixOf_iff_prefix]
    exact List.prefix_append fenceMark rest
  · cases h

theorem fencedSections_open {declaration fence : Line} {attributes : Attributes}
    {metadata code after : List Line}
    (hdeclaration : declaration? (Text.trimEnd declaration) = some attributes)
    (hmetadata : ∀ l ∈ metadata, isFence l = false) (hfence : opensFence fence = true)
    (hcode : ∀ l ∈ code, isFence l = false) (hafter : ∀ l ∈ after.head?, isFence l = true) (n : Nat) :
    fencedSections n (declaration :: (metadata ++ fence :: (code ++ after))) =
      (⟨n, attributes, metadata, Text.joinLines (code.map reveal)⟩ :: ·) <$>
        fencedSections (n + 1 + metadata.length + 1 + code.length + 1) (after.drop 1) := by
  have stop {l : Line} (h : isFence l = true) : (!isFence l) = false := by rw [h]; rfl
  have go {ls : List Line} (h : ∀ l ∈ ls, isFence l = false) : ∀ l ∈ ls, (!isFence l) = true :=
    fun l hl => by rw [h l hl]; rfl
  have opened := stop (isFence_of_opensFence hfence)
  have closed := fun l hl => stop (hafter l hl)
  rw [fencedSections, hdeclaration]
  simp only
  split
  · next h =>
    rw [dropWhile_append_stop (go hmetadata) opened] at h
    cases h
  · next found body h =>
    rw [dropWhile_append_stop (go hmetadata) opened, List.cons.injEq] at h
    obtain ⟨rfl, rfl⟩ := h
    rw [if_pos hfence, takeWhile_append_stop (go hmetadata) opened,
      takeWhile_append_of_head (go hcode) closed, dropWhile_append_of_head (go hcode) closed]

theorem fencedSections_take {declaration fence closing : Line} {attributes : Attributes}
    {metadata code : List Line}
    (hdeclaration : declaration? (Text.trimEnd declaration) = some attributes)
    (hmetadata : ∀ l ∈ metadata, isFence l = false) (hfence : opensFence fence = true)
    (hcode : ∀ l ∈ code, isFence l = false) (hclosing : isFence closing = true) (n : Nat)
    (rest : List Line) :
    fencedSections n (declaration :: (metadata ++ fence :: (code ++ closing :: rest))) =
      (⟨n, attributes, metadata, Text.joinLines (code.map reveal)⟩ :: ·) <$>
        fencedSections (n + 1 + metadata.length + 1 + code.length + 1) rest :=
  @fencedSections_open _ _ _ _ _ (closing :: rest) hdeclaration hmetadata hfence hcode
    (by rintro _ ⟨⟩; exact hclosing) n

end Doctest.Document
