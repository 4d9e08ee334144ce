import Doctest.Proofs.Text.Span
import Doctest.Text.Escape
import Mathlib.Data.List.TakeWhile

namespace Doctest.Text.Escape

/-- The complete sequences. The text of an operating system command may hold any other character,
line ends too. -/
inductive IsSequence : List Char → Prop
  | control {parameters intermediates : List Char} {final : Char} :
      (∀ c ∈ parameters, isParameter c = true) →
      (∀ c ∈ intermediates, isIntermediate c = true) → isFinal final = true →
      IsSequence (esc :: '[' :: (parameters ++ (intermediates ++ [final])))
  | command {body closing : List Char} :
      (∀ c ∈ body, c ≠ bel ∧ c ≠ esc) → closing = [bel] ∨ closing = [esc, '\\'] →
      IsSequence (esc :: ']' :: (body ++ closing))

theorem bounds_of_isParameter {c : Char} (h : isParameter c = true) :
    0x30 ≤ c.toNat ∧ c.toNat ≤ 0x3F := by
  simp only [isParameter, Bool.or_eq_true, Bool.and_eq_true, decide_eq_true_eq, beq_iff_eq] at h
  obtain (⟨lower, upper⟩ | rfl) | rfl := h
  · exact ⟨lower, Nat.le_trans upper (by decide)⟩
  · decide
  · decide

theorem bounds_of_isIntermediate {c : Char} (h : isIntermediate c = true) :
    0x20 ≤ c.toNat ∧ c.toNat ≤ 0x2F := by
  simp only [isIntermediate, Bool.and_eq_true, decide_eq_true_eq] at h
  exact h

theorem bounds_of_isFinal {c : Char} (h : isFinal c = true) :
    0x40 ≤ c.toNat ∧ c.toNat ≤ 0x7E := by
  simp only [isFinal, Bool.and_eq_true, decide_eq_true_eq] at h
  exact h

theorem isParameter_of_isIntermediate {c : Char} (h : isIntermediate c = true) :
    isParameter c = false := by
  refine Bool.eq_false_iff.2 fun hc => ?_
  have lower := bounds_of_isParameter hc
  have upper := bounds_of_isIntermediate h
  omega

theorem isParameter_of_isFinal {c : Char} (h : isFinal c = true) : isParameter c = false := by
  refine Bool.eq_false_iff.2 fun hc => ?_
  have upper := bounds_of_isParameter hc
  have lower := bounds_of_isFinal h
  omega

theorem isIntermediate_of_isFinal {c : Char} (h : isFinal c = true) :
    isIntermediate c = false := by
  refine Bool.eq_false_iff.2 fun hc => ?_
  have upper := bounds_of_isIntermediate hc
  have lower := bounds_of_isFinal h
  omega

theorem afterControl?_eq_some_iff {s rest : List Char} :
    afterControl? s = some rest ↔ ∃ parameters intermediates final,
      (∀ c ∈ parameters, isParameter c = true) ∧
      (∀ c ∈ intermediates, isIntermediate c = true) ∧ isFinal final = true ∧
      s = parameters ++ (intermediates ++ final :: rest) := by
  constructor
  · intro h
    rw [afterControl?] at h
    split at h
    · next final rest' hdrop =>
      split at h
      · next hfinal =>
        obtain rfl := Option.some.inj h
        refine ⟨s.takeWhile isParameter, (s.dropWhile isParameter).takeWhile isIntermediate, final,
          fun _ => List.mem_takeWhile_imp, fun _ => List.mem_takeWhile_imp, hfinal, ?_⟩
        rw [← hdrop, List.takeWhile_append_dropWhile, List.takeWhile_append_dropWhile]
      · cases h
    · cases h
  · rintro ⟨parameters, intermediates, final, hparameters, hintermediates, hfinal, rfl⟩
    have stop : ∀ c ∈ (intermediates ++ final :: rest).head?, isParameter c = false := by
      cases intermediates with
      | nil =>
        rintro _ ⟨⟩
        exact isParameter_of_isFinal hfinal
      | cons c cs =>
        rintro _ ⟨⟩
        exact isParameter_of_isIntermediate (hintermediates c List.mem_cons_self)
    rw [afterControl?, dropWhile_append_of_head hparameters stop,
      dropWhile_append_stop hintermediates (isIntermediate_of_isFinal hfinal)]
    exact if_pos hfinal

theorem afterCommand?_eq_some_iff {s rest : List Char} :
    afterCommand? s = some rest ↔ ∃ body closing, (∀ c ∈ body, c ≠ bel ∧ c ≠ esc) ∧
      (closing = [bel] ∨ closing = [esc, '\\']) ∧ s = body ++ (closing ++ rest) := by
  constructor
  · intro h
    let inBody (c : Char) : Bool := decide (c ≠ bel ∧ c ≠ esc)
    have whole : s.takeWhile inBody ++ s.dropWhile inBody = s := List.takeWhile_append_dropWhile
    have body : ∀ c ∈ s.takeWhile inBody, c ≠ bel ∧ c ≠ esc := by
      intro c hc
      have kept : inBody c = true := List.mem_takeWhile_imp hc
      exact of_decide_eq_true kept
    rw [afterCommand?] at h
    split at h
    · next rest hdrop =>
      obtain rfl := Option.some.inj h
      rw [hdrop] at whole
      exact ⟨_, [bel], body, .inl rfl, whole.symm⟩
    · next rest hdrop =>
      obtain rfl := Option.some.inj h
      rw [hdrop] at whole
      exact ⟨_, [esc, '\\'], body, .inr rfl, whole.symm⟩
    · cases h
  · rintro ⟨body, closing, hbody, hclosing, rfl⟩
    rw [afterCommand?, List.dropWhile_append_of_pos fun c hc => decide_eq_true (hbody c hc)]
    obtain rfl | rfl := hclosing
    · rfl
    · rfl

theorem afterSequence?_eq_some_iff {s rest : List Char} :
    afterSequence? s = some rest ↔ ∃ q, IsSequence q ∧ s = q ++ rest := by
  constructor
  · intro h
    simp only [afterSequence?] at h
    split at h
    · obtain ⟨parameters, intermediates, final, hp, hi, hf, rfl⟩ := afterControl?_eq_some_iff.1 h
      exact ⟨_, .control hp hi hf, by simp [esc]⟩
    · obtain ⟨body, closing, hbody, hclosing, rfl⟩ := afterCommand?_eq_some_iff.1 h
      exact ⟨_, .command hbody hclosing, by simp [esc]⟩
    · cases h
  · rintro ⟨q, hq, rfl⟩
    cases hq with
    | control hp hi hf =>
      exact afterControl?_eq_some_iff.2 ⟨_, _, _, hp, hi, hf, by simp⟩
    | command hbody hclosing =>
      exact afterCommand?_eq_some_iff.2 ⟨_, _, hbody, hclosing, by simp⟩

theorem afterSequence?_eq_none_iff {s : List Char} :
    afterSequence? s = none ↔ ∀ q, IsSequence q → ¬ q <+: s := by
  constructor
  · rintro h q hq ⟨rest, rfl⟩
    rw [afterSequence?_eq_some_iff.2 ⟨q, hq, rfl⟩] at h
    cases h
  · intro h
    refine Option.eq_none_iff_forall_ne_some.2 fun rest hrest => ?_
    obtain ⟨q, hq, rfl⟩ := afterSequence?_eq_some_iff.1 hrest
    exact h q hq (List.prefix_append q rest)

theorem IsSequence.eq_of_prefix {p q s : List Char} (hp : IsSequence p) (hq : IsSequence q)
    (hps : p <+: s) (hqs : q <+: s) : p = q := by
  obtain ⟨t, rfl⟩ := hps
  obtain ⟨u, hu⟩ := hqs
  have first : afterSequence? (p ++ t) = some t := afterSequence?_eq_some_iff.2 ⟨p, hp, rfl⟩
  have second : afterSequence? (p ++ t) = some u :=
    afterSequence?_eq_some_iff.2 ⟨q, hq, hu.symm⟩
  obtain rfl := Option.some.inj (first.symm.trans second)
  exact (List.append_cancel_right hu).symm

end Doctest.Text.Escape
