import Doctest.Proofs.Text.Escape

namespace Doctest.Text.Escape

inductive Segment
  | plain (s : List Char) : esc ∉ s → Segment
  | sequence (s : List Char) : IsSequence s → Segment

def Segment.text : Segment → List Char
  | .plain s _ => s
  | .sequence s _ => s

def Segment.kept : Segment → List Char
  | .plain s _ => s
  | .sequence _ _ => []

/-- One pass over a text, and what it leaves of it. Nothing that is left is looked at again. -/
inductive Passes : List Char → List Char → Prop
  | done : Passes [] []
  | removed {q s t : List Char} : IsSequence q → Passes s t → Passes (q ++ s) t
  | kept {c : Char} {s t : List Char} :
      (∀ q, IsSequence q → ¬ q <+: c :: s) → Passes s t → Passes (c :: s) (c :: t)

theorem strip_sequence_append {q : List Char} (h : IsSequence q) (s : List Char) :
    strip (q ++ s) = strip s :=
  strip_of_afterSequence? (afterSequence?_eq_some_iff.2 ⟨q, h, rfl⟩)

theorem strip_plain_append {p : List Char} (h : esc ∉ p) (s : List Char) :
    strip (p ++ s) = p ++ strip s := by
  induction p with
  | nil => rfl
  | cons c p ih =>
    obtain ⟨hc, hp⟩ := not_or.1 (mt List.mem_cons.2 h)
    have none : afterSequence? (c :: (p ++ s)) = none := by
      refine afterSequence?_eq_none_iff.2 fun q hq hprefix => hc ?_
      cases hq with
      | control => exact (List.cons_prefix_cons.1 hprefix).1
      | command => exact (List.cons_prefix_cons.1 hprefix).1
    rw [List.cons_append, strip_cons_of_none none, ih hp, List.cons_append]

theorem strip_flatMap (segments : List Segment) :
    strip (segments.flatMap Segment.text) = segments.flatMap Segment.kept := by
  induction segments with
  | nil => exact strip_nil
  | cons segment segments ih =>
    rw [List.flatMap_cons, List.flatMap_cons, ← ih]
    cases segment with
    | plain s h => exact strip_plain_append h _
    | sequence s h => exact strip_sequence_append h _

theorem Passes.eq_strip {s t : List Char} (h : Passes s t) : t = strip s := by
  induction h with
  | done => exact strip_nil.symm
  | removed hq _ ih => rw [strip_sequence_append hq, ih]
  | kept hnone _ ih => rw [strip_cons_of_none (afterSequence?_eq_none_iff.2 hnone), ih]

theorem passes_strip (s : List Char) : Passes s (strip s) := by
  fun_induction strip s with
  | case1 => exact .done
  | case2 c s rest hseq ih =>
    obtain ⟨q, hq, written⟩ := afterSequence?_eq_some_iff.1 hseq
    rw [written]
    exact .removed hq ih
  | case3 c s hnone ih => exact .kept (afterSequence?_eq_none_iff.1 hnone) ih

theorem passes_iff_eq_strip {s t : List Char} : Passes s t ↔ t = strip s :=
  ⟨Passes.eq_strip, fun h => h ▸ passes_strip s⟩

theorem clean_iff_no_sequence {s : List Char} : Clean s ↔ ∀ q, IsSequence q → ¬ q <:+: s := by
  constructor
  · intro h q hq hinfix
    obtain ⟨t, hqt, hts⟩ := List.infix_iff_prefix_suffix.1 hinfix
    exact afterSequence?_eq_none_iff.1 (h t hts) q hq hqt
  · intro h t ht
    exact afterSequence?_eq_none_iff.2 fun q hq hqt =>
      h q hq (hqt.isInfix.trans ht.isInfix)

/-- Of a text that falls into sequences and plain text, the plain text is left. Of any text at all
what is left is what one pass leaves, which at no place could take out a different sequence; and a
text that holds no sequence is left as it is. -/
theorem strip_leaves :
    (∀ segments : List Segment,
      strip (segments.flatMap Segment.text) = segments.flatMap Segment.kept) ∧
    ∀ s, (∀ t, Passes s t ↔ t = strip s) ∧
      (∀ p q, IsSequence p → IsSequence q → p <+: s → q <+: s → p = q) ∧
      ((∀ q, IsSequence q → ¬ q <:+: s) → strip s = s) :=
  ⟨strip_flatMap, fun _ => ⟨fun _ => passes_iff_eq_strip, fun _ _ => IsSequence.eq_of_prefix,
    fun h => strip_of_clean (clean_iff_no_sequence.2 h)⟩⟩

end Doctest.Text.Escape
