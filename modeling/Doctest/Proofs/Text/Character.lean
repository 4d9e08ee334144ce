import Doctest.Text.Blank
import Doctest.Text.Digit

namespace Doctest.Text

theorem toNat_valid (c : Char) :
    c.toNat < 0xD800 ∨ 0xDFFF < c.toNat ∧ c.toNat < 0x110000 :=
  c.valid

theorem toNat_ofNat {n : Nat} (h : n < 0xD800 ∨ 0xDFFF < n ∧ n < 0x110000) :
    (Char.ofNat n).toNat = n := by
  have valid : n.isValidChar := h
  rw [Char.ofNat, dif_pos valid]
  rfl

theorem isAsciiDigit_of_isDigit {c : Char} (h : c.isDigit = true) : isAsciiDigit c = true := by
  simp [Char.isDigit, isAsciiDigit, Char.le_def] at h ⊢
  exact h

theorem bounds_of_isAsciiDigit {c : Char} (h : isAsciiDigit c = true) :
    0x30 ≤ c.toNat ∧ c.toNat ≤ 0x39 := by
  simp only [isAsciiDigit, Bool.and_eq_true, decide_eq_true_eq] at h
  exact h

theorem not_isBlank_of_isDigit {c : Char} (h : isDigit c = true) : isBlank c = false := by
  have between : ∀ r ∈ digitRanges, (0x20 < r.1 ∧ r.2 < 0x85) ∨ (0xA0 < r.1 ∧ r.2 < 0x1680) ∨
      (0x1680 < r.1 ∧ r.2 < 0x2000) ∨ 0x3000 < r.1 := by
    decide
  obtain ⟨r, hr, within⟩ := List.any_eq_true.1 h
  have gap := between r hr
  simp only [Bool.and_eq_true, decide_eq_true_eq] at within
  simp only [isBlank, Bool.or_eq_false_iff, Bool.and_eq_false_iff, beq_eq_false_iff_ne,
    decide_eq_false_iff_not]
  omega

theorem eq_of_toLower_eq {c d : Char} (hd : d.toNat < 0x61) (h : c.toLower = d) : c = d := by
  delta Char.toLower at h
  split at h
  · next capital =>
    have low : 0x41 ≤ c.val.toNat := capital.1
    have high : c.val.toNat ≤ 0x5A := capital.2
    have small : (c.val.toNat + 32) % 2 ^ 32 = d.toNat := congrArg Char.toNat h
    omega
  · exact h

theorem toLower_of_isAsciiDigit {c : Char} (h : isAsciiDigit c = true) : c.toLower = c := by
  have bounds := bounds_of_isAsciiDigit h
  apply dif_neg
  rintro ⟨capital, _⟩
  have low : 0x41 ≤ c.toNat := capital
  omega

end Doctest.Text
