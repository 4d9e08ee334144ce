import Doctest.Proofs.Text.Utf8

namespace Doctest.Text.Utf8

theorem lead_lt {a b : Nat} (h : a < b) (hb : b < 256) (s t : List UInt8) :
    UInt8.ofNat a :: s < UInt8.ofNat b :: t := by
  refine List.cons_lt_cons_iff.2 (.inl ?_)
  rw [UInt8.lt_iff_toNat_lt, UInt8.toNat_ofNat', UInt8.toNat_ofNat']
  omega

theorem tail_lt (front : Nat → List UInt8) {m n : Nat} (h : m < n)
    (hfront : m / 64 < n / 64 → ∀ s t, front (m / 64) ++ s < front (n / 64) ++ t)
    (s t : List UInt8) :
    front (m / 64) ++ tailByte m :: s < front (n / 64) ++ tailByte n :: t := by
  -- What bytes in front and one tail byte make of two numbers, if the bytes in front tell apart
  -- what they hold.
  rcases Nat.lt_or_eq_of_le (Nat.div_le_div_right (c := 64) (Nat.le_of_lt h)) with less | same
  · exact hfront less _ _
  · have last : (tailByte m).toNat < (tailByte n).toNat := by
      rw [toNat_tailByte, toNat_tailByte]
      omega
    rw [same]
    exact List.append_left_lt (List.cons_lt_cons_iff.2 (.inl (UInt8.lt_iff_toNat_lt.2 last)))

section

variable {m n : Nat} (h : m < n) (s t : List UInt8)
include h

theorem twoBytes_lt (hn : n < 0x800) :
    [UInt8.ofNat (0xC0 + m / 64), tailByte m] ++ s <
      [UInt8.ofNat (0xC0 + n / 64), tailByte n] ++ t :=
  tail_lt (fun k => [UInt8.ofNat (0xC0 + k)]) h
    (fun less => lead_lt (by omega) (by omega)) s t

theorem threeBytes_lt (hn : n < 0x10000) :
    [UInt8.ofNat (0xE0 + m / 4096), tailByte (m / 64), tailByte m] ++ s <
      [UInt8.ofNat (0xE0 + n / 4096), tailByte (n / 64), tailByte n] ++ t := by
  have front := tail_lt (fun k => [UInt8.ofNat (0xE0 + k / 64), tailByte k]) h
    (fun less => tail_lt (fun k => [UInt8.ofNat (0xE0 + k)]) less
      fun less => lead_lt (by omega) (by omega)) s t
  simp only [Nat.div_div_eq_div_mul, Nat.reduceMul] at front
  exact front

theorem fourBytes_lt (hn : n < 0x110000) :
    [UInt8.ofNat (0xF0 + m / 262144), tailByte (m / 4096), tailByte (m / 64), tailByte m] ++ s <
      [UInt8.ofNat (0xF0 + n / 262144), tailByte (n / 4096), tailByte (n / 64), tailByte n] ++
        t := by
  have front := tail_lt
    (fun k => [UInt8.ofNat (0xF0 + k / 64 / 64), tailByte (k / 64), tailByte k]) h
    (fun less => tail_lt (fun k => [UInt8.ofNat (0xF0 + k / 64), tailByte k]) less
      fun less => tail_lt (fun k => [UInt8.ofNat (0xF0 + k)]) less
        fun less => lead_lt (by omega) (by omega)) s t
  simp only [Nat.div_div_eq_div_mul, Nat.reduceMul] at front
  exact front

end

theorem encodeChar_append_lt {c d : Char} (h : c < d) (s t : List UInt8) :
    encodeChar c ++ s < encodeChar d ++ t := by
  have less : c.toNat < d.toNat := h
  have valid := toNat_valid d
  simp only [encodeChar]
  split_ifs
  all_goals try omega
  · exact lead_lt less (by omega) _ _
  · exact lead_lt (by omega) (by omega) _ _
  · exact lead_lt (by omega) (by omega) _ _
  · exact lead_lt (by omega) (by omega) _ _
  · exact twoBytes_lt less s t (by omega)
  · exact lead_lt (by omega) (by omega) _ _
  · exact lead_lt (by omega) (by omega) _ _
  · exact threeBytes_lt less s t (by omega)
  · exact lead_lt (by omega) (by omega) _ _
  · exact fourBytes_lt less s t (by omega)

theorem encodeChar_ne_nil (c : Char) : encodeChar c ≠ [] := by
  simp only [encodeChar]
  split_ifs <;> exact List.cons_ne_nil _ _

theorem encode_lt_of_lt {s t : List Char} (h : s < t) : encode s < encode t := by
  induction h with
  | @nil c t =>
    obtain ⟨b, bytes, hbytes⟩ := List.exists_cons_of_ne_nil (encodeChar_ne_nil c)
    rw [encode_nil, encode, List.flatMap_cons, hbytes]
    exact List.nil_lt_cons b _
  | rel less => exact encodeChar_append_lt less _ _
  | cons _ ih => exact List.append_left_lt ih

theorem encodeString_lt_of_lt {s t : String} (h : s < t) : encodeString s < encodeString t :=
  encode_lt_of_lt (String.lt_iff.1 h)

theorem encodeString_le_iff {s t : String} : encodeString s ≤ encodeString t ↔ s ≤ t := by
  constructor
  · intro h
    rw [← String.not_lt]
    exact fun greater => h (encodeString_lt_of_lt greater)
  · intro h greater
    by_cases less : s < t
    · exact List.lt_asymm greater (encodeString_lt_of_lt less)
    · obtain rfl := String.le_antisymm h (String.not_lt.1 less)
      exact List.lt_irrefl _ greater

end Doctest.Text.Utf8
