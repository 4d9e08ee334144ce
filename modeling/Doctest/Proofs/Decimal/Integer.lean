import Doctest.Decimal.Integer
import Doctest.Decimal.Notation
import Doctest.Proofs.Text.Character

namespace Doctest.Decimal

open Text (isAsciiDigit isAsciiDigit_of_isDigit bounds_of_isAsciiDigit)

inductive Sign : List Char → Bool → Prop
  | none : Sign [] false
  | plus : Sign ['+'] false
  | minus : Sign ['-'] true

/-- The decimal texts of an integer. Zeros may stand before its first digit, and zero takes either
sign. -/
inductive IntText : List Char → Int → Prop
  | digits {sign : List Char} {negative : Bool} (k n : Nat) :
      Sign sign negative →
      IntText (sign ++ (zeros k ++ digitsOf n)) (if negative then -(n : Int) else n)

inductive NatText : List Char → Nat → Prop
  | digits {sign : List Char} (k n : Nat) :
      Sign sign false → NatText (sign ++ (zeros k ++ digitsOf n)) n

theorem NatText.intText {s : List Char} {n : Nat} (h : NatText s n) : IntText s n := by
  obtain ⟨k, _, hsign⟩ := h
  exact .digits k n hsign

theorem isNumeral_iff {s : List Char} :
    isNumeral s = true ↔ s ≠ [] ∧ ∀ c ∈ s, isAsciiDigit c = true := by
  simp [isNumeral]

@[simp] theorem ofDigits_zeros_append (k : Nat) (ds : List Char) :
    ofDigits (zeros k ++ ds) = ofDigits ds := by
  induction k with
  | zero => rfl
  | succ k ih => exact ih

theorem ofDigits_toDigits (n : Nat) : ofDigits (Nat.toDigits 10 n) = n := by
  have read := @Nat.ofDigitChars_ten_toDigits n
  rwa [Nat.ofDigitChars_eq_foldl] at read

theorem toString_injective {m n : Nat} (h : toString m = toString n) : m = n := by
  have digits : Nat.toDigits 10 m = Nat.toDigits 10 n := by
    rw [← Nat.toList_repr, ← Nat.toList_repr]
    exact congrArg String.toList h
  rw [← ofDigits_toDigits m, digits, ofDigits_toDigits]

theorem isAsciiDigit_of_mem_toDigits {c : Char} {n : Nat} (h : c ∈ Nat.toDigits 10 n) :
    isAsciiDigit c = true :=
  isAsciiDigit_of_isDigit (Nat.isDigit_of_mem_toDigits (by decide) (by decide) h)

theorem isNumeral_zeros_append (k n : Nat) : isNumeral (zeros k ++ digitsOf n) = true := by
  refine isNumeral_iff.2 ⟨by simp [digitsOf], fun c hc => ?_⟩
  obtain zero | digit := List.mem_append.1 hc
  · rw [List.eq_of_mem_replicate zero]
    rfl
  · exact isAsciiDigit_of_mem_toDigits digit

theorem digitChar_digitValue {c : Char} (h : isAsciiDigit c = true) :
    Nat.digitChar (digitValue c) = c := by
  have bounds := bounds_of_isAsciiDigit h
  have value : digitValue c = c.toNat - 48 := rfl
  rw [← Char.toNat_inj, value, Nat.toNat_digitChar_of_lt_ten (by omega)]
  omega

theorem digitValue_lt {c : Char} (h : isAsciiDigit c = true) : digitValue c < 10 := by
  have bounds := bounds_of_isAsciiDigit h
  have value : digitValue c = c.toNat - 48 := rfl
  omega

theorem toDigits_append {n : Nat} (hn : 0 < n) {ds : List Char}
    (h : ∀ c ∈ ds, isAsciiDigit c = true) :
    Nat.toDigits 10 n ++ ds = Nat.toDigits 10 (ofDigitsFrom n ds) := by
  induction ds generalizing n with
  | nil => exact List.append_nil _
  | cons d ds ih =>
    obtain ⟨digit, rest⟩ := List.forall_mem_cons.1 h
    have bound := digitValue_lt digit
    have next := Nat.toDigits_append_toDigits (b := 10) (by decide) hn bound
    rw [Nat.toDigits_of_lt_base bound, digitChar_digitValue digit] at next
    calc
      Nat.toDigits 10 n ++ d :: ds = Nat.toDigits 10 n ++ [d] ++ ds := by simp
      _ = Nat.toDigits 10 (10 * n + digitValue d) ++ ds := by rw [next]
      _ = Nat.toDigits 10 (ofDigitsFrom n (d :: ds)) := ih (by omega) rest

theorem exists_zeros {ds : List Char} (h : isNumeral ds = true) :
    ∃ k, ds = zeros k ++ digitsOf (ofDigits ds) := by
  obtain ⟨hne, digits⟩ := isNumeral_iff.1 h
  induction ds with
  | nil => exact absurd rfl hne
  | cons d ds ih =>
    obtain ⟨digit, rest⟩ := List.forall_mem_cons.1 digits
    have bound := digitValue_lt digit
    have first := digitChar_digitValue digit
    have whole : ofDigits (d :: ds) = ofDigitsFrom (digitValue d) ds := by
      simp [ofDigits, ofDigitsFrom]
    rw [whole]
    obtain zero | pos := Nat.eq_zero_or_pos (digitValue d)
    · rw [zero] at first ⊢
      subst first
      cases ds with
      | nil => exact ⟨0, rfl⟩
      | cons c cs =>
        obtain ⟨k, hk⟩ := ih (isNumeral_iff.2 ⟨List.cons_ne_nil c cs, rest⟩)
          (List.cons_ne_nil c cs) rest
        exact ⟨k + 1, congrArg ('0' :: ·) hk⟩
    · have extended := toDigits_append pos rest
      rw [Nat.toDigits_of_lt_base bound, first] at extended
      exact ⟨0, extended⟩

theorem exists_sign (s : List Char) :
    ∃ sign, Sign sign (splitSign s).1 ∧ s = sign ++ (splitSign s).2 := by
  fun_cases splitSign s with
  | case1 s => exact ⟨_, .plus, rfl⟩
  | case2 s => exact ⟨_, .minus, rfl⟩
  | case3 s _ _ => exact ⟨_, .none, rfl⟩

theorem splitSign_append {sign s : List Char} {negative : Bool} (h : Sign sign negative)
    (hs : ∀ c ∈ s.head?, c ≠ '+' ∧ c ≠ '-') : splitSign (sign ++ s) = (negative, s) := by
  cases h with
  | plus => rfl
  | minus => rfl
  | none =>
    rw [List.nil_append, splitSign]
    · rintro t rfl
      exact (hs '+' rfl).1 rfl
    · rintro t rfl
      exact (hs '-' rfl).2 rfl

theorem not_sign_of_isAsciiDigit {c : Char} (h : isAsciiDigit c = true) : c ≠ '+' ∧ c ≠ '-' := by
  constructor <;> rintro rfl <;> exact absurd h (by decide)

theorem not_sign_of_isNumeral {ds : List Char} (h : isNumeral ds = true) :
    ∀ c ∈ ds.head?, c ≠ '+' ∧ c ≠ '-' := fun c hc =>
  not_sign_of_isAsciiDigit ((isNumeral_iff.1 h).2 c (List.mem_of_mem_head? hc))

theorem int?_eq_some_iff {s : List Char} {n : Int} : int? s = some n ↔ IntText s n := by
  constructor
  · intro h
    obtain ⟨sign, hsign, whole⟩ := exists_sign s
    simp only [int?] at h
    split at h
    · next numeral =>
      obtain ⟨k, digits⟩ := exists_zeros numeral
      have text := IntText.digits k (ofDigits (splitSign s).2) hsign
      rwa [← digits, ← whole, Option.some.inj h] at text
    · cases h
  · rintro ⟨k, n, hsign⟩
    have numeral := isNumeral_zeros_append k n
    have head := not_sign_of_isNumeral numeral
    have value : ofDigits (zeros k ++ digitsOf n) = n := by
      rw [ofDigits_zeros_append, digitsOf, ofDigits_toDigits]
    simp only [int?, splitSign_append hsign head, if_pos numeral, value]

theorem signed?_eq_some_iff {width : Nat} {s : List Char} {n : Int} :
    signed? width s = some n ↔
      IntText s n ∧ -(Nat.pow 2 (width - 1) : Int) ≤ n ∧ n < Nat.pow 2 (width - 1) := by
  simp only [signed?, bind, Option.bind_eq_some_iff, int?_eq_some_iff]
  constructor
  · rintro ⟨m, text, h⟩
    split at h
    · next range =>
      obtain rfl := Option.some.inj h
      exact ⟨text, range⟩
    · cases h
  · rintro ⟨text, range⟩
    exact ⟨n, text, if_pos range⟩

theorem unsigned?_eq_some_iff {width : Nat} {s : List Char} {n : Nat} :
    unsigned? width s = some n ↔ NatText s n ∧ n < Nat.pow 2 width := by
  have number (ds : List Char) (n : Nat) :
      (if isNumeral ds ∧ ofDigits ds < Nat.pow 2 width then some (ofDigits ds) else none) = some n ↔
        isNumeral ds = true ∧ ofDigits ds = n ∧ n < Nat.pow 2 width := by
    simp only [Option.ite_none_right_eq_some, Option.some.injEq]
    grind
  constructor
  · intro h
    have text {sign ds : List Char} (hsign : Sign sign false)
        (h : isNumeral ds = true ∧ ofDigits ds = n ∧ n < Nat.pow 2 width) :
        NatText (sign ++ ds) n ∧ n < Nat.pow 2 width := by
      obtain ⟨numeral, rfl, bound⟩ := h
      obtain ⟨k, digits⟩ := exists_zeros numeral
      have text := NatText.digits k (ofDigits ds) hsign
      rw [← digits] at text
      exact ⟨text, bound⟩
    rw [unsigned?.eq_def] at h
    simp only at h
    split at h
    · exact text .plus ((number _ n).1 h)
    · exact text .none ((number _ n).1 h)
  · rintro ⟨⟨k, n, hsign⟩, bound⟩
    have numeral := isNumeral_zeros_append k n
    have value := (number (zeros k ++ digitsOf n) n).2
      ⟨numeral, by rw [ofDigits_zeros_append, digitsOf, ofDigits_toDigits], bound⟩
    cases hsign with
    | plus => exact value
    | none =>
      rw [List.nil_append, unsigned?.eq_def]
      split
      · next plus =>
        have head := not_sign_of_isNumeral numeral
        rw [plus] at head
        exact absurd rfl (head '+' rfl).1
      · exact value

theorem toList_toString (n : Int) : (toString n).toList =
    if 0 ≤ n then Nat.toDigits 10 n.toNat else '-' :: Nat.toDigits 10 (-n).toNat := by
  rw [Int.toString_eq_repr, Int.repr_eq_if]
  split
  · exact Nat.toList_repr
  · rw [String.toList_append, Nat.toList_repr]
    rfl

theorem intText_toString (n : Int) : IntText (toString n).toList n := by
  rw [toList_toString]
  split
  · next h =>
    have text := IntText.digits 0 n.toNat .none
    rwa [if_neg Bool.false_ne_true, Int.toNat_of_nonneg h] at text
  · next h =>
    have text := IntText.digits 0 (-n).toNat .minus
    rwa [if_pos rfl, Int.toNat_of_nonneg (by omega), Int.neg_neg] at text

namespace IntText

variable {s : List Char} {n : Int}

theorem isAsciiDigit_or_sign (h : IntText s n) {c : Char} (hc : c ∈ s) :
    isAsciiDigit c = true ∨ c = '+' ∨ c = '-' := by
  obtain ⟨k, n, hsign⟩ := h
  obtain sign | digit := List.mem_append.1 hc
  · cases hsign with
    | none => cases sign
    | plus => exact .inr (.inl (List.mem_singleton.1 sign))
    | minus => exact .inr (.inr (List.mem_singleton.1 sign))
  · exact .inl ((isNumeral_iff.1 (isNumeral_zeros_append k n)).2 c digit)

theorem unique {m : Int} (h : IntText s m) (h' : IntText s n) : m = n :=
  Option.some.inj ((int?_eq_some_iff.2 h).symm.trans (int?_eq_some_iff.2 h'))

end IntText

end Doctest.Decimal
