import Doctest.Decimal.Reading
import Doctest.Proofs.Decimal.Integer
import Doctest.Proofs.Text.Span
import Mathlib.Data.List.TakeWhile

namespace Doctest.Decimal

open Text (isAsciiDigit)

/-- Digits with at most one point, and those before and after it. There is one digit at least. -/
inductive Mantissa : List Char → List Char → List Char → Prop
  | whole {ds : List Char} : isNumeral ds = true → Mantissa ds ds []
  | point {ds fs : List Char} :
      isNumeral ds = true → (∀ c ∈ fs, isAsciiDigit c = true) → Mantissa (ds ++ '.' :: fs) ds fs
  | bare {fs : List Char} : isNumeral fs = true → Mantissa ('.' :: fs) [] fs

inductive Power : List Char → Int → Prop
  | none : Power [] 0
  | power {c : Char} {s : List Char} {n : Int} :
      c = 'e' ∨ c = 'E' → IntText s n → Power (c :: s) n

inductive FractionText : List Char → Fraction → Prop
  | parts {sign mantissa power whole fraction : List Char} {negative : Bool} {exponent : Int} :
      Sign sign negative → Mantissa mantissa whole fraction → Power power exponent →
      FractionText (sign ++ (mantissa ++ power)) ⟨negative, whole, fraction, exponent⟩

theorem spanDigits_append {ds rest : List Char} (hds : ∀ c ∈ ds, isAsciiDigit c = true)
    (hrest : ∀ c ∈ rest.head?, isAsciiDigit c = false) : spanDigits (ds ++ rest) = (ds, rest) := by
  rw [spanDigits, Text.takeWhile_append_of_head hds hrest, Text.dropWhile_append_of_head hds hrest]

theorem append_of_spanDigits {s ds rest : List Char} (h : spanDigits s = (ds, rest)) :
    s = ds ++ rest ∧ ∀ c ∈ ds, isAsciiDigit c = true := by
  obtain ⟨rfl, rfl⟩ := Prod.mk.inj h
  exact ⟨List.takeWhile_append_dropWhile.symm, fun _ hc => List.mem_takeWhile_imp hc⟩

theorem exponent?_eq_some_iff {s : List Char} {n : Int} : exponent? s = some n ↔ Power s n := by
  constructor
  · intro h
    cases s with
    | nil =>
      obtain rfl := Option.some.inj h
      exact .none
    | cons c s =>
      rw [exponent?] at h
      split at h
      · next mark => exact .power mark (int?_eq_some_iff.1 h)
      · cases h
  · rintro (_ | ⟨mark, text⟩)
    · rfl
    · rw [exponent?, if_pos mark, int?_eq_some_iff]
      exact text

theorem Power.head {s : List Char} {n : Int} (h : Power s n) :
    ∀ c ∈ s.head?, c = 'e' ∨ c = 'E' := by
  cases h with
  | none => nofun
  | power mark _ =>
    rintro c ⟨⟩
    exact mark

theorem Mantissa.spanDigits_append {m whole fraction rest : List Char}
    (h : Mantissa m whole fraction) (hrest : ∀ c ∈ rest.head?, c = 'e' ∨ c = 'E') :
    ∃ t, spanDigits (m ++ rest) = (whole, t) ∧ pointDigits t = (fraction, rest) := by
  have stop : ∀ c ∈ rest.head?, isAsciiDigit c = false := by
    intro c hc
    obtain rfl | rfl := hrest c hc <;> rfl
  have point {fs : List Char} : ∀ c ∈ ('.' :: fs).head?, isAsciiDigit c = false := by
    rintro c ⟨⟩
    rfl
  cases h with
  | whole digits =>
    refine ⟨rest, Decimal.spanDigits_append (isNumeral_iff.1 digits).2 stop, ?_⟩
    rw [pointDigits]
    rintro t rfl
    exact absurd (hrest '.' rfl) (by decide)
  | point digits after =>
    rw [List.append_assoc]
    exact ⟨_, Decimal.spanDigits_append (isNumeral_iff.1 digits).2 point,
      Decimal.spanDigits_append after stop⟩
  | bare digits =>
    exact ⟨_, @Decimal.spanDigits_append [] _ nofun point,
      Decimal.spanDigits_append (isNumeral_iff.1 digits).2 stop⟩

theorem Mantissa.ne_nil {m whole fraction : List Char} (h : Mantissa m whole fraction) :
    ¬(whole.isEmpty ∧ fraction.isEmpty) := by
  cases h with
  | whole digits => simp [(isNumeral_iff.1 digits).1]
  | point digits => simp [(isNumeral_iff.1 digits).1]
  | bare digits => simp [(isNumeral_iff.1 digits).1]

theorem head_of_isNumeral {ds : List Char} (h : isNumeral ds = true) (rest : List Char) :
    ∀ c ∈ (ds ++ rest).head?, isAsciiDigit c = true := by
  obtain ⟨hne, digits⟩ := isNumeral_iff.1 h
  obtain ⟨c, t, rfl⟩ := List.exists_cons_of_ne_nil hne
  rintro d ⟨⟩
  exact digits c List.mem_cons_self

theorem Mantissa.head {m whole fraction : List Char} (h : Mantissa m whole fraction)
    (rest : List Char) : ∀ c ∈ (m ++ rest).head?, isAsciiDigit c = true ∨ c = '.' := by
  cases h with
  | whole digits => exact fun c hc => .inl (head_of_isNumeral digits rest c hc)
  | point digits =>
    rw [List.append_assoc]
    exact fun c hc => .inl (head_of_isNumeral digits _ c hc)
  | bare =>
    rintro c ⟨⟩
    exact .inr rfl

theorem Mantissa.not_sign {m whole fraction : List Char} (h : Mantissa m whole fraction)
    (rest : List Char) : ∀ c ∈ (m ++ rest).head?, c ≠ '+' ∧ c ≠ '-' := by
  intro c hc
  obtain digit | rfl := h.head rest c hc
  · exact not_sign_of_isAsciiDigit digit
  · decide

theorem exists_mantissa {s whole fraction rest t : List Char} (hs : spanDigits s = (whole, t))
    (ht : pointDigits t = (fraction, rest)) (h : ¬(whole.isEmpty ∧ fraction.isEmpty)) :
    ∃ m, Mantissa m whole fraction ∧ s = m ++ rest := by
  obtain ⟨rfl, digits⟩ := append_of_spanDigits hs
  simp only [List.isEmpty_iff] at h
  fun_cases pointDigits t with
  | case1 t =>
    rw [pointDigits] at ht
    obtain ⟨rfl, after⟩ := append_of_spanDigits ht
    cases whole with
    | nil => exact ⟨_, .bare (isNumeral_iff.2 ⟨fun none => h ⟨rfl, none⟩, after⟩), rfl⟩
    | cons c ds =>
      have numeral := isNumeral_iff.2 ⟨List.cons_ne_nil c ds, digits⟩
      exact ⟨_, .point numeral after, by simp⟩
  | case2 t other =>
    rw [pointDigits] at ht
    · obtain ⟨rfl, rfl⟩ := Prod.mk.inj ht
      exact ⟨_, .whole (isNumeral_iff.2 ⟨fun none => h ⟨none, rfl⟩, digits⟩), rfl⟩
    · exact other

theorem parse?_eq_some_iff {s : List Char} {f : Fraction} :
    Fraction.parse? s = some f ↔ FractionText s f := by
  constructor
  · intro h
    obtain ⟨sign, hsign, split⟩ := exists_sign s
    cases hspan : spanDigits (splitSign s).2 with
    | mk whole t =>
      cases hpoint : pointDigits t with
      | mk fraction rest =>
        simp only [Fraction.parse?, hspan, hpoint, bind, Option.bind_eq_some_iff] at h
        obtain ⟨exponent, hexponent, h⟩ := h
        split at h
        · cases h
        · next digits =>
          obtain rfl := Option.some.inj h
          obtain ⟨m, hm, unsigned⟩ := exists_mantissa hspan hpoint digits
          have text := FractionText.parts hsign hm (exponent?_eq_some_iff.1 hexponent)
          rwa [← unsigned, ← split] at text
  · rintro @⟨sign, mantissa, power, _, _, _, _, hsign, hm, hpower⟩
    obtain ⟨t, hspan, hpoint⟩ := hm.spanDigits_append hpower.head
    have unsigned := splitSign_append hsign (hm.not_sign power)
    simp only [Fraction.parse?, unsigned, hspan, hpoint, exponent?_eq_some_iff.2 hpower, bind,
      Option.bind_some, if_neg hm.ne_nil]
    rfl

end Doctest.Decimal
