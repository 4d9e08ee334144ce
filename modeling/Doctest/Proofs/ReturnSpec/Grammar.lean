import Doctest.ReturnSpec
import Doctest.Proofs.Decimal.Fraction
import Mathlib.Algebra.Group.Int.Defs
import Mathlib.Algebra.Group.Nat.Defs

namespace Doctest.ReturnSpec

open Decimal (Binary64 Sign IntText FractionText)

inductive SpecialText : List Char → Binary64 → Prop
  | nan {sign word : List Char} {negative : Bool} :
      Sign sign negative → word.map Char.toLower = "nan".toList → SpecialText (sign ++ word) .nan
  | infinity {sign word : List Char} {negative : Bool} :
      Sign sign negative →
      word.map Char.toLower = "inf".toList ∨ word.map Char.toLower = "infinity".toList →
      SpecialText (sign ++ word) (.infinity negative)

def IsMark (c : Char) : Prop := c = '.' ∨ c = 'e' ∨ c = 'E'

/-- The forms of a trimmed text that is an expectation. -/
inductive Expects : List Char → ReturnSpec → Prop
  | quoted {s : List Char} : Expects ('"' :: s) (.str (String.ofList (unquote ('"' :: s))))
  | special {s : List Char} {x : Binary64} : SpecialText s x → Expects s (.f64 x)
  | fraction {s : List Char} {f : Decimal.Fraction} :
      (∃ c ∈ s, IsMark c) → FractionText s f → Expects s (.f64 f.toBinary64)
  | int {s : List Char} {n : Int} :
      IntText s n → -2 ^ 63 ≤ n → n < 2 ^ 63 → Expects s (.i32 (Int32.ofInt n))

theorem splitSign_map_toLower (s : List Char) : Decimal.splitSign (s.map Char.toLower) =
    ((Decimal.splitSign s).1, (Decimal.splitSign s).2.map Char.toLower) := by
  fun_cases Decimal.splitSign s with
  | case1 s => rfl
  | case2 s => rfl
  | case3 s plus minus =>
    have other {d : Char} (hd : d.toNat < 0x61) (h : ∀ t, s = d :: t → False) (t : List Char)
        (ht : s.map Char.toLower = d :: t) : False := by
      obtain ⟨c, u, rfl, hc, _⟩ := List.map_eq_cons_iff.1 ht
      exact h u (by rw [Text.eq_of_toLower_eq hd hc])
    rw [Decimal.splitSign]
    · exact other (by decide) plus
    · exact other (by decide) minus

theorem not_sign_of_map_toLower {word name : List Char} (h : word.map Char.toLower = name)
    (hplus : name.head? ≠ some '+') (hminus : name.head? ≠ some '-') :
    ∀ c ∈ word.head?, c ≠ '+' ∧ c ≠ '-' := by
  intro c hc
  have small : c.toLower ∈ name.head? := by
    rw [← h, List.head?_map]
    exact Option.mem_map_of_mem _ hc
  constructor <;> rintro rfl
  · exact hplus small
  · exact hminus small

theorem special?_eq_some_iff {s : List Char} {x : Binary64} :
    special? s = some x ↔ SpecialText s x := by
  constructor
  · intro h
    obtain ⟨sign, hsign, whole⟩ := Decimal.exists_sign s
    simp only [special?, splitSign_map_toLower] at h
    rw [whole]
    split at h
    · next nan =>
      obtain rfl := Option.some.inj h
      exact .nan hsign nan
    · split at h
      · next infinity =>
        obtain rfl := Option.some.inj h
        exact .infinity hsign infinity
      · cases h
  · rintro (⟨hsign, hword⟩ | ⟨hsign, hword⟩)
    · have unsigned := not_sign_of_map_toLower hword (by decide) (by decide)
      simp only [special?, splitSign_map_toLower, Decimal.splitSign_append hsign unsigned,
        if_pos hword]
    · have unsigned := hword.elim (not_sign_of_map_toLower · (by decide) (by decide))
        (not_sign_of_map_toLower · (by decide) (by decide))
      simp only [special?, splitSign_map_toLower, Decimal.splitSign_append hsign unsigned]
      rw [if_neg ?_, if_pos hword]
      obtain h | h := hword <;> rw [h] <;> decide

theorem SpecialText.letters {s : List Char} {x : Binary64} (h : SpecialText s x) :
    (∃ c ∈ s, c.toLower = 'n') ∧ ∀ c ∈ s, ¬IsMark c := by
  -- The names of special doubles all have an n, and no character that marks a fraction.
  have named {sign word name : List Char} {negative : Bool} (hsign : Sign sign negative)
      (hword : word.map Char.toLower = name) (hn : 'n' ∈ name) (hdot : '.' ∉ name)
      (he : 'e' ∉ name) : (∃ c ∈ sign ++ word, c.toLower = 'n') ∧ ∀ c ∈ sign ++ word, ¬IsMark c := by
    subst hword
    constructor
    · obtain ⟨c, hc, small⟩ := List.mem_map.1 hn
      exact ⟨c, List.mem_append_right sign hc, small⟩
    · rintro c hc mark
      obtain hc | hc := List.mem_append.1 hc
      · cases hsign with
        | none => cases hc
        | plus =>
          rw [List.mem_singleton.1 hc] at mark
          exact absurd mark (by simp [IsMark])
        | minus =>
          rw [List.mem_singleton.1 hc] at mark
          exact absurd mark (by simp [IsMark])
      · have small := List.mem_map_of_mem (f := Char.toLower) hc
        obtain rfl | rfl | rfl := mark
        · exact hdot small
        · exact he small
        · exact he small
  rcases h with ⟨hsign, hword⟩ | ⟨hsign, hword | hword⟩
  all_goals exact named hsign hword (by decide) (by decide) (by decide)

theorem isFractional_iff {s : List Char} : isFractional s = true ↔ ∃ c ∈ s, IsMark c := by
  simp [isFractional, IsMark, or_assoc]

theorem not_letter_of_intText {s : List Char} {n : Int} (h : IntText s n) :
    ∀ c ∈ s, c.toLower ≠ 'n' ∧ ¬IsMark c := by
  intro c hc
  obtain digit | rfl | rfl := h.isAsciiDigit_or_sign hc
  · rw [Text.toLower_of_isAsciiDigit digit]
    constructor
    · rintro rfl
      exact absurd digit (by decide)
    · rintro (rfl | rfl | rfl) <;> exact absurd digit (by decide)
  · exact ⟨by decide, by simp [IsMark]⟩
  · exact ⟨by decide, by simp [IsMark]⟩

theorem special?_of_mark {s : List Char} (h : ∃ c ∈ s, IsMark c) : special? s = none := by
  rw [Option.eq_none_iff_forall_ne_some]
  intro x special
  obtain ⟨c, hc, mark⟩ := h
  exact (special?_eq_some_iff.1 special).letters.2 c hc mark

theorem special?_of_intText {s : List Char} {n : Int} (h : IntText s n) : special? s = none := by
  rw [Option.eq_none_iff_forall_ne_some]
  intro x special
  obtain ⟨c, hc, small⟩ := (special?_eq_some_iff.1 special).letters.1
  exact (not_letter_of_intText h c hc).1 small

theorem unquoted_of_some {α : Type} {read? : List Char → Option α} (hnil : read? [] = none)
    (hquote : ∀ t, read? ('"' :: t) = none) {s : List Char} {a : α} (h : read? s = some a) :
    s ≠ [] ∧ ∀ t, s ≠ '"' :: t := by
  -- A reader that accepts neither the empty text nor a quote in front is given neither of them.
  constructor
  · rintro rfl
    rw [hnil] at h
    cases h
  · rintro t rfl
    rw [hquote] at h
    cases h

theorem parse_of_unquoted {raw : List Char}
    (h : Text.trim raw ≠ [] ∧ ∀ t, Text.trim raw ≠ '"' :: t) :
    parse raw = match special? (Text.trim raw) with
      | some x => some (.f64 x)
      | none =>
        if isFractional (Text.trim raw) then (Decimal.binary64? (Text.trim raw)).map .f64
        else (Decimal.signed? 64 (Text.trim raw)).map fun n => .i32 (Int32.ofInt n) := by
  rw [parse]
  split
  · next empty => exact absurd empty h.1
  · next quote => exact absurd quote (h.2 _)
  · rfl

theorem parse_eq_some_iff {raw : List Char} {spec : ReturnSpec} :
    parse raw = some spec ↔ Expects (Text.trim raw) spec := by
  constructor
  · intro h
    rw [parse] at h
    split at h
    · cases h
    · next quote =>
      obtain rfl := Option.some.inj h
      rw [quote]
      exact .quoted
    · split at h
      · next x special =>
        obtain rfl := Option.some.inj h
        exact .special (special?_eq_some_iff.1 special)
      · split at h
        · next fractional =>
          rw [Decimal.binary64?, Option.map_map, Option.map_eq_some_iff] at h
          obtain ⟨f, text, rfl⟩ := h
          exact .fraction (isFractional_iff.1 fractional) (Decimal.parse?_eq_some_iff.1 text)
        · obtain ⟨n, number, rfl⟩ := Option.map_eq_some_iff.1 h
          obtain ⟨text, low, high⟩ := Decimal.signed?_eq_some_iff.1 number
          exact .int text low high
  · intro h
    generalize hs : Text.trim raw = s at h
    cases h with
    | quoted =>
      rw [parse, hs]
      rfl
    | special text =>
      have special := special?_eq_some_iff.2 text
      have unquoted := unquoted_of_some rfl (fun _ => by simp [special?, Decimal.splitSign]) special
      rw [parse_of_unquoted (hs ▸ unquoted), hs, special]
    | fraction mark text =>
      have number := Decimal.parse?_eq_some_iff.2 text
      have unquoted := unquoted_of_some rfl (fun _ => rfl) number
      rw [parse_of_unquoted (hs ▸ unquoted), hs, special?_of_mark mark]
      simp only [if_pos (isFractional_iff.2 mark), Decimal.binary64?, number, Option.map_some]
    | int text low high =>
      have number := (@Decimal.signed?_eq_some_iff 64 s _).2 ⟨text, low, high⟩
      have unquoted := unquoted_of_some rfl (fun _ => rfl) number
      have whole : ¬isFractional s = true := fun fractional => by
        obtain ⟨c, hc, mark⟩ := isFractional_iff.1 fractional
        exact (not_letter_of_intText text c hc).2 mark
      rw [parse_of_unquoted (hs ▸ unquoted), hs, special?_of_intText text]
      simp only [if_neg whole, number, Option.map_some]

namespace Expects

variable {s : List Char}

theorem str_iff : (∃ text, Expects s (.str text)) ↔ s.head? = some '"' := by
  constructor
  · rintro ⟨_, ⟨⟩⟩
    rfl
  · intro h
    obtain ⟨rest, rfl⟩ := List.head?_eq_some_iff.1 h
    exact ⟨_, .quoted⟩

theorem f64_iff {x : Binary64} : Expects s (.f64 x) ↔
    SpecialText s x ∨ (∃ c ∈ s, IsMark c) ∧ ∃ f, FractionText s f ∧ x = f.toBinary64 := by
  constructor
  · rintro (_ | special | ⟨mark, text⟩)
    · exact .inl special
    · exact .inr ⟨mark, _, text, rfl⟩
  · rintro (special | ⟨mark, f, text, rfl⟩)
    · exact .special special
    · exact .fraction mark text

theorem i32_iff {v : Int32} : Expects s (.i32 v) ↔
    ∃ n, IntText s n ∧ -2 ^ 63 ≤ n ∧ n < 2 ^ 63 ∧ v.toInt = n.bmod (2 ^ 32) := by
  constructor
  · rintro (_ | _ | _ | ⟨text, low, high⟩)
    exact ⟨_, text, low, high, Int32.toInt_ofInt⟩
  · rintro ⟨n, text, low, high, value⟩
    have narrowed : v = Int32.ofInt n := Int32.toInt_inj.1 (value.trans Int32.toInt_ofInt.symm)
    exact narrowed ▸ .int text low high

theorem of_intText {n : Int} {spec : ReturnSpec} (text : IntText s n) :
    Expects s spec ↔ (-2 ^ 63 ≤ n ∧ n < 2 ^ 63) ∧ spec = .i32 (Int32.ofInt n) := by
  constructor
  · rintro (_ | special | ⟨⟨c, hc, mark⟩, _⟩ | ⟨other, low, high⟩)
    · exact absurd (text.isAsciiDigit_or_sign List.mem_cons_self) (by decide)
    · obtain ⟨c, hc, small⟩ := special.letters.1
      exact absurd small (not_letter_of_intText text c hc).1
    · exact absurd mark (not_letter_of_intText text c hc).2
    · obtain rfl := text.unique other
      exact ⟨⟨low, high⟩, rfl⟩
  · rintro ⟨⟨low, high⟩, rfl⟩
    exact .int text low high

end Expects

/-- Which of four forms a text has, blanks around it left out, decides whether it is an expectation
and of what kind. Of an integer of 64 bits the low 32 count. -/
theorem parse_grammar (raw : List Char) :
    ((∃ s, parse raw = some (.str s)) ↔ (Text.trim raw).head? = some '"') ∧
      (∀ x, parse raw = some (.f64 x) ↔ SpecialText (Text.trim raw) x ∨
        (∃ c ∈ Text.trim raw, IsMark c) ∧
          ∃ f, FractionText (Text.trim raw) f ∧ x = f.toBinary64) ∧
      (∀ v, parse raw = some (.i32 v) ↔ ∃ n, IntText (Text.trim raw) n ∧
        -2 ^ 63 ≤ n ∧ n < 2 ^ 63 ∧ v.toInt = n.bmod (2 ^ 32)) ∧
      (parse raw = none ↔ (Text.trim raw).head? ≠ some '"' ∧
        (¬∃ x, SpecialText (Text.trim raw) x) ∧
        (¬((∃ c ∈ Text.trim raw, IsMark c) ∧ ∃ f, FractionText (Text.trim raw) f)) ∧
        ¬∃ n, IntText (Text.trim raw) n ∧ -2 ^ 63 ≤ n ∧ n < 2 ^ 63) := by
  have refused : parse raw = none ↔ ∀ spec, ¬Expects (Text.trim raw) spec := by
    simp only [Option.eq_none_iff_forall_ne_some, ne_eq, parse_eq_some_iff]
  simp only [parse_eq_some_iff]
  refine ⟨Expects.str_iff, fun _ => Expects.f64_iff, fun _ => Expects.i32_iff, refused.trans ?_⟩
  constructor
  · intro none
    refine ⟨fun quote => ?_, fun ⟨x, special⟩ => none _ (.special special),
      fun ⟨mark, f, text⟩ => none _ (.fraction mark text),
      fun ⟨n, text, low, high⟩ => none _ (.int text low high)⟩
    obtain ⟨_, quoted⟩ := Expects.str_iff.2 quote
    exact none _ quoted
  · rintro ⟨unquoted, plain, whole, wide⟩ spec h
    generalize Text.trim raw = t at *
    cases h with
    | quoted => exact unquoted rfl
    | special text => exact plain ⟨_, text⟩
    | fraction mark text => exact whole ⟨mark, _, text⟩
    | int text low high => exact wide ⟨_, text, low, high⟩

example : ∀ s ∈ ["0xff", "1_000", "-", ".", "1e", "9223372036854775808"], parse s.toList = none := by
  decide

end Doctest.ReturnSpec
