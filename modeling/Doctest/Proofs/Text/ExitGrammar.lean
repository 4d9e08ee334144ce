import Doctest.Proofs.Text.Character
import Doctest.Proofs.Text.ExitPhrase
import Doctest.Proofs.Text.Lines
import Doctest.Proofs.Text.Span
import Mathlib.Data.Option.Basic

namespace Doctest.Text.Exit

/-- Simple case folding, as far as it leads to letters of ASCII. Besides the capitals, the long s and
the sign for kelvin have a fold among them. -/
def simpleFold (c : Char) : Char :=
  if c = 'ſ' then 's' else if c = '\u212A' then 'k' else c.toLower

def Wording (words : List Char) : Prop :=
  words.map simpleFold = "exit status".toList ∨ words.map simpleFold = "exit code".toList

inductive LeadingDigits (digits : List Char) : List Char → Prop
  | run {rest : List Char} :
      digits ≠ [] → (∀ c ∈ digits, isDigit c = true) → (∀ c ∈ rest.head?, isDigit c = false) →
      LeadingDigits digits (digits ++ rest)

inductive LeadingNumber : List Char → List Char → Prop
  | plain {digits s : List Char} : LeadingDigits digits s → LeadingNumber digits s
  | minus {digits s : List Char} :
      LeadingDigits digits s → LeadingNumber ('-' :: digits) ('-' :: s)

inductive Phrase (number : List Char) : List Char → Prop
  | parts {words colon blanks s : List Char} :
      Wording words → colon = [] ∨ colon = [':'] → Blank blanks → LeadingNumber number s →
      Phrase number (words ++ (colon ++ (blanks ++ s)))

def First (number s : List Char) : Prop :=
  ∃ i, Phrase number (s.drop i) ∧ ∀ j < i, ∀ other, ¬ Phrase other (s.drop j)

theorem folds_iff {letter : Char} (h : letter ∈ "exit statuscode".toList) (c : Char) :
    folds letter c = true ↔ simpleFold c = letter := by
  have usual : "exit statuscode".toList.all
      (fun letter => 'ſ' ≠ letter ∧ '\u212A' ≠ letter ∧ 'k' ≠ letter) = true := by
    decide
  obtain ⟨long, kelvin, k⟩ := of_decide_eq_true (List.all_eq_true.1 usual letter h)
  have longLower : 'ſ'.toLower = 'ſ' := by decide
  have kelvinLower : '\u212A'.toLower = '\u212A' := by decide
  simp only [folds, simpleFold, Bool.or_eq_true, Bool.and_eq_true, beq_iff_eq]
  split
  · next hc => simp [hc, longLower, long, eq_comm]
  · next hlong =>
    split
    · next hc => simp [hc, kelvinLower, kelvin, k]
    · simp [hlong]

theorem afterWord?_eq_some_iff {word : List Char} (hword : word ⊆ "exit statuscode".toList)
    {s r : List Char} :
    afterWord? word s = some r ↔ ∃ w, w.map simpleFold = word ∧ s = w ++ r := by
  induction word generalizing s with
  | nil => simp [afterWord?]
  | cons letter word ih =>
    obtain ⟨hletter, hword⟩ := List.cons_subset.1 hword
    cases s with
    | nil =>
      constructor
      · intro h
        cases h
      · rintro ⟨w, hw, whole⟩
        rw [(List.append_eq_nil_iff.1 whole.symm).1] at hw
        cases hw
    | cons c s =>
      rw [afterWord?, Option.ite_none_right_eq_some, folds_iff hletter, ih hword]
      constructor
      · rintro ⟨hc, w, hw, rfl⟩
        exact ⟨c :: w, by rw [List.map_cons, hc, hw], rfl⟩
      · rintro ⟨w, hw, whole⟩
        obtain ⟨d, ds, rfl, hd, hds⟩ := List.map_eq_cons_iff.1 hw
        obtain ⟨rfl, rfl⟩ := List.cons.inj whole
        exact ⟨hd, ds, hds, rfl⟩

theorem not_status_of_code {s r : List Char} (h : afterWord? "code".toList s = some r) :
    afterWord? "status".toList s = none := by
  cases s with
  | nil => rfl
  | cons c s =>
    have code : folds 'c' c = true := (Option.ite_none_right_eq_some.1 h).1
    have other : folds 's' c = false := by
      rw [folds_iff (by decide)] at code
      rw [Bool.eq_false_iff, ne_eq, folds_iff (by decide), code]
      decide
    exact if_neg (Bool.eq_false_iff.1 other)

theorem afterKind?_eq_some_iff {s r : List Char} : afterKind? s = some r ↔
    ∃ kind, (kind.map simpleFold = "status".toList ∨ kind.map simpleFold = "code".toList) ∧
      s = kind ++ r := by
  have either : afterKind? s = some r ↔
      afterWord? "status".toList s = some r ∨ afterWord? "code".toList s = some r := by
    rw [afterKind?, Option.orElse_eq_some]
    exact or_congr_right ⟨And.right, fun h => ⟨not_status_of_code h, h⟩⟩
  rw [either, afterWord?_eq_some_iff (by decide), afterWord?_eq_some_iff (by decide)]
  simp only [or_and_right, exists_or]

theorem wording_iff {words : List Char} : Wording words ↔
    ∃ exit kind, exit.map simpleFold = "exit ".toList ∧
      (kind.map simpleFold = "status".toList ∨ kind.map simpleFold = "code".toList) ∧
      words = exit ++ kind := by
  have status : "exit status".toList = "exit ".toList ++ "status".toList := rfl
  have code : "exit code".toList = "exit ".toList ++ "code".toList := rfl
  rw [Wording, status, code, List.map_eq_append_iff, List.map_eq_append_iff]
  constructor
  · rintro (⟨exit, kind, rfl, hexit, hkind⟩ | ⟨exit, kind, rfl, hexit, hkind⟩)
    · exact ⟨exit, kind, hexit, .inl hkind, rfl⟩
    · exact ⟨exit, kind, hexit, .inr hkind, rfl⟩
  · rintro ⟨exit, kind, hexit, hkind | hkind, rfl⟩
    · exact .inl ⟨exit, kind, rfl, hexit, hkind⟩
    · exact .inr ⟨exit, kind, rfl, hexit, hkind⟩

theorem afterWords_eq_some_iff {s r : List Char} :
    (afterWord? "exit ".toList s).bind afterKind? = some r ↔
      ∃ words, Wording words ∧ s = words ++ r := by
  simp only [Option.bind_eq_some_iff, afterKind?_eq_some_iff, wording_iff,
    afterWord?_eq_some_iff (show "exit ".toList ⊆ _ by decide)]
  constructor
  · rintro ⟨_, ⟨exit, hexit, rfl⟩, kind, hkind, rfl⟩
    exact ⟨_, ⟨exit, kind, hexit, hkind, rfl⟩, (List.append_assoc ..).symm⟩
  · rintro ⟨_, ⟨exit, kind, hexit, hkind, rfl⟩, rfl⟩
    exact ⟨_, ⟨exit, hexit, List.append_assoc ..⟩, kind, hkind, rfl⟩

theorem leadingDigits_iff {digits s : List Char} :
    LeadingDigits digits s ↔ s.takeWhile isDigit = digits ∧ digits ≠ [] := by
  constructor
  · rintro ⟨hne, hdigits, hrest⟩
    exact ⟨takeWhile_append_of_head hdigits hrest, hne⟩
  · rintro ⟨rfl, hne⟩
    have run := LeadingDigits.run hne (fun _ => List.mem_takeWhile_imp) (head_dropWhile isDigit s)
    rwa [List.takeWhile_append_dropWhile] at run

theorem LeadingDigits.head {digits s : List Char} (h : LeadingDigits digits s) :
    ∀ c ∈ s.head?, isDigit c = true := by
  obtain ⟨hne, hdigits, _⟩ := h
  obtain ⟨d, ds, rfl⟩ := List.exists_cons_of_ne_nil hne
  rintro _ ⟨⟩
  exact hdigits d List.mem_cons_self

theorem LeadingNumber.head {number s : List Char} (h : LeadingNumber number s) :
    ∀ c ∈ s.head?, isDigit c = true ∨ c = '-' := by
  cases h with
  | plain h => exact fun c hc => .inl (h.head c hc)
  | minus h =>
    rintro _ ⟨⟩
    exact .inr rfl

theorem number?_of_head {s : List Char} (h : ∀ c ∈ s.head?, c ≠ '-') : number? s =
    if (s.takeWhile isDigit).isEmpty then none else some (s.takeWhile isDigit) := by
  cases s with
  | nil => rfl
  | cons c s => exact number?_of_ne (h c rfl) s

theorem number?_eq_some_iff {s number : List Char} :
    number? s = some number ↔ LeadingNumber number s := by
  have run (f : List Char → List Char) (t : List Char) :
      (if (t.takeWhile isDigit).isEmpty then none else some (f (t.takeWhile isDigit))) =
        some number ↔ ∃ digits, LeadingDigits digits t ∧ f digits = number := by
    rw [Option.ite_none_left_eq_some, List.isEmpty_iff, Option.some.injEq]
    constructor
    · rintro ⟨hne, rfl⟩
      exact ⟨_, leadingDigits_iff.2 ⟨rfl, hne⟩, rfl⟩
    · rintro ⟨_, h, rfl⟩
      obtain ⟨rfl, hne⟩ := leadingDigits_iff.1 h
      exact ⟨hne, rfl⟩
  -- A minus is no digit, so what is read at one is a minus and the digits behind it.
  by_cases minus : s.head? = some '-'
  · obtain ⟨t, rfl⟩ := List.head?_eq_some_iff.1 minus
    refine (run ('-' :: ·) t).trans ⟨?_, fun h => ?_⟩
    · rintro ⟨_, h, rfl⟩
      exact .minus h
    · cases h with
      | plain h => exact absurd (h.head '-' rfl) (by decide)
      | minus h => exact ⟨_, h, rfl⟩
  · rw [number?_of_head fun c hc same => minus (same ▸ hc)]
    refine (run id s).trans ⟨?_, fun h => ?_⟩
    · rintro ⟨_, h, rfl⟩
      exact .plain h
    · cases h with
      | plain h => exact ⟨_, h, rfl⟩
      | minus h => exact absurd rfl minus

theorem LeadingNumber.not_blank {number s : List Char} (h : LeadingNumber number s) :
    ∀ c ∈ s.head?, isBlank c = false := by
  intro c hc
  obtain digit | rfl := h.head c hc
  · exact not_isBlank_of_isDigit digit
  · rfl

theorem afterColon_of_head {s : List Char} (h : ∀ c ∈ s.head?, c ≠ ':') : afterColon s = s := by
  cases s with
  | nil => rfl
  | cons c s => exact afterColon_of_ne (h c rfl) s

theorem exists_colon (s : List Char) : ∃ colon, (colon = [] ∨ colon = [':']) ∧
    s = colon ++ afterColon s := by
  fun_cases afterColon s with
  | case1 s => exact ⟨_, .inr rfl, rfl⟩
  | case2 s => exact ⟨_, .inl rfl, rfl⟩

theorem LeadingNumber.not_colon {number s blanks : List Char} (h : LeadingNumber number s)
    (hblanks : Blank blanks) : ∀ c ∈ (blanks ++ s).head?, c ≠ ':' := by
  rintro c hc rfl
  cases blanks with
  | nil => exact absurd (h.head ':' hc) (by decide)
  | cons b bs =>
    obtain rfl : b = ':' := Option.some.inj hc
    exact absurd (hblanks ':' List.mem_cons_self) (by decide)

theorem afterColon_append {colon s : List Char} (hcolon : colon = [] ∨ colon = [':'])
    (hs : ∀ c ∈ s.head?, c ≠ ':') : afterColon (colon ++ s) = s := by
  obtain rfl | rfl := hcolon
  · exact afterColon_of_head hs
  · rfl

theorem phrase?_eq_some_iff {s number : List Char} :
    phrase? s = some number ↔ Phrase number s := by
  rw [phrase?_eq, ← Option.bind_assoc, Option.bind_eq_some_iff]
  simp only [afterWords_eq_some_iff, number?_eq_some_iff]
  constructor
  · rintro ⟨r, ⟨words, hwords, rfl⟩, h⟩
    obtain ⟨colon, hcolon, whole⟩ := exists_colon r
    obtain ⟨blanks, hblanks, rest⟩ := exists_trimStart (afterColon r)
    rw [whole, rest]
    exact .parts hwords hcolon hblanks h
  · -- No part begins as the one before it could go on, so each is read up to where it ends.
    rintro ⟨hwords, hcolon, hblanks, h⟩
    refine ⟨_, ⟨_, hwords, rfl⟩, ?_⟩
    rwa [afterColon_append hcolon (h.not_colon hblanks), hblanks.trimStart_append,
      trimStart_of_head h.not_blank]

theorem Phrase.first {number s : List Char} (h : Phrase number s) : First number s :=
  ⟨0, h, fun j hj => absurd hj j.not_lt_zero⟩

theorem phrase?_eq_none_iff {s : List Char} :
    phrase? s = none ↔ ∀ number, ¬ Phrase number s := by
  simp only [Option.eq_none_iff_forall_ne_some, ne_eq, phrase?_eq_some_iff]

theorem find?_eq_none_iff {s : List Char} :
    find? s = none ↔ ∀ i number, ¬ Phrase number (s.drop i) := by
  induction s with
  | nil =>
    have none : phrase? [] = none := rfl
    simpa [find?] using phrase?_eq_none_iff.1 none
  | cons c s ih =>
    rw [find?, Option.orElse_eq_none, phrase?_eq_none_iff, ih]
    constructor
    · rintro ⟨here, later⟩ i
      cases i with
      | zero => exact here
      | succ i => exact later i
    · exact fun h => ⟨h 0, fun i => h (i + 1)⟩

theorem find?_eq_some_iff {s number : List Char} : find? s = some number ↔ First number s := by
  induction s with
  | nil =>
    constructor
    · intro h
      cases h
    · rintro ⟨i, h, _⟩
      exact absurd h (find?_eq_none_iff.1 rfl i number)
  | cons c s ih =>
    rw [find?, Option.orElse_eq_some, phrase?_eq_some_iff, phrase?_eq_none_iff, ih]
    constructor
    · rintro (here | ⟨none, i, later, first⟩)
      · exact here.first
      · refine ⟨i + 1, later, fun j hj => ?_⟩
        cases j with
        | zero => exact none
        | succ j => exact first j (Nat.lt_of_succ_lt_succ hj)
    · rintro ⟨i, h, first⟩
      cases i with
      | zero => exact .inl h
      | succ i =>
        exact .inr ⟨first 0 i.succ_pos, i, h, fun j hj => first (j + 1) (Nat.succ_lt_succ hj)⟩

end Doctest.Text.Exit
