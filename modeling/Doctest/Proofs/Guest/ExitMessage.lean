import Doctest.Guest.Sandbox
import Doctest.Proofs.Decimal.Integer
import Doctest.Proofs.Text.ExitGrammar

namespace Doctest.Guest

open Decimal (IntText)
open Text (isDigit)
open Text.Exit (First LeadingDigits LeadingNumber Phrase find?_append_of_barren find?_eq_none_iff
  find?_eq_some_iff)

/-- The exit code that a message gives. A first number that is no decimal one of 32 bits is not
passed over for a later one. -/
inductive Gives (message : List Char) : Int32 → Prop
  | named {number : List Char} {n : Int32} :
      First number message → IntText number n.toInt → Gives message n
  | unread {number : List Char} :
      First number message → (∀ n : Int32, ¬ IntText number n.toInt) → Gives message 1
  | unnamed : (∀ i number, ¬ Phrase number (message.drop i)) → Gives message 1

theorem signed?_toInt_iff {number : List Char} {n : Int32} :
    Decimal.signed? 32 number = some n.toInt ↔ IntText number n.toInt := by
  rw [Decimal.signed?_eq_some_iff]
  exact and_iff_left ⟨n.le_toInt, n.toInt_lt⟩

theorem exists_toInt {number : List Char} {m : Int} (h : Decimal.signed? 32 number = some m) :
    ∃ n : Int32, n.toInt = m := by
  obtain ⟨_, low, high⟩ := Decimal.signed?_eq_some_iff.1 h
  exact ⟨Int32.ofInt m, Int32.toInt_ofInt_of_le low high⟩

theorem signed?_eq_none_iff {number : List Char} :
    Decimal.signed? 32 number = none ↔ ∀ n : Int32, ¬ IntText number n.toInt := by
  rw [Option.eq_none_iff_forall_ne_some]
  constructor
  · exact fun none n text => none n.toInt (signed?_toInt_iff.2 text)
  · intro unread m hm
    obtain ⟨n, rfl⟩ := exists_toInt hm
    exact unread n (signed?_toInt_iff.1 hm)

theorem gives_exitCodeOf (message : List Char) : Gives message (exitCodeOf message) := by
  fun_cases exitCodeOf message with
  | case1 number hfind m hread =>
    obtain ⟨n, rfl⟩ := exists_toInt hread
    rw [Int32.ofInt_toInt]
    exact .named (find?_eq_some_iff.1 hfind) (signed?_toInt_iff.1 hread)
  | case2 number hfind hread =>
    exact .unread (find?_eq_some_iff.1 hfind) (signed?_eq_none_iff.1 hread)
  | case3 hfind => exact .unnamed (find?_eq_none_iff.1 hfind)

theorem Gives.exitCodeOf_eq {message : List Char} {n : Int32} (h : Gives message n) :
    exitCodeOf message = n := by
  cases h with
  | named first text =>
    simp only [exitCodeOf, find?_eq_some_iff.2 first, signed?_toInt_iff.2 text,
      Int32.ofInt_toInt]
  | unread first unread =>
    simp only [exitCodeOf, find?_eq_some_iff.2 first, signed?_eq_none_iff.2 unread]
  | unnamed none => simp only [exitCodeOf, find?_eq_none_iff.2 none]

theorem leadingDigits_toDigits (n : Nat) {rest : List Char}
    (h : ∀ c ∈ rest.head?, isDigit c = false) :
    LeadingDigits (Nat.toDigits 10 n) (Nat.toDigits 10 n ++ rest) := by
  refine .run (by simp) (fun c hc => ?_) h
  exact Text.isDigit_of_isAsciiDigit (Decimal.isAsciiDigit_of_mem_toDigits hc)

theorem leadingNumber_toString (n : Int) {rest : List Char}
    (h : ∀ c ∈ rest.head?, isDigit c = false) :
    LeadingNumber (toString n).toList ((toString n).toList ++ rest) := by
  rw [Decimal.toList_toString]
  split
  · exact .plain (leadingDigits_toDigits _ h)
  · exact .minus (leadingDigits_toDigits _ h)

theorem first_exited (n : Int32) {rest : List Char} (h : ∀ c ∈ rest.head?, isDigit c = false) :
    First (toString n.toInt).toList
      (s!"Exited with i32 exit status {n.toInt}".toList ++ rest) := by
  have phrase : Phrase (toString n.toInt).toList
      ("exit status".toList ++ ([] ++ ([' '] ++ ((toString n.toInt).toList ++ rest)))) :=
    .parts (.inl rfl) (.inl rfl) (by decide) (leadingNumber_toString n.toInt h)
  have parts : s!"Exited with i32 exit status {n.toInt}".toList ++ rest =
      "Exited with i32 ".toList ++
        ("exit status".toList ++ ([] ++ ([' '] ++ ((toString n.toInt).toList ++ rest)))) := by
    rw [String.toList_append, List.append_assoc]
    rfl
  rw [← find?_eq_some_iff, parts, find?_append_of_barren _ (by decide), find?_eq_some_iff]
  exact phrase.first

/-- What the first phrase of a message says is its code, and a message in which it says nothing, or
which has none, gives one. -/
theorem exitCodeOf_message :
    (∀ (message : List Char) (n : Int32), exitCodeOf message = n ↔ Gives message n) ∧
    ∀ (n : Int32) (rest : List Char), (∀ c ∈ rest.head?, isDigit c = false) →
      exitCodeOf (s!"Exited with i32 exit status {n.toInt}".toList ++ rest) = n := by
  refine ⟨fun message n => ⟨?_, Gives.exitCodeOf_eq⟩, fun n rest h => ?_⟩
  · rintro rfl
    exact gives_exitCodeOf message
  · exact (Gives.named (first_exited n h) (Decimal.intText_toString n.toInt)).exitCodeOf_eq

theorem exitCodeOf_message_least :
    let rest := ", exit code 7".toList
    let message := "Exit exit ſtatus: 2147483648, exit code 7".toList
    (∀ c ∈ rest.head?, isDigit c = false) ∧
      exitCodeOf ("Exited with i32 exit status -2147483648".toList ++ rest) = Int32.minValue ∧
      First "2147483648".toList message ∧ exitCodeOf message = 1 := by
  intro rest message
  have stop : ∀ c ∈ rest.head?, isDigit c = false := by
    rintro _ ⟨⟩
    rfl
  have first : First "2147483648".toList message := find?_eq_some_iff.1 rfl
  have unread := signed?_eq_none_iff.1 (show Decimal.signed? 32 "2147483648".toList = none by decide)
  exact ⟨stop, exitCodeOf_message.2 Int32.minValue rest stop, first,
    (exitCodeOf_message.1 message 1).2 (.unread first unread)⟩

end Doctest.Guest
