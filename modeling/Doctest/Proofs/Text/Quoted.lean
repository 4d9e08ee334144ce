import Doctest.Json.Literal
import Doctest.Proofs.Text.Span
import Doctest.Text.Quoted

namespace Doctest.Text

def ofHexDigits (ds : List Char) : Nat :=
  ds.foldl (fun n d => 16 * n + (Json.Literal.hexValue? d).getD 0) 0

def shortEscape? : Char → Option Char
  | '0' => some '\x00'
  | 't' => some '\t'
  | 'r' => some '\r'
  | 'n' => some '\n'
  | '"' => some '"'
  | '\\' => some '\\'
  | _ => none

def readChar? : List Char → Option (Char × List Char)
  | [] => none
  | '\\' :: 'u' :: '\x7b' :: s =>
    let digits := s.takeWhile (· ≠ '\x7d')
    some (Char.ofNat (ofHexDigits digits), s.drop (digits.length + 1))
  | '\\' :: e :: s => (shortEscape? e).map (·, s)
  | c :: s => some (c, s)

theorem hexValue?_digitChar {d : Nat} (h : d < 16) :
    Json.Literal.hexValue? d.digitChar = some d := by
  have all : ∀ d < 16, Json.Literal.hexValue? (Nat.digitChar d) = some d := by decide
  exact all d h

theorem hexDigits_eq (n : Nat) : hexDigits n =
    if n < 16 then [n.digitChar] else hexDigits (n / 16) ++ [(n % 16).digitChar] :=
  Nat.toDigits_eq_if (by decide)

theorem ofHexDigits_hexDigits (n : Nat) : ofHexDigits (hexDigits n) = n := by
  induction n using Nat.strongRecOn with
  | ind n ih =>
    rw [hexDigits_eq]
    split
    · next small => simp [ofHexDigits, hexValue?_digitChar small]
    · next large =>
      have upper := ih (n / 16) (by omega)
      have lower := hexValue?_digitChar (Nat.mod_lt n (by decide : 0 < 16))
      rw [ofHexDigits] at upper ⊢
      rw [List.foldl_append, upper, List.foldl_cons, List.foldl_nil, lower, Option.getD_some]
      omega

theorem digitChar_of_mem_hexDigits {c : Char} {n : Nat} (h : c ∈ hexDigits n) :
    ∃ d < 16, c = Nat.digitChar d := by
  induction n using Nat.strongRecOn with
  | ind n ih =>
    rw [hexDigits_eq] at h
    split at h
    · next small => exact ⟨n, small, List.mem_singleton.1 h⟩
    · next large =>
      obtain upper | lower := List.mem_append.1 h
      · exact ih (n / 16) (by omega) upper
      · exact ⟨n % 16, Nat.mod_lt n (by decide), List.mem_singleton.1 lower⟩

theorem not_brace_of_mem_hexDigits {c : Char} {n : Nat} (h : c ∈ hexDigits n) : c ≠ '\x7d' := by
  obtain ⟨d, small, rfl⟩ := digitChar_of_mem_hexDigits h
  have all : ∀ d < 16, Nat.digitChar d ≠ '\x7d' := by decide
  exact all d small

theorem readChar?_number (c : Char) (s : List Char) :
    readChar? ('\\' :: 'u' :: '\x7b' :: (hexDigits c.toNat ++ '\x7d' :: s)) = some (c, s) := by
  have digits : (hexDigits c.toNat ++ '\x7d' :: s).takeWhile (· ≠ '\x7d') = hexDigits c.toNat :=
    takeWhile_append_stop (fun d hd => by simpa using not_brace_of_mem_hexDigits hd) (by simp)
  rw [readChar?]
  simp only [digits]
  rw [ofHexDigits_hexDigits, Char.ofNat_toNat, ← List.drop_drop, List.drop_left, List.drop_one,
    List.tail_cons]

theorem readChar?_plain {c : Char} (h : c ≠ '\\') (s : List Char) :
    readChar? (c :: s) = some (c, s) := by
  unfold readChar?
  split <;> simp_all

theorem readChar?_quoteChar (visible : Char → Bool) (c : Char) (s : List Char) :
    readChar? (quoteChar visible c ++ s) = some (c, s) := by
  unfold quoteChar
  split
  case h_7 _ _ _ _ _ _ backslash =>
    split
    · exact readChar?_plain backslash s
    · simpa using readChar?_number _ s
  all_goals rfl

theorem flatMap_quoteChar_injective (visible : Char → Bool) :
    Function.Injective fun s : List Char => s.flatMap (quoteChar visible) := by
  have first (c : Char) (s : List Char) : readChar? ((c :: s).flatMap (quoteChar visible)) =
      some (c, s.flatMap (quoteChar visible)) := by
    rw [List.flatMap_cons, readChar?_quoteChar]
  -- reading from both written texts takes their first characters off together
  intro s
  induction s with
  | nil =>
    intro t h
    cases t with
    | nil => rfl
    | cons d t =>
      have read := congrArg readChar? h
      simp only [first] at read
      cases read
  | cons c s ih =>
    intro t h
    have read := congrArg readChar? h
    cases t with
    | nil =>
      simp only [first] at read
      cases read
    | cons d t =>
      simp only [first, Option.some.injEq, Prod.mk.injEq] at read
      obtain ⟨rfl, rest⟩ := read
      rw [ih rest]

theorem quoted_injective : Function.Injective quoted := by
  intro s t h
  have same : quote s.toList = quote t.toList := String.ofList_injective h
  simp only [quote, List.cons.injEq, true_and, List.append_cancel_right_eq] at same
  exact String.toList_inj.1 (flatMap_quoteChar_injective isVisible same)

end Doctest.Text
