import Doctest.Document.Metadata
import Doctest.Proofs.Json.Literal
import Doctest.Proofs.ReturnSpec.Grammar
import Doctest.Proofs.Text.Lines

namespace Doctest

open Json.Literal (Spells)
open Text (Blank)

/-- A value stands for a text, whatever files there are, and as an expectation too. -/
structure StandsFor (raw s : List Char) : Prop where
  value : ∀ fs base, Document.loadValue fs base raw = String.ofList s
  spec : ReturnSpec.parse raw = some (.str (String.ofList s))

theorem standsFor_of_trim {raw rest : List Char} (h : Text.trim raw = '"' :: rest) :
    StandsFor raw (unquote ('"' :: rest)) where
  value fs base := by
    rw [Document.loadValue, h]
    rfl
  spec := ReturnSpec.parse_eq_some_iff.2 (h ▸ .quoted)

theorem trim_quoted (inner : List Char) :
    Text.trim ('"' :: (inner ++ ['"'])) = '"' :: (inner ++ ['"']) := by
  refine Text.trim_eq_self ?_ ?_
  · rintro c ⟨⟩
    decide
  · intro c hc
    rw [← List.cons_append, List.getLast?_concat, Option.mem_some] at hc
    subst hc
    decide

theorem unquote_of_spells {q s : List Char} (h : Spells q s) : unquote q = s := by
  rw [unquote, h.read?_eq]

theorem trim_of_spells {q s : List Char} (h : Spells q s) : Text.trim q = q := by
  cases h with
  | quoted => exact trim_quoted _

theorem standsFor_of_spells {raw q s : List Char} (h : Spells q s) (hraw : Text.trim raw = q) :
    StandsFor raw s := by
  rw [← unquote_of_spells h]
  cases h with
  | quoted => exact standsFor_of_trim hraw

theorem unquote_of_not_spells {rest : List Char} (h : ∀ s, ¬Spells ('"' :: rest) s) :
    unquote ('"' :: rest) = if rest.getLast? = some '"' then rest.dropLast else rest := by
  have refused : Json.Literal.read? ('"' :: rest) = none := by
    rw [Option.eq_none_iff_forall_ne_some]
    intro s hs
    exact h s (Json.Literal.read?_eq_some_iff.1 hs)
  rw [unquote, refused]
  rfl

/-- Blanks around a token that starts with a quote are left out. What it spells is what it stands
for, and if it spells nothing it loses its first quote, and a last one if there is another. -/
theorem standsFor_quoted {before after : List Char} (hbefore : Blank before) (hafter : Blank after)
    (token : List Char) :
    let raw := before ++ (token ++ after)
    (∀ s, Spells token s → StandsFor raw s) ∧
      ((∀ s, ¬Spells token s) →
        (∀ inner, token = '"' :: (inner ++ ['"']) → StandsFor raw inner) ∧
          ∀ inner, token = '"' :: inner → inner.getLast? ≠ some '"' → Text.trim token = token →
            StandsFor raw inner) := by
  intro raw
  have trimmed : Text.trim raw = Text.trim token := Text.trim_between hbefore hafter token
  refine ⟨fun s h => standsFor_of_spells h (trimmed.trans (trim_of_spells h)), fun h => ⟨?_, ?_⟩⟩
  · rintro inner rfl
    have stands := standsFor_of_trim (trimmed.trans (trim_quoted inner))
    rwa [unquote_of_not_spells h, if_pos List.getLast?_concat, List.dropLast_concat] at stands
  · rintro inner rfl unclosed whole
    have stands := standsFor_of_trim (trimmed.trans whole)
    rwa [unquote_of_not_spells h, if_neg unclosed] at stands

theorem standsFor_quoted_surrogates :
    let pair := "\"\\u0041\\uD83d\\uDE00\\n\"".toList
    let single := "\"\\u0041\\uD83d\\n\"".toList
    Blank [' ', '\t'] ∧ Blank ['\u3000'] ∧
      Spells pair ['A', '😀', '\n'] ∧
      StandsFor ([' ', '\t'] ++ (pair ++ ['\u3000'])) ['A', '😀', '\n'] ∧
      (∀ s, ¬Spells single s) ∧
      StandsFor ([' ', '\t'] ++ (single ++ ['\u3000'])) "\\u0041\\uD83d\\n".toList ∧
      (∀ s, ¬Spells ['"'] s) ∧ StandsFor ([' ', '\t'] ++ (['"'] ++ ['\u3000'])) [] := by
  intro pair single
  have before : Blank [' ', '\t'] := by decide
  have after : Blank ['\u3000'] := by decide
  have spells : Spells pair ['A', '😀', '\n'] := Json.Literal.read?_eq_some_iff.1 (by decide)
  have refused {token : List Char} (h : Json.Literal.read? token = none) (s : List Char) :
      ¬Spells token s := by
    intro hs
    rw [hs.read?_eq] at h
    cases h
  have alone : ∀ s, ¬Spells single s := refused (by decide)
  have quote : ∀ s, ¬Spells ['"'] s := refused (by decide)
  exact ⟨before, after, spells, (standsFor_quoted before after pair).1 _ spells, alone,
    ((standsFor_quoted before after single).2 alone).1 _ rfl, quote,
    ((standsFor_quoted before after ['"']).2 quote).2 [] rfl (by decide) rfl⟩

theorem not_isBlank_of_intText {s : List Char} {n : Int} (h : Decimal.IntText s n) :
    ∀ c ∈ s, Text.isBlank c = false := by
  intro c hc
  obtain digit | rfl | rfl := h.isAsciiDigit_or_sign hc
  · exact Text.not_isBlank_of_isDigit (Text.isDigit_of_isAsciiDigit digit)
  · rfl
  · rfl

theorem trim_of_intText {s : List Char} {n : Int} (h : Decimal.IntText s n) : Text.trim s = s :=
  Text.trim_eq_self (fun c hc => not_isBlank_of_intText h c (List.mem_of_mem_head? hc))
    (fun c hc => not_isBlank_of_intText h c (List.mem_of_mem_getLast? hc))

namespace ReturnSpec

theorem parse_toString (n : Int32) : parse (toString n.toInt).toList = some (.i32 n) := by
  have text := Decimal.intText_toString n.toInt
  have value := Expects.int text (Int.le_trans (by decide) n.le_toInt)
    (Int.lt_of_lt_of_le n.toInt_lt (by decide))
  rw [Int32.ofInt_toInt] at value
  rwa [parse_eq_some_iff, trim_of_intText text]

end ReturnSpec

end Doctest
