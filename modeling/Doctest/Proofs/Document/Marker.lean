import Doctest.Document.Marker
import Doctest.Proofs.Text.Lines

namespace Doctest.Document

open Text (Line Blank)

/-- A line that begins with a declaration, and holds nothing else that shows. -/
inductive Announces : Line → Attributes → Prop
  | bare {blanks : Line} : Blank blanks → Announces (declarationWord ++ blanks) (.parse [])
  | listed {tags blanks : Line} : Blank blanks →
      Announces (declarationWord ++ '[' :: (tags ++ ']' :: blanks)) (.parse tags)

theorem trimEnd_listed (s tags : Line) {blanks : Line} (h : Blank blanks) :
    Text.trimEnd (s ++ '[' :: (tags ++ ']' :: blanks)) = s ++ '[' :: (tags ++ [']']) := by
  have regrouped (t : Line) : s ++ '[' :: (tags ++ ']' :: t) = (s ++ '[' :: tags ++ [']']) ++ t := by
    simp
  rw [regrouped, regrouped, h.trimEnd_append, Text.trimEnd_concat, List.append_nil]
  rfl

theorem bracketed?_eq_some {s tags : Line} :
    bracketed? s = some tags ↔ ∃ blanks, Blank blanks ∧ s = '[' :: (tags ++ ']' :: blanks) := by
  constructor
  · intro h
    obtain ⟨blanks, blank, whole⟩ := Text.exists_trimEnd s
    rw [bracketed?] at h
    split at h
    · next t ht =>
      obtain ⟨hlast, htags⟩ := Option.ite_none_right_eq_some.1 h
      obtain ⟨u, rfl⟩ := List.getLast?_eq_some_iff.1 hlast
      obtain rfl : u = tags := by simpa using htags
      refine ⟨blanks, blank, ?_⟩
      rw [whole, ht, List.cons_append, List.append_assoc, List.singleton_append]
    · cases h
  · rintro ⟨blanks, blank, rfl⟩
    have trimmed := trimEnd_listed [] tags blank
    rw [List.nil_append, List.nil_append] at trimmed
    rw [bracketed?, trimmed]
    simp

theorem declaration?_eq_some {l : Line} {a : Attributes} :
    declaration? l = some a ↔ Announces l a := by
  constructor
  · intro h
    rw [declaration?, Option.bind_eq_bind, Option.bind_eq_some_iff] at h
    obtain ⟨rest, hword, h⟩ := h
    rw [Text.after?_eq_some.1 hword]
    split at h
    · next empty =>
      obtain rfl := Option.some.inj h
      exact .bare (Text.trimEnd_eq_nil.1 (List.isEmpty_iff.1 empty))
    · obtain ⟨tags, htags, h⟩ := Option.bind_eq_some_iff.1 h
      obtain rfl := Option.some.inj h
      obtain ⟨blanks, blank, rfl⟩ := bracketed?_eq_some.1 htags
      exact .listed blank
  · intro h
    cases h with
    | bare blank =>
      rw [declaration?, Text.after?_append, Option.bind_eq_bind, Option.bind_some,
        Text.trimEnd_eq_nil.2 blank]
      rfl
    | @listed tags blanks blank =>
      have shown := trimEnd_listed [] tags blank
      rw [List.nil_append, List.nil_append] at shown
      have list : bracketed? ('[' :: (tags ++ ']' :: blanks)) = some tags :=
        bracketed?_eq_some.2 ⟨blanks, blank, rfl⟩
      rw [declaration?, Text.after?_append, Option.bind_eq_bind, Option.bind_some, shown, list]
      rfl

theorem Announces.append {l blanks : Line} {a : Attributes} (h : Announces l a)
    (hblanks : Blank blanks) : Announces (l ++ blanks) a := by
  cases h with
  | bare blank =>
    rw [List.append_assoc]
    exact .bare (blank.append hblanks)
  | listed blank =>
    rw [List.append_assoc, List.cons_append, List.append_assoc, List.cons_append]
    exact .listed (blank.append hblanks)

theorem Announces.trimEnd {l : Line} {a : Attributes} (h : Announces l a) :
    Announces (Text.trimEnd l) a := by
  cases h with
  | bare blank =>
    rw [blank.trimEnd_append]
    exact @Announces.bare [] nofun
  | listed blank =>
    rw [trimEnd_listed _ _ blank]
    exact .listed nofun

theorem declaration?_trimEnd (l : Line) : declaration? (Text.trimEnd l) = declaration? l := by
  obtain ⟨blanks, blank, whole⟩ := Text.exists_trimEnd l
  ext a
  rw [declaration?_eq_some, declaration?_eq_some]
  constructor
  · intro h
    rw [whole]
    exact h.append blank
  · exact Announces.trimEnd

end Doctest.Document
