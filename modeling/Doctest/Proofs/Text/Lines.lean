import Doctest.Text.Blank
import Doctest.Text.Line
import Mathlib.Data.List.TakeWhile

namespace Doctest.Text

theorem splitOn_of_not_mem {sep : Char} {s : List Char} (h : sep ∉ s) : splitOn sep s = [s] := by
  induction s with
  | nil => rfl
  | cons c s ih =>
    simp only [List.mem_cons, not_or] at h
    rw [splitOn, if_neg (Ne.symm h.1), ih h.2]

theorem not_mem_of_mem_splitOn {sep : Char} {s piece : List Char} (h : piece ∈ splitOn sep s) :
    sep ∉ piece := by
  induction s generalizing piece with
  | nil =>
    obtain rfl := List.mem_singleton.1 h
    exact List.not_mem_nil
  | cons c s ih =>
    rw [splitOn] at h
    split at h
    · obtain rfl | h := List.mem_cons.1 h
      · exact List.not_mem_nil
      · exact ih h
    · next hc =>
      split at h
      · next hs => exact absurd hs (splitOn_ne_nil sep s)
      · next first pieces hs =>
        rw [hs] at ih
        obtain rfl | h := List.mem_cons.1 h
        · exact List.not_mem_cons_of_ne_of_not_mem (Ne.symm hc) (ih List.mem_cons_self)
        · exact ih (List.mem_cons_of_mem first h)

theorem splitOn_append_sep {sep : Char} {s : List Char} (t : List Char) (h : sep ∉ s) :
    splitOn sep (s ++ sep :: t) = s :: splitOn sep t := by
  induction s with
  | nil => simp [splitOn]
  | cons c s ih =>
    simp only [List.mem_cons, not_or] at h
    rw [List.cons_append, splitOn, if_neg (Ne.symm h.1), ih h.2]

theorem splitOn_joinWith {sep : Char} {pieces : List (List Char)} (hne : pieces ≠ [])
    (h : ∀ p ∈ pieces, sep ∉ p) : splitOn sep (joinWith [sep] pieces) = pieces := by
  induction pieces with
  | nil => exact absurd rfl hne
  | cons p pieces ih =>
    have hp := h p List.mem_cons_self
    cases pieces with
    | nil => exact splitOn_of_not_mem hp
    | cons q pieces =>
      have rest := ih (List.cons_ne_nil q pieces) fun r hr => h r (List.mem_cons_of_mem p hr)
      rw [joinWith, List.append_assoc, List.singleton_append, splitOn_append_sep _ hp, rest]
      exact List.cons_ne_nil q pieces

theorem mem_joinWith {c : Char} {sep : List Char} {pieces : List (List Char)}
    (h : c ∈ joinWith sep pieces) : c ∈ sep ∨ ∃ p ∈ pieces, c ∈ p := by
  fun_induction joinWith sep pieces with
  | case1 => cases h
  | case2 p => exact .inr ⟨p, List.mem_singleton.2 rfl, h⟩
  | case3 p pieces _ ih =>
    obtain (hp | hsep) | hrest := (List.mem_append.1 h).imp_left List.mem_append.1
    · exact .inr ⟨p, List.mem_cons_self, hp⟩
    · exact .inl hsep
    · obtain hsep | ⟨q, hq, hc⟩ := ih hrest
      · exact .inl hsep
      · exact .inr ⟨q, List.mem_cons_of_mem p hq, hc⟩

theorem prefix_joinWith {sep : List Char} {front pieces : List (List Char)}
    (h : front <+: pieces) : joinWith sep front <+: joinWith sep pieces := by
  induction front generalizing pieces with
  | nil => exact List.nil_prefix
  | cons piece front ih =>
    obtain ⟨rest, rfl⟩ := h
    cases front with
    | nil =>
      cases rest with
      | nil => exact List.prefix_refl _
      | cons next rest => exact (List.prefix_append piece _).trans (List.prefix_append _ _)
    | cons next front =>
      have more := ih (List.prefix_append (next :: front) rest)
      exact (List.prefix_append_right_inj (piece ++ sep)).2 more

theorem unifyLineEnds_of_not_mem {s : List Char} (h : '\r' ∉ s) : unifyLineEnds s = s := by
  fun_induction unifyLineEnds s with
  | case1 => rfl
  | case2 s => exact absurd List.mem_cons_self h
  | case3 c s _ ih =>
    simp only [List.mem_cons, not_or] at h
    rw [if_neg (Ne.symm h.1), ih h.2]

def IsLine (l : Line) : Prop := '\n' ∉ l ∧ '\r' ∉ l

instance (l : Line) : Decidable (IsLine l) := inferInstanceAs (Decidable (_ ∧ _))

theorem lines_joinLines {ls : List Line} (hne : ls ≠ []) (h : ∀ l ∈ ls, IsLine l) :
    lines (joinLines ls) = ls := by
  have unified : '\r' ∉ joinLines ls := by
    intro hr
    obtain hsep | ⟨l, hl, hc⟩ := mem_joinWith hr
    · simp at hsep
    · exact (h l hl).2 hc
  rw [lines, unifyLineEnds_of_not_mem unified]
  exact splitOn_joinWith hne fun l hl => (h l hl).1

theorem joinLines_inj {as bs : List Line} (hlength : as.length = bs.length)
    (has : ∀ l ∈ as, IsLine l) (hbs : ∀ l ∈ bs, IsLine l) :
    joinLines as = joinLines bs ↔ as = bs := by
  refine ⟨fun h => ?_, congrArg joinLines⟩
  cases as with
  | nil => exact (List.length_eq_zero_iff.1 hlength.symm).symm
  | cons a as =>
    have hne : bs ≠ [] := by
      rintro rfl
      cases hlength
    rw [← lines_joinLines (List.cons_ne_nil a as) has, h, lines_joinLines hne hbs]

theorem trimStart_of_head {s : List Char} (h : ∀ c ∈ s.head?, isBlank c = false) :
    trimStart s = s := by
  cases s with
  | nil => rfl
  | cons c s => simp [trimStart_cons, h c rfl]

theorem trimEnd_of_getLast {s : List Char} (h : ∀ c ∈ s.getLast?, isBlank c = false) :
    trimEnd s = s := by
  rw [← List.head?_reverse] at h
  have start := trimStart_of_head h
  rw [trimStart] at start
  rw [trimEnd, start, List.reverse_reverse]

theorem trim_eq_self {s : List Char} (hhead : ∀ c ∈ s.head?, isBlank c = false)
    (hlast : ∀ c ∈ s.getLast?, isBlank c = false) : trim s = s := by
  rw [trim, trimStart_of_head hhead, trimEnd_of_getLast hlast]

def Blank (s : List Char) : Prop := ∀ c ∈ s, isBlank c = true

instance (s : List Char) : Decidable (Blank s) :=
  decidable_of_iff (s.all isBlank = true) List.all_eq_true

theorem Blank.append {s t : List Char} (hs : Blank s) (ht : Blank t) : Blank (s ++ t) :=
  List.forall_mem_append.2 ⟨hs, ht⟩

theorem Blank.trimStart_append {s : List Char} (h : Blank s) (t : List Char) :
    trimStart (s ++ t) = trimStart t := List.dropWhile_append_of_pos h

theorem trimEnd_eq_nil {s : List Char} : trimEnd s = [] ↔ Blank s := by
  simp [trimEnd, Blank]

theorem trimEnd_append (s t : List Char) :
    trimEnd (s ++ t) = if trimEnd t = [] then trimEnd s else s ++ trimEnd t := by
  simp only [trimEnd, List.reverse_append, List.dropWhile_append, List.isEmpty_iff,
    List.reverse_eq_nil_iff]
  split
  · rfl
  · rw [List.reverse_append, List.reverse_reverse]

theorem Blank.trimEnd_append {t : List Char} (h : Blank t) (s : List Char) :
    trimEnd (s ++ t) = trimEnd s := by
  rw [Text.trimEnd_append, if_pos (trimEnd_eq_nil.2 h)]

theorem exists_trimStart (s : List Char) : ∃ blanks, Blank blanks ∧ s = blanks ++ trimStart s :=
  ⟨s.takeWhile isBlank, fun _ hc => List.mem_takeWhile_imp hc, List.takeWhile_append_dropWhile.symm⟩

theorem exists_trimEnd (s : List Char) : ∃ blanks, Blank blanks ∧ s = trimEnd s ++ blanks := by
  obtain ⟨blanks, blank, whole⟩ := exists_trimStart s.reverse
  refine ⟨blanks.reverse, fun c hc => blank c (List.mem_reverse.1 hc), ?_⟩
  have turned := congrArg List.reverse whole
  rwa [List.reverse_append, List.reverse_reverse] at turned

theorem IsLine.trimEnd {l : Line} (h : IsLine l) : IsLine (trimEnd l) := by
  obtain ⟨blanks, _, whole⟩ := exists_trimEnd l
  rw [whole] at h
  exact ⟨fun hlf => h.1 (List.mem_append_left _ hlf), fun hcr => h.2 (List.mem_append_left _ hcr)⟩

theorem trimEnd_trimEnd (s : List Char) : trimEnd (trimEnd s) = trimEnd s := by
  obtain ⟨blanks, blank, whole⟩ := exists_trimEnd s
  conv => rhs; rw [whole, blank.trimEnd_append]

theorem trimEnd_cons (c : Char) (s : List Char) : trimEnd (c :: s) =
    if trimEnd s = [] then if isBlank c then [] else [c] else c :: trimEnd s := by
  have first : trimEnd [c] = if isBlank c then [] else [c] := trimEnd_concat [] c
  rw [← List.singleton_append, trimEnd_append, first]
  rfl

theorem trimStart_trimEnd (s : List Char) : trimStart (trimEnd s) = trimEnd (trimStart s) := by
  induction s with
  | nil => rfl
  | cons c s ih =>
    rw [trimEnd_cons, trimStart_cons]
    cases hc : isBlank c with
    | true =>
      rw [if_pos rfl, if_pos rfl, ← ih]
      split
      · next h => rw [h]
      · rw [trimStart_cons, if_pos hc]
    | false =>
      simp only [Bool.false_eq_true, if_false]
      rw [trimEnd_cons, hc]
      split <;> simp [trimStart_cons, hc]

theorem trim_trimEnd (s : List Char) : trim (trimEnd s) = trim s := by
  rw [trim, trimStart_trimEnd, trimEnd_trimEnd, trim]

theorem trim_between {before after : List Char} (hbefore : Blank before) (hafter : Blank after)
    (s : List Char) : trim (before ++ (s ++ after)) = trim s := by
  rw [trim, hbefore.trimStart_append, ← trimStart_trimEnd, hafter.trimEnd_append,
    trimStart_trimEnd, trim]

theorem trimEnd_eq_self {s : List Char} :
    trimEnd s = s ↔ ∀ c ∈ s.getLast?, isBlank c = false := by
  refine ⟨fun h c hc => ?_, trimEnd_of_getLast⟩
  obtain ⟨t, rfl⟩ := List.getLast?_eq_some_iff.1 hc
  rw [trimEnd_concat] at h
  split at h
  · obtain ⟨blanks, _, whole⟩ := exists_trimEnd t
    have longer := congrArg List.length whole
    have shorter := congrArg List.length h
    simp only [List.length_append, List.length_singleton] at longer shorter
    omega
  · next hc => exact Bool.eq_false_iff.2 hc

theorem after?_trimEnd {lead : List Char} (h : trimEnd lead = lead) (s : List Char) :
    after? lead (trimEnd s) = (after? lead s).map trimEnd := by
  have trimmed (t : List Char) : trimEnd (lead ++ t) = lead ++ trimEnd t := by
    rw [trimEnd_append]
    split
    · next ht => rw [h, ht, List.append_nil]
    · rfl
  cases hs : after? lead s with
  | some t => rw [after?_eq_some.1 hs, trimmed, after?_append, Option.map_some]
  | none =>
    cases ht : after? lead (trimEnd s) with
    | none => rfl
    | some t =>
      obtain ⟨blanks, _, whole⟩ := exists_trimEnd s
      rw [whole, after?_eq_some.1 ht, List.append_assoc, after?_append] at hs
      cases hs

end Doctest.Text
