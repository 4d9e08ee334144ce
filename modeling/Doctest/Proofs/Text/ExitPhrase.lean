import Doctest.Text.Exit

/-! Where a message is put together from parts, an exit code is found in one of the parts. Text that
no phrase begins in can be left out, and text that no phrase reaches into divides a message. -/

namespace Doctest.Text.Exit

def differs : List Char → List Char → Bool
  | letter :: word, c :: s => !folds letter c || differs word s
  | _, _ => false

theorem differs_append {word s : List Char} (t : List Char) (h : differs word s = true) :
    differs word (s ++ t) = true := by
  induction word generalizing s with
  | nil => cases h
  | cons letter word ih =>
    cases s with
    | nil => cases h
    | cons c s =>
      simp only [differs, List.cons_append, Bool.or_eq_true] at h ⊢
      exact h.imp_right ih

theorem afterWord?_of_differs {word s : List Char} (h : differs word s = true) :
    afterWord? word s = none := by
  induction word generalizing s with
  | nil => cases h
  | cons letter word ih =>
    cases s with
    | nil => rfl
    | cons c s =>
      simp only [differs, Bool.or_eq_true, Bool.not_eq_true'] at h
      rw [afterWord?]
      split
      · next folded => exact ih (h.resolve_left (by simp [folded]))
      · rfl

/-- No phrase begins in the text, whatever comes after it. -/
def barren : List Char → Bool
  | [] => true
  | c :: s => differs "exit ".toList (c :: s) && barren s

theorem barren_append {s t : List Char} (hs : barren s = true) (ht : barren t = true) :
    barren (s ++ t) = true := by
  induction s with
  | nil => exact ht
  | cons c s ih =>
    simp only [barren, List.cons_append, Bool.and_eq_true] at hs ⊢
    exact ⟨differs_append t hs.1, ih hs.2⟩

theorem barren_intercalate {s : List Char} {parts : List (List Char)}
    (hs : barren s = true) (hparts : ∀ p ∈ parts, barren p = true) :
    barren (s.intercalate parts) = true := by
  induction parts with
  | nil => rfl
  | cons p parts ih =>
    have hp := hparts p List.mem_cons_self
    have rest := ih fun q hq => hparts q (List.mem_cons_of_mem p hq)
    cases parts with
    | nil => simpa using hp
    | cons q parts =>
      rw [List.intercalate_cons_cons]
      exact barren_append (barren_append hp hs) rest

theorem phrase?_of_differs {s : List Char} (h : differs "exit ".toList s = true) :
    phrase? s = none := by
  rw [phrase?, afterWord?_of_differs h]
  rfl

theorem find?_append_of_barren {s : List Char} (t : List Char) (h : barren s = true) :
    find? (s ++ t) = find? t := by
  induction s with
  | nil => rfl
  | cons c s ih =>
    simp only [barren, Bool.and_eq_true] at h
    have none : phrase? (c :: (s ++ t)) = none := phrase?_of_differs (differs_append t h.1)
    rw [List.cons_append, find?, none, ih h.2]
    rfl

theorem find?_of_barren {s : List Char} (h : barren s = true) : find? s = none := by
  have whole := find?_append_of_barren [] h
  rwa [List.append_nil] at whole

theorem afterWord?_append (word s t : List Char) :
    (∃ r, afterWord? word s = some r ∧ afterWord? word (s ++ t) = some (r ++ t)) ∨
    (afterWord? word s = none ∧ (afterWord? word (s ++ t) = none ∨
      ∃ v, v ≠ [] ∧ v <:+ word ∧ afterWord? word (s ++ t) = afterWord? v t)) := by
  induction word generalizing s with
  | nil => exact .inl ⟨s, rfl, rfl⟩
  | cons letter word ih =>
    cases s with
    | nil => exact .inr ⟨rfl, .inr ⟨letter :: word, nofun, List.suffix_rfl, rfl⟩⟩
    | cons c s =>
      simp only [List.cons_append, afterWord?]
      cases folds letter c with
      | false => exact .inr ⟨rfl, .inl rfl⟩
      | true =>
        obtain found | ⟨hs, apart | ⟨v, hv, hsuffix, on⟩⟩ := ih s
        · exact .inl found
        · exact .inr ⟨hs, .inl apart⟩
        · exact .inr ⟨hs, .inr ⟨v, hv, hsuffix.trans (List.suffix_cons letter word), on⟩⟩

def afterKind? (s : List Char) : Option (List Char) :=
  afterWord? "status".toList s <|> afterWord? "code".toList s

theorem phrase?_eq (s : List Char) : phrase? s = (afterWord? "exit ".toList s).bind fun r =>
    (afterKind? r).bind fun r => number? (trimStart (afterColon r)) := rfl

theorem number?_of_ne {c : Char} (h : c ≠ '-') (s : List Char) : number? (c :: s) =
    if ((c :: s).takeWhile isDigit).isEmpty then none else some ((c :: s).takeWhile isDigit) := by
  rw [number?]
  · rfl
  · intro t same
    exact h (List.cons.inj same).1

theorem afterColon_of_ne {c : Char} (h : c ≠ ':') (s : List Char) :
    afterColon (c :: s) = c :: s := by
  rw [afterColon]
  intro t same
  exact h (List.cons.inj same).1

/-- A text that no phrase reaches into from before. -/
structure Divides (t : List Char) : Prop where
  letters : ∀ letter ∈ "exitstatuscode".toList, ∀ word, afterWord? (letter :: word) t = none
  space : (afterWord? " ".toList t).bind afterKind? = none
  colon : number? (trimStart (afterColon t)) = none
  blank : number? (trimStart t) = none
  digit : t.takeWhile isDigit = []

namespace Divides

variable {t : List Char}

theorem takeWhile_append (h : Divides t) (s : List Char) :
    (s ++ t).takeWhile isDigit = s.takeWhile isDigit := by
  rw [List.takeWhile_append]
  split
  · next whole =>
    have all := (List.takeWhile_prefix isDigit).eq_of_length whole
    rw [h.digit, List.append_nil, all]
  · rfl

theorem number?_append (h : Divides t) {s : List Char} (hs : s ≠ []) :
    number? (s ++ t) = number? s := by
  cases s with
  | nil => exact absurd rfl hs
  | cons c s =>
    by_cases minus : c = '-'
    · subst minus
      simp only [number?, List.cons_append, h.takeWhile_append]
    · have digits := h.takeWhile_append (c :: s)
      rw [List.cons_append] at digits
      rw [List.cons_append, number?_of_ne minus, number?_of_ne minus, digits]

theorem number?_trimStart_append (h : Divides t) (s : List Char) :
    number? (trimStart (s ++ t)) = number? (trimStart s) := by
  induction s with
  | nil => exact h.blank
  | cons c s ih =>
    rw [List.cons_append, trimStart_cons, trimStart_cons]
    cases isBlank c with
    | true => exact ih
    | false => exact h.number?_append (List.cons_ne_nil c s)

theorem number?_afterColon_append (h : Divides t) (s : List Char) :
    number? (trimStart (afterColon (s ++ t))) = number? (trimStart (afterColon s)) := by
  cases s with
  | nil => exact h.colon
  | cons c s =>
    by_cases colon : c = ':'
    · subst colon
      exact h.number?_trimStart_append s
    · rw [List.cons_append, afterColon_of_ne colon, afterColon_of_ne colon]
      exact h.number?_trimStart_append (c :: s)

theorem afterWord?_append (h : Divides t) {word : List Char}
    (hw : word ⊆ "exitstatuscode".toList) (s : List Char) :
    afterWord? word (s ++ t) = (afterWord? word s).map (· ++ t) := by
  obtain ⟨r, hs, on⟩ | ⟨hs, apart | ⟨v, hv, hsuffix, on⟩⟩ := Exit.afterWord?_append word s t
  · rw [hs, on]
    rfl
  · rw [hs, apart]
    rfl
  · cases v with
    | nil => exact absurd rfl hv
    | cons letter v =>
      rw [hs, on, h.letters letter (hw (hsuffix.subset List.mem_cons_self))]
      rfl

theorem afterKind?_append (h : Divides t) (s : List Char) :
    afterKind? (s ++ t) = (afterKind? s).map (· ++ t) := by
  have status : "status".toList ⊆ "exitstatuscode".toList := by decide
  have code : "code".toList ⊆ "exitstatuscode".toList := by decide
  simp only [afterKind?, h.afterWord?_append status, h.afterWord?_append code]
  cases afterWord? "status".toList s <;> rfl

theorem lead (h : Divides t) {v : List Char} (hv : v ≠ []) (hsuffix : v <:+ "exit ".toList) :
    (afterWord? v t).bind afterKind? = none := by
  have hsuffix : v <:+ "exit".toList ++ [' '] := hsuffix
  rw [List.suffix_concat_iff] at hsuffix
  obtain rfl | ⟨u, rfl, hu⟩ := hsuffix
  · exact absurd rfl hv
  · cases u with
    | nil => exact h.space
    | cons letter u =>
      have exit : "exit".toList ⊆ "exitstatuscode".toList := by decide
      rw [List.cons_append, h.letters letter (exit (hu.subset List.mem_cons_self))]
      rfl

theorem phrase?_append (h : Divides t) (s : List Char) : phrase? (s ++ t) = phrase? s := by
  have rest (r : List Char) :
      ((afterKind? (r ++ t)).bind fun r => number? (trimStart (afterColon r))) =
        (afterKind? r).bind fun r => number? (trimStart (afterColon r)) := by
    rw [h.afterKind?_append]
    cases afterKind? r with
    | none => rfl
    | some r => exact h.number?_afterColon_append r
  rw [phrase?_eq, phrase?_eq]
  obtain ⟨r, hs, on⟩ | ⟨hs, apart | ⟨v, hv, hsuffix, on⟩⟩ :=
    Exit.afterWord?_append "exit ".toList s t
  · rw [hs, on]
    exact rest r
  · rw [hs, apart]
  · have lead := h.lead hv hsuffix
    rw [hs, on]
    cases hr : afterWord? v t with
    | none => rfl
    | some r =>
      rw [hr] at lead
      simp only [Option.bind_some] at lead ⊢
      rw [lead]
      rfl

theorem find?_append (h : Divides t) (s : List Char) :
    find? (s ++ t) = (find? s <|> find? t) := by
  induction s with
  | nil => rfl
  | cons c s ih =>
    have first : phrase? (c :: (s ++ t)) = phrase? (c :: s) := h.phrase?_append (c :: s)
    rw [List.cons_append, find?, find?, first, ih]
    cases phrase? (c :: s) <;> rfl

end Divides

theorem afterWord?_of_not_folds {letters : List Char} {c : Char}
    (h : letters.any (folds · c) = false) (s : List Char) :
    ∀ letter ∈ letters, ∀ word, afterWord? (letter :: word) (c :: s) = none := by
  intro letter hletter word
  have apart : folds letter c = false := by
    simpa using List.any_eq_false.1 h letter hletter
  rw [afterWord?, apart]
  rfl

theorem divides_colons (s : List Char) : Divides (':' :: ':' :: s) where
  letters := afterWord?_of_not_folds rfl (':' :: s)
  space := rfl
  colon := rfl
  blank := rfl
  digit := rfl

theorem divides_expected (s : List Char) : Divides (": expected".toList ++ s) where
  letters := afterWord?_of_not_folds rfl (" expected".toList ++ s)
  space := rfl
  colon := rfl
  blank := rfl
  digit := rfl

theorem divides_with (s : List Char) : Divides (" with".toList ++ s) where
  letters := afterWord?_of_not_folds rfl ("with".toList ++ s)
  space := rfl
  colon := rfl
  blank := rfl
  digit := rfl

end Doctest.Text.Exit
