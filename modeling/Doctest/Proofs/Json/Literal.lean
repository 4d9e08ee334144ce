import Doctest.Json.Literal
import Doctest.Proofs.Text.Character

namespace Doctest.Json.Literal

/-- A body and the text that it stands for. Every character is written as it is or by an escape; one
beyond the first plane of the code takes two units. -/
inductive Denotes : List Char → List Char → Prop
  | nil : Denotes [] []
  | plain {c : Char} {b s : List Char} :
      isPlain c = true → Denotes b s → Denotes (c :: b) (c :: s)
  | escape {e c : Char} {b s : List Char} :
      escape? e = some c → Denotes b s → Denotes ('\\' :: e :: b) (c :: s)
  | unit {w x y z c : Char} {b s : List Char} :
      unit? w x y z = some c.toNat → Denotes b s →
      Denotes ('\\' :: 'u' :: w :: x :: y :: z :: b) (c :: s)
  | pair {w x y z w' x' y' z' c : Char} {b s : List Char} :
      0x10000 ≤ c.toNat →
      unit? w x y z = some (0xD800 + (c.toNat - 0x10000) / 0x400) →
      unit? w' x' y' z' = some (0xDC00 + (c.toNat - 0x10000) % 0x400) →
      Denotes b s →
      Denotes ('\\' :: 'u' :: w :: x :: y :: z :: '\\' :: 'u' :: w' :: x' :: y' :: z' :: b) (c :: s)

inductive Spells : List Char → List Char → Prop
  | quoted {b s : List Char} : Denotes b s → Spells ('"' :: (b ++ ['"'])) s

theorem not_surrogate (c : Char) : isHigh c.toNat = false ∧ isLow c.toNat = false := by
  have valid := Text.toNat_valid c
  simp only [isHigh, isLow, Bool.and_eq_false_iff, decide_eq_false_iff_not]
  omega

theorem join?_char (c : Char) (ps : List Piece) :
    join? (.char c :: ps) = (join? ps).map (c :: ·) := by
  rw [join?]
  cases join? ps <;> rfl

theorem join?_unit (c : Char) (ps : List Piece) :
    join? (.unit c.toNat :: ps) = (join? ps).map (c :: ·) := by
  obtain ⟨high, low⟩ := not_surrogate c
  have alone (ps : List Piece) : (join? ps).map (c :: ·) =
      (do return Char.ofNat c.toNat :: (← join? ps)) := by
    rw [Char.ofNat_toNat]
    cases join? ps <;> rfl
  cases ps with
  | nil => simp [join?, high, low]
  | cons p ps =>
    rw [alone]
    cases p with
    | char d => simp [join?, high, low]
    | unit n => simp [join?, high, low]

theorem join?_pair {hi lo : Nat} (hhi : isHigh hi = true) (hlo : isLow lo = true)
    (ps : List Piece) : join? (.unit hi :: .unit lo :: ps) =
      (join? ps).map (Char.ofNat (0x10000 + (hi - 0xD800) * 0x400 + (lo - 0xDC00)) :: ·) := by
  rw [join?, if_pos ⟨hhi, hlo⟩]
  cases join? ps <;> rfl

theorem pieces?_plain {c : Char} (h : isPlain c = true) (b : List Char) :
    pieces? (c :: b) = (pieces? b).map (.char c :: ·) := by
  have other : c ≠ '\\' := by
    rintro rfl
    exact absurd h (by decide)
  rw [pieces?, if_pos h]
  · cases pieces? b <;> rfl
  · intro w x y z t same
    exact absurd same other
  · intro d t same
    exact absurd same other

theorem pieces?_escape {e c : Char} (h : escape? e = some c) (b : List Char) :
    pieces? ('\\' :: e :: b) = (pieces? b).map (.char c :: ·) := by
  rw [pieces?, h]
  · cases pieces? b <;> rfl
  · rintro w x y z t rfl rfl
    cases h

theorem pieces?_unit {w x y z : Char} {n : Nat} (h : unit? w x y z = some n) (b : List Char) :
    pieces? ('\\' :: 'u' :: w :: x :: y :: z :: b) = (pieces? b).map (.unit n :: ·) := by
  rw [pieces?, h]
  cases pieces? b <;> rfl

theorem decode?_lead {lead : List Piece} {c : Char} {b b' : List Char}
    (hpieces : pieces? b' = (pieces? b).map (lead ++ ·))
    (hjoin : ∀ ps, join? (lead ++ ps) = (join? ps).map (c :: ·)) :
    decode? b' = (decode? b).map (c :: ·) := by
  have all (b : List Char) : decode? b = (pieces? b).bind join? := rfl
  rw [all, all, hpieces]
  cases pieces? b with
  | none => rfl
  | some ps => exact hjoin ps

theorem Denotes.decode?_eq {b s : List Char} (h : Denotes b s) : decode? b = some s := by
  induction h with
  | nil => rfl
  | plain hc _ ih =>
    rw [@decode?_lead [.char _] _ _ _ (pieces?_plain hc _) (join?_char _), ih]
    rfl
  | escape he _ ih =>
    rw [@decode?_lead [.char _] _ _ _ (pieces?_escape he _) (join?_char _), ih]
    rfl
  | unit hu _ ih =>
    rw [@decode?_lead [.unit _] _ _ _ (pieces?_unit hu _) (join?_unit _), ih]
    rfl
  | @pair w x y z w' x' y' z' c b s hplane hhi hlo _ ih =>
    have valid := Text.toNat_valid c
    generalize hhi' : 0xD800 + (c.toNat - 0x10000) / 0x400 = hi at hhi
    generalize hlo' : 0xDC00 + (c.toNat - 0x10000) % 0x400 = lo at hlo
    have high : isHigh hi = true := by
      simp only [isHigh, Bool.and_eq_true, decide_eq_true_eq]
      omega
    have low : isLow lo = true := by
      simp only [isLow, Bool.and_eq_true, decide_eq_true_eq]
      omega
    have whole : 0x10000 + (hi - 0xD800) * 0x400 + (lo - 0xDC00) = c.toNat := by omega
    have joined := join?_pair high low
    rw [whole, Char.ofNat_toNat] at joined
    have pieces : pieces? ('\\' :: 'u' :: w :: x :: y :: z ::
        '\\' :: 'u' :: w' :: x' :: y' :: z' :: b) =
          (pieces? b).map ([.unit hi, .unit lo] ++ ·) := by
      rw [pieces?_unit hhi, pieces?_unit hlo, Option.map_map]
      rfl
    rw [decode?_lead pieces joined, ih]
    rfl

theorem Spells.read?_eq {q s : List Char} (h : Spells q s) : read? q = some s := by
  cases h with
  | quoted hb =>
    rw [read?, List.getLast?_concat, if_pos rfl, List.dropLast_concat, hb.decode?_eq]

theorem hexValue?_lt {c : Char} {n : Nat} (h : hexValue? c = some n) : n < 16 := by
  rw [hexValue?] at h
  split at h
  · next digit =>
    obtain rfl := Option.some.inj h
    have bound : c.toNat ≤ 0x39 := digit.2
    have zero : '0'.toNat = 0x30 := rfl
    omega
  · split at h
    · next small =>
      obtain rfl := Option.some.inj h
      have bound : c.toNat ≤ 0x66 := small.2
      have first : 'a'.toNat = 0x61 := rfl
      omega
    · split at h
      · next large =>
        obtain rfl := Option.some.inj h
        have bound : c.toNat ≤ 0x46 := large.2
        have first : 'A'.toNat = 0x41 := rfl
        omega
      · cases h

theorem unit?_lt {w x y z : Char} {n : Nat} (h : unit? w x y z = some n) : n < 0x10000 := by
  simp only [unit?, Option.bind_eq_bind, Option.bind_eq_some_iff] at h
  obtain ⟨a, ha, b, hb, c, hc, d, hd, h⟩ := h
  have first := hexValue?_lt ha
  have second := hexValue?_lt hb
  have third := hexValue?_lt hc
  have fourth := hexValue?_lt hd
  obtain rfl := Option.some.inj h
  omega

inductive Pieces : List Char → List Piece → Prop
  | nil : Pieces [] []
  | plain {c : Char} {b : List Char} {ps : List Piece} :
      isPlain c = true → Pieces b ps → Pieces (c :: b) (.char c :: ps)
  | escape {e c : Char} {b : List Char} {ps : List Piece} :
      escape? e = some c → Pieces b ps → Pieces ('\\' :: e :: b) (.char c :: ps)
  | unit {w x y z : Char} {n : Nat} {b : List Char} {ps : List Piece} :
      unit? w x y z = some n → Pieces b ps →
      Pieces ('\\' :: 'u' :: w :: x :: y :: z :: b) (.unit n :: ps)

theorem exists_tail_of_bind {α : Type} {a : α} {rest : Option (List α)} {l : List α}
    (h : (do return a :: (← rest)) = some l) : ∃ t, rest = some t ∧ l = a :: t := by
  simp only [bind, Option.bind_eq_some_iff] at h
  obtain ⟨t, ht, h⟩ := h
  exact ⟨t, ht, (Option.some.inj h).symm⟩

theorem pieces_of_pieces? {b : List Char} {ps : List Piece} (h : pieces? b = some ps) :
    Pieces b ps := by
  fun_induction pieces? b generalizing ps with
  | case1 =>
    obtain rfl := Option.some.inj h
    exact .nil
  | case2 w x y z b ih =>
    obtain ⟨n, hn, h⟩ := Option.bind_eq_some_iff.1 h
    obtain ⟨qs, hqs, rfl⟩ := exists_tail_of_bind h
    exact .unit hn (ih hqs)
  | case3 e b _ ih =>
    obtain ⟨c, hc, h⟩ := Option.bind_eq_some_iff.1 h
    obtain ⟨qs, hqs, rfl⟩ := exists_tail_of_bind h
    exact .escape hc (ih hqs)
  | case4 c b _ _ plain ih =>
    obtain ⟨qs, hqs, rfl⟩ := exists_tail_of_bind h
    exact .plain plain (ih hqs)
  | case5 => cases h

theorem toNat_ofNat_of_unit? {w x y z : Char} {n : Nat} (h : unit? w x y z = some n)
    (hn : ¬(isHigh n = true ∨ isLow n = true)) : (Char.ofNat n).toNat = n := by
  have bound := unit?_lt h
  simp only [isHigh, isLow, Bool.and_eq_true, decide_eq_true_eq] at hn
  exact Text.toNat_ofNat (by omega)

theorem Pieces.denotes {b s : List Char} {ps : List Piece} (h : Pieces b ps)
    (hjoin : join? ps = some s) : Denotes b s := by
  fun_induction join? ps generalizing b s with
  | case1 =>
    cases h
    obtain rfl := Option.some.inj hjoin
    exact .nil
  | case2 c ps ih =>
    obtain ⟨t, ht, rfl⟩ := exists_tail_of_bind hjoin
    cases h with
    | plain hc hb => exact .plain hc (ih hb ht)
    | escape he hb => exact .escape he (ih hb ht)
  | case3 hi lo ps surrogates ih =>
    obtain ⟨t, ht, rfl⟩ := exists_tail_of_bind hjoin
    cases h with
    | unit hhi h =>
      cases h with
      | unit hlo hb =>
        obtain ⟨high, low⟩ := surrogates
        simp only [isHigh, isLow, Bool.and_eq_true, decide_eq_true_eq] at high low
        have number := @Text.toNat_ofNat (0x10000 + (hi - 0xD800) * 0x400 + (lo - 0xDC00)) (by omega)
        refine .pair (by omega) (hhi.trans ?_) (hlo.trans ?_) (ih hb ht)
        · rw [number, Option.some.injEq]
          omega
        · rw [number, Option.some.injEq]
          omega
  | case4 => cases hjoin
  | case5 n lo ps _ single ih =>
    obtain ⟨t, ht, rfl⟩ := exists_tail_of_bind hjoin
    cases h with
    | unit hn hb => exact .unit (by rw [toNat_ofNat_of_unit? hn single, hn]) (ih hb ht)
  | case6 => cases hjoin
  | case7 n ps _ single ih =>
    obtain ⟨t, ht, rfl⟩ := exists_tail_of_bind hjoin
    cases h with
    | unit hn hb => exact .unit (by rw [toNat_ofNat_of_unit? hn single, hn]) (ih hb ht)

theorem read?_eq_some_iff {q s : List Char} : read? q = some s ↔ Spells q s := by
  refine ⟨fun h => ?_, Spells.read?_eq⟩
  fun_cases read? q with
  | case1 rest closed =>
    rw [read?, if_pos closed, decode?] at h
    obtain ⟨ps, hps, hjoin⟩ := Option.bind_eq_some_iff.1 h
    obtain ⟨body, rfl⟩ := List.getLast?_eq_some_iff.1 closed
    rw [List.dropLast_concat] at hps
    exact .quoted ((pieces_of_pieces? hps).denotes hjoin)
  | case2 rest unclosed =>
    rw [read?, if_neg unclosed] at h
    cases h
  | case3 q other =>
    rw [read?] at h
    · cases h
    · exact other

theorem not_control_of_hexValue? {c : Char} {n : Nat} (h : hexValue? c = some n) :
    0x20 ≤ c.toNat := by
  rw [hexValue?] at h
  split at h
  · next digit => exact Nat.le_trans (by decide) digit.1
  · split at h
    · next small => exact Nat.le_trans (by decide) small.1
    · split at h
      · next large => exact Nat.le_trans (by decide) large.1
      · cases h

theorem not_control_of_unit? {w x y z : Char} {n : Nat} (h : unit? w x y z = some n) :
    ∀ c ∈ ['u', w, x, y, z], 0x20 ≤ c.toNat := by
  simp only [unit?, Option.bind_eq_bind, Option.bind_eq_some_iff] at h
  obtain ⟨_, hw, _, hx, _, hy, _, hz, _⟩ := h
  simp only [List.forall_mem_cons, List.not_mem_nil, false_imp_iff, implies_true, and_true]
  exact ⟨by decide, not_control_of_hexValue? hw, not_control_of_hexValue? hx,
    not_control_of_hexValue? hy, not_control_of_hexValue? hz⟩

theorem not_control_of_escape? {e c : Char} (h : escape? e = some c) : 0x20 ≤ e.toNat := by
  fun_cases escape? e with
  | case9 => simp [escape?] at h
  | _ => decide

theorem Denotes.not_control {b s : List Char} (h : Denotes b s) : ∀ c ∈ b, 0x20 ≤ c.toNat := by
  have backslash : 0x20 ≤ '\\'.toNat := by decide
  induction h with
  | nil => nofun
  | plain hc _ ih =>
    simp only [isPlain, Bool.and_eq_true, decide_eq_true_eq] at hc
    exact List.forall_mem_cons.2 ⟨hc.1.1, ih⟩
  | escape he _ ih =>
    exact List.forall_mem_cons.2 ⟨backslash, List.forall_mem_cons.2 ⟨not_control_of_escape? he, ih⟩⟩
  | unit hu _ ih =>
    have digits := not_control_of_unit? hu
    exact List.forall_mem_cons.2 ⟨backslash, List.forall_mem_append.2 ⟨digits, ih⟩⟩
  | pair _ hhi hlo _ ih =>
    have high := not_control_of_unit? hhi
    have low := not_control_of_unit? hlo
    exact List.forall_mem_cons.2 ⟨backslash, List.forall_mem_append.2 ⟨high,
      List.forall_mem_cons.2 ⟨backslash, List.forall_mem_append.2 ⟨low, ih⟩⟩⟩⟩

end Doctest.Json.Literal
