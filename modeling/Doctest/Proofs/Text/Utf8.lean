import Doctest.Proofs.Text.Character
import Doctest.Text.Utf8
import Mathlib.Tactic.IntervalCases

namespace Doctest.Text.Utf8

theorem toNat_tailByte (n : Nat) : (tailByte n).toNat = 0x80 + n % 64 := by
  rw [tailByte, UInt8.toNat_ofNat']
  omega

theorem tailByte_mod (n : Nat) : (tailByte n).toNat % 64 = n % 64 := by
  rw [toNat_tailByte]
  omega

theorem tailByte_within {n low high : Nat} (hlow : low ≤ 0x80 + n % 64)
    (hhigh : 0x80 + n % 64 ≤ high) (h : high < 256) :
    UInt8.ofNat low ≤ tailByte n ∧ tailByte n ≤ UInt8.ofNat high := by
  simp only [UInt8.le_iff_toNat_le, toNat_tailByte, UInt8.toNat_ofNat']
  omega

theorem isTail_tailByte (n : Nat) : isTail (tailByte n) = true := by
  have within : (0x80 : UInt8) ≤ tailByte n ∧ tailByte n ≤ (0xBF : UInt8) :=
    @tailByte_within n 0x80 0xBF (by omega) (by omega) (by decide)
  simp only [isTail, Bool.and_eq_true, decide_eq_true_eq]
  exact within

theorem lead?_two {k : Nat} (h : k < 30) : lead? (UInt8.ofNat (0xC2 + k)) =
    some ⟨2 + k, 1, UInt8.ofNat 0x80, UInt8.ofNat 0xBF⟩ := by
  interval_cases k <;> rfl

theorem lead?_three {k : Nat} (h : k < 16) : lead? (UInt8.ofNat (0xE0 + k)) =
    some ⟨k, 2, UInt8.ofNat (if k = 0 then 0xA0 else 0x80),
      UInt8.ofNat (if k = 13 then 0x9F else 0xBF)⟩ := by
  interval_cases k <;> rfl

theorem lead?_four {k : Nat} (h : k < 5) : lead? (UInt8.ofNat (0xF0 + k)) =
    some ⟨k, 3, UInt8.ofNat (if k = 0 then 0x90 else 0x80),
      UInt8.ofNat (if k = 4 then 0x8F else 0xBF)⟩ := by
  interval_cases k <;> rfl

theorem finish_tailByte (bits k n : Nat) (rest : List UInt8) :
    finish bits (k + 1) (tailByte n :: rest) =
      ((finish (bits * 64 + n % 64) k rest).1, (finish (bits * 64 + n % 64) k rest).2 + 1) := by
  rw [finish, if_pos (isTail_tailByte n), tailByte_mod]

theorem decodeChar_of_lead? {b bits following low high n : Nat} (hb : 0x80 ≤ b ∧ b < 256)
    (hlead : lead? (UInt8.ofNat b) =
      some ⟨bits, following + 1, UInt8.ofNat low, UInt8.ofNat high⟩)
    (hlow : low ≤ 0x80 + n % 64) (hhigh : 0x80 + n % 64 ≤ high) (hbound : high < 256)
    (rest : List UInt8) : decodeChar (UInt8.ofNat b) (tailByte n :: rest) =
      ((finish (bits * 64 + n % 64) following rest).1,
        (finish (bits * 64 + n % 64) following rest).2 + 1) := by
  have above : ¬UInt8.ofNat b < 0x80 := by
    rw [UInt8.lt_iff_toNat_lt, UInt8.toNat_ofNat', Nat.mod_eq_of_lt hb.2]
    exact Nat.not_lt_of_le hb.1
  simp only [decodeChar, if_neg above, hlead]
  rw [if_pos (tailByte_within hlow hhigh hbound), tailByte_mod]
  rfl

theorem decodeChar_one {c : Char} (h : c.toNat < 0x80) (rest : List UInt8) :
    decodeChar (UInt8.ofNat c.toNat) rest = (c, 0) := by
  have value : (UInt8.ofNat c.toNat).toNat = c.toNat := by
    rw [UInt8.toNat_ofNat']
    omega
  have below : UInt8.ofNat c.toNat < 0x80 := by
    rw [UInt8.lt_iff_toNat_lt, value]
    exact h
  simp only [decodeChar, if_pos below, value, Char.ofNat_toNat]

theorem decodeChar_two {c : Char} (hlow : 0x80 ≤ c.toNat) (hhigh : c.toNat < 0x800)
    (rest : List UInt8) :
    decodeChar (UInt8.ofNat (0xC0 + c.toNat / 64)) (tailByte c.toNat :: rest) = (c, 1) := by
  obtain ⟨k, hk⟩ := Nat.exists_eq_add_of_le (show 2 ≤ c.toNat / 64 by omega)
  have first : 0xC0 + c.toNat / 64 = 0xC2 + k := by omega
  have value : (2 + k) * 64 + c.toNat % 64 = c.toNat := by omega
  rw [first, decodeChar_of_lead? (by omega) (lead?_two (by omega)) (by omega) (by omega) (by decide)]
  simp only [value, finish, Char.ofNat_toNat]

theorem decodeChar_three {c : Char} (hlow : 0x800 ≤ c.toNat) (hhigh : c.toNat < 0x10000)
    (rest : List UInt8) :
    decodeChar (UInt8.ofNat (0xE0 + c.toNat / 4096))
      (tailByte (c.toNat / 64) :: tailByte c.toNat :: rest) = (c, 2) := by
  -- the gap in the middle is what keeps the second byte below 0xA0 after a leading 0xED
  have valid := toNat_valid c
  have value : (c.toNat / 4096 * 64 + c.toNat / 64 % 64) * 64 + c.toNat % 64 = c.toNat := by
    omega
  rw [decodeChar_of_lead? (by omega) (lead?_three (by omega)) (by split <;> omega) (by split <;> omega)
    (by split <;> decide), finish_tailByte]
  simp only [value, finish, Char.ofNat_toNat]

theorem decodeChar_four {c : Char} (hlow : 0x10000 ≤ c.toNat) (rest : List UInt8) :
    decodeChar (UInt8.ofNat (0xF0 + c.toNat / 262144))
      (tailByte (c.toNat / 4096) :: tailByte (c.toNat / 64) :: tailByte c.toNat :: rest) =
        (c, 3) := by
  have valid := toNat_valid c
  have value : ((c.toNat / 262144 * 64 + c.toNat / 4096 % 64) * 64 + c.toNat / 64 % 64) * 64 +
      c.toNat % 64 = c.toNat := by
    omega
  rw [decodeChar_of_lead? (by omega) (lead?_four (by omega)) (by split <;> omega) (by split <;> omega)
    (by split <;> decide), finish_tailByte, finish_tailByte]
  simp only [value, finish, Char.ofNat_toNat]

theorem decode_append_of_reads {b : UInt8} {tail rest : List UInt8} {c : Char}
    (h : decodeChar b (tail ++ rest) = (c, tail.length)) :
    decode (b :: tail ++ rest) = c :: decode rest := by
  rw [List.cons_append, decode_cons, h, List.drop_left]

theorem decode_encodeChar_append (c : Char) (rest : List UInt8) :
    decode (encodeChar c ++ rest) = c :: decode rest := by
  rw [encodeChar]
  split
  · next h => exact decode_append_of_reads (decodeChar_one h _)
  · next h₁ =>
    split
    · next h => exact decode_append_of_reads (decodeChar_two (Nat.le_of_not_lt h₁) h _)
    · next h₂ =>
      split
      · next h => exact decode_append_of_reads (decodeChar_three (Nat.le_of_not_lt h₂) h _)
      · next h => exact decode_append_of_reads (decodeChar_four (Nat.le_of_not_lt h) _)

@[simp] theorem decode_encode (s : List Char) : decode (encode s) = s := by
  induction s with
  | nil => exact decode_nil
  | cons c s ih => rw [encode, List.flatMap_cons, decode_encodeChar_append, ← encode, ih]

theorem isTail_iff {b : UInt8} : isTail b = true ↔ 0x80 ≤ b.toNat ∧ b.toNat ≤ 0xBF := by
  simp [isTail, UInt8.le_iff_toNat_le]

theorem tailByte_eq {t : UInt8} (h : isTail t = true) {n : Nat} (hn : n % 64 = t.toNat % 64) :
    tailByte n = t := by
  obtain ⟨low, high⟩ := isTail_iff.1 h
  rw [← UInt8.toNat_inj, toNat_tailByte]
  omega

theorem encodeChar_two {k : Nat} {t : UInt8} (hk : k < 30) (ht : isTail t = true) :
    encodeChar (Char.ofNat ((2 + k) * 64 + t.toNat % 64)) = [UInt8.ofNat (0xC2 + k), t] := by
  have number := @toNat_ofNat ((2 + k) * 64 + t.toNat % 64) (by omega)
  have first : 0xC0 + ((2 + k) * 64 + t.toNat % 64) / 64 = 0xC2 + k := by omega
  rw [encodeChar, number, if_neg (by omega), if_pos (by omega), first, tailByte_eq ht (by omega)]

theorem encodeChar_three {k : Nat} {t u : UInt8} (hk : k < 16) (ht : isTail t = true)
    (hu : isTail u = true) (hlow : k = 0 → 0xA0 ≤ t.toNat) (hhigh : k = 13 → t.toNat ≤ 0x9F) :
    encodeChar (Char.ofNat ((k * 64 + t.toNat % 64) * 64 + u.toNat % 64)) =
      [UInt8.ofNat (0xE0 + k), t, u] := by
  obtain ⟨low, high⟩ := isTail_iff.1 ht
  have number := @toNat_ofNat ((k * 64 + t.toNat % 64) * 64 + u.toNat % 64) (by omega)
  have first : 0xE0 + ((k * 64 + t.toNat % 64) * 64 + u.toNat % 64) / 4096 = 0xE0 + k := by omega
  rw [encodeChar, number, if_neg (by omega), if_neg (by omega), if_pos (by omega), first,
    tailByte_eq ht (by omega), tailByte_eq hu (by omega)]

theorem encodeChar_four {k : Nat} {t u v : UInt8} (hk : k < 5) (ht : isTail t = true)
    (hu : isTail u = true) (hv : isTail v = true) (hlow : k = 0 → 0x90 ≤ t.toNat)
    (hhigh : k = 4 → t.toNat ≤ 0x8F) :
    encodeChar (Char.ofNat (((k * 64 + t.toNat % 64) * 64 + u.toNat % 64) * 64 + v.toNat % 64)) =
      [UInt8.ofNat (0xF0 + k), t, u, v] := by
  obtain ⟨low, high⟩ := isTail_iff.1 ht
  have number :=
    @toNat_ofNat (((k * 64 + t.toNat % 64) * 64 + u.toNat % 64) * 64 + v.toNat % 64) (by omega)
  have first : 0xF0 + (((k * 64 + t.toNat % 64) * 64 + u.toNat % 64) * 64 + v.toNat % 64) / 262144 =
      0xF0 + k := by omega
  rw [encodeChar, number, if_neg (by omega), if_neg (by omega), if_neg (by omega), first,
    tailByte_eq ht (by omega), tailByte_eq hu (by omega), tailByte_eq hv (by omega)]

theorem exists_lead {b : UInt8} {l : Lead} (h : lead? b = some l) :
    (∃ k < 30, b = UInt8.ofNat (0xC2 + k)) ∨ (∃ k < 16, b = UInt8.ofNat (0xE0 + k)) ∨
      ∃ k < 5, b = UInt8.ofNat (0xF0 + k) := by
  have bound := b.toNat_lt
  have offset (low : Nat) (hlow : low ≤ b.toNat) : b = UInt8.ofNat (low + (b.toNat - low)) := by
    rw [Nat.add_sub_of_le hlow, UInt8.ofNat_toNat]
  by_cases two : 0xC2 ≤ b.toNat ∧ b.toNat ≤ 0xDF
  · exact .inl ⟨_, by omega, offset 0xC2 two.1⟩
  · by_cases three : 0xE0 ≤ b.toNat ∧ b.toNat ≤ 0xEF
    · exact .inr (.inl ⟨_, by omega, offset 0xE0 three.1⟩)
    · by_cases four : 0xF0 ≤ b.toNat ∧ b.toNat ≤ 0xF4
      · exact .inr (.inr ⟨_, by omega, offset 0xF0 four.1⟩)
      · simp only [lead?, UInt8.le_iff_toNat_le, ← UInt8.toNat_inj] at h
        repeat rw [if_neg (by simp; omega)] at h
        cases h

theorem tail_of_within {k last least greatest : Nat} {t : UInt8}
    (hleast : 0x80 ≤ least ∧ least < 256) (hgreatest : greatest ≤ 0xBF)
    (low : (UInt8.ofNat (if k = 0 then least else 0x80)).toNat ≤ t.toNat)
    (high : t.toNat ≤ (UInt8.ofNat (if k = last then greatest else 0xBF)).toNat) :
    isTail t = true ∧ (k = 0 → least ≤ t.toNat) ∧ (k = last → t.toNat ≤ greatest) := by
  simp only [UInt8.toNat_ofNat'] at low high
  rw [isTail_iff]
  split at low <;> split at high <;> omega

theorem exists_of_finish {bits k used : Nat} {rest : List UInt8} {c : Char}
    (h : finish bits (k + 1) rest = (c, used)) (hc : c ≠ replacement) :
    ∃ t rest' used', rest = t :: rest' ∧ isTail t = true ∧ used = used' + 1 ∧
      finish (bits * 64 + t.toNat % 64) k rest' = (c, used') := by
  cases rest with
  | nil => exact absurd (Prod.mk.inj h).1.symm hc
  | cons t rest =>
    rw [finish] at h
    split at h
    · next tail =>
      obtain ⟨rfl, rfl⟩ := Prod.mk.inj h
      exact ⟨t, rest, _, rfl, tail, rfl, rfl⟩
    · exact absurd (Prod.mk.inj h).1.symm hc

theorem exists_of_decodeChar {b : UInt8} {rest : List UInt8} {c : Char} {used : Nat}
    (h : decodeChar b rest = (c, used)) (hb : ¬b < 0x80) (hc : c ≠ replacement) :
    ∃ l t rest' used', lead? b = some l ∧ rest = t :: rest' ∧ l.low ≤ t ∧ t ≤ l.high ∧
      used = used' + 1 ∧ finish (l.bits * 64 + t.toNat % 64) (l.following - 1) rest' = (c, used') := by
  unfold decodeChar at h
  rw [if_neg hb] at h
  split at h
  · next l t rest hl =>
    split at h
    · next within =>
      obtain ⟨rfl, rfl⟩ := Prod.mk.inj h
      exact ⟨l, t, rest, _, hl, rfl, within.1, within.2, rfl, rfl⟩
    · exact absurd (Prod.mk.inj h).1.symm hc
  · exact absurd (Prod.mk.inj h).1.symm hc

theorem exists_tail_of_decodeChar {b : UInt8} {rest : List UInt8} {c : Char} {used : Nat}
    (h : decodeChar b rest = (c, used)) (hc : c ≠ replacement) :
    ∃ tail rest', rest = tail ++ rest' ∧ tail.length = used ∧ encodeChar c = b :: tail := by
  by_cases hb : b < 0x80
  · unfold decodeChar at h
    rw [if_pos hb] at h
    obtain ⟨rfl, rfl⟩ := Prod.mk.inj h
    have below : b.toNat < 0x80 := hb
    have number := @toNat_ofNat b.toNat (by omega)
    exact ⟨[], rest, rfl, rfl, by rw [encodeChar, number, if_pos below, UInt8.ofNat_toNat]⟩
  · obtain ⟨l, t, rest, used, hl, rfl, low, high, rfl, hfirst⟩ := exists_of_decodeChar h hb hc
    rw [UInt8.le_iff_toNat_le] at low high
    obtain ⟨k, hk, rfl⟩ | ⟨k, hk, rfl⟩ | ⟨k, hk, rfl⟩ := exists_lead hl
    · obtain rfl := Option.some.inj ((lead?_two hk).symm.trans hl)
      obtain ⟨rfl, rfl⟩ := Prod.mk.inj hfirst
      exact ⟨[t], rest, rfl, rfl, encodeChar_two hk (isTail_iff.2 ⟨low, high⟩)⟩
    · obtain rfl := Option.some.inj ((lead?_three hk).symm.trans hl)
      obtain ⟨u, rest, _, rfl, hu, rfl, hsecond⟩ := exists_of_finish hfirst hc
      obtain ⟨rfl, rfl⟩ := Prod.mk.inj hsecond
      obtain ⟨ht, hlow, hhigh⟩ := tail_of_within (by decide) (by decide) low high
      exact ⟨[t, u], rest, rfl, rfl, encodeChar_three hk ht hu hlow hhigh⟩
    · obtain rfl := Option.some.inj ((lead?_four hk).symm.trans hl)
      obtain ⟨u, rest, _, rfl, hu, rfl, hsecond⟩ := exists_of_finish hfirst hc
      obtain ⟨v, rest, _, rfl, hv, rfl, hthird⟩ := exists_of_finish hsecond hc
      obtain ⟨rfl, rfl⟩ := Prod.mk.inj hthird
      obtain ⟨ht, hlow, hhigh⟩ := tail_of_within (by decide) (by decide) low high
      exact ⟨[t, u, v], rest, rfl, rfl, encodeChar_four hk ht hu hv hlow hhigh⟩

theorem decode_eq_iff {bs : List UInt8} {s : List Char} (hs : replacement ∉ s) :
    decode bs = s ↔ bs = encode s := by
  refine ⟨fun h => ?_, fun h => h ▸ decode_encode s⟩
  fun_induction decode bs generalizing s with
  | case1 =>
    subst h
    rfl
  | case2 b rest c used hread ih =>
    subst h
    simp only [List.mem_cons, not_or] at hs
    obtain ⟨hc, hrest⟩ := hs
    obtain ⟨tail, rest', rfl, rfl, hbytes⟩ := exists_tail_of_decodeChar hread (Ne.symm hc)
    rw [List.drop_left] at ih hrest ⊢
    rw [encode, List.flatMap_cons, hbytes, ← encode, ← ih hrest rfl]
    rfl

theorem encodeChar_eq (c : Char) : encodeChar c = String.utf8EncodeChar c := by
  have valid := toNat_valid c
  have number : c.val.toNat = c.toNat := rfl
  have one : c.toNat ≤ 0x7F ↔ c.toNat < 0x80 := by omega
  have two : c.toNat ≤ 0x7FF ↔ c.toNat < 0x800 := by omega
  have three : c.toNat ≤ 0xFFFF ↔ c.toNat < 0x10000 := by omega
  simp only [encodeChar, tailByte, String.utf8EncodeChar, number, one, two, three, Nat.add_comm 0x80]
  split
  · rfl
  · split
    · have first : 0xC0 + c.toNat / 64 = c.toNat / 64 % 32 + 192 := by omega
      rw [first]
    · split
      · have first : 0xE0 + c.toNat / 4096 = c.toNat / 4096 % 16 + 224 := by omega
        rw [first]
      · have first : 0xF0 + c.toNat / 262144 = c.toNat / 262144 % 8 + 240 := by omega
        rw [first]

theorem length_encodeString (s : String) : (encodeString s).length = s.utf8ByteSize := by
  have bytes : encodeString s = s.toByteArray.data.toList := by
    rw [← String.ofList_toList (s := s), String.toByteArray_ofList, List.utf8Encode, encodeString,
      String.toList_ofList, encode, funext encodeChar_eq]
    simp
  rw [bytes]
  rfl

@[simp] theorem decodeString_nil : decodeString [] = "" := by
  rw [decodeString, decode_nil]

@[simp] theorem decodeString_encodeString (s : String) : decodeString (encodeString s) = s := by
  rw [decodeString, encodeString, decode_encode, String.ofList_toList]

theorem decodeString_eq_iff {bs : List UInt8} {s : String} (hs : replacement ∉ s.toList) :
    decodeString bs = s ↔ bs = encodeString s := by
  rw [encodeString, ← decode_eq_iff hs, decodeString, ← String.toList_inj, String.toList_ofList]

end Doctest.Text.Utf8
