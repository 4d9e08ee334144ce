namespace Doctest.Text

def isBlank (c : Char) : Bool :=
  let n := c.toNat
  (9 ≤ n && n ≤ 13) || n == 0x20 || n == 0x85 || n == 0xA0 || n == 0x1680 ||
    (0x2000 ≤ n && n ≤ 0x200A) || n == 0x2028 || n == 0x2029 || n == 0x202F ||
    n == 0x205F || n == 0x3000

def trimStart (s : List Char) : List Char := s.dropWhile isBlank

def trimEnd (s : List Char) : List Char := (s.reverse.dropWhile isBlank).reverse

def trim (s : List Char) : List Char := trimEnd (trimStart s)

theorem trimStart_cons (c : Char) (s : List Char) :
    trimStart (c :: s) = if isBlank c then trimStart s else c :: s := by
  simp [trimStart, List.dropWhile_cons]

theorem trimEnd_concat (s : List Char) (c : Char) :
    trimEnd (s ++ [c]) = if isBlank c then trimEnd s else s ++ [c] := by
  cases h : isBlank c <;> simp [trimEnd, h]

def after? (lead : List Char) (s : List Char) : Option (List Char) :=
  if lead.isPrefixOf s then some (s.drop lead.length) else none

@[simp] theorem after?_append (lead s : List Char) : after? lead (lead ++ s) = some s := by
  simp [after?]

theorem after?_eq_some {lead s t : List Char} : after? lead s = some t ↔ s = lead ++ t := by
  constructor
  · intro h
    simp only [after?, List.isPrefixOf_iff_prefix] at h
    split at h
    · next hp =>
      obtain ⟨u, rfl⟩ := hp
      simpa using h
    · cases h
  · rintro rfl
    exact after?_append lead t

end Doctest.Text
