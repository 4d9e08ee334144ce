namespace Doctest.Text

variable {α : Type}

theorem takeWhile_append_stop {p : α → Bool} {l rest : List α} {a : α}
    (hl : ∀ b ∈ l, p b = true) (ha : p a = false) : (l ++ a :: rest).takeWhile p = l := by
  rw [List.takeWhile_append_of_pos hl, List.takeWhile_cons_of_neg (by simp [ha]),
    List.append_nil]

theorem dropWhile_append_stop {p : α → Bool} {l rest : List α} {a : α}
    (hl : ∀ b ∈ l, p b = true) (ha : p a = false) :
    (l ++ a :: rest).dropWhile p = a :: rest := by
  rw [List.dropWhile_append_of_pos hl, List.dropWhile_cons_of_neg (by simp [ha])]

theorem takeWhile_append_of_head {p : α → Bool} {l rest : List α} (hl : ∀ b ∈ l, p b = true)
    (hrest : ∀ a ∈ rest.head?, p a = false) : (l ++ rest).takeWhile p = l := by
  cases rest with
  | nil => rw [List.takeWhile_append_of_pos hl, List.takeWhile_nil, List.append_nil]
  | cons a rest => exact takeWhile_append_stop hl (hrest a rfl)

theorem dropWhile_append_of_head {p : α → Bool} {l rest : List α} (hl : ∀ b ∈ l, p b = true)
    (hrest : ∀ a ∈ rest.head?, p a = false) : (l ++ rest).dropWhile p = rest := by
  cases rest with
  | nil => rw [List.dropWhile_append_of_pos hl, List.dropWhile_nil]
  | cons a rest => exact dropWhile_append_stop hl (hrest a rfl)

theorem head_dropWhile (p : α → Bool) (l : List α) : ∀ a ∈ (l.dropWhile p).head?, p a = false := by
  intro a ha
  have stopped := List.head?_dropWhile_not p l
  rwa [ha] at stopped

end Doctest.Text
