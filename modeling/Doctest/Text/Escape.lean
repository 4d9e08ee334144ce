/-! Terminal escape sequences: control sequences such as colours and cursor movement, and
operating system commands such as titles and links, closed by BEL or ESC backslash. -/

namespace Doctest.Text.Escape

def esc : Char := '\x1b'

def bel : Char := '\x07'

def isParameter (c : Char) : Bool := ('0' ≤ c && c ≤ '9') || c == ';' || c == '?'

def isIntermediate (c : Char) : Bool := ' ' ≤ c && c ≤ '/'

def isFinal (c : Char) : Bool := '@' ≤ c && c ≤ '~'

def afterControl? (s : List Char) : Option (List Char) :=
  match (s.dropWhile isParameter).dropWhile isIntermediate with
  | c :: rest => if isFinal c then some rest else none
  | [] => none

def afterCommand? (s : List Char) : Option (List Char) :=
  match s.dropWhile (fun c => c ≠ bel ∧ c ≠ esc) with
  | '\x07' :: rest => some rest
  | '\x1b' :: '\\' :: rest => some rest
  | _ => none

def afterSequence? : List Char → Option (List Char)
  | '\x1b' :: '[' :: s => afterControl? s
  | '\x1b' :: ']' :: s => afterCommand? s
  | _ => none

theorem length_dropWhile_le {α : Type} (p : α → Bool) (s : List α) :
    (s.dropWhile p).length ≤ s.length :=
  (List.dropWhile_sublist p).length_le

theorem length_afterControl? {s rest : List Char} (h : afterControl? s = some rest) :
    rest.length < s.length := by
  simp only [afterControl?] at h
  have h₁ := length_dropWhile_le isIntermediate (s.dropWhile isParameter)
  have h₂ := length_dropWhile_le isParameter s
  split at h
  · next c t heq =>
    split at h
    · obtain rfl := Option.some.inj h
      rw [heq, List.length_cons] at h₁
      omega
    · cases h
  · cases h

theorem length_afterCommand? {s rest : List Char} (h : afterCommand? s = some rest) :
    rest.length < s.length := by
  simp only [afterCommand?] at h
  have h₁ := length_dropWhile_le (fun c => decide (c ≠ bel ∧ c ≠ esc)) s
  split at h
  · next t heq =>
    obtain rfl := Option.some.inj h
    rw [heq, List.length_cons] at h₁
    omega
  · next t heq =>
    obtain rfl := Option.some.inj h
    rw [heq, List.length_cons, List.length_cons] at h₁
    omega
  · cases h

theorem length_afterSequence? {s rest : List Char} (h : afterSequence? s = some rest) :
    rest.length < s.length := by
  simp only [afterSequence?] at h
  split at h
  · have := length_afterControl? h
    simp only [List.length_cons]
    omega
  · have := length_afterCommand? h
    simp only [List.length_cons]
    omega
  · cases h

def strip (s : List Char) : List Char :=
  match s with
  | [] => []
  | c :: s =>
    match _h : afterSequence? (c :: s) with
    | some rest => strip rest
    | none => c :: strip s
termination_by s.length
decreasing_by
  · exact length_afterSequence? ‹_›
  · simp

@[simp] theorem strip_nil : strip [] = [] := by simp [strip]

theorem strip_of_afterSequence? {s rest : List Char} (h : afterSequence? s = some rest) :
    strip s = strip rest := by
  cases s with
  | nil => simp [afterSequence?] at h
  | cons c s =>
    rw [strip]
    split
    · next r hr =>
      rw [h] at hr
      rw [Option.some.inj hr]
    · next hr => rw [h] at hr; cases hr

theorem strip_cons_of_none {c : Char} {s : List Char} (h : afterSequence? (c :: s) = none) :
    strip (c :: s) = c :: strip s := by
  rw [strip]
  split
  · next r hr => rw [h] at hr; cases hr
  · rfl

end Doctest.Text.Escape
