import Doctest.Proofs.Document.Section

namespace Doctest.Document

open Text (Line)

def beforeFence (ls : List Line) (n : Nat) : Nat :=
  n + ((ls.drop n).takeWhile (!isFence ·)).length

def passage (ls : List Line) (a b : Nat) : List Line := (ls.drop a).take (b - a)

def InMetadata (ls : List Line) (n m : Nat) : Prop := n < m ∧ m ≤ beforeFence ls n

instance (ls : List Line) (n m : Nat) : Decidable (InMetadata ls n m) :=
  inferInstanceAs (Decidable (_ ∧ _))

def opening (ls : List Line) (n : Nat) : Nat := beforeFence ls n + 1

def InCode (ls : List Line) (n m : Nat) : Prop :=
  opening ls n < m ∧ m ≤ beforeFence ls (opening ls n)

instance (ls : List Line) (n m : Nat) : Decidable (InCode ls n m) :=
  inferInstanceAs (Decidable (_ ∧ _))

def closing (ls : List Line) (n : Nat) : Nat := beforeFence ls (opening ls n) + 1

def metadataAt (ls : List Line) (n : Nat) : List Line := passage ls n (beforeFence ls n)

def codeAt (ls : List Line) (n : Nat) : List Line :=
  passage ls (opening ls n) (beforeFence ls (opening ls n))

/-- The sections that begin after line `n`. -/
inductive Found (ls : List Line) : Nat → List Section → Prop
  | done {n} : ls.length ≤ n → Found ls n []
  | pass {n l ss} : ls[n]? = some l → declaration? (Text.trimEnd l) = none →
      Found ls (n + 1) ss → Found ls n ss
  | take {n l attributes fence ss} : ls[n]? = some l →
      declaration? (Text.trimEnd l) = some attributes →
      ls[beforeFence ls (n + 1)]? = some fence → opensFence fence = true →
      Found ls (closing ls (n + 1)) ss →
      Found ls n (⟨n + 1, attributes, metadataAt ls (n + 1),
        Text.joinLines ((codeAt ls (n + 1)).map reveal)⟩ :: ss)

theorem drop_beforeFence (ls : List Line) (n : Nat) :
    ls.drop (beforeFence ls n) = (ls.drop n).dropWhile (!isFence ·) := by
  rw [beforeFence, ← List.drop_drop]
  conv => lhs; rw [← List.takeWhile_append_dropWhile (p := (!isFence ·)) (l := ls.drop n)]
  exact List.drop_left' (by rw [List.takeWhile_append_dropWhile])

theorem passage_beforeFence (ls : List Line) (n : Nat) :
    passage ls n (beforeFence ls n) = (ls.drop n).takeWhile (!isFence ·) := by
  rw [passage, beforeFence, Nat.add_sub_cancel_left]
  exact (List.prefix_iff_eq_take.1 (List.takeWhile_prefix _)).symm

theorem isFence_of_beforeFence {ls : List Line} {n : Nat} {l : Line}
    (h : ls[beforeFence ls n]? = some l) : isFence l = true := by
  have first : ((ls.drop n).dropWhile (!isFence ·)).head? = some l := by
    rw [← drop_beforeFence, List.head?_drop, h]
  simpa using Text.head_dropWhile (!isFence ·) (ls.drop n) l first

theorem getElem?_of_drop {α : Type} {as bs : List α} {a : α} {n : Nat}
    (h : as.drop n = a :: bs) : as[n]? = some a ∧ as.drop (n + 1) = bs := by
  constructor
  · rw [← List.head?_drop, h]
    rfl
  · rw [← List.drop_drop, h]
    rfl

theorem found_of_fencedSections {ls : List Line} {n : Nat} {ss : List Section}
    (h : fencedSections (n + 1) (ls.drop n) = .ok ss) : Found ls n ss := by
  generalize hm : n + 1 = m at h
  generalize hpart : ls.drop n = part at h
  fun_induction fencedSections m part generalizing n ss with
  | case1 m =>
    cases h
    exact .done (List.drop_eq_nil_iff.1 hpart)
  | case2 m l part hl ih =>
    obtain ⟨hget, hrest⟩ := getElem?_of_drop hpart
    exact .pass hget hl (ih (by rw [hm]) hrest h)
  | case3 => cases h
  | case4 m l part attributes hl metadata fenceLine fence body hdrop hopens code =>
    rename_i rest ih
    obtain ⟨hget, hpart⟩ := getElem?_of_drop hpart
    have hfence : ls.drop (beforeFence ls (n + 1)) = fence :: body := by
      rw [drop_beforeFence, hpart, hdrop]
    obtain ⟨hfence, hbody⟩ := getElem?_of_drop hfence
    have hopening : opening ls (n + 1) = fenceLine := by
      rw [opening, beforeFence, hpart, hm, Nat.add_right_comm]
    have hrest : ls.drop (closing ls (n + 1)) = rest := by
      rw [closing, ← List.drop_drop, drop_beforeFence, opening, hbody]
    have hclosing : closing ls (n + 1) = fenceLine + code.length + 1 := by
      rw [closing, beforeFence, ← hopening, opening, hbody]
    have hmetadata : metadataAt ls (n + 1) = metadata := by
      rw [metadataAt, passage_beforeFence, hpart]
    have hcode : codeAt ls (n + 1) = code := by
      rw [codeAt, passage_beforeFence, opening, hbody]
    cases hss : fencedSections (fenceLine + 1 + code.length + 1) rest with
    | error e =>
      rw [hss] at h
      cases h
    | ok found =>
      rw [hss] at h
      obtain rfl := Except.ok.inj h
      have after := ih (by omega) hrest hss
      rw [← hm, ← hmetadata, ← hcode]
      exact .take hget hl hfence hopens after
  | case5 => cases h

end Doctest.Document
