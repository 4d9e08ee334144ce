import Doctest.Files
import Mathlib.Data.List.Nodup

namespace Doctest

theorem bind_eq_ok_iff {ε α β : Type} {x : Except ε α} {f : α → Except ε β} {b : β} :
    x >>= f = .ok b ↔ ∃ a, x = .ok a ∧ f a = .ok b := by
  cases x with
  | error e => simp [bind, Except.bind]
  | ok a => simp [bind, Except.bind]

theorem nodup_eraseDups {α : Type} [DecidableEq α] (l : List α) : l.eraseDups.Nodup := by
  match l with
  | [] => exact List.nodup_nil
  | a :: l =>
    rw [List.eraseDups_cons, List.nodup_cons, List.mem_eraseDups]
    exact ⟨by simp, nodup_eraseDups _⟩
termination_by l.length
decreasing_by
  have := List.length_filter_le (fun b => !b == a) l
  rw [List.length_cons]
  omega

def sortNames (names : List String) : List String := names.mergeSort fun a b => !decide (b < a)

theorem sortNames_perm (names : List String) : (sortNames names).Perm names :=
  List.mergeSort_perm ..

theorem sortNames_sorted (names : List String) : (sortNames names).Pairwise (· ≤ ·) := by
  have sorts := @List.pairwise_mergeSort _ (fun a b : String => !decide (b < a))
    (fun a b c hab hbc => by
      simp only [Bool.not_eq_true', decide_eq_false_iff_not, String.not_lt] at hab hbc ⊢
      exact String.le_trans hab hbc)
    (fun a b => by
      simp only [Bool.or_eq_true, Bool.not_eq_true', decide_eq_false_iff_not, String.not_lt]
      exact String.le_total a b) names
  refine sorts.imp fun {a b} hab => ?_
  simpa only [Bool.not_eq_true', decide_eq_false_iff_not, String.not_lt] using hab

theorem eq_of_sorted {names names' : List String} (h : names.Pairwise (· ≤ ·))
    (h' : names'.Pairwise (· ≤ ·)) (hperm : names.Perm names') : names = names' :=
  hperm.eq_of_pairwise (fun _ _ _ _ => String.le_antisymm) h h'

theorem eq_of_strictly_sorted {names names' : List String} (h : names.Pairwise (· < ·))
    (h' : names'.Pairwise (· < ·)) (hmem : ∀ n, n ∈ names ↔ n ∈ names') : names = names' := by
  have apart {a b : String} (hab : a < b) : a ≠ b := fun same =>
    String.lt_irrefl b (same ▸ hab)
  have hperm := (List.perm_ext_iff_of_nodup (h.imp apart) (h'.imp apart)).2 hmem
  exact hperm.eq_of_pairwise (fun a b _ _ hab hba => absurd hba (String.lt_asymm hab)) h h'

theorem lt_of_le_of_ne {a b : String} (h : a ≤ b ∧ a ≠ b) : a < b :=
  Classical.byContradiction fun hab => h.2 (String.le_antisymm h.1 (String.not_lt.1 hab))

theorem sortNames_congr {names names' : List String} (h : names.Perm names') :
    sortNames names = sortNames names' :=
  eq_of_sorted (sortNames_sorted names) (sortNames_sorted names')
    ((sortNames_perm names).trans (h.trans (sortNames_perm names').symm))

namespace Files

theorem nodup_list {fs : Files} {p : Path} {names : List String} (h : fs.list p = .ok names) :
    names.Nodup := by
  rw [list] at h
  obtain ⟨_, _, h⟩ := bind_eq_ok_iff.1 h
  obtain ⟨_, _, h⟩ := bind_eq_ok_iff.1 h
  cases h
  exact nodup_eraseDups _

theorem eq_of_enter {fs : Files} {loc found : Location} (h : fs.enter loc = .ok found) :
    found = loc := by
  rw [enter] at h
  split at h
  · exact (Except.ok.inj h).symm
  · cases h
  · cases h

theorem follow_append (fs : Files) (loc : Location) (pieces rest : List (List Char)) :
    fs.follow loc (pieces ++ rest) = fs.follow loc pieces >>= (fs.follow · rest) := by
  induction pieces generalizing loc with
  | nil => rfl
  | cons piece pieces ih =>
    rw [List.cons_append, follow, follow]
    cases fs.enter loc with
    | error e => rfl
    | ok loc => exact ih _

/-- One tree of files with its entries in two orders. -/
structure SameTree (fs gs : Files) : Prop where
  workingDir : gs.workingDir = fs.workingDir
  entries : gs.entries.Perm fs.entries
  distinct : (fs.entries.map (·.1)).Nodup

namespace SameTree

variable {fs gs : Files}

theorem find?_eq (h : SameTree fs gs) (loc : Location) :
    gs.entries.find? (·.1 = loc) = fs.entries.find? (·.1 = loc) := by
  cases hf : fs.entries.find? (·.1 = loc) with
  | none =>
    rw [List.find?_eq_none] at hf ⊢
    exact fun e he => hf e (h.entries.mem_iff.1 he)
  | some e =>
    have mem : e ∈ fs.entries := List.mem_of_find?_eq_some hf
    have key := List.find?_some hf
    cases hg : gs.entries.find? (·.1 = loc) with
    | none =>
      rw [List.find?_eq_none] at hg
      exact absurd key (hg e (h.entries.mem_iff.2 mem))
    | some e' =>
      -- the location tells the entry, so the first one found is the same in both orders
      have mem' : e' ∈ fs.entries := h.entries.mem_iff.1 (List.mem_of_find?_eq_some hg)
      have key' := List.find?_some hg
      simp only [decide_eq_true_eq] at key key'
      rw [List.inj_on_of_nodup_map h.distinct mem mem' (key.trans key'.symm)]

theorem entryAt_eq (h : SameTree fs gs) : gs.entryAt = fs.entryAt := by
  funext loc
  rw [entryAt, entryAt, h.find?_eq, h.entries.any_eq]

theorem enter_eq (h : SameTree fs gs) : gs.enter = fs.enter := by
  funext loc
  rw [enter, enter, h.entryAt_eq]

theorem follow_eq (h : SameTree fs gs) (loc : Location) (pieces : List (List Char)) :
    gs.follow loc pieces = fs.follow loc pieces := by
  induction pieces generalizing loc with
  | nil => rfl
  | cons piece pieces ih =>
    rw [follow, follow, h.enter_eq]
    simp only [ih]

theorem resolve_eq (h : SameTree fs gs) : gs.resolve = fs.resolve := by
  funext p
  rw [resolve, resolve, locate, locate, start, start, h.follow_eq, h.enter_eq, h.workingDir]

theorem isFile_eq (h : SameTree fs gs) : gs.isFile = fs.isFile := by
  funext p
  rw [isFile, isFile, lookup, lookup, h.resolve_eq, h.entryAt_eq]

theorem children_perm (h : SameTree fs gs) (loc : Location) :
    (gs.entries.filterMap fun e => childName? loc e.1).eraseDups.Perm
      (fs.entries.filterMap fun e => childName? loc e.1).eraseDups := by
  refine (List.perm_ext_iff_of_nodup (nodup_eraseDups _) (nodup_eraseDups _)).2 fun name => ?_
  rw [List.mem_eraseDups, List.mem_eraseDups]
  exact (h.entries.filterMap _).mem_iff

theorem list_cases (h : SameTree fs gs) (p : Path) :
    (∃ e, fs.list p = .error e ∧ gs.list p = .error e) ∨
      ∃ names names', fs.list p = .ok names ∧ gs.list p = .ok names' ∧ names'.Perm names := by
  rw [list, list, h.resolve_eq, h.enter_eq]
  cases fs.resolve p with
  | error e => exact .inl ⟨e, rfl, rfl⟩
  | ok loc =>
    simp only [bind, Except.bind]
    cases fs.enter loc with
    | error e => exact .inl ⟨e, rfl, rfl⟩
    | ok loc => exact .inr ⟨_, _, rfl, rfl, h.children_perm loc⟩

end SameTree

end Files

end Doctest
