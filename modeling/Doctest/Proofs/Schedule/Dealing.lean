import Doctest.Schedule.Run
import Mathlib.Data.List.Perm.Basic

namespace Doctest.Schedule

variable {α β ε : Type}

theorem mem_indexed {items : List α} {i : Nat} {a : α} :
    (i, a) ∈ indexed items ↔ items[i]? = some a := by
  simp only [indexed, List.mem_map, Prod.exists, Prod.mk.injEq]
  constructor
  · rintro ⟨b, j, hm, rfl, rfl⟩
    exact List.mk_mem_zipIdx_iff_getElem?.1 hm
  · intro h
    exact ⟨a, i, List.mk_mem_zipIdx_iff_getElem?.2 h, rfl, rfl⟩

theorem map_fst_indexed (items : List α) :
    (indexed items).map Prod.fst = List.range items.length := by
  calc
    (indexed items).map Prod.fst = items.zipIdx.map Prod.snd := by
      simp only [indexed, List.map_map]
      rfl
    _ = List.range items.length := by rw [List.zipIdx_map_snd, List.range_eq_range']

theorem map_snd_indexed (items : List α) : (indexed items).map Prod.snd = items := by
  calc
    (indexed items).map Prod.snd = items.zipIdx.map Prod.fst := by
      simp only [indexed, List.map_map]
      rfl
    _ = items := List.zipIdx_map_fst 0 items

theorem indexed_map (f : α → β) (items : List α) :
    indexed (items.map f) = (indexed items).map fun t => (t.1, f t.2) := by
  simp only [indexed, List.zipIdx_map, List.map_map]
  rfl

theorem indexed_pairwise (items : List α) :
    (indexed items).Pairwise fun a b => a.1 < b.1 := by
  rw [← List.pairwise_map (f := Prod.fst) (R := (· < ·)), map_fst_indexed]
  exact List.pairwise_lt_range

theorem getElem?_shard {items : List α} {k s : Nat} (hs : s < k) :
    (shard items k)[s]? = some ((indexed items).filter (·.1 % k == s)) := by
  have hk : max k 1 = k := by omega
  simp [shard, hk, hs]

theorem mem_of_getElem?_shard {items : List α} {k s i : Nat} {a : α} (hk : 0 < k)
    {part : List (Indexed α)} (hp : (shard items k)[s]? = some part) (ha : (i, a) ∈ part) :
    i % k = s ∧ items[i]? = some a := by
  have hs : s < k := by
    have := (List.getElem?_eq_some_iff.1 hp).1
    rw [length_shard] at this
    omega
  rw [getElem?_shard hs, Option.some.injEq] at hp
  subst hp
  rw [List.mem_filter, mem_indexed, beq_iff_eq] at ha
  exact ha.symm

theorem flatMap_range_filter_perm (f : α → Nat) (l : List α) (k : Nat) :
    ((List.range k).flatMap fun s => l.filter (f · == s)).Perm (l.filter (f · < k)) := by
  induction k with
  | zero => simp
  | succ k ih =>
    have below : (l.filter (f · < k + 1)).filter (f · < k) = l.filter (f · < k) := by
      rw [List.filter_filter]
      congr 1
      funext a
      simp only [Bool.and_eq_decide]
      exact decide_eq_decide.2 (by simp; omega)
    have at_k : (l.filter (f · < k + 1)).filter (fun a => !decide (f a < k)) =
        l.filter (f · == k) := by
      rw [List.filter_filter]
      congr 1
      funext a
      rw [Bool.eq_iff_iff]
      simp
      omega
    have halves := List.filter_append_perm (f · < k) (l.filter (f · < k + 1))
    rw [below, at_k] at halves
    rw [List.range_succ, List.flatMap_append, List.flatMap_singleton]
    exact (ih.append_right _).trans halves

theorem flatten_shard_perm {items : List α} {k : Nat} (hk : 0 < k) :
    (shard items k).flatten.Perm (indexed items) := by
  have hmax : max k 1 = k := by omega
  have all : (indexed items).filter (·.1 % k < k) = indexed items := by
    rw [List.filter_eq_self]
    intro a _
    simpa using Nat.mod_lt a.1 hk
  calc
    (shard items k).flatten =
        (List.range k).flatMap fun s => (indexed items).filter (·.1 % k == s) := by
      simp only [shard, hmax, List.flatMap_def]
    _ |>.Perm ((indexed items).filter (·.1 % k < k)) := flatMap_range_filter_perm _ _ k
    _ = indexed items := all

/-- Indices stand in the order of their remainders, and those of one remainder in their own. -/
def before (k i j : Nat) : Bool := i % k < j % k || (i % k == j % k && i ≤ j)

theorem before_total (k i j : Nat) : (before k i j || before k j i) = true := by
  simp [before]
  omega

theorem before_trans {k i j l : Nat} (hij : before k i j) (hjl : before k j l) :
    before k i l := by
  simp [before] at *
  omega

theorem before_antisymm {k i j : Nat} (hij : before k i j) (hji : before k j i) : i = j := by
  simp [before] at *
  omega

theorem flatten_shard_pairwise {items : List α} {k : Nat} (hk : 0 < k) :
    (shard items k).flatten.Pairwise fun a b => before k a.1 b.1 := by
  have hmax : max k 1 = k := by omega
  rw [List.pairwise_flatten]
  simp only [shard, hmax, List.mem_map, List.pairwise_map]
  constructor
  · rintro _ ⟨s, _, rfl⟩
    have sorted := (indexed_pairwise items).filter (·.1 % k == s)
    apply sorted.imp_of_mem
    intro a b ha hb hab
    simp only [List.mem_filter, beq_iff_eq] at ha hb
    simp [before, ha.2, hb.2, Nat.le_of_lt hab]
  · apply List.pairwise_lt_range.imp
    intro s t hst a ha b hb
    simp only [List.mem_filter, beq_iff_eq] at ha hb
    simp [before, ha.2, hb.2, hst]

def byRemainder (k : Nat) (items : List α) : List α :=
  ((indexed items).mergeSort fun a b => before k a.1 b.1).map (·.2)

theorem eq_of_mem_indexed {items : List α} {a b : Indexed α} (ha : a ∈ indexed items)
    (hb : b ∈ indexed items) (h : a.1 = b.1) : a = b := by
  obtain ⟨i, a⟩ := a
  obtain ⟨j, b⟩ := b
  obtain rfl : i = j := h
  have same := (mem_indexed.1 ha).symm.trans (mem_indexed.1 hb)
  rw [Option.some.inj same]

theorem merge_discovery {results : List (Indexed β)} {rs : List β}
    (h : results.Perm (indexed rs)) : merge .discovery results = rs := by
  have sorted : (results.mergeSort fun a b => a.1 ≤ b.1).Pairwise fun a b => a.1 ≤ b.1 := by
    have sorts := @List.pairwise_mergeSort _ (fun a b : Indexed β => decide (a.1 ≤ b.1))
      (by simp; omega) (by simp; omega) results
    simpa using sorts
  have same : (results.mergeSort fun a b => a.1 ≤ b.1) = indexed rs := by
    refine List.Perm.eq_of_pairwise (fun a b ha hb hab hba => ?_) sorted
      ((indexed_pairwise rs).imp Nat.le_of_lt) ((List.mergeSort_perm ..).trans h)
    rw [List.mem_mergeSort] at ha
    exact eq_of_mem_indexed (h.mem_iff.1 ha) hb (Nat.le_antisymm hab hba)
  rw [merge, same]
  exact map_snd_indexed rs

theorem merge_shard {results : List (Indexed β)} {rs : List β} {k : Nat}
    (h : results.Perm (indexed rs))
    (sorted : results.Pairwise fun a b => before k a.1 b.1) :
    merge .shard results = byRemainder k rs := by
  have same : results = (indexed rs).mergeSort fun a b => before k a.1 b.1 := by
    have ranked := @List.pairwise_mergeSort _ (fun a b : Indexed β => before k a.1 b.1)
      (fun _ _ _ => before_trans) (fun _ _ => before_total ..) (indexed rs)
    refine List.Perm.eq_of_pairwise (fun a b ha hb hab hba => ?_) sorted ranked
      (h.trans (List.mergeSort_perm ..).symm)
    rw [List.mem_mergeSort] at hb
    exact eq_of_mem_indexed (h.mem_iff.1 ha) hb (before_antisymm hab hba)
  rw [merge, byRemainder, ← same]

end Doctest.Schedule
