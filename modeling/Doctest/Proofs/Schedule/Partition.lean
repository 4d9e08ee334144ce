import Doctest.Proofs.Schedule.Dealing
import Mathlib.Data.Int.CardIntervalMod

namespace Doctest.Schedule

variable {α β : Type}

def deal (parts : List (List (Indexed α))) (t : Indexed α) : List (List (Indexed α)) :=
  parts.modify (t.1 % parts.length) (· ++ [t])

def dealInTurn (items : List α) (k : Nat) : List (List (Indexed α)) :=
  (indexed items).foldl deal (List.replicate k [])

def classes (k : Nat) (l : List (Indexed α)) : List (List (Indexed α)) :=
  (List.range k).map fun s => l.filter (·.1 % k == s)

@[simp] theorem length_classes (k : Nat) (l : List (Indexed α)) : (classes k l).length = k := by
  simp [classes]

theorem getElem?_classes {k s : Nat} {l : List (Indexed α)} : (classes k l)[s]? =
    if s < k then some (l.filter (·.1 % k == s)) else none := by
  simp only [classes, List.getElem?_map]
  split
  · next h => rw [List.getElem?_range h, Option.map_some]
  · next h => rw [List.getElem?_eq_none (by simpa using h), Option.map_none]

theorem shard_eq_classes (items : List α) (k : Nat) :
    shard items k = classes (max k 1) (indexed items) :=
  rfl

theorem eq_filter_of_getElem?_shard {items : List α} {k s : Nat} {part : List (Indexed α)}
    (h : (shard items k)[s]? = some part) :
    part = (indexed items).filter (·.1 % max k 1 == s) := by
  rw [shard_eq_classes, getElem?_classes] at h
  split at h
  · exact (Option.some.inj h).symm
  · cases h

theorem deal_classes (k : Nat) (l : List (Indexed α)) (t : Indexed α) :
    deal (classes k l) t = classes k (l ++ [t]) := by
  refine List.ext_getElem? fun s => ?_
  rw [deal, length_classes, List.getElem?_modify, getElem?_classes, getElem?_classes,
    List.filter_append]
  by_cases turn : t.1 % k = s <;> by_cases h : s < k <;> simp [turn, h]

theorem foldl_deal_classes (k : Nat) (l before : List (Indexed α)) :
    l.foldl deal (classes k before) = classes k (before ++ l) := by
  -- Before each turn the shards are the classes of the items dealt so far.
  induction l generalizing before with
  | nil => rw [List.foldl_nil, List.append_nil]
  | cons t l ih => rw [List.foldl_cons, deal_classes, ih, List.append_assoc, List.singleton_append]

theorem shard_eq_dealInTurn (items : List α) (k : Nat) :
    shard items k = dealInTurn items (max k 1) := by
  have empty : (List.replicate (max k 1) [] : List (List (Indexed α))) = classes (max k 1) [] := by
    refine List.ext_getElem? fun s => ?_
    rw [getElem?_classes, List.getElem?_replicate, List.filter_nil]
  rw [dealInTurn, empty, foldl_deal_classes, List.nil_append, shard_eq_classes]

theorem countP_range_mod {k s : Nat} (hs : s < k) (n : Nat) :
    (List.range n).countP (· % k == s) = n / k + if s < n % k then 1 else 0 := by
  have counted := Nat.count_modEq_card n (Nat.zero_lt_of_lt hs) s
  rw [Nat.mod_eq_of_lt hs] at counted
  rw [← counted, Nat.count]
  congr 1
  funext i
  change (i % k == s) = decide (i % k = s % k)
  rw [Nat.mod_eq_of_lt hs, beq_eq_decide]

theorem length_filter_indexed {k s : Nat} (hs : s < k) (items : List α) :
    ((indexed items).filter (·.1 % k == s)).length =
      items.length / k + if s < items.length % k then 1 else 0 := by
  rw [← List.countP_eq_length_filter, ← countP_range_mod hs, ← map_fst_indexed, List.countP_map]
  rfl

theorem length_of_mem_classes {k : Nat} {items : List α} {part : List (Indexed α)}
    (h : part ∈ classes k (indexed items)) :
    part.length = items.length / k ∨ part.length = items.length / k + 1 := by
  obtain ⟨s, hs, rfl⟩ := List.mem_map.1 h
  rw [length_filter_indexed (List.mem_range.1 hs)]
  split
  · exact .inr rfl
  · exact .inl rfl

theorem eq_nil_of_mem_shard {items : List α} {requested : Option Nat} {processors : Nat}
    (h : [] ∈ shard items (effectiveWorkers requested processors items.length)) : items = [] := by
  have pos := effectiveWorkers_pos requested processors items.length
  have bound : effectiveWorkers requested processors items.length ≤ max items.length 1 :=
    Nat.min_le_right ..
  rw [shard_eq_classes, Nat.max_eq_left pos] at h
  by_contra nonempty
  have items_pos := List.length_pos_iff.2 nonempty
  have share := Nat.div_pos (a := items.length) (by omega) pos
  have length := length_of_mem_classes h
  rw [List.length_nil] at length
  omega

theorem indexed_mapIdx (f : Nat → α → β) (items : List α) :
    indexed (items.mapIdx f) = (indexed items).map fun t => (t.1, f t.1 t.2) := by
  refine List.ext_getElem? fun i => ?_
  simp only [indexed, List.getElem?_map, List.getElem?_zipIdx, List.getElem?_mapIdx,
    Option.map_map, Nat.zero_add]
  rfl

theorem merge_map_shard (f : Nat → α → β) (items : List α) (k : Nat)
    {results : List (Indexed β)}
    (h : results.Perm ((shard items k).flatten.map fun t => (t.1, f t.1 t.2))) :
    merge .discovery results = items.mapIdx f := by
  have pos : 0 < max k 1 := by omega
  have dealt : (shard items k).flatten.Perm (indexed items) := by
    rw [shard_eq_classes, ← Nat.max_eq_left pos]
    exact flatten_shard_perm pos
  have answers := h.trans (dealt.map fun t => (t.1, f t.1 t.2))
  rw [← indexed_mapIdx] at answers
  exact merge_discovery answers

/-- Dealing items out, to one shard at least, gives each shard those of one remainder in their own
order, and as many to one as to another but for one item. As many shards as there are workers leave
no worker without items. What is found for the items comes back in their order. -/
theorem shard_balanced (items : List α) (k : Nat) :
    shard items k = dealInTurn items (max k 1) ∧
    (shard items k).length = max k 1 ∧
    (∀ s part, (shard items k)[s]? = some part → part.Pairwise (fun a b => a.1 < b.1) ∧
      ∀ i a, (i, a) ∈ part ↔ items[i]? = some a ∧ i % max k 1 = s) ∧
    (∀ part ∈ shard items k, ∀ other ∈ shard items k, part.length ≤ other.length + 1) ∧
    (∀ requested processors, k = effectiveWorkers requested processors items.length →
      [] ∈ shard items k → items = []) ∧
    ∀ f : Nat → α → β,
      merge .discovery ((shard items k).flatten.map fun t => (t.1, f t.1 t.2)) =
        items.mapIdx f := by
  refine ⟨shard_eq_dealInTurn items k, length_shard items k, fun s part hs => ?_,
    fun part hp other ho => ?_, fun requested processors hk hp => ?_,
    fun f => merge_map_shard f items k (.refl _)⟩
  · rw [eq_filter_of_getElem?_shard hs]
    refine ⟨(indexed_pairwise items).filter _, fun i a => ?_⟩
    rw [List.mem_filter, mem_indexed, beq_iff_eq]
  · have length := length_of_mem_classes hp
    have length' := length_of_mem_classes ho
    omega
  · subst hk
    exact eq_nil_of_mem_shard hp

theorem shard_balanced_three :
    let letters := ['a', 'b', 'c']
    (shard letters 2).length = 2 ∧
      (shard letters 2)[0]? = some [(0, 'a'), (2, 'c')] ∧
      [(0, 'a'), (2, 'c')].Pairwise (fun a b => a.1 < b.1) ∧
      [(0, 'a'), (2, 'c')].length ≤ [(1, 'b')].length + 1 ∧
      effectiveWorkers (some 8) 1 letters.length = 3 ∧
      [] ∉ shard letters 3 ∧ [] ∈ shard letters 5 ∧ shard letters 0 = [indexed letters] ∧
      merge .discovery ((shard letters 2).flatten.map fun t => (t.1, (t.2, t.1))) =
        [('a', 0), ('b', 1), ('c', 2)] := by
  intro letters
  obtain ⟨-, length, ordered, even, -, merged⟩ := shard_balanced (β := Char × Nat) letters 2
  obtain ⟨-, -, -, -, busy, -⟩ := shard_balanced (β := Char) letters 3
  have none_idle : [] ∉ shard letters 3 := fun h =>
    absurd (busy (some 8) 1 (by decide) h) (by decide)
  exact ⟨length, by decide, (ordered 0 _ (by decide)).1, even _ (by decide) _ (by decide),
    by decide, none_idle, by decide, by decide, merged fun i c => (c, i)⟩

end Doctest.Schedule
