import Doctest.Proofs.Document.Section
import Doctest.Proofs.Document.Values

namespace Doctest.Document

open Text (Line dropWhile_append_stop takeWhile_append_stop)

theorem bounds_of_isKeyChar {c : Char} (h : isKeyChar c = true) :
    (0x61 ≤ c.toNat ∧ c.toNat ≤ 0x7A) ∨ (0x41 ≤ c.toNat ∧ c.toNat ≤ 0x5A) ∨ c.toNat = 0x5F := by
  simp only [isKeyChar, Bool.or_eq_true, Bool.and_eq_true, decide_eq_true_eq, beq_iff_eq] at h
  obtain (⟨lower, upper⟩ | ⟨lower, upper⟩) | rfl := h
  · exact .inl ⟨lower, upper⟩
  · exact .inr (.inl ⟨lower, upper⟩)
  · exact .inr (.inr rfl)

theorem not_isBlank_of_isKeyChar {c : Char} (h : isKeyChar c = true) :
    Text.isBlank c = false := by
  have bounds := bounds_of_isKeyChar h
  simp [Text.isBlank]
  omega

theorem keyValue?_line {name value : Line} (hne : name ≠ [])
    (hname : ∀ c ∈ name, isKeyChar c = true) (hvalue : ∀ c ∈ value.head?, Text.isBlank c = false) :
    keyValue? (name ++ ": ".toList ++ value) = some (name, value) := by
  have written : name ++ ": ".toList ++ value = name ++ ':' :: ' ' :: value := by
    rw [List.append_assoc]
    rfl
  have colon : isKeyChar ':' = false := by decide
  have start : Text.trimStart (name ++ ':' :: ' ' :: value) = name ++ ':' :: ' ' :: value := by
    apply Text.trimStart_of_head
    intro c hc
    obtain ⟨d, name, rfl⟩ := List.exists_cons_of_ne_nil hne
    obtain rfl : d = c := Option.some.inj hc
    exact not_isBlank_of_isKeyChar (hname d List.mem_cons_self)
  have rest : Text.trimStart (' ' :: value) = value := Text.trimStart_of_head hvalue
  have key : name.isEmpty = false := by simpa using hne
  rw [written]
  simp only [keyValue?, start, takeWhile_append_stop hname colon,
    dropWhile_append_stop hname colon, key]
  exact congrArg (fun v => some (name, v)) rest

theorem entryAt_line {name value : Line} {key : Key} (hkey : Key.ofName? name = some key)
    (hne : name ≠ []) (hname : ∀ c ∈ name, isKeyChar c = true)
    (hvalue : ∀ c ∈ value.head?, Text.isBlank c = false)
    (hblock : key = .ret ∨ Text.trim value ≠ blockWord) (following : List Line) :
    entryAt (name ++ ": ".toList ++ value) following = some (key, .text value) := by
  have single : ¬ (key ≠ .ret ∧ Text.trim value = blockWord) := by
    rintro ⟨text, block⟩
    exact hblock.elim text fun other => other block
  simp only [entryAt, keyValue?_line hne hname hvalue, Option.bind_eq_bind, Option.bind_some, hkey]
  rw [if_neg single]
  rfl

theorem entries_eq_filterMap {ls : List Line}
    (h : ∀ l ∈ ls, ∀ following, entryAt l following = entryAt l []) :
    entries ls = ls.filterMap (entryAt · []) := by
  induction ls with
  | nil => rfl
  | cons l ls ih =>
    have rest := ih fun m hm => h m (List.mem_cons_of_mem l hm)
    rw [entries, h l List.mem_cons_self ls, rest, List.filterMap_cons]
    cases entryAt l [] <;> rfl

def Key.all : List Key := [.stdin, .stdout, .stderr, .ret]

def Key.name : Key → Line
  | .stdin => "stdin".toList
  | .stdout => "stdout".toList
  | .stderr => "stderr".toList
  | .ret => "ret".toList

def Key.select {α : Type} (stdin stdout stderr ret : α) : Key → α
  | .stdin => stdin
  | .stdout => stdout
  | .stderr => stderr
  | .ret => ret

theorem Key.ofName?_name (key : Key) : ofName? key.name = some key := by
  cases key <;> decide

theorem Key.name_ne_nil (key : Key) : key.name ≠ [] := by
  cases key <;> decide

theorem Key.isKeyChar_of_mem_name (key : Key) : ∀ c ∈ key.name, isKeyChar c = true := by
  apply List.all_eq_true.1
  cases key <;> decide

def entriesOf (contents : Key → Option Content) : List MetadataEntry :=
  Key.all.flatMap fun key => (contents key).toList.map (key, ·)

theorem filter_entriesOf (contents : Key → Option Content) (key : Key) :
    (entriesOf contents).filter (·.1 = key) = (contents key).toList.map (key, ·) := by
  have each (k : Key) : ((contents k).toList.map (k, ·)).filter (·.1 = key) =
      if k = key then (contents k).toList.map (k, ·) else [] := by
    cases contents k <;> by_cases h : k = key <;> simp [h]
  rw [entriesOf, List.filter_flatMap]
  simp only [each]
  cases key <;> simp [Key.all]

theorem lastFor_of_perm {es : List MetadataEntry} {contents : Key → Option Content}
    (h : es.Perm (entriesOf contents)) (key : Key) : lastFor key es = contents key := by
  have only := h.filter (·.1 = key)
  rw [filter_entriesOf] at only
  rw [lastFor]
  cases hc : contents key with
  | none =>
    rw [hc] at only
    rw [only.eq_nil]
    rfl
  | some c =>
    rw [hc] at only
    rw [List.perm_singleton.1 only]
    rfl

structure Holds (ls : List Line) (key : Key) (content : Option Content) : Prop where
  isLine : ∀ l ∈ ls, Text.IsLine l
  noFence : ∀ l ∈ ls, isFence l = false
  alone : ∀ l ∈ ls, ∀ following, entryAt l following = entryAt l []
  entries : ls.filterMap (entryAt · []) = content.toList.map (key, ·)

theorem Holds.none (key : Key) : Holds [] key none := ⟨nofun, nofun, nofun, rfl⟩

theorem isLine_of_not_control {l : Line} (h : ∀ c ∈ l, 0x20 ≤ c.toNat) : Text.IsLine l :=
  ⟨fun hlf => absurd (h _ hlf) (by decide), fun hcr => absurd (h _ hcr) (by decide)⟩

theorem isFence_of_isKeyChar {name rest : Line} (hne : name ≠ [])
    (hname : ∀ c ∈ name, isKeyChar c = true) : isFence (name ++ rest) = false := by
  obtain ⟨c, name, rfl⟩ := List.exists_cons_of_ne_nil hne
  have other : c ≠ '\x60' := by
    rintro rfl
    exact absurd (hname _ List.mem_cons_self) (by decide)
  simp [isFence, fenceMark, List.isPrefixOf_cons_cons, Ne.symm other]

theorem Holds.line {key : Key} {value : Line}
    (hhead : ∀ c ∈ value.head?, Text.isBlank c = false) (hvalue : ∀ c ∈ value, 0x20 ≤ c.toNat)
    (hblock : key = .ret ∨ Text.trim value ≠ blockWord) :
    Holds [key.name ++ ": ".toList ++ value] key (some (.text value)) := by
  have entry := entryAt_line key.ofName?_name key.name_ne_nil key.isKeyChar_of_mem_name hhead hblock
  constructor
  · have letters : ∀ c ∈ key.name, 0x20 ≤ c.toNat := fun c hc => by
      have bounds := bounds_of_isKeyChar (key.isKeyChar_of_mem_name c hc)
      omega
    have colon : ∀ c ∈ ": ".toList, 0x20 ≤ c.toNat :=
      List.forall_mem_cons.2 ⟨by decide, List.forall_mem_singleton.2 (by decide)⟩
    exact List.forall_mem_singleton.2 (isLine_of_not_control
      (List.forall_mem_append.2 ⟨List.forall_mem_append.2 ⟨letters, colon⟩, hvalue⟩))
  · rw [List.append_assoc]
    exact List.forall_mem_singleton.2
      (isFence_of_isKeyChar key.name_ne_nil key.isKeyChar_of_mem_name)
  · exact List.forall_mem_singleton.2 fun following => (entry following).trans (entry []).symm
  · rw [List.filterMap_cons, entry]
    rfl

section Metadata

variable {lines : Key → List Line} {contents : Key → Option Content} {metadata : List Line}

theorem forall_metadata {P : Line → Prop} (h : ∀ key, ∀ l ∈ lines key, P l)
    (hperm : metadata.Perm (Key.all.flatMap lines)) : ∀ l ∈ metadata, P l := by
  intro l hl
  obtain ⟨key, _, hkey⟩ := List.mem_flatMap.1 (hperm.mem_iff.1 hl)
  exact h key l hkey

theorem lastFor_metadata (h : ∀ key, Holds (lines key) key (contents key))
    (hperm : metadata.Perm (Key.all.flatMap lines)) (key : Key) :
    lastFor key (entries metadata) = contents key := by
  rw [entries_eq_filterMap (forall_metadata (fun key => (h key).alone) hperm)]
  refine lastFor_of_perm ?_ key
  have all := hperm.filterMap (entryAt · [])
  rwa [List.filterMap_flatMap, funext fun key => (h key).entries] at all

end Metadata

end Doctest.Document
