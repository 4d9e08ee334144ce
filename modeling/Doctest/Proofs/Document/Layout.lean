import Doctest.Proofs.Document.Declarations

/-! How the parts of a fenced document hold together. The sections up to a declaration come from the
lines before it and those after its code from the lines after, so other metadata for one section
leaves every other section as it is, at a line that is moved by as much as there is more. -/

namespace Doctest.Document

open Text (Line)

inductive FallsInto : Nat → List Line → List Section → Prop
  | done {n : Nat} : FallsInto n [] []
  | pass {n : Nat} {l : Line} {ls : List Line} {ss : List Section} :
      declaration? (Text.trimEnd l) = none → FallsInto (n + 1) ls ss → FallsInto n (l :: ls) ss
  | take {n : Nat} {l fence : Line} {attributes : Attributes} {metadata code after : List Line}
      {ss : List Section} :
      declaration? (Text.trimEnd l) = some attributes → (∀ l ∈ metadata, isFence l = false) →
      opensFence fence = true → (∀ l ∈ code, isFence l = false) →
      (∀ l ∈ after.head?, isFence l = true) →
      FallsInto (n + 1 + metadata.length + 1 + code.length + 1) (after.drop 1) ss →
      FallsInto n (l :: (metadata ++ fence :: (code ++ after)))
        (⟨n, attributes, metadata, Text.joinLines (code.map reveal)⟩ :: ss)

theorem isFence_of_mem_takeWhile {ls : List Line} :
    ∀ l ∈ ls.takeWhile (!isFence ·), isFence l = false := by
  intro l hl
  simpa using List.mem_takeWhile_imp hl

theorem isFence_head_dropWhile {ls : List Line} :
    ∀ l ∈ (ls.dropWhile (!isFence ·)).head?, isFence l = true := by
  intro l hl
  simpa using Text.head_dropWhile (!isFence ·) ls l hl

theorem exists_append_of_append_eq {α : Type} {as bs xs ys : List α} (h : as ++ xs = bs ++ ys)
    (hlength : bs.length ≤ as.length) : ∃ cs, as = bs ++ cs ∧ ys = cs ++ xs := by
  obtain ⟨more, hmore, rfl⟩ | found := List.append_eq_append_iff.1 h
  · have lengths := congrArg List.length hmore
    rw [List.length_append] at lengths
    obtain rfl : more = [] := List.length_eq_zero_iff.1 (by omega)
    exact ⟨[], by rw [hmore, List.append_nil, List.append_nil], rfl⟩
  · exact found

theorem eq_of_append_fence {as bs xs ys : List Line} (has : ∀ l ∈ as, isFence l = false)
    (hbs : ∀ l ∈ bs, isFence l = false) (hxs : ∀ l ∈ xs.head?, isFence l = true)
    (hys : ∀ l ∈ ys.head?, isFence l = true) (h : as ++ xs = bs ++ ys) : as = bs ∧ xs = ys := by
  have front {as xs : List Line} (has : ∀ l ∈ as, isFence l = false)
      (hxs : ∀ l ∈ xs.head?, isFence l = true) : (as ++ xs).takeWhile (!isFence ·) = as :=
    Text.takeWhile_append_of_head (fun l hl => by rw [has l hl]; rfl) fun l hl => by rw [hxs l hl]; rfl
  obtain rfl : as = bs := by rw [← front has hxs, h, front hbs hys]
  exact ⟨rfl, List.append_cancel_left h⟩

def Section.withMetadata (m k : Nat) (metadata : List Line) (s : Section) : Section :=
  if s.line = m then { s with metadata }
  else if m < s.line then { s with line := s.line - k + metadata.length }
  else s

def Section.renumber (n m : Nat) (s : Section) : Section := { s with line := s.line - n + m }

theorem map_renumber {n m k : Nat} {ss : List Section} (h : ∀ s ∈ ss, n + k ≤ s.line) :
    ss.map (Section.renumber n m) = ss.map (Section.renumber (n + k) (m + k)) :=
  List.map_congr_left fun s hs => by
    have := h s hs
    simp only [Section.renumber]
    congr 1
    omega

namespace FallsInto

variable {n : Nat} {ls : List Line} {ss : List Section}

theorem fencedSections_eq (h : FallsInto n ls ss) : fencedSections n ls = .ok ss := by
  induction h with
  | done => exact fencedSections_nil _
  | pass hl _ ih => rw [fencedSections_pass hl, ih]
  | take hl hmetadata hfence hcode hafter _ ih =>
    rw [fencedSections_open hl hmetadata hfence hcode hafter, ih]
    rfl

theorem of_fencedSections (h : fencedSections n ls = .ok ss) : FallsInto n ls ss := by
  fun_induction fencedSections n ls generalizing ss with
  | case1 n =>
    cases h
    exact .done
  | case2 n l ls hl ih => exact .pass hl (ih h)
  | case3 => cases h
  | case4 n l ls attributes hl metadata fenceLine fence body hdrop hopens code =>
    rename_i rest ih
    cases hss : fencedSections (fenceLine + 1 + code.length + 1) rest with
    | error e =>
      rw [hss] at h
      cases h
    | ok found =>
      rw [hss] at h
      obtain rfl := Except.ok.inj h
      have whole : ls = metadata ++ fence :: (code ++ body.dropWhile (!isFence ·)) := by
        rw [List.takeWhile_append_dropWhile, ← hdrop, List.takeWhile_append_dropWhile]
      rw [whole]
      exact .take hl isFence_of_mem_takeWhile hopens isFence_of_mem_takeWhile
        isFence_head_dropWhile (ih hss)
  | case5 => cases h

theorem le_line (h : FallsInto n ls ss) : ∀ s ∈ ss, n ≤ s.line := by
  induction h with
  | done => nofun
  | pass _ _ ih => exact fun s hs => Nat.le_of_succ_le (ih s hs)
  | take _ _ _ _ _ _ ih =>
    refine List.forall_mem_cons.2 ⟨Nat.le_refl _, fun s hs => ?_⟩
    have := ih s hs
    omega

theorem exists_line (h : FallsInto n ls ss) :
    ∀ s ∈ ss, ∃ before l after, ls = before ++ l :: after ∧ s.line = n + before.length := by
  induction h with
  | done => nofun
  | @pass n l ls ss _ _ ih =>
    intro s hs
    obtain ⟨before, m, after, rfl, hline⟩ := ih s hs
    refine ⟨l :: before, m, after, rfl, ?_⟩
    rw [hline, List.length_cons]
    omega
  | @take n l fence _ metadata code after ss _ _ _ _ _ _ ih =>
    refine List.forall_mem_cons.2 ⟨⟨[], l, _, rfl, rfl⟩, fun s hs => ?_⟩
    obtain ⟨before, m, after', hafter, hline⟩ := ih s hs
    cases after with
    | nil => exact absurd hafter (by simp)
    | cons closing rest =>
      obtain rfl : rest = before ++ m :: after' := hafter
      refine ⟨l :: (metadata ++ fence :: (code ++ closing :: before)), m, after', by simp, ?_⟩
      rw [hline]
      simp
      omega

theorem renumber (h : FallsInto n ls ss) (m : Nat) :
    FallsInto m ls (ss.map (Section.renumber n m)) := by
  induction h generalizing m with
  | done => exact .done
  | pass hl hrest ih =>
    rw [map_renumber hrest.le_line]
    exact .pass hl (ih (m + 1))
  | @take n _ _ _ metadata code _ ss hl hmetadata hfence hcode hafter hrest ih =>
    have behind (k : Nat) : k + 1 + metadata.length + 1 + code.length + 1 =
        k + (metadata.length + code.length + 3) := by omega
    rw [behind] at hrest ih
    rw [List.map_cons, Section.renumber, Nat.sub_self, Nat.zero_add, map_renumber hrest.le_line]
    exact .take hl hmetadata hfence hcode hafter (by rw [behind]; exact ih _)

theorem cut {before tail : List Line} (h : FallsInto n (before ++ tail) ss)
    (hs : ∃ s ∈ ss, s.line = n + before.length) :
    ∃ pre post, ss = pre ++ post ∧ (∀ s ∈ pre, s.line < n + before.length) ∧
      FallsInto (n + before.length) tail post ∧
      ∀ {tail' post'}, FallsInto (n + before.length) tail' post' →
        FallsInto n (before ++ tail') (pre ++ post') := by
  generalize hls : before ++ tail = ls at h
  induction h generalizing before with
  | done =>
    obtain ⟨s, hs, _⟩ := hs
    cases hs
  | @pass n l ls ss hl hrest ih =>
    cases before with
    | nil =>
      obtain rfl := hls
      exact ⟨[], ss, rfl, nofun, .pass hl hrest, id⟩
    | cons b before =>
      obtain ⟨rfl, rfl⟩ := List.cons.inj hls
      have length : n + (b :: before).length = n + 1 + before.length := by
        rw [List.length_cons]
        omega
      rw [length] at hs ⊢
      obtain ⟨pre, post, hss, hpre, hpost, hnew⟩ := ih hs rfl
      exact ⟨pre, post, hss, hpre, hpost, fun h => .pass hl (hnew h)⟩
  | @take n l fence attributes metadata code after ss hl hmetadata hfence hcode hafter hrest ih =>
    by_cases hbefore : before = []
    · obtain rfl := hbefore
      obtain rfl := hls
      exact ⟨[], _, rfl, nofun, .take hl hmetadata hfence hcode hafter hrest, id⟩
    · -- the cut lies behind all that this declaration takes, as its section is none of that one
      obtain ⟨s, hs, hline⟩ := hs
      have longer := List.length_pos_iff.2 hbefore
      have behind : s ∈ ss := by
        refine (List.mem_cons.1 hs).resolve_left ?_
        rintro rfl
        have same : n = n + before.length := hline
        omega
      have far := hrest.le_line s behind
      cases after with
      | nil =>
        cases hrest
        cases behind
      | cons closing rest =>
        let front := l :: (metadata ++ fence :: (code ++ [closing]))
        have whole : before ++ tail = front ++ rest := by
          rw [hls]
          simp [front]
        have length : front.length = metadata.length + code.length + 3 := by
          simp [front]
          omega
        obtain ⟨before', rfl, rfl⟩ := exists_append_of_append_eq whole (by omega)
        have place : n + (front ++ before').length =
            n + 1 + metadata.length + 1 + code.length + 1 + before'.length := by
          rw [List.length_append, length]
          omega
        rw [place] at hline ⊢
        obtain ⟨pre, post, rfl, hpre, hpost, hnew⟩ := ih ⟨s, behind, hline⟩ rfl
        refine ⟨_ :: pre, post, rfl, List.forall_mem_cons.2 ⟨by simp only; omega, hpre⟩, hpost, ?_⟩
        intro tail' post' h
        have closed : ∀ l ∈ (closing :: (before' ++ tail')).head?, isFence l = true := hafter
        simpa [front] using take hl hmetadata hfence hcode closed (hnew h)

theorem replace {before metadata metadata' rest : List Line} {declaration : Line}
    (h : FallsInto n (before ++ declaration :: (metadata ++ rest)) ss)
    (hs : ∃ s ∈ ss, s.line = n + before.length) (hmetadata : ∀ l ∈ metadata, isFence l = false)
    (hrest : ∀ l ∈ rest.head?, isFence l = true) (hmetadata' : ∀ l ∈ metadata', isFence l = false) :
    FallsInto n (before ++ declaration :: (metadata' ++ rest))
      (ss.map (Section.withMetadata (n + before.length) metadata.length metadata')) := by
  obtain ⟨pre, post, rfl, hpre, hpost, hnew⟩ := h.cut hs
  have unchanged : pre.map (Section.withMetadata (n + before.length) metadata.length metadata') =
      pre := by
    refine (List.map_congr_left fun s hs => ?_).trans (List.map_id pre)
    have := hpre s hs
    rw [Section.withMetadata, if_neg (by omega), if_neg (by omega)]
    rfl
  rw [List.map_append, unchanged]
  apply hnew
  generalize n + before.length = m at hs hpre hpost
  generalize htail : metadata ++ rest = tail at hpost
  cases hpost with
  | pass _ hlater =>
    obtain ⟨s, hs, hline⟩ := hs
    obtain hs | hs := List.mem_append.1 hs
    · have := hpre s hs
      omega
    · have := hlater.le_line s hs
      omega
  | @take _ _ fence attributes metadata₀ code after ss hl hmetadata₀ hfence hcode hafter hlater =>
    obtain ⟨rfl, rfl⟩ := eq_of_append_fence hmetadata hmetadata₀ hrest
      (by rintro _ ⟨⟩; exact isFence_of_opensFence hfence) htail
    have moved : ss.map (Section.withMetadata m metadata.length metadata') =
        ss.map (Section.renumber (m + 1 + metadata.length + 1 + code.length + 1)
          (m + 1 + metadata'.length + 1 + code.length + 1)) := by
      refine List.map_congr_left fun s hs => ?_
      have := hlater.le_line s hs
      rw [Section.withMetadata, if_neg (by omega), if_pos (by omega), Section.renumber]
      congr 1
      omega
    rw [List.map_cons, moved, Section.withMetadata, if_pos rfl]
    exact .take hl hmetadata' hfence hcode hafter (hlater.renumber _)

theorem replaceAt {s : Section} {metadata : List Line} (h : FallsInto 1 ls ss) (hs : s ∈ ss)
    (hmetadata : ∀ l ∈ metadata, isFence l = false) :
    FallsInto 1 (ls.take s.line ++ (metadata ++ ls.drop (beforeFence ls s.line)))
      (ss.map (Section.withMetadata s.line (metadataAt ls s.line).length metadata)) := by
  obtain ⟨before, l, after, rfl, hline⟩ := h.exists_line s hs
  have number : s.line = before.length + 1 := by rw [hline, Nat.add_comm]
  have front : (before ++ l :: after).take s.line = before ++ [l] := by
    rw [number, List.take_length_add_append]
    rfl
  have back : (before ++ l :: after).drop s.line = after := by
    rw [number, List.drop_length_add_append]
    rfl
  rw [metadataAt, passage_beforeFence, drop_beforeFence, front, back, List.append_assoc,
    List.singleton_append]
  rw [← List.takeWhile_append_dropWhile (p := (!isFence ·)) (l := after)] at h
  have replaced := h.replace ⟨s, hs, hline⟩ isFence_of_mem_takeWhile isFence_head_dropWhile hmetadata
  rwa [← hline] at replaced

end FallsInto

end Doctest.Document
