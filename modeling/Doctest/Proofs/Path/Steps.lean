import Doctest.Path
import Doctest.Proofs.Text.Lines

namespace Doctest.Path

open Text (splitOn joinWith)

structure IsName (n : String) : Prop where
  nonempty : n ≠ ""
  noSlash : '/' ∉ n.toList
  notHere : n.toList ≠ ['.']
  notUp : n.toList ≠ ['.', '.']

inductive Step.IsMove : Step → Prop
  | up : IsMove .up
  | name {n : String} : IsName n → IsMove (.name n)

abbrev Moves (steps : List Step) : Prop := ∀ s ∈ steps, s.IsMove

def movesOf (text : List Char) : List Step :=
  ((splitOn '/' text).filter (!isFiller ·)).map stepOf

def moves (p : Path) : List Step := movesOf p.text.toList

inductive Plain : List Step → Prop
  | relative {moves : List Step} : Moves moves → Plain moves
  | absolute {moves : List Step} : Moves moves → Plain (.root :: moves)

def IsPlain (p : Path) : Prop := ∃ steps, Plain steps ∧ p = ofSteps steps

theorem isMove_stepOf {piece : List Char} (hslash : '/' ∉ piece) (h : isFiller piece = false) :
    (stepOf piece).IsMove := by
  simp only [isFiller, Bool.or_eq_false_iff, beq_eq_false_iff_ne] at h
  rw [stepOf]
  split
  · exact .up
  · next hup =>
    refine .name ⟨fun empty => h.1 ?_, ?_, ?_, ?_⟩
    · exact String.ofList_eq_empty_iff.1 empty
    · rwa [String.toList_ofList]
    · rw [String.toList_ofList]
      exact h.2
    · rwa [String.toList_ofList]

theorem isMove_movesOf (text : List Char) : Moves (movesOf text) := by
  intro s hs
  obtain ⟨piece, hpiece, rfl⟩ := List.mem_map.1 hs
  obtain ⟨hmem, hfiller⟩ := List.mem_filter.1 hpiece
  exact isMove_stepOf (Text.not_mem_of_mem_splitOn hmem) (by simpa using hfiller)

theorem isMove_moves (p : Path) : Moves p.moves := isMove_movesOf _

theorem stepsOf_slash (text : List Char) : stepsOf ('/' :: text) = .root :: movesOf text := rfl

theorem isAbsolute_iff {p : Path} : p.isAbsolute = true ↔ ∃ text, p.text.toList = '/' :: text := by
  rw [isAbsolute, beq_iff_eq, List.head?_eq_some_iff]

theorem steps_cases (p : Path) :
    (p.isAbsolute = true ∧ p.steps = .root :: p.moves) ∨
      (p.isAbsolute = false ∧ (p.steps = p.moves ∨ p.steps = .here :: p.moves)) := by
  rw [steps, moves]
  by_cases habsolute : ∃ text, p.text.toList = '/' :: text
  · obtain ⟨text, htext⟩ := habsolute
    rw [htext]
    exact .inl ⟨isAbsolute_iff.2 ⟨text, htext⟩, stepsOf_slash text⟩
  · have relative (text : List Char) (h : p.text.toList = '/' :: text) : False :=
      habsolute ⟨text, h⟩
    refine .inr ⟨Bool.eq_false_iff.2 (mt isAbsolute_iff.1 habsolute), ?_⟩
    by_cases hdot : ∃ pieces, splitOn '/' p.text.toList = ['.'] :: pieces
    · obtain ⟨pieces, hdot⟩ := hdot
      exact .inr (stepsOf.eq_2 _ relative pieces hdot)
    · exact .inl (stepsOf.eq_3 _ relative fun pieces h => hdot ⟨pieces, h⟩)

theorem isAbsolute_iff_steps {p : Path} : p.isAbsolute = true ↔ p.steps.head? = some .root := by
  obtain ⟨habsolute, hsteps⟩ | ⟨hrelative, hsteps | hsteps⟩ := p.steps_cases
  · simp [habsolute, hsteps]
  · have other : p.moves.head? ≠ some .root := fun h =>
      nomatch p.isMove_moves .root (List.mem_of_mem_head? h)
    simp [hrelative, hsteps, other]
  · simp [hrelative, hsteps]

theorem join_of_slash {s : List Char} {p : Path} (hp : p.isAbsolute = false)
    (hs : s.getLast? = some '/') :
    (⟨String.ofList s⟩ : Path).join p = ⟨String.ofList (s ++ p.text.toList)⟩ := by
  rw [join, hp, if_neg Bool.false_ne_true, String.toList_ofList, hs]
  simp [String.ofList_append, String.ofList_toList]

theorem join_of_other {s : List Char} {p : Path} {c : Char} (hp : p.isAbsolute = false)
    (hs : s.getLast? = some c) (hc : c ≠ '/') :
    (⟨String.ofList s⟩ : Path).join p = ⟨String.ofList (s ++ '/' :: p.text.toList)⟩ := by
  rw [join, hp, if_neg Bool.false_ne_true, String.toList_ofList, hs]
  split
  · next h => cases h
  · next h => exact absurd (Option.some.inj h) hc
  · rw [List.append_cons, String.ofList_append, String.ofList_append, String.ofList_toList]

namespace Step

variable {s : Step}

theorem IsMove.noSlash (h : s.IsMove) : '/' ∉ stepText s := by
  cases h with
  | up => decide
  | name h => exact h.noSlash

theorem IsMove.stepText_ne_nil (h : s.IsMove) : stepText s ≠ [] := by
  cases h with
  | up => exact List.cons_ne_nil _ _
  | name h => exact fun empty => h.nonempty (String.toList_eq_nil_iff.1 empty)

theorem IsMove.isFiller (h : s.IsMove) : isFiller (stepText s) = false := by
  cases h with
  | up => rfl
  | name h =>
    simpa [Path.isFiller] using ⟨(IsMove.name h).stepText_ne_nil, h.notHere⟩

theorem stepText_stepOf (piece : List Char) : stepText (stepOf piece) = piece := by
  rw [stepOf]
  split
  · next h => exact h.symm
  · exact String.toList_ofList

theorem IsMove.stepOf_stepText (h : s.IsMove) : stepOf (stepText s) = s := by
  cases h with
  | up => rfl
  | name h => rw [stepText, stepOf, if_neg h.notUp, String.ofList_toList]

end Step

def textOf (moves : List Step) : List Char := joinWith ['/'] (moves.map stepText)

section

variable {moves : List Step}

theorem splitOn_textOf (hne : moves ≠ []) (h : Moves moves) :
    splitOn '/' (textOf moves) = moves.map stepText :=
  Text.splitOn_joinWith (by simpa using hne)
    (List.forall_mem_map.2 fun s hs => (h s hs).noSlash)

theorem movesOf_textOf (h : Moves moves) : movesOf (textOf moves) = moves := by
  by_cases hne : moves = []
  · rw [hne]
    rfl
  · have kept : (moves.map stepText).filter (!isFiller ·) = moves.map stepText :=
      List.filter_eq_self.2 (List.forall_mem_map.2 fun s hs => by rw [(h s hs).isFiller]; rfl)
    rw [movesOf, splitOn_textOf hne h, kept, List.map_map]
    exact (List.map_congr_left fun s hs => (h s hs).stepOf_stepText).trans (List.map_id _)

theorem stepsOf_textOf (h : Moves moves) : stepsOf (textOf moves) = moves := by
  -- Moves do not start like a path from the root, nor with a dot.
  by_cases hne : moves = []
  · rw [hne]
    rfl
  · have pieces := splitOn_textOf hne h
    obtain ⟨s, rest, rfl⟩ := List.exists_cons_of_ne_nil hne
    have first := h s List.mem_cons_self
    have read := movesOf_textOf h
    rw [stepsOf.eq_3, ← movesOf, read]
    · rfl
    · intro text slash
      rw [slash] at pieces
      have empty : [] = stepText s := (List.cons.inj pieces).1
      exact absurd first.isFiller (by rw [← empty]; decide)
    · intro others dot
      rw [pieces] at dot
      have here : stepText s = ['.'] := (List.cons.inj dot).1
      exact absurd first.isFiller (by rw [here]; decide)

theorem ofSteps_moves (h : Moves moves) : ofSteps moves = ⟨String.ofList (textOf moves)⟩ := by
  rw [ofSteps]
  · rfl
  · rintro rfl
    exact nomatch h .root List.mem_cons_self

theorem ofSteps_root : ofSteps (.root :: moves) = ⟨String.ofList ('/' :: textOf moves)⟩ := by
  cases moves with
  | nil => rfl
  | cons s moves => rfl

theorem Plain.steps_ofSteps {steps : List Step} (h : Plain steps) :
    (ofSteps steps).steps = steps := by
  cases h with
  | relative h => rw [ofSteps_moves h, Path.steps, String.toList_ofList, stepsOf_textOf h]
  | absolute h =>
    rw [ofSteps_root, Path.steps, String.toList_ofList, stepsOf_slash, movesOf_textOf h]

theorem textOf_append {more : List Step} (hne : moves ≠ []) (hmore : more ≠ []) :
    textOf (moves ++ more) = textOf moves ++ '/' :: textOf more := by
  induction moves with
  | nil => exact absurd rfl hne
  | cons s moves ih =>
    cases moves with
    | nil =>
      obtain ⟨m, ms, rfl⟩ := List.exists_cons_of_ne_nil hmore
      simp [textOf, joinWith]
    | cons t moves =>
      have rest := ih (List.cons_ne_nil t moves)
      simp only [textOf, List.cons_append, List.map_cons, joinWith] at rest ⊢
      simp only [rest, List.append_assoc]

theorem getLast?_textOf (hne : moves ≠ []) (h : Moves moves) :
    ∃ c, (textOf moves).getLast? = some c ∧ c ≠ '/' := by
  obtain rfl | ⟨front, s, rfl⟩ := moves.eq_nil_or_concat
  · exact absurd rfl hne
  · rw [List.concat_eq_append] at h ⊢
    have last := h s (List.mem_append_right front List.mem_cons_self)
    obtain ⟨c, hc⟩ :=
      Option.ne_none_iff_exists'.1 (mt List.getLast?_eq_none_iff.1 last.stepText_ne_nil)
    have ends : (textOf (front ++ [s])).getLast? = some c := by
      by_cases hfront : front = []
      · rw [hfront]
        exact hc
      · rw [textOf_append hfront (List.cons_ne_nil s []), List.append_cons, List.getLast?_append]
        have alone : textOf [s] = stepText s := rfl
        rw [alone, hc]
        rfl
    refine ⟨c, ends, ?_⟩
    rintro rfl
    exact last.noSlash (List.mem_of_getLast? hc)

theorem Plain.join {steps : List Step} (hsteps : Plain steps) (hne : moves ≠ [])
    (h : Moves moves) : (ofSteps steps).join (ofSteps moves) = ofSteps (steps ++ moves) := by
  have relative : (ofSteps moves).isAbsolute = false := by
    rw [Bool.eq_false_iff, Ne, isAbsolute_iff_steps, (Plain.relative h).steps_ofSteps]
    exact fun root => nomatch h .root (List.mem_of_mem_head? root)
  have text : (ofSteps moves).text.toList = textOf moves := by
    rw [ofSteps_moves h, String.toList_ofList]
  cases hsteps with
  | relative hmoves =>
    rw [ofSteps_moves hmoves, ofSteps_moves (List.forall_mem_append.2 ⟨hmoves, h⟩)]
    by_cases hempty : steps = []
    · rw [hempty, Path.join, relative, if_neg Bool.false_ne_true]
      exact ofSteps_moves h
    · obtain ⟨c, hc, hslash⟩ := getLast?_textOf hempty hmoves
      rw [join_of_other relative hc hslash, textOf_append hempty hne, text]
  | @absolute front hmoves =>
    rw [ofSteps_root, List.cons_append, ofSteps_root]
    by_cases hempty : front = []
    · rw [hempty, join_of_slash relative rfl, text]
      rfl
    · obtain ⟨c, hc, hslash⟩ := getLast?_textOf hempty hmoves
      have last : ('/' :: textOf front).getLast? = some c := by
        rw [List.getLast?_cons, hc]
        rfl
      rw [join_of_other relative last hslash, textOf_append hempty hne, text]
      rfl

theorem IsPlain.join {p : Path} (hp : p.IsPlain) (hne : moves ≠ []) (h : Moves moves) :
    (p.join (ofSteps moves)).IsPlain := by
  obtain ⟨steps, hplain, rfl⟩ := hp
  refine ⟨steps ++ moves, ?_, hplain.join hne h⟩
  cases hplain with
  | relative hmoves => exact .relative (List.forall_mem_append.2 ⟨hmoves, h⟩)
  | absolute hmoves => exact .absolute (List.forall_mem_append.2 ⟨hmoves, h⟩)

end

theorem IsPlain.eq_of_steps {p q : Path} (hp : p.IsPlain) (hq : q.IsPlain)
    (h : p.steps = q.steps) : p = q := by
  obtain ⟨steps, hplain, rfl⟩ := hp
  obtain ⟨steps', hplain', rfl⟩ := hq
  rw [hplain.steps_ofSteps, hplain'.steps_ofSteps] at h
  rw [h]

end Doctest.Path
