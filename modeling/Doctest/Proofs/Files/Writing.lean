import Doctest.Proofs.Files.Tree
import Doctest.Proofs.Text.Lines
import Doctest.Proofs.Text.Span
import Doctest.Proofs.Text.Utf8
import Doctest.ReportFile

/-! Writing a report. What was written is read again, and where writing fails there is nothing to be
read: a file that can be read lies in a directory, so the directories that lead to it were there. -/

namespace Doctest

open Text (joinWith prefix_joinWith joinWith_splitOn not_mem_of_mem_splitOn splitOn
  splitOn_append_sep splitOn_joinWith)

namespace Path

theorem splitStart_append (text : List Char) :
    (splitStart text).1 ++ (splitStart text).2 = text := by
  fun_cases splitStart text <;> rfl

def startPieces (start : List Char) : List (List Char) := if start = ['.'] then [['.']] else []

theorem filter_splitOn_joinWith {pieces : List (List Char)} (h : ∀ p ∈ pieces, '/' ∉ p) :
    (splitOn '/' (joinWith ['/'] pieces)).filter (· ≠ []) = pieces.filter (· ≠ []) := by
  cases pieces with
  | nil => rfl
  | cons piece pieces => rw [splitOn_joinWith (List.cons_ne_nil piece pieces) h]

theorem filter_splitOn_dot {pieces more : List (List Char)} (h : ∀ p ∈ pieces, '/' ∉ p)
    (hfront : pieces <+: [] :: more) :
    (splitOn '/' ('.' :: joinWith ['/'] pieces)).filter (· ≠ []) =
      ['.'] :: pieces.filter (· ≠ []) := by
  cases pieces with
  | nil => rfl
  | cons piece pieces =>
    obtain ⟨rfl, _⟩ := List.cons_prefix_cons.1 hfront
    cases pieces with
    | nil => rfl
    | cons next pieces =>
      have rest := filter_splitOn_joinWith fun p hp => h p (List.mem_cons_of_mem [] hp)
      have cut := splitOn_append_sep (joinWith ['/'] (next :: pieces))
        (show '/' ∉ ['.'] by decide)
      change (splitOn '/' (['.'] ++ '/' :: joinWith ['/'] (next :: pieces))).filter _ = _
      rw [cut, List.filter_cons_of_pos (by decide), rest]
      rfl

theorem filter_splitOn_start {text : List Char} {kept : List (List Char)}
    (h : kept <+: splitOn '/' (splitStart text).2) :
    (splitOn '/' ((splitStart text).1 ++ joinWith ['/'] kept)).filter (· ≠ []) =
      startPieces (splitStart text).1 ++ kept.filter (· ≠ []) := by
  have noSlash : ∀ p ∈ kept, '/' ∉ p := fun p hp => not_mem_of_mem_splitOn (h.subset hp)
  fun_cases splitStart text with
  | case1 s => exact filter_splitOn_joinWith noSlash
  | case2 => exact filter_splitOn_dot noSlash h
  | case3 s => exact filter_splitOn_dot noSlash h
  | case4 => exact filter_splitOn_joinWith noSlash

theorem parent?_eq_some {p dir : Path} (h : p.parent? = some dir) (hdir : dir.text ≠ "") :
    ∃ kept more piece, splitOn '/' (splitStart p.text.toList).2 = kept ++ more ∧
      piece ∈ more ∧ piece ≠ [] ∧
      dir.text.toList = (splitStart p.text.toList).1 ++ joinWith ['/'] kept := by
  let pieces := (splitOn '/' (splitStart p.text.toList).2).reverse
  have whole := @List.takeWhile_append_dropWhile _ isFiller pieces
  have stop := Text.head_dropWhile isFiller pieces
  rw [parent?] at h
  simp only at h
  split at h
  · split at h
    · cases h
      exact absurd rfl hdir
    · cases h
  · next piece rest found =>
    cases h
    have named : piece ≠ [] := by
      rintro rfl
      have filler := stop [] (by rw [found]; rfl)
      cases filler
    rw [found, ← @List.takeWhile_append_dropWhile _ isFiller rest] at whole
    have order := congrArg List.reverse whole
    simp only [List.reverse_append, List.reverse_cons, List.append_assoc, pieces,
      List.reverse_reverse] at order
    exact ⟨_, _, piece, order.symm, by simp, named, String.toList_ofList⟩

end Path

namespace Files

open Doctest.Path (parent?_eq_some filter_splitOn_start splitStart splitStart_append startPieces)

variable {fs fs' : Files} {p dir : Path}

theorem entryAt_of_enter {loc found : Location} (h : fs.enter loc = .ok found) :
    fs.entryAt loc = some .directory := by
  rw [enter] at h
  split at h
  · assumption
  · cases h
  · cases h

theorem enter_of_entryAt {loc : Location} (h : fs.entryAt loc = some .directory) :
    fs.enter loc = .ok loc := by
  rw [enter, h]

theorem locate_eq_ok_iff {loc : Location} : fs.locate p = .ok loc ↔
    '\x00' ∉ p.text.toList ∧ p.text ≠ "" ∧ fs.follow (fs.start p) (piecesOf p) = .ok loc := by
  rw [locate]
  split
  · next nul => simp [List.contains_iff_mem.1 nul]
  · next nul =>
    split
    · next empty => simp [String.isEmpty_iff.1 empty]
    · next empty =>
      rw [List.contains_iff_mem] at nul
      rw [String.isEmpty_iff] at empty
      simp [nul, empty]

theorem lookup_eq_ok_iff {e : Entry} : fs.lookup p = .ok e ↔ ∃ loc, fs.locate p = .ok loc ∧
    fs.entryAt loc = some e ∧ (endsInSlash p = true → e = .directory) := by
  rw [lookup, bind_eq_ok_iff]
  constructor
  · rintro ⟨found, hfound, he⟩
    have held : fs.entryAt found = some e := by
      split at he
      · cases he
        assumption
      · cases he
    rw [resolve, bind_eq_ok_iff] at hfound
    obtain ⟨loc, hloc, hfound⟩ := hfound
    split at hfound
    · have directory := entryAt_of_enter hfound
      rw [eq_of_enter hfound] at held
      exact ⟨loc, hloc, held, fun _ => Option.some.inj (held.symm.trans directory)⟩
    · next slash =>
      cases hfound
      exact ⟨found, hloc, held, fun h => absurd h slash⟩
  · rintro ⟨loc, hloc, held, hslash⟩
    have resolved : fs.resolve p = .ok loc := by
      rw [resolve, bind_eq_ok_iff]
      refine ⟨loc, hloc, ?_⟩
      split
      · next slash => exact enter_of_entryAt (hslash slash ▸ held)
      · rfl
    exact ⟨loc, resolved, by rw [held]⟩

theorem isDirectory_iff : fs.isDirectory p = true ↔ fs.lookup p = .ok .directory := by
  rw [isDirectory]
  split
  · next h => simp [h]
  · next h => simpa using h

theorem isDirectory_parent {e : Entry} (h : fs.lookup p = .ok e) (hdir : p.parent? = some dir)
    (hne : dir.text ≠ "") : fs.isDirectory dir = true := by
  obtain ⟨_, found, _⟩ := lookup_eq_ok_iff.1 h
  obtain ⟨nul, _, hfollow⟩ := locate_eq_ok_iff.1 found
  obtain ⟨kept, more, piece, whole, hpiece, named, text⟩ := parent?_eq_some hdir hne
  have keptPrefix : kept <+: splitOn '/' (splitStart p.text.toList).2 := ⟨more, whole.symm⟩
  have joined : (splitStart p.text.toList).1 ++
      joinWith ['/'] (splitOn '/' (splitStart p.text.toList).2) = p.text.toList := by
    rw [joinWith_splitOn, splitStart_append]
  have front : dir.text.toList <+: p.text.toList := by
    have longer := (List.prefix_append_right_inj (splitStart p.text.toList).1).2
      (@prefix_joinWith ['/'] _ _ keptPrefix)
    rwa [← text, joined] at longer
  have pieces : piecesOf p = piecesOf dir ++ more.filter (· ≠ []) := by
    have own := filter_splitOn_start (List.prefix_refl (splitOn '/' (splitStart p.text.toList).2))
    rw [joined] at own
    rw [piecesOf, piecesOf, text, filter_splitOn_start keptPrefix, own, whole, List.filter_append,
      List.append_assoc]
  have start : fs.start dir = fs.start p := by
    obtain ⟨rest, hrest⟩ := front
    have nonempty : dir.text.toList ≠ [] := by simpa using hne
    rw [Files.start, Files.start, Path.isAbsolute, Path.isAbsolute, ← hrest,
      List.head?_append_of_ne_nil _ nonempty]
  rw [pieces, follow_append, bind_eq_ok_iff] at hfollow
  obtain ⟨loc, hkept, hmore⟩ := hfollow
  have inside : fs.entryAt loc = some .directory := by
    cases hrest : more.filter (· ≠ []) with
    | nil =>
      have kept : piece ∈ more.filter (· ≠ []) := by simp [hpiece, named]
      rw [hrest] at kept
      cases kept
    | cons next rest =>
      rw [hrest, follow] at hmore
      obtain ⟨_, entered, _⟩ := bind_eq_ok_iff.1 hmore
      exact entryAt_of_enter entered
  have located : fs.locate dir = .ok loc :=
    locate_eq_ok_iff.2 ⟨fun h => nul (front.subset h), hne, start ▸ hkept⟩
  exact isDirectory_iff.2 (lookup_eq_ok_iff.2 ⟨loc, located, inside, fun _ => rfl⟩)

theorem read_eq_ok_iff {bytes : List UInt8} :
    fs.read p = .ok bytes ↔ fs.lookup p = .ok (.file bytes) := by
  rw [read, bind_eq_ok_iff]
  constructor
  · rintro ⟨e, he, hbytes⟩
    cases e with
    | file contents =>
      cases hbytes
      exact he
    | directory => cases hbytes
  · exact fun h => ⟨_, h, rfl⟩

theorem entryAt_put_of_directory {loc other : Location} {e : Entry}
    (hloc : fs.entryAt loc ≠ some .directory) (h : fs.entryAt other = some .directory) :
    (fs.put loc e).entryAt other = some .directory := by
  have apart : loc ≠ other := by
    rintro rfl
    exact hloc h
  have kept : (fs.put loc e).entries.find? (·.1 = other) = fs.entries.find? (·.1 = other) := by
    rw [put, List.find?_cons_of_neg (by simpa using apart), List.find?_filter]
    refine congrArg (List.find? · fs.entries) (funext fun k => ?_)
    by_cases same : k.1 = other
    · simp [same, Ne.symm apart]
    · simp [same]
  rw [entryAt] at h ⊢
  split at h
  · next empty => rw [if_pos empty]
  · next nonempty =>
    rw [if_neg nonempty, kept]
    split at h
    · exact h
    · split at h
      · next below =>
        obtain ⟨k, hk, hbelow⟩ := List.any_eq_true.1 below
        refine if_pos (List.any_eq_true.2 ?_)
        by_cases same : k.1 = loc
        · exact ⟨(loc, e), List.mem_cons_self, same ▸ hbelow⟩
        · exact ⟨k, List.mem_cons_of_mem _ (List.mem_filter.2 ⟨hk, by simpa using same⟩), hbelow⟩
      · cases h

theorem entryAt_put {loc : Location} (h : loc ≠ []) (e : Entry) :
    (fs.put loc e).entryAt loc = some e := by
  have nonempty : ¬ loc.isEmpty = true := by simpa using h
  rw [entryAt, if_neg nonempty, put, List.find?_cons_of_pos (by simp)]

theorem follow_of_directories {loc found : Location} {pieces : List (List Char)}
    (hdirs : ∀ l, fs.entryAt l = some .directory → fs'.entryAt l = some .directory)
    (h : fs.follow loc pieces = .ok found) : fs'.follow loc pieces = .ok found := by
  induction pieces generalizing loc with
  | nil => exact h
  | cons piece pieces ih =>
    rw [follow, bind_eq_ok_iff] at h ⊢
    obtain ⟨l, hl, hrest⟩ := h
    obtain rfl := eq_of_enter hl
    exact ⟨l, enter_of_entryAt (hdirs l (entryAt_of_enter hl)), ih hrest⟩

theorem read_of_write {bytes : List UInt8} (h : fs.write p bytes = .ok fs') :
    fs'.read p = .ok bytes := by
  rw [write, bind_eq_ok_iff] at h
  obtain ⟨loc, hloc, hput⟩ := h
  split at hput
  · cases hput
  · next file =>
    cases hput
    obtain ⟨noSlash, noDirectory⟩ := not_or.1 file
    have nonempty : loc ≠ [] := by
      rintro rfl
      exact noDirectory rfl
    obtain ⟨nul, text, hfollow⟩ := locate_eq_ok_iff.1 hloc
    have located : (fs.put loc (.file bytes)).locate p = .ok loc :=
      locate_eq_ok_iff.2 ⟨nul, text,
        follow_of_directories (fun _ => entryAt_put_of_directory noDirectory) hfollow⟩
    exact read_eq_ok_iff.2 (lookup_eq_ok_iff.2
      ⟨loc, located, entryAt_put nonempty _, fun slash => absurd slash noSlash⟩)

theorem read_ne_ok_of_write {bytes : List UInt8} {e : FileError} (h : fs.write p bytes = .error e)
    (contents : List UInt8) : fs.read p ≠ .ok contents := by
  rw [Ne, read_eq_ok_iff, lookup_eq_ok_iff]
  rintro ⟨loc, hloc, held, hslash⟩
  have written : fs.write p bytes = .ok (fs.put loc (.file bytes)) := by
    rw [write, bind_eq_ok_iff]
    refine ⟨loc, hloc, if_neg (not_or.2 ⟨fun slash => ?_, fun directory => ?_⟩)⟩
    · cases hslash slash
    · cases held.symm.trans directory
  cases h.symm.trans written

theorem isDirectory_of_ensureDirectory {e : FileError} (h : ensureDirectory p fs = .error e fs') :
    fs'.isDirectory p = false := by
  rw [ensureDirectory] at h
  split at h
  · cases h
  · split at h
    · cases h
    · next missing =>
      cases h
      exact Bool.eq_false_iff.2 missing

theorem isDirectory_of_makeDirectory (h : fs.makeDirectory p = .error .notFound) :
    fs.isDirectory p = false := by
  rw [Bool.eq_false_iff, Ne, isDirectory_iff, lookup_eq_ok_iff]
  rintro ⟨loc, hloc, held, _⟩
  rw [makeDirectory, hloc] at h
  simp [held, bind, Except.bind] at h

theorem makeDirectoriesWithin_of_empty (h : p.text = "") (fuel : Nat) (fs : Files) :
    makeDirectoriesWithin fuel p fs = .ok () fs := by
  have empty : p.text.isEmpty = true := by simp [h]
  cases fuel with
  | zero => rfl
  | succ fuel =>
    rw [makeDirectoriesWithin]
    exact if_pos empty

theorem isDirectory_of_makeDirectoriesWithin {fuel : Nat} {e : FileError}
    (h : makeDirectoriesWithin fuel p fs = .error e fs') : fs'.isDirectory p = false := by
  induction fuel generalizing p fs fs' with
  | zero => cases h
  | succ fuel ih =>
    rw [makeDirectoriesWithin] at h
    simp only at h
    split at h
    · cases h
    · split at h
      · next parent _ hparent =>
        simp only [bind, EStateM.bind] at h
        split at h
        · exact isDirectory_of_ensureDirectory h
        · next failed =>
          cases h
          have hne : parent.text ≠ "" := by
            intro empty
            cases (makeDirectoriesWithin_of_empty empty fuel fs).symm.trans failed
          rw [Bool.eq_false_iff]
          intro there
          have above := isDirectory_parent (isDirectory_iff.1 there) hparent hne
          rw [ih failed] at above
          cases above
      · next missing _ =>
        cases h
        exact isDirectory_of_makeDirectory missing
      · exact isDirectory_of_ensureDirectory h

end Files

open Files (readText)

variable {fs fs' : Files} {p : Path} {text : String}

theorem read_of_readText {s : List Char} (h : fs.readText p = .ok s) :
    ∃ bytes, fs.read p = .ok bytes := by
  rw [readText, bind_eq_ok_iff] at h
  obtain ⟨bytes, read, _⟩ := h
  exact ⟨bytes, read⟩

theorem isDirectory_of_makeReportDirectory {dir : Path} {e : ReportError}
    (h : makeReportDirectory dir fs = .error e fs') :
    dir.text ≠ "" ∧ fs'.isDirectory dir = false := by
  rw [makeReportDirectory] at h
  split at h
  · cases h
  · next text =>
    rw [EStateM.adaptExcept] at h
    split at h
    · next failed =>
      cases h
      exact ⟨by simpa using text, Files.isDirectory_of_makeDirectoriesWithin failed⟩
    · cases h

theorem putReport_cases (p : Path) (text : String) (fs : Files) :
    (∃ fs', putReport p text fs = .ok () fs' ∧
      fs.write p (Text.Utf8.encodeString text) = .ok fs') ∨
    ∃ e, putReport p text fs = .error (.notWritten p e) fs ∧
      fs.write p (Text.Utf8.encodeString text) = .error e := by
  rw [putReport]
  cases fs.write p (Text.Utf8.encodeString text) with
  | ok fs' => exact .inl ⟨fs', rfl, rfl⟩
  | error e => exact .inr ⟨e, rfl, rfl⟩

theorem writeReport_cases (p : Path) (text : String) (fs : Files) :
    (∃ dir e fs', p.parent? = some dir ∧ makeReportDirectory dir fs = .error e fs' ∧
      writeReport p text fs = .error e fs') ∨
    ∃ fs', writeReport p text fs = putReport p text fs' := by
  rw [writeReport]
  cases hparent : p.parent? with
  | none => exact .inr ⟨fs, rfl⟩
  | some dir =>
    simp only [bind, EStateM.bind]
    cases made : makeReportDirectory dir fs with
    | ok _ fs' => exact .inr ⟨fs', rfl⟩
    | error e fs' => exact .inl ⟨dir, e, fs', rfl, made, rfl⟩

theorem readText_of_writeReport (h : writeReport p text fs = .ok () fs') :
    fs'.readText p = .ok text.toList := by
  obtain ⟨dir, e, gs, _, _, failed⟩ | ⟨gs, result⟩ := writeReport_cases p text fs
  · cases failed.symm.trans h
  · rw [result] at h
    obtain ⟨files, put, written⟩ | ⟨e, put, _⟩ := putReport_cases p text gs
    · cases put.symm.trans h
      rw [readText, Files.read_of_write written]
      simp [Text.Utf8.decode?, Text.Utf8.encodeString, bind, Except.bind]
    · cases put.symm.trans h

/-- Where a report could not be written no text is there to be read. -/
theorem readText_ne_ok_of_writeReport {e : ReportError} (h : writeReport p text fs = .error e fs')
    (s : List Char) : fs'.readText p ≠ .ok s := by
  intro hs
  obtain ⟨bytes, hread⟩ := read_of_readText hs
  obtain ⟨dir, e', gs, hdir, made, failed⟩ | ⟨gs, result⟩ := writeReport_cases p text fs
  · cases failed.symm.trans h
    obtain ⟨hne, missing⟩ := isDirectory_of_makeReportDirectory made
    have there := Files.isDirectory_parent (Files.read_eq_ok_iff.1 hread) hdir hne
    rw [missing] at there
    cases there
  · rw [result] at h
    obtain ⟨files, put, _⟩ | ⟨e', put, failed⟩ := putReport_cases p text gs
    · cases put.symm.trans h
    · cases put.symm.trans h
      exact Files.read_ne_ok_of_write failed bytes hread

end Doctest
