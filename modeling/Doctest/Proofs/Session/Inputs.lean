import Doctest.Inputs
import Doctest.Proofs.Files.Tree

namespace Doctest

open Files (SameTree)

theorem inputsIn_eq (fs : Files) (dir : Path) :
    inputsIn fs dir = ((fs.list dir).mapError (⟨dir, ·⟩)).map fun listing =>
      ((sortNames listing).filter fun n =>
        fs.isFile (dir.join ⟨n⟩) && isInput (dir.join ⟨n⟩)).map fun n => dir.join ⟨n⟩ := by
  rw [inputsIn]
  cases fs.list dir with
  | error e => rfl
  | ok listing =>
    simp only [List.filter_map]
    rfl

theorem inputsIn_of_sameTree {fs gs : Files} (h : SameTree fs gs) (dir : Path) :
    inputsIn gs dir = inputsIn fs dir := by
  rw [inputsIn_eq, inputsIn_eq, h.isFile_eq]
  obtain ⟨e, hf, hg⟩ | ⟨names, names', hf, hg, hperm⟩ := h.list_cases dir
  · rw [hf, hg]
  · rw [hf, hg]
    simp only [Except.mapError, Except.map, sortNames_congr hperm]

def FoundIn (fs : Files) (dir : Path) (found : List Path) : Prop :=
  ∃ listing names : List String, fs.list dir = .ok listing ∧ names.Pairwise (· < ·) ∧
    (∀ n, n ∈ names ↔
      n ∈ listing ∧ fs.isFile (dir.join ⟨n⟩) = true ∧ isInput (dir.join ⟨n⟩) = true) ∧
    found = names.map fun n => dir.join ⟨n⟩

theorem foundIn_of_list {fs : Files} {dir : Path} {listing : List String}
    (h : fs.list dir = .ok listing) :
    FoundIn fs dir (((sortNames listing).filter fun n =>
      fs.isFile (dir.join ⟨n⟩) && isInput (dir.join ⟨n⟩)).map fun n => dir.join ⟨n⟩) := by
  refine ⟨listing, _, h, ?_, fun n => ?_, rfl⟩
  · have distinct : (sortNames listing).Nodup :=
      (sortNames_perm listing).nodup_iff.2 (Files.nodup_list h)
    exact ((sortNames_sorted listing).and distinct).imp lt_of_le_of_ne |>.filter _
  · simp [(sortNames_perm listing).mem_iff]

theorem inputsIn_eq_ok_iff {fs : Files} {dir : Path} {found : List Path} :
    inputsIn fs dir = .ok found ↔ FoundIn fs dir found := by
  rw [inputsIn_eq]
  constructor
  · intro h
    cases hlist : fs.list dir with
    | error e =>
      rw [hlist] at h
      cases h
    | ok listing =>
      rw [hlist] at h
      cases h
      exact foundIn_of_list hlist
  · rintro ⟨listing, names, hlist, sorted, mem, rfl⟩
    obtain ⟨listing', names', hlist', sorted', mem', same⟩ := foundIn_of_list hlist
    obtain rfl := Except.ok.inj (hlist.symm.trans hlist')
    have order : names' = names :=
      eq_of_strictly_sorted sorted' sorted fun n => (mem' n).trans (mem n).symm
    rw [hlist, ← order, ← same]
    rfl

namespace CommandLine

/-- The inputs of a command line: those that it names if their kind is known, in its own order, and
behind them those that are found in the tests directory. -/
def Accepts (c : CommandLine) (fs : Files) (workingDir : Path) (inputs : List Path) : Prop :=
  ∃ found, inputs = (c.inputs.map workingDir.join).filter isInput ++ found ∧
    match c.testsDir with
    | none => found = []
    | some dir => FoundIn fs (workingDir.join dir) found

theorem collectInputs_eq_ok_iff {c : CommandLine} {fs : Files} {workingDir : Path}
    {inputs : List Path} :
    c.collectInputs fs workingDir = .ok inputs ↔ c.Accepts fs workingDir inputs := by
  rw [collectInputs, Accepts]
  cases c.testsDir with
  | none => simp [pure, Except.pure, eq_comm]
  | some dir =>
    simp only [← inputsIn_eq_ok_iff]
    cases inputsIn fs (workingDir.join dir) with
    | error e => simp [bind, Except.bind]
    | ok found => simp [bind, Except.bind, pure, Except.pure, eq_comm]

theorem collectInputs_of_sameTree {fs gs : Files} (h : SameTree fs gs) (c : CommandLine)
    (workingDir : Path) : c.collectInputs gs workingDir = c.collectInputs fs workingDir := by
  simp only [collectInputs, inputsIn_of_sameTree h]

end CommandLine

theorem extractAll_eq_ok_iff {fs : Files} {ps : List Path} {ts : List TestCase} :
    extractAll fs ps = .ok ts ↔
      ∃ tests, List.Forall₂ (fun p ts => extractFile fs p = .ok ts) ps tests ∧
        ts = tests.flatten := by
  induction ps generalizing ts with
  | nil => simp [extractAll, eq_comm]
  | cons p ps ih =>
    rw [extractAll]
    constructor
    · intro h
      cases hp : extractFile fs p with
      | error e =>
        rw [hp] at h
        cases h
      | ok us =>
        rw [hp] at h
        obtain ⟨vs, hvs, h⟩ := bind_eq_ok_iff.1 h
        cases h
        obtain ⟨tests, each, rfl⟩ := ih.1 hvs
        exact ⟨us :: tests, .cons hp each, rfl⟩
    · rintro ⟨_, each, rfl⟩
      cases each with
      | @cons _ us _ tests hp each =>
        rw [hp, ih.2 ⟨tests, each, rfl⟩]
        rfl

end Doctest
