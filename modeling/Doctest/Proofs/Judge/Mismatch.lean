import Doctest.Proofs.Judge.Returned
import Doctest.Proofs.Text.Quoted

namespace Doctest

open Guest (DirectFailure DirectOutcome)

namespace ActualReturn

def initial : ActualReturn → Char
  | .i32 _ => 'i'
  | .f64 _ => 'f'
  | .str _ => 's'
  | .noMemory | .outOfBounds _ | .noPointer _ => 'u'

theorem head?_toList_append {c : Char} {s t : String} (h : s.toList.head? = some c) :
    (s ++ t).toList.head? = some c := by
  rw [String.toList_append, List.head?_append, h, Option.some_or]

theorem head?_display (a : ActualReturn) : a.display.toList.head? = some a.initial := by
  cases a with
  | noMemory => rfl
  | i32 | f64 | str => exact head?_toList_append rfl
  | outOfBounds | noPointer => exact head?_toList_append (head?_toList_append rfl)

theorem initial_eq_of_display {a b : ActualReturn} (h : a.display = b.display) :
    a.initial = b.initial := by
  have head := congrArg (fun s : String => s.toList.head?) h
  simpa only [head?_display, Option.some.injEq] using head

theorem display_i32_inj {v w : Int32} (h : (i32 v).display = (i32 w).display) : v = w := by
  have number : toString v.toInt = toString w.toInt := (String.append_right_inj "i32 ").1 h
  have text := Decimal.intText_toString w.toInt
  rw [← number] at text
  exact Int32.toInt_inj.1 ((Decimal.intText_toString v.toInt).unique text)

theorem display_str_inj {s t : String} (h : (str s).display = (str t).display) : s = t :=
  Text.quoted_injective ((String.append_right_inj "str ").1 h)

end ActualReturn

namespace ReturnSpec

inductive IsExact : ReturnSpec → Prop
  | i32 (v : Int32) : IsExact (.i32 v)
  | str (s : String) : IsExact (.str s)

def met : ReturnSpec → ActualReturn
  | .i32 v => .i32 v
  | .f64 v => .f64 v
  | .str s => .str s

theorem met_injective : Function.Injective met := by
  intro spec other h
  cases spec <;> cases other <;> simp_all [met]

theorem display_met (spec : ReturnSpec) : spec.met.display = spec.display := by
  cases spec <;> rfl

variable {spec : ReturnSpec}

theorem IsExact.agrees_met (h : spec.IsExact) : spec.agrees spec.met = true := by
  cases h with
  | i32 v => exact beq_self_eq_true v
  | str s => exact beq_self_eq_true s

theorem IsExact.eq_met_of_display (h : spec.IsExact) {a : ActualReturn}
    (same : spec.display = a.display) : a = spec.met := by
  rw [← display_met] at same
  have initial := ActualReturn.initial_eq_of_display same
  cases h with
  | i32 v =>
    cases a with
    | i32 w => exact congrArg _ (ActualReturn.display_i32_inj same).symm
    | _ => simp [met, ActualReturn.initial] at initial
  | str s =>
    cases a with
    | str t => exact congrArg _ (ActualReturn.display_str_inj same).symm
    | _ => simp [met, ActualReturn.initial] at initial

theorem reason_judgeDirect_iff {o : DirectOutcome} :
    (spec.judgeDirect o).reason = "return mismatch" ↔ o.failure = none ∧
      ∃ value, o.value = some value ∧ spec.agrees (.of spec value o.memory) = false := by
  unfold judgeDirect
  split
  · next f failure => cases f <;> simp [Verdict.fail, DirectFailure.reason, failure]
  · next failure value => simp [Verdict.fail, value]
  · next value failure hvalue =>
    cases h : spec.agrees (.of spec value o.memory) <;>
      simp [Verdict.fail, Verdict.pass, failure, hvalue, h]

end ReturnSpec

/-- The texts of exact expectations tell them apart, and where a value does not meet one, the two
texts that are shown differ. -/
theorem ret_ne_of_mismatch :
    (∀ spec other : ReturnSpec, spec.IsExact → spec.display = other.display → spec = other) ∧
    ∀ (spec : ReturnSpec) (o : DirectOutcome), spec.IsExact →
      (spec.judgeDirect o).reason = "return mismatch" →
        (spec.judgeDirect o).ok = false ∧
        ∃ value ps, o.value = some value ∧ (spec.judgeDirect o).payloads = some ps ∧
          ps.expected.ret = some spec.display ∧
          ps.actual.ret = some (ActualReturn.of spec value o.memory).display ∧
          ps.expected.ret ≠ ps.actual.ret := by
  refine ⟨fun spec other exact same => ?_, fun spec o exact reason => ?_⟩
  · rw [← other.display_met] at same
    exact (ReturnSpec.met_injective (exact.eq_met_of_display same)).symm
  · obtain ⟨failure, value, hvalue, disagree⟩ := ReturnSpec.reason_judgeDirect_iff.1 reason
    obtain ⟨agrees, shown⟩ := spec.judgeDirect_of_value failure hvalue
    have fails := agrees.trans disagree
    obtain ⟨-, ps, payloads, expected, actual⟩ := shown fails
    refine ⟨fails, value, ps, hvalue, payloads, expected, actual, fun same => ?_⟩
    have texts := Option.some.inj (expected.symm.trans (same.trans actual))
    rw [exact.eq_met_of_display texts, exact.agrees_met] at disagree
    exact Bool.noConfusion disagree

theorem ret_ne_of_mismatch_escape :
    let spec := ReturnSpec.str "\\n"
    let other := ReturnSpec.str "\n"
    let o : DirectOutcome := ⟨some (.i32 0), some ⟨#[1, 0, 0, 0, 10]⟩, "", none⟩
    spec.IsExact ∧ (spec.judgeDirect o).reason = "return mismatch" ∧
      (other.judgeDirect o).ok = true ∧ spec.display ≠ other.display ∧
      ∃ ps, (spec.judgeDirect o).payloads = some ps ∧ ps.expected.ret ≠ ps.actual.ret := by
  intro spec other o
  have reason : (spec.judgeDirect o).reason = "return mismatch" := by decide +kernel
  obtain ⟨-, -, ps, -, payloads, -, -, differ⟩ := ret_ne_of_mismatch.2 spec o (.str _) reason
  refine ⟨.str _, reason, by decide +kernel, fun same => ?_, ps, payloads, differ⟩
  exact absurd (ret_ne_of_mismatch.1 spec other (.str _) same) (by decide)

end Doctest
