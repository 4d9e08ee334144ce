import Doctest.Proofs.Guest.History
import Doctest.Proofs.Guest.Laws

namespace Doctest.Guest

def Action.isExit : Action → Bool
  | .call .procExit (_ :: _) => true
  | _ => false

theorem SystemCall.call_of_isExit {c : SystemCall} {args : List UInt32}
    (h : (Action.call c args).isExit = true) (s : State) : ∃ e t, c.call args s = .error e t := by
  unfold Action.isExit at h
  split at h
  · next code rest same =>
    cases same
    exact ⟨_, _, rfl⟩
  · cases h

def HostFunction.IsSystem (f : HostFunction) : Prop := ∃ c, f = .system c

theorem isSystem_of_offers {f : HostFunction} (h : systemHost.Offers f) : f.IsSystem := by
  obtain ⟨key, hf⟩ := h
  obtain ⟨c, _, same⟩ := List.mem_map.1 hf
  exact ⟨c, (Prod.mk.inj same).2.symm⟩

namespace Code

variable {α : Type}

def actions : Code α → Process → List Action
  | .call (.system c) args memory next, p =>
    .compute memory :: .call c args ::
      match c.call args (.ofMemory memory p) with
      | .ok w s => (next w s.memory?).actions s.process
      | .error _ _ => []
  | _, _ => []

theorem process_run {ends : α → Prop} {code : Code α}
    (hcode : code.All HostFunction.IsSystem (fun _ => True) ends) (s : State) :
    leftBy (code.run s.process) = (s.after (code.actions s.process)).process := by
  induction code generalizing s with
  | done a => rfl
  | trap text => rfl
  | call f args memory next ih =>
    obtain ⟨⟨c, rfl⟩, hnext⟩ := hcode
    rw [run, actions, State.after_cons, State.after_cons, State.act, State.act, HostFunction.call]
    cases c.call args (.ofMemory memory s.process) with
    | ok w t => exact ih w t.memory? (hnext w t.memory?) t
    | error e t => rfl

theorem last_of_isExit {code : Code α} {p : Process} {before later : List Action} {a : Action}
    (h : code.actions p = before ++ a :: later) (exit : a.isExit = true) : later = [] := by
  induction code generalizing p before with
  | done b => simp [actions] at h
  | trap text => simp [actions] at h
  | call f args memory next ih =>
    cases f with
    | system c =>
      rw [actions] at h
      match before with
      | [] =>
        cases h
        cases exit
      | [b] =>
        cases h
        -- the call does not return, so nothing comes behind it
        obtain ⟨e, t, failed⟩ := SystemCall.call_of_isExit exit (.ofMemory memory p)
        rw [failed]
      | b :: b' :: before =>
        have rest := (List.cons.inj (List.cons.inj h).2).2
        cases hcall : c.call args (.ofMemory memory p) with
        | ok w s =>
          rw [hcall] at rest
          exact ih w s.memory? rest
        | error e s =>
          rw [hcall] at rest
          simp at rest
    | printInt => simp [actions] at h
    | printString => simp [actions] at h

end Code

end Doctest.Guest
