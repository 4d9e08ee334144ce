import Doctest.Settings
import Mathlib.Data.List.Forall2

namespace Doctest

namespace Json.Value

variable {α β : Type}

def written? (v : Value) (place : Nat) (key : String) : Option Value :=
  match v with
  | .object fields => (fields.find? fun f => bodyText? f.1 = some key).map Prod.snd
  | .array items => items[place]?
  | _ => none

theorem forall₂_of_mapM {f : α → Option β} {l : List α} {bs : List β} (h : l.mapM f = some bs) :
    List.Forall₂ (fun a b => f a = some b) l bs := by
  induction l generalizing bs with
  | nil =>
    cases h
    exact .nil
  | cons a l ih =>
    rw [List.mapM_cons] at h
    obtain ⟨b, hb, h⟩ := Option.bind_eq_some_iff.1 h
    obtain ⟨bs, hbs, h⟩ := Option.bind_eq_some_iff.1 h
    cases h
    exact .cons hb (ih hbs)

theorem find?_of_forall₂ {fields named : List (String × Value)} (key : String)
    (h : List.Forall₂ (fun f g => bodyText? f.1 = some g.1 ∧ f.2 = g.2) fields named) :
    (fields.find? fun f => bodyText? f.1 = some key).map Prod.snd =
      (named.find? (·.1 = key)).map Prod.snd := by
  induction h with
  | nil => rfl
  | @cons f g fields named hfg rest ih =>
    obtain ⟨name, value⟩ := hfg
    rw [List.find?_cons, List.find?_cons, name]
    by_cases same : g.1 = key
    · simp [same, value]
    · simpa [same] using ih

theorem exists_of_mapM {f : α → Option β} {l : List α} {bs : List β} (h : l.mapM f = some bs)
    {i : Nat} {a : α} (ha : l[i]? = some a) : ∃ b, f a = some b ∧ bs[i]? = some b := by
  obtain ⟨hi, rfl⟩ := List.getElem?_eq_some_iff.1 ha
  have rel := forall₂_of_mapM h
  have hi' : i < bs.length := rel.length_eq ▸ hi
  exact ⟨bs[i], rel.get hi hi', List.getElem?_eq_getElem hi'⟩

theorem getElem?_slots? {keys : List String} {v : Value} {slots : List (Option Value)}
    (h : v.slots? keys = some slots) {place : Nat} {key : String} (hkey : keys[place]? = some key) :
    slots[place]? = some (v.written? place key) := by
  cases v with
  | object fields =>
    obtain ⟨named, hnamed, hslots⟩ := Option.bind_eq_some_iff.1 h
    have alike := find?_of_forall₂ key ((forall₂_of_mapM hnamed).imp fun f g hfg => by
      obtain ⟨name, hname, hg⟩ := Option.bind_eq_some_iff.1 hfg
      cases hg
      exact ⟨hname, rfl⟩)
    obtain ⟨slot, hslot, hplace⟩ := exists_of_mapM hslots hkey
    rw [hplace, written?, alike, ← List.head?_filter]
    split at hslot
    · next none => rw [none]; exact congrArg some (Option.some.inj hslot).symm
    · next one => rw [one]; exact congrArg some (Option.some.inj hslot).symm
    · cases hslot
  | array items =>
    simp only [slots?] at h
    split at h
    · next few =>
      have inside := (List.getElem?_eq_some_iff.1 hkey).1
      obtain rfl := Option.some.inj h
      by_cases hplace : place < items.length
      · rw [List.getElem?_append_left (by simpa using hplace), List.getElem?_map, written?,
          List.getElem?_eq_getElem hplace, Option.map_some]
      · rw [List.getElem?_append_right (by simpa using hplace), List.getElem?_replicate, written?,
          List.getElem?_eq_none (by omega), if_pos (by rw [List.length_map]; omega)]
    · cases h
  | _ => cases h

end Json.Value

namespace Settings

open Json (Value)

inductive Field
  | compilerDir : Field
  | installDir : Field
  | jobs : Field
  | entryExport : Field
  | profile : Field
  | nodeCommand : Field
  | artifactPrefix : Field
  | resultOrder : Field
  deriving DecidableEq

namespace Field

@[reducible]
def Held : Field → Type
  | .compilerDir | .installDir => Option Path
  | .jobs => Option Nat
  | .profile => Option String
  | .entryExport | .nodeCommand | .artifactPrefix => String
  | .resultOrder => Schedule.Order

def place : Field → Nat
  | .compilerDir => 0
  | .installDir => 1
  | .jobs => 2
  | .entryExport => 3
  | .profile => 4
  | .nodeCommand => 5
  | .artifactPrefix => 6
  | .resultOrder => 7

def key : Field → String
  | .compilerDir => "compiler_dir"
  | .installDir => "install_dir"
  | .jobs => "jobs"
  | .entryExport => "entry_export"
  | .profile => "profile"
  | .nodeCommand => "node_command"
  | .artifactPrefix => "artifact_prefix"
  | .resultOrder => "result_order"

theorem getElem?_keys (f : Field) : keys[f.place]? = some f.key := by
  cases f <;> rfl

def read? : (f : Field) → Value → Option f.Held
  | .compilerDir | .installDir => Value.optional fun v => v.text?.map Path.mk
  | .jobs => Value.optional jobs?
  | .profile => Value.optional Value.text?
  | .entryExport | .nodeCommand | .artifactPrefix => Value.text?
  | .resultOrder => order?

end Field

abbrev Values := (f : Field) → f.Held

def get (s : Settings) : Values
  | .compilerDir => s.compilerDir
  | .installDir => s.installDir
  | .jobs => s.jobs
  | .entryExport => s.entryExport
  | .profile => s.profile
  | .nodeCommand => s.nodeCommand
  | .artifactPrefix => s.artifactPrefix
  | .resultOrder => s.resultOrder

theorem slot_of_ofJson? {v : Value} {s : Settings} (h : ofJson? v = some s) (f : Field) :
    slot f.read? (default.get f) (v.written? f.place f.key) = some (s.get f) := by
  obtain ⟨slots, hslots, h⟩ := Option.bind_eq_some_iff.1 h
  have written := Value.getElem?_slots? hslots f.getElem?_keys
  split at h
  · next a b c d e g i j =>
    simp only [bind, Option.bind_eq_some_iff] at h
    obtain ⟨compilerDir, h₀, installDir, h₁, jobs, h₂, entryExport, h₃, profile, h₄, nodeCommand,
      h₅, artifactPrefix, h₆, resultOrder, h₇, hs⟩ := h
    cases hs
    cases f <;> (cases written; assumption)
  · cases h

end Settings

end Doctest
