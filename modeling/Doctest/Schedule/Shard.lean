namespace Doctest.Schedule

abbrev Indexed (α : Type) := Nat × α

def indexed {α : Type} (items : List α) : List (Indexed α) :=
  items.zipIdx.map fun (a, i) => (i, a)

def effectiveWorkers (requested : Option Nat) (processors tests : Nat) : Nat :=
  min (max (requested.getD processors) 1) (max tests 1)

def shard {α : Type} (items : List α) (shards : Nat) : List (List (Indexed α)) :=
  let shards := max shards 1
  (List.range shards).map fun s => (indexed items).filter fun item => item.1 % shards == s

inductive Order
  | shard : Order
  | discovery : Order
  deriving DecidableEq

def Order.name : Order → String
  | .shard => "shard"
  | .discovery => "discovery"

def Order.ofName? (name : String) : Option Order :=
  if name = "shard" then some .shard else if name = "discovery" then some .discovery else none

def merge {β : Type} (order : Order) (results : List (Indexed β)) : List β :=
  let results := match order with
    | .shard => results
    | .discovery => results.mergeSort fun a b => a.1 ≤ b.1
  results.map (·.2)

@[simp] theorem length_shard {α : Type} (items : List α) (shards : Nat) :
    (shard items shards).length = max shards 1 := by
  simp [shard]

theorem effectiveWorkers_pos (requested : Option Nat) (processors tests : Nat) :
    0 < effectiveWorkers requested processors tests := by
  simp only [effectiveWorkers]
  omega

end Doctest.Schedule
