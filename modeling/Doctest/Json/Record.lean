import Doctest.Json.Value

namespace Doctest.Json

/-- The values of the keys in a record. Unknown keys are passed over, but every key has to denote a
text, and no known key may come twice. An array may leave out its last values. -/
def Value.slots? (keys : List String) (v : Value) : Option (List (Option Value)) :=
  match v with
  | .object fields => do
    let fields ← fields.mapM fun (key, value) => do return (← bodyText? key, value)
    keys.mapM fun key =>
      match fields.filter (·.1 = key) with
      | [] => some none
      | [(_, value)] => some (some value)
      | _ => none
  | .array items =>
    if items.length ≤ keys.length then
      some (items.map some ++ List.replicate (keys.length - items.length) none)
    else none
  | _ => none

end Doctest.Json
