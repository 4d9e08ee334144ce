import Doctest.Execute
import Doctest.Schedule.Workers
import Doctest.Text.Quoted

namespace Doctest.Schedule

open Compiler (Loader Search NoArtifacts ProfileUnsupported)
open Guest (Engine)

structure Plan where
  search : Search
  jobs : Option Nat
  entry : String
  profile : Option String
  order : Order
  deriving DecidableEq

inductive WorkerError
  | noCompiler : NoArtifacts → WorkerError
  | profile : ProfileUnsupported → WorkerError
  | crashed : String → WorkerError
  deriving DecidableEq

def WorkerError.chain : WorkerError → Chain
  | .noCompiler e => ["Failed to load compiler", e.message]
  | .profile e => [e.message]
  | .crashed _ => ["worker crashed"]

inductive RunError
  | serial : WorkerError → RunError
  | sharded : RunFailure WorkerError → RunError
  deriving DecidableEq

def RunError.chain : RunError → Chain
  | .serial (.crashed message) =>
    ["Worker crashed", "task 0 panicked with message " ++ Text.quoted message]
  | .serial e => e.chain
  | .sharded (.shard i e) => s!"Shard {i} failed" :: e.chain
  | .sharded (.noResults i) => [s!"Shard {i} produced no results"]

def Plan.load (plan : Plan) (fs : Files) (load : Loader) : Except WorkerError Compiler.Loaded :=
  match plan.search.load fs load with
  | .error (.error e) => .error (.noCompiler e)
  | .error (.crash message) => .error (.crashed message)
  | .ok c => (c.withProfile plan.profile).mapError .profile

def Plan.setup [Engine] (plan : Plan) (fs : Files) (load : Loader) :
    Setup TestCase TestResult WorkerError := fun _ => do
  let c ← plan.load fs load
  return fun t => (t.run c plan.entry).mapError fun e => .crashed e.message

def runSerially {α β ε : Type} (run : α → Except ε β) :
    List (Indexed α) → Except ε (List (Indexed β))
  | [] => .ok []
  | t :: ts => do
    let r ← run t.2
    return (t.1, r) :: (← runSerially run ts)

def Plan.run [Engine] (plan : Plan) (fs : Files) (load : Loader) (processors : Nat)
    (tests : List TestCase) : Except RunError Report := do
  let workers := effectiveWorkers plan.jobs processors tests.length
  let setup := plan.setup fs load
  let results ←
    if workers = 1 then
      (do runSerially (← setup 0) (indexed tests)).mapError .serial
    else (runShards setup (shard tests workers)).mapError .sharded
  return Report.of (merge plan.order results)

end Doctest.Schedule
