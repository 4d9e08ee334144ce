import Doctest.Attributes
import Doctest.ReturnSpec

namespace Doctest

inductive Origin
  | commentBlock : Origin
  | fencedBlock : Origin
  deriving DecidableEq

def Origin.tag : Origin → String
  | .commentBlock => "nepl"
  | .fencedBlock => "nmd"

structure TestCase where
  origin : Origin
  sourceFile : String
  name : String
  line : Nat
  attributes : Attributes
  stdin : Option String
  stdout : Option String
  stderr : Option String
  ret : Option ReturnSpec
  code : String
  deriving DecidableEq

end Doctest
