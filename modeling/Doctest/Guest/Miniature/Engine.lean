import Doctest.Guest.Miniature.Format
import Doctest.Guest.Miniature.Machine

namespace Doctest.Guest

instance miniature : Engine where
  Module := Program
  Instance := ProgramInstance
  load := Program.ofBytes
  imports p := p.imports.map fun i => (i.source, i.name)
  instantiate h p := p.instantiate h
  start := ProgramInstance.start
  export? := ProgramInstance.export?
  memory? := ProgramInstance.memory?

def Image.ofJson? (v : Json.Value) : Option Image := Program.load? v

end Doctest.Guest
