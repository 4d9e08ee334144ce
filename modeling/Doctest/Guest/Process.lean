import Doctest.Text.Utf8

namespace Doctest.Guest

structure Process where
  stdin : List UInt8
  position : Nat
  stdout : List UInt8
  stderr : List UInt8
  exitCode : Option Int32
  deriving DecidableEq

namespace Process

def start (stdin : String) : Process := ⟨Text.Utf8.encodeString stdin, 0, [], [], none⟩

def write? (p : Process) (fd : UInt32) (bs : List UInt8) : Option Process :=
  if fd = 1 then some { p with stdout := p.stdout ++ bs }
  else if fd = 2 then some { p with stderr := p.stderr ++ bs }
  else none

def read? (p : Process) (fd : UInt32) (length : Nat) : Option (List UInt8 × Process) :=
  if fd = 0 then
    let bs := (p.stdin.drop p.position).take length
    some (bs, { p with position := p.position + bs.length })
  else none

def stdoutText (p : Process) : String := Text.Utf8.decodeString p.stdout

def stderrText (p : Process) : String := Text.Utf8.decodeString p.stderr

end Process

def argumentBytes : List (List UInt8) := ["prog.wasm".toUTF8.toList ++ [0]]

end Doctest.Guest
