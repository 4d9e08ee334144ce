import Doctest.Guest.SystemInterface

namespace Doctest.Guest

inductive SystemCall
  | fdWrite : SystemCall
  | fdRead : SystemCall
  | procExit : SystemCall
  | argsSizesGet : SystemCall
  | argsGet : SystemCall
  | environSizesGet : SystemCall
  | environGet : SystemCall
  | fdClose : SystemCall
  | fdFdstatGet : SystemCall
  | fdSeek : SystemCall
  | fdPrestatGet : SystemCall
  | fdPrestatDirName : SystemCall
  | clockTimeGet : SystemCall
  | randomGet : SystemCall
  | schedYield : SystemCall
  deriving DecidableEq

namespace SystemCall

def all : List SystemCall :=
  [.fdWrite, .fdRead, .procExit, .argsSizesGet, .argsGet, .environSizesGet, .environGet, .fdClose,
    .fdFdstatGet, .fdSeek, .fdPrestatGet, .fdPrestatDirName, .clockTimeGet, .randomGet, .schedYield]

def name : SystemCall → String
  | .fdWrite => "fd_write"
  | .fdRead => "fd_read"
  | .procExit => "proc_exit"
  | .argsSizesGet => "args_sizes_get"
  | .argsGet => "args_get"
  | .environSizesGet => "environ_sizes_get"
  | .environGet => "environ_get"
  | .fdClose => "fd_close"
  | .fdFdstatGet => "fd_fdstat_get"
  | .fdSeek => "fd_seek"
  | .fdPrestatGet => "fd_prestat_get"
  | .fdPrestatDirName => "fd_prestat_dir_name"
  | .clockTimeGet => "clock_time_get"
  | .randomGet => "random_get"
  | .schedYield => "sched_yield"

def params : SystemCall → List ValueType
  | .fdWrite | .fdRead => [.i32, .i32, .i32, .i32]
  | .procExit | .fdClose => [.i32]
  | .argsSizesGet | .argsGet | .environSizesGet | .environGet => [.i32, .i32]
  | .fdFdstatGet | .fdPrestatGet | .randomGet => [.i32, .i32]
  | .fdSeek => [.i32, .i64, .i32, .i32]
  | .fdPrestatDirName => [.i32, .i32, .i32]
  | .clockTimeGet => [.i32, .i64, .i32]
  | .schedYield => []

def type (c : SystemCall) : FunctionType :=
  ⟨c.params, if c = .procExit then [] else [.i32]⟩

def answer (s : State) : SystemCall → List UInt32 → Errno × State
  | .fdWrite, [fd, array, count, result] => s.fdWrite fd array count result
  | .fdRead, [fd, array, count, result] => s.fdRead fd array count result
  | .argsSizesGet, [count, size] => s.argsSizesGet count size
  | .argsGet, [array, buffer] => s.argsGet array buffer
  | .environSizesGet, [count, size] => s.environSizesGet count size
  | .fdFdstatGet, [fd, result] => s.fdFdstatGet fd result
  | .clockTimeGet, [_, _, result] => s.clockTimeGet result
  | .randomGet, [address, length] => s.randomGet address length
  | .fdSeek, _ => (.notSeekable, s)
  | .fdPrestatGet, _ | .fdPrestatDirName, _ => (.badDescriptor, s)
  | _, _ => (.success, s)

def exit (code : Int32) : Run UInt32 := fun s =>
  .error (.exited code) { s with process := { s.process with exitCode := some code } }

def call (c : SystemCall) (args : List UInt32) : Run UInt32 :=
  match c, args with
  | .procExit, code :: _ => exit code.toInt32
  | c, args => fun s =>
    let (errno, s) := c.answer s args
    .ok errno.code s

end SystemCall

def printInt (args : List UInt32) : Run UInt32 := fun s =>
  let line := toString (args.headD 0).toInt32.toInt ++ "\n"
  .ok 0 { s with process := { s.process with
    stdout := s.process.stdout ++ Text.Utf8.encodeString line } }

def printString (args : List UInt32) : Run UInt32 := fun s =>
  if s.exposed then
    match s.memory.string? (args.headD 0).toNat with
    | some bytes =>
      let text := Text.Utf8.encode (Text.Utf8.decode bytes)
      .ok 0 { s with process := { s.process with stdout := s.process.stdout ++ text } }
    | none => .error .printedOutOfBounds s
  else .error .printedNoMemory s

inductive HostFunction
  | system : SystemCall → HostFunction
  | printInt : HostFunction
  | printString : HostFunction
  deriving DecidableEq

namespace HostFunction

def type : HostFunction → FunctionType
  | .system c => c.type
  | .printInt | .printString => ⟨[.i32], []⟩

def call : HostFunction → List UInt32 → Run UInt32
  | .system c => c.call
  | .printInt => Guest.printInt
  | .printString => Guest.printString

end HostFunction

abbrev Host := List ((String × String) × HostFunction)

def systemSource : String := "wasi_snapshot_preview1"

def printSource : String := "env"

def systemHost : Host := SystemCall.all.map fun c => ((systemSource, c.name), .system c)

def printHost : Host :=
  [((printSource, "print_i32"), .printInt), ((printSource, "print_str"), .printString)]

def Host.find? (h : Host) (source name : String) : Option HostFunction :=
  (List.find? (·.1 = (source, name)) h).map (·.2)

end Doctest.Guest
