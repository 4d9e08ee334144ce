import Doctest.Proofs.Guest.Miniature
import Doctest.Proofs.Guest.Recorded
import Doctest.Proofs.Guest.StoredString
import Doctest.Proofs.Text.Utf8

namespace Doctest.Guest

open Text.Utf8 (decodeString encodeString)

section

variable [Engine]

def processActions (m : Engine.Module) (stdin : String) : List Action :=
  match Engine.instantiate systemHost m with
  | .error _ => []
  | .ok i => (processCode i).actions (.start stdin)

def Image.actions (image : Image) (stdin : String) : List Action :=
  match image with
  | .error _ => []
  | .ok m => processActions m stdin

theorem CallsItsHost.processCode (callsHost : CallsItsHost) {m : Engine.Module}
    {i : Engine.Instance} (hi : Engine.instantiate systemHost m = .ok i) :
    (processCode i).All HostFunction.IsSystem (fun _ => True) fun _ => True := by
  have start := (callsHost systemHost m i hi).imp_calls fun _ => isSystem_of_offers
  refine start.bind fun j hj => ?_
  cases hmain : startFunction? j with
  | none => trivial
  | some code =>
    have main := (hj _ _ _ (export?_of_startFunction? hmain)).imp_calls fun _ => isSystem_of_offers
    exact main.bind fun _ _ => trivial

def State.initial (stdin : String) : State := .ofMemory none (.start stdin)

theorem process_course (callsHost : CallsItsHost) (m : Engine.Module) (stdin : String) :
    (course m stdin).process =
      ((State.initial stdin).after (processActions m stdin)).process := by
  rw [course, processActions]
  cases hi : Engine.instantiate systemHost m with
  | error e => rfl
  | ok i =>
    have ran := Code.process_run (callsHost.processCode hi) (.initial stdin)
    have start : (State.initial stdin).process = .start stdin := rfl
    rw [start] at ran
    simp only [← ran]
    cases (processCode i).run (.start stdin) <;> rfl

theorem Image.last_of_isExit {image : Image} {stdin : String} {before later : List Action}
    {a : Action} (h : image.actions stdin = before ++ a :: later) (exit : a.isExit = true) :
    later = [] := by
  cases image with
  | error e => simp [actions] at h
  | ok m =>
    rw [actions, processActions] at h
    split at h
    · simp at h
    · exact Code.last_of_isExit h exit

theorem Image.stdout_runSandboxed (callsHost : CallsItsHost) (image : Image) (stdin : String) :
    (image.runSandboxed stdin).stdout =
      decodeString ((State.initial stdin).after (image.actions stdin)).process.stdout := by
  cases image with
  | error e => exact Text.Utf8.decodeString_nil.symm
  | ok m =>
    rw [actions, ← process_course callsHost]
    rfl

theorem Image.stderr_runSandboxed (callsHost : CallsItsHost) (image : Image) (stdin : String) :
    (image.runSandboxed stdin).stderr =
      decodeString ((State.initial stdin).after (image.actions stdin)).process.stderr := by
  cases image with
  | error e => exact Text.Utf8.decodeString_nil.symm
  | ok m =>
    rw [actions, ← process_course callsHost]
    rfl

theorem Image.runSandboxed_of_exitCode (callsHost : CallsItsHost) {image : Image} {stdin : String}
    {code : Int32}
    (h : ((State.initial stdin).after (image.actions stdin)).process.exitCode = some code) :
    (image.runSandboxed stdin).exitCode = code ∧ (image.runSandboxed stdin).trapped = none := by
  cases image with
  | error e => cases h
  | ok m =>
    rw [actions, ← process_course callsHost] at h
    simp only [runSandboxed, Course.outcome, h, and_self]

/-- The streams of a sandboxed run. At every point of it, as after any history of a process, input
was taken from the front and in order, and the outputs are what the writes sent; what is read lands
in memory as it was taken. The outcome shows the bytes of all writes together as text, whichever way
they were split. An exit is the end of the run, and its code stands. -/
theorem streams_of_runSandboxed (callsHost : CallsItsHost) (image : Image) (stdin : String) :
    let initial := State.initial stdin
    let actions := image.actions stdin
    let outcome := image.runSandboxed stdin
    let out := initial.collect (State.sent · 1)
    let err := initial.collect (State.sent · 2)
    (∀ s : State, s.process = .start stdin → ∀ h, s.Accounted h) ∧
      (∀ (s : State) array count result bs, s.buffers? array count.toNat = some bs →
        let a : Action := .call .fdRead [0, array, count, result]
        let m := s.memory.place (s.copies a)
        (s.act a).memory =
          (m.write? result.toNat (wordBytes (UInt32.ofNat (s.received a).length))).getD m) ∧
      (∀ m, image = .ok m → (course m stdin).process = (initial.after actions).process) ∧
      outcome.stdout = decodeString (out actions) ∧ outcome.stderr = decodeString (err actions) ∧
      (∀ text, out actions = encodeString text → outcome.stdout = text) ∧
      (∀ text, err actions = encodeString text → outcome.stderr = text) ∧
      ∀ before code rest later, actions = before ++ .call .procExit (code :: rest) :: later →
        later = [] ∧
          outcome = ⟨code.toInt32, decodeString (out before), decodeString (err before), none⟩ := by
  intro initial actions outcome out err
  have start : initial.process = .start stdin := rfl
  have all := initial.accounted_of_start start actions
  have stdout : outcome.stdout = decodeString (out actions) := by
    rw [image.stdout_runSandboxed callsHost, all.stdout]
  have stderr : outcome.stderr = decodeString (err actions) := by
    rw [image.stderr_runSandboxed callsHost, all.stderr]
  refine ⟨fun s hs => s.accounted_of_start hs, ?_, ?_, stdout, stderr, ?_, ?_, ?_⟩
  · intro s array count result bs h
    exact State.memory_act_fdRead h result
  · rintro m rfl
    exact process_course callsHost m stdin
  · intro text h
    rw [stdout, h, Text.Utf8.decodeString_encodeString]
  · intro text h
    rw [stderr, h, Text.Utf8.decodeString_encodeString]
  · intro before code rest later h
    obtain rfl := Image.last_of_isExit h rfl
    have nothing (stream : UInt32) : initial.collect (State.sent · stream) actions =
        initial.collect (State.sent · stream) before := by
      rw [h, State.collect_append]
      simp [State.collect, State.sent]
    have exited : (initial.after actions).process.exitCode = some code.toInt32 := by
      rw [h, State.after_append]
      rfl
    obtain ⟨exitCode, trapped⟩ := Image.runSandboxed_of_exitCode callsHost exited
    have parts : outcome = ⟨outcome.exitCode, outcome.stdout, outcome.stderr, outcome.trapped⟩ := rfl
    refine ⟨rfl, ?_⟩
    rw [parts, stdout, stderr]
    simp only [out, err, nothing]
    rw [exitCode, trapped]

end

namespace Sample

def front : List UInt8 := [16, 0, 0, 0, 1, 0, 0, 0, 17, 0, 0, 0, 1, 0, 0, 0, 0xC3, 0xA9]

def write : Stmt := .call "fd_write" [.const 1, .const 0, .const 2, .const 20]

def writer : Program where
  imports := [⟨systemSource, "fd_write", SystemCall.fdWrite.type⟩,
    ⟨systemSource, "proc_exit", SystemCall.procExit.type⟩]
  memory := some ⟨1, some memoryName⟩
  segments := [⟨0, front⟩]
  functions := []
  start := [write, .call "proc_exit" [.const 3], write]

theorem exists_initialMemory : ∃ m rest, writer.initialMemory? = some m ∧
    m.bytes.toList = front ++ rest := by
  have room : 0 + front.length ≤ (Memory.zeroed (1 * Memory.pageSize)).bytes.size := by
    simp [Memory.zeroed, Memory.pageSize, front]
  refine ⟨⟨Memory.setBytes (Memory.zeroed (1 * Memory.pageSize)).bytes 0 front⟩, _, ?_,
    Memory.toList_setBytes room⟩
  have fits : (Memory.zeroed (1 * Memory.pageSize)).fits 0 front.length = true :=
    decide_eq_true room
  have written : (Memory.zeroed (1 * Memory.pageSize)).write? 0 front =
      some ⟨Memory.setBytes (Memory.zeroed (1 * Memory.pageSize)).bytes 0 front⟩ := by
    rw [Memory.write?, if_pos fits]
  change (do copySegments (← (Memory.zeroed (1 * Memory.pageSize)).write? 0 front) []) = _
  rw [written]
  rfl

theorem sent_write {m : Memory} {rest : List UInt8} (h : m.bytes.toList = front ++ rest)
    (p : Process) :
    (⟨m, true, p⟩ : State).sent 1 (.call .fdWrite [1, 0, 2, 20]) = [0xC3, 0xA9] := by
  let s : State := ⟨m, true, p⟩
  have read (q n : Nat) (hq : q + n ≤ 18) : m.read? q n = some ((front.drop q).take n) :=
    Memory.read?_of_front h hq
  have fits (q n : Nat) (hq : q + n ≤ 18) : m.fits q n = true := by
    have some := read q n hq
    rw [Memory.read?] at some
    split at some
    · assumption
    · cases some
  have word (q : UInt32) (hq : q.toNat + 4 ≤ 18) :
      s.readWord? q = wordOf? ((front.drop q.toNat).take 4) := by
    rw [State.readWord?, State.read?, if_pos rfl, read _ _ hq]
    rfl
  have entry (q address : UInt32) (hq : q.toNat + 4 ≤ 18) (hq' : (q + 4).toNat + 4 ≤ 18)
      (haddress : wordOf? ((front.drop q.toNat).take 4) = some address)
      (hlength : wordOf? ((front.drop (q + 4).toNat).take 4) = some 1)
      (hfits : address.toNat + 1 ≤ 18) : s.buffer? q = some ⟨address, 1⟩ := by
    rw [State.buffer?, word q hq, word (q + 4) hq', haddress, hlength]
    exact if_pos (fits _ _ hfits)
  have buffers : s.buffers? 0 2 = some [⟨16, 1⟩, ⟨17, 1⟩] := by
    rw [State.buffers?, State.buffers?, entry 0 16 (by decide) (by decide) rfl rfl (by decide),
      entry (0 + 8) 17 (by decide) (by decide) rfl rfl (by decide)]
    rfl
  have held (address : UInt32) (hfits : address.toNat + 1 ≤ 18) :
      s.contents ⟨address, 1⟩ = (front.drop address.toNat).take 1 := by
    have found := read address.toNat 1 hfits
    rw [Memory.read?, if_pos (fits _ _ hfits)] at found
    exact Option.some.inj found
  change ((s.buffers? 0 2).getD []).flatMap s.contents = _
  rw [buffers, Option.getD_some, List.flatMap_cons, List.flatMap_cons, List.flatMap_nil,
    held 16 (by decide), held 17 (by decide)]
  rfl

theorem actions_writer {m : Memory} (hm : writer.initialMemory? = some m) :
    ∃ n, Image.actions (.ok writer) "in" =
      [.compute (some m), .call .fdWrite [1, 0, 2, 20], .compute n, .call .procExit [3]] := by
  have linked : link systemHost writer.imports =
      .ok [("fd_write", .system .fdWrite), ("proc_exit", .system .procExit)] := rfl
  have made : Engine.instantiate systemHost writer = .ok (⟨writer,
      ⟨[("fd_write", .system .fdWrite), ("proc_exit", .system .procExit)], true⟩, m⟩ :
        ProgramInstance) :=
    Program.instantiate_of_link linked hm
  obtain ⟨next, code, rest⟩ : ∃ next, processCode (⟨writer,
      ⟨[("fd_write", .system .fdWrite), ("proc_exit", .system .procExit)], true⟩, m⟩ :
        ProgramInstance) = .call (.system .fdWrite) [1, 0, 2, 20] (some m) next ∧
      ∀ w memory, ∃ next', next w memory =
        .call (.system .procExit) [3] (some (memory.getD m)) next' :=
    ⟨_, rfl, fun _ _ => ⟨_, rfl⟩⟩
  let r := SystemCall.fdWrite.answer (.ofMemory (some m) (.start "in")) [1, 0, 2, 20]
  have called : SystemCall.fdWrite.call [1, 0, 2, 20] (.ofMemory (some m) (.start "in")) =
      .ok r.1.code r.2 := rfl
  obtain ⟨next', exit⟩ := rest r.1.code r.2.memory?
  refine ⟨some (r.2.memory?.getD m), ?_⟩
  rw [Image.actions, processActions, made]
  simp only [code, Code.actions, called, exit]
  rfl

end Sample

theorem streams_of_runSandboxed_exit :
    let s : State := ⟨⟨#[8, 0, 0, 0, 5, 0, 0, 0, 0, 0, 0, 0, 0, 0, 0, 0]⟩, true, .start "in"⟩
    let read : Action := .call .fdRead [0, 0, 1, 12]
    CallsItsHost ∧
      (∃ m n, (Image.actions (.ok Sample.writer) "in") =
        [.compute m, .call .fdWrite [1, 0, 2, 20], .compute n, .call .procExit [3]]) ∧
      Image.runSandboxed (.ok Sample.writer) "in" = ⟨3, "é", "", none⟩ ∧
      s.process = .start "in" ∧ s.Accounted [read, read] ∧
      s.buffers? 0 1 = some [⟨8, 5⟩] ∧
      (s.act read).memory = ⟨#[8, 0, 0, 0, 5, 0, 0, 0, 0x69, 0x6E, 0, 0, 2, 0, 0, 0]⟩ := by
  intro s read
  have buffers : s.buffers? 0 1 = some [⟨8, 5⟩] := by decide
  obtain ⟨m, rest, hm, held⟩ := Sample.exists_initialMemory
  obtain ⟨n, actions⟩ := Sample.actions_writer hm
  obtain ⟨accounted, memory, _, _, _, _, _, exit⟩ :=
    streams_of_runSandboxed miniature_callsItsHost (.ok Sample.writer) "in"
  obtain ⟨_, outcome⟩ := exit [.compute (some m), .call .fdWrite [1, 0, 2, 20], .compute n] 3 [] []
    actions
  have out : (State.initial "in").collect (State.sent · 1)
      [.compute (some m), .call .fdWrite [1, 0, 2, 20], .compute n] = encodeString "é" := by
    have written := Sample.sent_write held (.start "in")
    simp only [State.collect, State.act, State.initial, State.ofMemory, State.sent,
      List.nil_append, List.append_nil] at written ⊢
    exact written
  have err : (State.initial "in").collect (State.sent · 2)
      [.compute (some m), .call .fdWrite [1, 0, 2, 20], .compute n] = [] := rfl
  rw [out, err, Text.Utf8.decodeString_nil, Text.Utf8.decodeString_encodeString] at outcome
  exact ⟨miniature_callsItsHost, ⟨_, _, actions⟩, outcome, rfl, accounted s rfl [read, read],
    buffers, (memory s 0 1 12 _ buffers).trans (by decide)⟩

end Doctest.Guest
