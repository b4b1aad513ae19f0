import Rollout.Note
import Rollout.System.Clock
import Rollout.System.Launch
import Rollout.System.Sockets
import Rollout.System.Tree

/-!
# System/Machine — a machine as a value

A `Machine` has a file tree, programs that can be run, sockets that somebody answers, and a log.
Everything the library does to the world it can do to a machine.  A program is known by the content
of its file, so that it can be removed or overwritten like any file.  No time passes on a machine.
-/

namespace Rollout

/-- **A program that always does the same.** -/
structure Program where
  name : String
  /-- May it be run at all? -/
  executable : Bool := true
  /-- How it ends. -/
  finished : Finished

/-- The content of the file of a program. -/
def Program.image (p : Program) : ByteArray := ("program " ++ p.name).toUTF8

/-- **One who answers every connection to a socket with the next reply.** -/
structure Listener where
  replies : List ByteArray := []
  /-- The reply when none is left. -/
  last : ByteArray := "\n".toUTF8
  /-- What each connection sent. -/
  received : List ByteArray := []
  deriving DecidableEq, Inhabited

/-- The reply to a request. -/
def Listener.answer (l : Listener) (request : ByteArray) : ByteArray × Listener :=
  let l := { l with received := l.received ++ [request] }
  match l.replies with
  | [] => (l.last, l)
  | reply :: rest => (reply, { l with replies := rest })

/-- **A machine.** -/
structure Machine where
  tree : FileTree := {}
  programs : List Program := []
  /-- The programs that were run, with their arguments. -/
  runs : List (String × List String) := []
  listeners : List (Place × Listener) := []
  notes : List Note := []

namespace Machine

/-- Change the file tree. -/
def onFiles (f : FileTree → FileTree) (w : Machine) : Machine := { w with tree := f w.tree }

/-- Forget what was run and noted. -/
def forget (w : Machine) : Machine := { w with runs := [], notes := [] }

/-! ## Programs -/

/-- Install a program in its file, whose directory is made if needed. -/
def install (path : String) (p : Program) (w : Machine) : Machine :=
  { w with
    tree := w.tree.place path (.file p.image false)
    programs := p :: w.programs.filter fun q => q.name != p.name }

/-- Run the program of a file. -/
def runFile (content : ByteArray) (arguments : List String) (w : Machine) :
    Except SystemFault Finished × Machine :=
  match w.programs.find? fun p => p.image == content with
  | some p =>
    if p.executable then (.ok p.finished, { w with runs := w.runs ++ [(p.name, arguments)] })
    else (.error .permission, w)
  | none => (.error .permission, w)

/-- **Run a command.**  Nothing is found under a name without a slash. -/
def launch (command : String) (arguments : List String) (w : Machine) :
    Except SystemFault Finished × Machine :=
  if !command.toList.contains '/' then (.error .noEntry, w)
  else
    match w.tree.status command with
    | .error e => (.error e, w)
    | .ok (.file content _) => w.runFile content arguments
    | .ok _ => (.error .permission, w)

/-! ## Sockets -/

/-- The listener at a path. -/
def listener? (w : Machine) (path : String) : Option Listener :=
  (w.tree.placeOf? path).bind fun p => w.listeners.lookup p

/-- Change the listener at a path, if there is one. -/
def onListener (path : String) (f : Listener → Listener) (w : Machine) : Machine :=
  match w.tree.placeOf? path with
  | some p =>
    { w with listeners := w.listeners.map fun l => if l.1 == p then (l.1, f l.2) else l }
  | none => w

/-- Let somebody listen at a path, whose directory is made if needed. -/
def serve (path : String) (l : Listener) (w : Machine) : Machine :=
  let tree := w.tree.place path (.socket false)
  match tree.placeOf? path with
  | some p => { w with tree, listeners := (p, l) :: w.listeners.filter fun q => q.1 != p }
  | none => w

/-- Nobody listens at a path any more, and its socket is gone. -/
def unserve (path : String) (w : Machine) : Machine :=
  match w.tree.placeOf? path with
  | some p => { w with tree := w.tree.erase p, listeners := w.listeners.filter fun q => q.1 != p }
  | none => w

/-- **Connect, send and read what comes back.** -/
def exchange (path : String) (request : ByteArray) (w : Machine) :
    Except DialFault ByteArray × Machine :=
  match w.tree.walk true path with
  | .error e => (.error (.connect e), w)
  | .ok (.free _) => (.error (.connect .noEntry), w)
  | .ok (.found p _) =>
    match w.listeners.lookup p with
    | none => (.error (.connect .refused), w)
    | some l =>
      let (reply, l) := l.answer request
      (.ok reply, { w with listeners := (p, l) :: w.listeners.filter fun q => q.1 != p })

/-- **Make a socket and listen to it.** -/
def listen (path : String) (w : Machine) : Except SystemFault Unit × Machine :=
  match w.tree.walk false path with
  | .error e => (.error e, w)
  | .ok (.found _ _) => (.error .addressInUse, w)
  | .ok (.free p) =>
    (.ok (), { w with
      tree := w.tree.insert p (.socket false)
      listeners := (p, {}) :: w.listeners.filter fun q => q.1 != p })

end Machine

instance : HasFileTree Machine := ⟨Machine.tree, fun tree w => { w with tree }⟩

instance : Journal (StateM Machine) where
  note n := modify fun w => { w with notes := w.notes ++ [n] }

instance : Launcher (StateM Machine) where
  launch command arguments := Machine.launch command arguments
  processId := pure 0

instance : LocalSockets (StateM Machine) where
  exchange path request := Machine.exchange path request
  isAnswered path := fun w => ((w.listener? path).isSome, w)
  listen path := Machine.listen path

instance : Clock (StateM Machine) where
  micros := pure 0
  unixSeconds := pure 0
  pause _ := pure ()

end Rollout
