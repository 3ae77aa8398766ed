import RentalDesk.Program
import Std.Async.Signal
import Std.Async.TCP

/-!
# Running the program

The outer layer of the program: it reads arguments, environment variables, files and the clock,
moves bytes between connections and the house, and prints. All connections share one house, which
answers the complete lines of a connection as they come in.
-/

namespace RentalDesk.Main

open Std.Async Std.Net

def now : IO Instant := do
  let nanos := (← Std.Time.Timestamp.now).toNanosecondsSinceUnixEpoch
  return (Instant.ofNanos? nanos.toInt).getD .epoch

/-- The number by which the system says that something is a folder. -/
abbrev folderCode : UInt32 := 21

def findPath (path : String) : IO (Except StreamCause Found) := do
  try
    return .ok (.file (← IO.FS.readBinFile path).toList)
  catch
    | .inappropriateType _ code _ =>
      return if code = folderCode then .ok .folder else .error .notFolder
    | _ => return .error .notFound

def readEnvironment : IO (OptionName → Option String) := do
  let values ← OptionName.all.mapM fun name => return (name, ← IO.getEnv name.envName)
  return fun name => (values.find? (·.1 = name)).bind (·.2)

/-- Looks up the paths that a command may need. -/
def findPaths (i : Invocation) : IO (String → Except StreamCause Found) := do
  let input :=
    match i.job with
    | .replay path => [path]
    | .serve _ => []
  let found ← (i.catalog.toList ++ input).mapM fun path => return (path, ← findPath path)
  return fun path => ((found.find? (·.1 = path)).map (·.2)).getD (.error .notFound)

def printErrors (lines : List String) : IO Unit := do
  for line in lines do
    (← IO.getStderr).putStrLn line

/-- Prints what an exit leaves behind. -/
def finish (exit : Exit) : IO UInt32 := do
  (← IO.getStdout).putStr exit.output
  printErrors exit.errors
  return exit.code

/-- Replays a file, each request at the time when it is answered. -/
def replay (house : House) (stream : Bytes) (notices : List Notice) : IO UInt32 := do
  printErrors (notices.map Notice.line)
  let (requests, fault) := requests stream
  let mut house := house
  for request in requests do
    let (next, reply) := (house.setClock (← now)).answerLine request
    house := next
    (← IO.getStdout).putStr reply.text
  finish (.ofServed [] ⟨"", fault⟩)

/-- Serves bytes of a connection, and says whether the connection can go on. -/
def answerBytes (house : IO.Ref House) (client : TCP.Socket.Client) (bytes : Bytes) :
    Async Bool := do
  let time ← now
  let served ← house.modifyGet fun house =>
    let (house, served) := (house.setClock time).serve bytes
    (served, house)
  client.send served.output.toUTF8
  return served.fault.isNone

/-- Serves a connection of which the given bytes have come in without their line end. -/
partial def serveClient (house : IO.Ref House) (client : TCP.Socket.Client) (begun : Bytes) :
    Async Unit := do
  match ← client.recv? 4096 with
  | none =>
    let _ ← answerBytes house client begun
    client.shutdown
  | some chunk =>
    let (lines, begun) := completeLines (begun ++ chunk.toList)
    if ← answerBytes house client lines then
      serveClient house client begun
    else
      client.shutdown

/-- Accepts connections until one of the signals arrives. -/
partial def acceptClients (house : IO.Ref House) (server : TCP.Socket.Server)
    (signals : List Signal.Waiter) : Async Unit := do
  let stops : List (Selectable (Option TCP.Socket.Client)) :=
    signals.map fun signal => .case signal.selector fun _ => return none
  let client? ← Selectable.one
    (.case server.acceptSelector (fun client => return some client) :: stops).toArray
  match client? with
  | none => return
  | some client =>
    background (serveClient house client [])
    acceptClients house server signals

def serve (house : House) (address : Address) (notices : List Notice) : IO UInt32 := do
  let (a, b, c, d) := address.host
  let signals ← [Signal.sigint, Signal.sigterm].mapM fun signal => Signal.Waiter.mk signal false
  let server ← TCP.Socket.Server.mk
  try
    server.bind (.v4 ⟨IPv4Addr.ofParts a b c d, address.number⟩)
    server.listen 128
  catch e =>
    return ← finish (.failed "" notices (toString e))
  printErrors (notices.map Notice.line)
  (acceptClients (← IO.mkRef house) server signals).block
  return 0

def run (arguments : List String) : IO UInt32 := do
  match Invocation.ofArguments (← readEnvironment) arguments with
  | .error halt => finish (.ofHalt halt)
  | .ok invocation =>
    match invocation.start (← findPaths invocation) (← now) with
    | .exited exit => finish exit
    | .replaying house stream notices => replay house stream notices
    | .serving house address notices => serve house address notices

end RentalDesk.Main

/-- Runs the program and exits with its code. -/
def main (arguments : List String) : IO UInt32 := RentalDesk.Main.run arguments
