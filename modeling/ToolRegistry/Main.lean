import ToolRegistry.Client.Recording
import ToolRegistry.CommandLine.Client
import ToolRegistry.CommandLine.Server
import Std.Async.DNS
import Std.Async.System
import Std.Async.TCP
import Std.Sync.Mutex

/-!
# The programs

The two programs in one: `serve` and further arguments run the server, and
any other arguments run the client. Everything they decide is decided by
`runClient`, `startServer` and `Session`. What is left for this module is to
fetch what these ask for, files and bytes from the network, and to put back
what they answer.
-/

namespace ToolRegistry.CommandLine

open Std.Async Std.Net TCP.Socket Wire

/-! ## Bytes and words -/

/-- A text as a string. -/
def say (t : Text) : String := String.ofList t

/-- Bytes as they are read and written. -/
def pack (bytes : Bytes) : ByteArray := ⟨bytes.toArray⟩

/-- Bytes as they are thought of. -/
def unpack (bytes : ByteArray) : Bytes := bytes.data.toList

/-- Why a connection was not made. -/
def refusalOf (e : IO.Error) : SystemError :=
  match e with
  | .noSuchThing .. => .connectionRefused
  | e => .other (toString e).toList

/-! ## Files -/

/-- The written form of the path that leads straight to a place. -/
def direct (q : Place) : String := say (Path.render ⟨q⟩)

/-- The file system together with what is found at a place. -/
def fetch (fs : FileSystem) (q : Place) : IO FileSystem := do
  match ← (IO.FS.readBinFile (direct q)).toBaseIO with
  | .ok bytes => return fs.put q (unpack bytes)
  | .error (.inappropriateType _ 21 _) => return fs.makeDirectory q
  | .error _ => return fs

/-- The part of the file system that loading settings from a path and saving them there can see. -/
def fetchFiles (p : Path) : IO FileSystem := p.places.eraseDups.foldlM fetch {}

/-- Puts back the directories and files that are new or have changed. A file is written next to its
place first. -/
def storeFiles (p : Path) (before after : FileSystem) : IO Unit := do
  for q in p.places.eraseDups do
    if after.isDirectory q && !before.isDirectory q then IO.FS.createDir (direct q)
    match after.file? q with
    | none => pure ()
    | some bytes =>
        if before.file? q ≠ some bytes then
          let temporary := say (Path.temporary ⟨q⟩).render
          IO.FS.writeBinFile temporary (pack bytes)
          IO.FS.rename temporary (direct q)

/-- What the programs find where they are run. -/
def surroundings : IO Surroundings := do
  let home ← IO.getEnv "HOME"
  let current ← IO.currentDir
  let registry ← IO.getEnv (say Location.variableName)
  return ⟨Path.ofText ⟨[]⟩ (home.getD "/").toList, Path.ofText ⟨[]⟩ current.toString.toList,
    registry.map fun s => Utf8.encode s.toList⟩

/-! ## The network -/

/-- The addresses of a host. -/
def lookUp (host : Text) : IO (List IPAddr) := do
  let found : Array IPAddr ← (DNS.getAddrInfo (say host) "" none).block
  return found.toList

/-- An address as it is thought of. -/
def ipAddress : IPAddr → IpAddress
  | .v4 a => .v4 ⟨a.octets.foldl (fun value byte => value * 256 + byte.toUInt32) 0⟩
  | .v6 a => .v6 ⟨a.segments⟩

/-- Where a host and a port are found. -/
def addressOf (host : Text) (port : UInt16) : IO SocketAddress := do
  match ← lookUp host with
  | .v4 a :: _ => return .v4 ⟨a, port⟩
  | .v6 a :: _ => return .v6 ⟨a, port⟩
  | [] => throw (IO.userError "failed to lookup address information")

/-- What the network knows about a host. -/
def resolverFor (host : Text) : IO Resolver := do
  match ← (lookUp host).toBaseIO with
  | .ok (ip :: _) => return ⟨fun _ _ => .ok (ipAddress ip)⟩
  | .ok [] => return ⟨fun _ _ => .error Resolver.unknownHost⟩
  | .error e => return ⟨fun _ _ => .error (.other (toString e).toList)⟩

/-- Receives bytes until they are enough or no more come. -/
partial def receiveUntil (enough : Bytes → Bool) (s : TCP.Socket.Client) (bytes : Bytes) :
    IO Bytes := do
  if enough bytes then return bytes
  match ← (s.recv? 65536).block with
  | none => return bytes
  | some more => receiveUntil enough s (bytes ++ unpack more)

/-- Connects to a location and receives the greeting. -/
def connectTo (target : Location) : IO (TCP.Socket.Client × Bytes) := do
  let s ← TCP.Socket.Client.mk
  (s.connect (← addressOf target.host target.port)).block
  let greeting ← receiveUntil (·.contains lineFeed) s []
  return (s, greeting)

/-! ## The client program -/

/-- Carries out a conversation in rounds, with a pause after an attempt to connect that failed. -/
partial def converse {α : Type} (pause : UInt32) (round : Recording → α × Option Wish)
    (r : Recording) (s : Option TCP.Socket.Client) : IO α := do
  match round r with
  | (a, none) => return a
  | (_, some (.connection target)) =>
      match ← (connectTo target).toBaseIO with
      | .ok (s, greeting) =>
          converse pause round { r with dials := r.dials ++ [.ok greeting] } (some s)
      | .error e =>
          IO.sleep pause
          converse pause round { r with dials := r.dials ++ [.error (refusalOf e)] } s
  | (_, some (.answer line)) =>
      let answer ← match s with
        | none => pure []
        | some s =>
            (s.send (pack (Utf8.encode (line ++ ['\n'])))).block
            receiveUntil (isWhole line) s []
      converse pause round { r with answers := r.answers ++ [answer] } s

/-- Runs the client program and answers its exit code. -/
def clientMain (args : List Text) : IO UInt32 := do
  let around ← surroundings
  let said := match readCall around.registry args with
    | .ok call => call.file
    | .error _ => none
  let file := around.settingsFile said
  let files ← fetchFiles file
  let pause := match Settings.load files file with
    | .ok s => s.client.connectDelay
    | .error _ => 0
  let round (r : Recording) :=
    let (f, after, w) := runClient Peer.recorded around args files r
    ((f, after), w.wish)
  let (f, after) ← converse pause.toUInt32 round {} none
  storeFiles file files after
  IO.print (say f.output)
  if let some complaint := f.complaint then IO.eprint (say complaint)
  return f.code.toUInt32

/-! ## The server program -/

/-- Answers the lines of a connection until it is to be closed or ends. -/
partial def serveLines (session : Session) (store : Std.Mutex Store) (s : TCP.Socket.Client)
    (bytes : Bytes) : IO Unit := do
  let most := window session.limit + 1
  let enough (b : Bytes) := b.contains lineFeed
  let mut held := bytes
  let mut open? := true
  while open? && !enough held do
    match ← (s.recv? 65536).block with
    | none => open? := false
    | some more =>
        held := held ++ unpack more
        if !enough held then held := held.take most
  let (item, rest) := readLine session.limit held
  let served ← store.atomically do
    let served := session.serve [item] (← get)
    set served.store
    return served
  if served.replies ≠ [] then
    (s.send (pack (replyBytes served.replies))).block
  if item ≠ .ended && !served.closed then serveLines session store s rest
  else s.shutdown.block

/-- Greets a client and serves it. -/
def serveConnection (session : Session) (store : Std.Mutex Store) (s : TCP.Socket.Client) :
    IO Unit := do
  (s.send (pack (replyBytes [session.welcome]))).block
  serveLines session store s []

/-- Accepts connections and serves each one in a task of its own. -/
partial def acceptAll (session : Session) (store : Std.Mutex Store) (server : TCP.Socket.Server) :
    IO Unit := do
  let s ← server.accept.block
  discard (IO.asTask (serveConnection session store s))
  acceptAll session store server

/-- Listens on the port that a start on this machine leads to. A port that turns out to be taken
is noted, and the start is made again. -/
partial def listenFrom (start : Machine → Except Finished Listening × FileSystem)
    (ownName : Text) (resolver : Resolver) (taken : List UInt16) :
    IO (Except Finished (Listening × TCP.Socket.Server) × FileSystem) := do
  let m : Machine := { taken := (· ∈ taken), anyPort := 0, ownName := some ownName, resolver }
  match start m with
  | (.error f, fs) => return (.error f, fs)
  | (.ok l, fs) =>
      let server ← TCP.Socket.Server.mk
      let bound ← (do
        server.bind (← addressOf l.address l.session.port)
        server.listen 128).toBaseIO
      match bound with
      | .error e =>
          if l.session.port = 0 ∨ l.session.port ∈ taken then throw e
          else listenFrom start ownName resolver (l.session.port :: taken)
      | .ok () =>
          if l.session.port ≠ 0 then return (.ok (l, server), fs)
          else
            let port := (← server.getSockName).port
            match start { m with anyPort := port } with
            | (.ok l, fs) => return (.ok (l, server), fs)
            | (.error f, fs) => return (.error f, fs)

/-- Runs the server program and answers its exit code. -/
def serverMain (args : List Text) : IO UInt32 := do
  let around ← surroundings
  let said := match readServerCall args with
    | .ok call => call.file
    | .error _ => none
  let file := around.settingsFile said
  let files ← fetchFiles file
  let ownName ← System.getHostName
  let host := match readServerCall args, Settings.load files file with
    | .ok call, .ok s => (call.listenOptions s none).host
    | _, _ => []
  let resolver ← resolverFor host
  let choices ← (List.range 64).mapM fun _ => IO.rand 0 65535
  let start (m : Machine) := startServer m (fun i => choices.getD (i % 64) 0) around args files
  match ← listenFrom start ownName.toList resolver [] with
  | (.error f, _) =>
      IO.print (say f.output)
      if let some complaint := f.complaint then IO.eprint (say complaint)
      return f.code.toUInt32
  | (.ok (l, server), after) =>
      storeFiles file files after
      IO.print (say l.announcement)
      (← IO.getStdout).flush
      acceptAll l.session (← Std.Mutex.new ∅) server
      return 0

end ToolRegistry.CommandLine

open ToolRegistry.CommandLine in
/-- Runs the server or the client. -/
def main (args : List String) : IO UInt32 :=
  match args.map String.toList with
  | ['s', 'e', 'r', 'v', 'e'] :: rest => serverMain rest
  | args => clientMain args
