import QuickVps.Ncdu.Runner

/-!
# The browser and its scans

The server samples `IsReady` into every message it broadcasts. The browser hears the messages on
one open connection, in order and with gaps, and decides from the flag and three remembered ones
whether to fetch the result (`shouldFetchNcduStatus`). Next to the messages, its requests are in
flight: `POST` and `DELETE /api/ncdu/scan`, and `GET /api/ncdu/status`.

A step is a lock region of the runner, a sample, the loss or delivery of a message, one end of a
request, a click, or an effect that React runs after a render. `World.log` records the ends of
the browser's scans, the `POST`s that are handled, the samples, the processed messages and the
fetches; nothing reads it.
-/

namespace QuickVps.Ncdu

/-! ## The client -/

def shouldFetchNcduStatus (prevReady ready prevScanning isScanning : Bool) : Bool :=
  if !ready then false
  else if !prevReady then true
  else if isScanning && !prevScanning then true
  else false

/-- The store's `isScanning` and `scanResult` and the refs of `useWebSocket`. -/
structure Client where
  isScanning : Bool
  scanResult : Option ScanResult
  frozenRef : Bool
  scanningRef : Bool
  prevReadyRef : Bool
  prevScanningRef : Bool
  intervalRef : Int
  lastUpdateRef : Int

/-- `connect`, up to the new connection. -/
def Client.connect (c : Client) : Client :=
  { c with prevReadyRef := false, prevScanningRef := c.scanningRef }

/-- `onmessage` on a message of the server, all of which carry metrics: nothing when it returns
early, else whether the status is fetched. -/
def Client.onmessage (c : Client) (now : Int) (ready : Bool) : Option (Bool × Client) :=
  if c.frozenRef then none
  else if now - c.lastUpdateRef < c.intervalRef then none
  else some
    (shouldFetchNcduStatus c.prevReadyRef ready c.prevScanningRef c.scanningRef,
      { c with
        lastUpdateRef := now
        prevReadyRef := ready
        prevScanningRef := c.scanningRef })

/-- The effect on `isFrozen`. -/
def Client.syncFrozen (c : Client) (isFrozen : Bool) : Client :=
  { c with
    frozenRef := isFrozen
    lastUpdateRef := if isFrozen then c.lastUpdateRef else 0 }

/-- The effect on `isScanning`. -/
def Client.syncScanning (c : Client) : Client := { c with scanningRef := c.isScanning }

def Client.setIsScanning (c : Client) (v : Bool) : Client := { c with isScanning := v }

def Client.setScanResult (c : Client) (result : Option ScanResult) : Client :=
  { c with scanResult := result }

/-! ## The client and the server -/

structure Message where
  number : Nat
  ready : Bool

/-- A `POST /api/ncdu/scan` in flight. -/
inductive Post where
  | requested (path : String)
  | answered (mode : StartMode)

/-- A `GET /api/ncdu/status` in flight. -/
inductive Fetch where
  | requested
  | answered (result : ScanResult)

/-- A `DELETE /api/ncdu/scan` in flight. -/
inductive Delete where
  | requested
  | answered

inductive Event where
  | ended (scan : Nat)
  | posted
  | sampled (message : Nat)
  | processed (message : Nat)
  | fetched
  deriving DecidableEq

/-- `own` are the scans that a `POST` of this client has started. The log is newest first. -/
structure World where
  server : State
  client : Client
  messages : List Message
  posts : List Post
  fetches : List Fetch
  deletes : List Delete
  own : List Nat
  samples : Nat
  log : List Event

/-- A new connection to a server in any state. -/
def World.connect (server : State) (client : Client) : World where
  server := server
  client := client.connect
  messages := []
  posts := []
  fetches := []
  deletes := []
  own := []
  samples := 0
  log := []

namespace World

def fetchStatus (w : World) : World :=
  { w with fetches := w.fetches ++ [.requested], log := .fetched :: w.log }

/-- `startScan`, up to its request. -/
def startScan (w : World) (scanPath : String) : World :=
  { w with
    client := (w.client.setIsScanning true).setScanResult none
    posts := w.posts ++ [.requested scanPath] }

/-- The `POST` branch of `handleNcduScan`. -/
def handlePost (w : World) (i : Nat) (now : Int) : Option World :=
  match w.posts[i]? with
  | some (.requested bodyPath) =>
    let path := if bodyPath = "" then "/" else bodyPath
    let (mode, server) := w.server.start path now
    some { w with
      server := server
      posts := w.posts.set i (.answered mode)
      own := if mode = .started then w.server.scans.length :: w.own else w.own
      log := .posted :: w.log }
  | _ => none

/-- The rest of `startScan`, once its answer is there. -/
def finishPost (w : World) (i : Nat) : Option World :=
  match w.posts[i]? with
  | some (.answered mode) =>
    let w := { w with posts := w.posts.eraseIdx i }
    some (if mode = .cached ∨ mode = .running then w.fetchStatus else w)
  | _ => none

/-- The `catch` branch of `startScan`. -/
def failPost (w : World) (i : Nat) : Option World :=
  match w.posts[i]? with
  | some _ =>
    some { w with
      client := w.client.setIsScanning false
      posts := w.posts.eraseIdx i }
  | none => none

/-- `handleNcduStatus`. -/
def handleStatus (w : World) (i : Nat) : Option World :=
  match w.fetches[i]? with
  | some .requested =>
    some { w with fetches := w.fetches.set i (.answered w.server.runner.result) }
  | _ => none

/-- The rest of `fetchStatus`, once its answer is there. -/
def finishFetch (w : World) (i : Nat) : Option World :=
  match w.fetches[i]? with
  | some (.answered result) =>
    let client := w.client.setScanResult (some result)
    some { w with
      client := if result.status = .done ∨ result.status = .error then client.setIsScanning false
        else client
      fetches := w.fetches.eraseIdx i }
  | _ => none

/-- The `catch` branch of `fetchStatus`. -/
def failFetch (w : World) (i : Nat) : Option World :=
  match w.fetches[i]? with
  | some _ => some { w with fetches := w.fetches.eraseIdx i }
  | none => none

/-- `cancelScan`, up to its request. -/
def cancelScan (w : World) : World := { w with deletes := w.deletes ++ [.requested] }

/-- The `DELETE` branch of `handleNcduScan`. -/
def handleDelete (w : World) (i : Nat) : Option World :=
  match w.deletes[i]? with
  | some .requested =>
    some { w with server := w.server.cancel, deletes := w.deletes.set i .answered }
  | _ => none

/-- The rest of `cancelScan`, which is the same after an error. -/
def finishDelete (w : World) (i : Nat) : Option World :=
  match w.deletes[i]? with
  | some _ =>
    some { w with
      client := (w.client.setIsScanning false).setScanResult none
      deletes := w.deletes.eraseIdx i }
  | none => none

/-- A tick of the bridge in `main`: one message with the flag of the moment. -/
def sample (w : World) : World :=
  { w with
    messages := w.messages ++ [⟨w.samples, w.server.isReady⟩]
    samples := w.samples + 1
    log := .sampled w.samples :: w.log }

/-- The hub or the network drops message `k`. -/
def drop (w : World) (k : Nat) : Option World :=
  if k < w.messages.length then some { w with messages := w.messages.eraseIdx k } else none

/-- The oldest message arrives at the client at time `now`. -/
def deliver (w : World) (now : Int) : Option World :=
  match w.messages with
  | [] => none
  | m :: messages =>
    match w.client.onmessage now m.ready with
    | none => some { w with messages := messages }
    | some (fetch, client) =>
      let w := { w with
        client := client
        messages := messages
        log := .processed m.number :: w.log }
      some (if fetch then w.fetchStatus else w)

/-- Another client of the server, or a scan goroutine. The end of an own scan is logged. -/
def other (w : World) (a : Action) : Option World :=
  match step w.server a with
  | none => none
  | some server =>
    let w' := { w with server := server }
    match a with
    | .write i _ =>
      match w.server.scans[i]? with
      | some ⟨_, _, .exiting (.finished _)⟩ =>
        some (if i ∈ w.own then { w' with log := .ended i :: w.log } else w')
      | _ => some w'
    | _ => some w'

end World

inductive Move where
  | startScan (scanPath : String)
  | handlePost (i : Nat) (now : Int)
  | finishPost (i : Nat)
  | failPost (i : Nat)
  | handleStatus (i : Nat)
  | finishFetch (i : Nat)
  | failFetch (i : Nat)
  | cancelScan
  | handleDelete (i : Nat)
  | finishDelete (i : Nat)
  | sample
  | drop (k : Nat)
  | deliver (now : Int)
  | other (a : Action)
  | syncScanning
  | syncFrozen (isFrozen : Bool)
  | syncInterval (ms : Int)

def World.move (w : World) : Move → Option World
  | .startScan scanPath => some (w.startScan scanPath)
  | .handlePost i now => w.handlePost i now
  | .finishPost i => w.finishPost i
  | .failPost i => w.failPost i
  | .handleStatus i => w.handleStatus i
  | .finishFetch i => w.finishFetch i
  | .failFetch i => w.failFetch i
  | .cancelScan => some w.cancelScan
  | .handleDelete i => w.handleDelete i
  | .finishDelete i => w.finishDelete i
  | .sample => some w.sample
  | .drop k => w.drop k
  | .deliver now => w.deliver now
  | .other a => w.other a
  | .syncScanning => some { w with client := w.client.syncScanning }
  | .syncFrozen isFrozen => some { w with client := w.client.syncFrozen isFrozen }
  | .syncInterval ms => some { w with client := { w.client with intervalRef := ms } }

end QuickVps.Ncdu
