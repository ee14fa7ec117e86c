import CacheCat.Data.Text
import CacheCat.Library.Framing
import CacheCat.Library.Run

/-! One pipelined connection: `PipelineClient` on this side, `pipeline_mode` on the other.
Neither requests nor responses carry a number. The writer task sends the requests in the
order of their channel and passes the callbacks on, the other side answers in the order in
which the requests arrived, and the reader task gives each frame to the next callback. -/
namespace CacheCat.Raft.Pipeline

open Library (Codec Link)

variable {Request Response : Type}

/-! ### The calls -/

/-- What goes through a callback: what the other side has answered, or the reason why
there is no answer. The caller sees an error of the other side as it sees the latter. -/
inductive Answer (Response : Type) where
  | result (result : Except String Response)
  | failed (reason : String)
deriving DecidableEq

/-- The oneshot channel of a call. -/
inductive Reply (Response : Type) where
  | pending
  | sent (answer : Answer Response)
  /-- The callback is gone without having been used. -/
  | closed

inductive Stage (Response : Type) where
  /-- It waits for room in the request channel. -/
  | sending
  | waiting (reply : Reply Response)
  | returned (answer : Answer Response)
  | cancelled

structure Call (Request Response : Type) where
  request : Request
  stage : Stage Response

/-- The calls by their numbers. -/
abbrev Calls (Request Response : Type) := Nat → Option (Call Request Response)

namespace Calls

variable (calls : Calls Request Response)

def setStage (call : Nat) (stage : Stage Response) : Calls Request Response :=
  match calls call with
  | some state => Function.update calls call (some { state with stage })
  | none => calls

/-- `cb.send(..)`, or the end of the callback; nothing happens if nobody waits. -/
def settle (call : Nat) (reply : Reply Response) : Calls Request Response :=
  match (calls call).map Call.stage with
  | some (.waiting _) => calls.setStage call (.waiting reply)
  | _ => calls

/-- A channel is dropped with the callbacks in it. -/
def closeAll (channel : List Nat) : Calls Request Response :=
  channel.foldl (fun calls call => settle calls call .closed) calls

end Calls

/-! ### The tasks of the client -/

inductive Writer where
  | idle
  | writing (call : Nat) (frame : Bytes)
  /-- The frame is written, and the callback not yet passed on. -/
  | written (call : Nat)
  | ended
deriving DecidableEq

inductive Reader where
  | idle
  | reading (call : Nat)
  | ended
deriving DecidableEq

/-- A call is known by its number; in the channels the number stands for the request and
the callback. -/
structure Client (Request Response : Type) where
  calls : Calls Request Response
  started : Nat
  /-- Some clone of the client is left. -/
  held : Bool
  requests : List Nat
  writer : Writer
  callbacks : List Nat
  reader : Reader

def channelCapacity : Nat := 1024

namespace Client

def connected : Client Request Response := ⟨fun _ => none, 0, true, [], .idle, [], .idle⟩

def setStage (client : Client Request Response) (call : Nat) (stage : Stage Response) :
    Client Request Response :=
  { client with calls := client.calls.setStage call stage }

def settle (client : Client Request Response) (call : Nat) (reply : Reply Response) :
    Client Request Response :=
  { client with calls := client.calls.settle call reply }

/-- The writer task ends and drops what is left in its channel. -/
def stopWriter (client : Client Request Response) : Client Request Response :=
  { client with calls := client.calls.closeAll client.requests, requests := [], writer := .ended }

def stopReader (client : Client Request Response) : Client Request Response :=
  { client with calls := client.calls.closeAll client.callbacks, callbacks := [], reader := .ended }

/-! ### `call` -/

def start (client : Client Request Response) (request : Request) :
    Option (Client Request Response) :=
  if client.held then
    some { client with
      calls := Function.update client.calls client.started (some ⟨request, .sending⟩)
      started := client.started + 1 }
  else none

/-- The channel is closed once the writer task is gone with its receiver. -/
def submit (client : Client Request Response) (call : Nat) : Option (Client Request Response) :=
  match (client.calls call).map Call.stage with
  | some .sending =>
    if client.writer = .ended then
      some (client.setStage call (.returned (.failed "Client channel closed")))
    else if client.requests.length < channelCapacity then
      some { client.setStage call (.waiting .pending) with requests := client.requests ++ [call] }
    else none
  | _ => none

/-- `rx.await`. -/
def await (client : Client Request Response) (call : Nat) : Option (Client Request Response) :=
  match (client.calls call).map Call.stage with
  | some (.waiting (.sent answer)) => some (client.setStage call (.returned answer))
  | some (.waiting .closed) =>
    some (client.setStage call (.returned (.failed "Response channel closed")))
  | _ => none

/-- The caller stops waiting. -/
def cancel (client : Client Request Response) (call : Nat) : Option (Client Request Response) :=
  match (client.calls call).map Call.stage with
  | some .sending | some (.waiting _) => some (client.setStage call .cancelled)
  | _ => none

def isOver (client : Client Request Response) (call : Nat) : Bool :=
  match (client.calls call).map Call.stage with
  | some (.returned _) | some .cancelled => true
  | _ => false

/-- The last clone of the client goes; no call borrows it any more. -/
def release (client : Client Request Response) : Option (Client Request Response) :=
  if client.held ∧ ∀ call < client.started, client.isOver call then
    some { client with held := false }
  else none

end Client

/-! ### The other side -/

/-- A request that has arrived, with the result of its `write` once that is there. -/
structure Arrival (Request Response : Type) where
  request : Request
  result : Option (Except String Response)

/-- The requests in the order of their arrival. Those that are not answered yet are
`pending_futures`. -/
structure Server (Request Response : Type) where
  arrived : List (Arrival Request Response)
  answered : Nat
  running : Bool

def maxFutures : Nat := 100

namespace Server

def accepted : Server Request Response := ⟨[], 0, true⟩

/-- One of the futures is ready; they get ready in any order. -/
def finish (server : Server Request Response) (number : Nat) (result : Except String Response) :
    Option (Server Request Response) :=
  match server.arrived[number]? with
  | some ⟨request, none⟩ =>
    if server.running ∧ server.answered ≤ number then
      some { server with arrived := server.arrived.set number ⟨request, some result⟩ }
    else none
  | _ => none

/-- A task that panics or breaks drops its futures with the connection. -/
def stop (server : Server Request Response) : Option (Server Request Response) :=
  if server.running then some { server with running := false } else none

end Server

/-! ### The connection -/

/-- `written` records which call each frame was written for. -/
structure Connection (Request Response : Type) where
  client : Client Request Response
  written : List Nat
  upstream : Link Bytes
  server : Server Request Response
  downstream : Link Bytes

/-- `bincode2` on the two types. -/
structure Codecs (Request Response : Type) where
  request : Codec Request
  result : Codec (Except String Response)

namespace Connection

def established : Connection Request Response := ⟨.connected, [], .new, .accepted, .new⟩

def setClient (connection : Connection Request Response) (client : Client Request Response) :
    Connection Request Response :=
  { connection with client }

section

variable (codecs : Codecs Request Response) (connection : Connection Request Response)

/-- `rx.recv()` and the serialization; the reason is that of a refusal. -/
def take (reason : String) : Option (Connection Request Response) :=
  match connection.client.writer, connection.client.requests with
  | .idle, call :: requests =>
    match (connection.client.calls call).bind fun state =>
      codecs.request.serialize state.request with
    | some frame =>
      some (connection.setClient { connection.client with requests, writer := .writing call frame })
    | none =>
      let answer := Answer.failed ("Serialize error: " ++ reason)
      some (connection.setClient { connection.client.settle call (.sent answer) with requests })
  | _, _ => none

def write : Option (Connection Request Response) :=
  match connection.client.writer with
  | .writing call frame =>
    some { connection with
      client := { connection.client with writer := .written call }
      written := connection.written ++ [call]
      upstream := connection.upstream.send frame }
  | _ => none

/-- The sink reports an error, whether or not the request gets through. -/
def writeFails (reason : String) (through : Bool) : Option (Connection Request Response) :=
  match connection.client.writer with
  | .writing call frame =>
    let failed := connection.setClient
      (connection.client.settle call (.sent (.failed ("Send failed: " ++ reason)))).stopWriter
    some (if through then
      { failed with
        written := connection.written ++ [call]
        upstream := connection.upstream.send frame }
      else failed)
  | _ => none

/-- `cb_tx.send(cb)`. -/
def passOn : Option (Connection Request Response) :=
  match connection.client.writer with
  | .written call =>
    if connection.client.reader = .ended then
      some (connection.setClient (connection.client.settle call .closed).stopWriter)
    else if connection.client.callbacks.length < channelCapacity then
      some (connection.setClient { connection.client with
        writer := .idle
        callbacks := connection.client.callbacks ++ [call] })
    else none
  | _ => none

def writerCloses : Option (Connection Request Response) :=
  if connection.client.writer = .idle ∧ connection.client.requests = [] ∧
    connection.client.held = false then
    some (connection.setClient connection.client.stopWriter)
  else none

/-- `cb_rx.recv()`. -/
def takeCallback : Option (Connection Request Response) :=
  match connection.client.reader, connection.client.callbacks with
  | .idle, call :: callbacks =>
    some (connection.setClient { connection.client with reader := .reading call, callbacks })
  | _, _ => none

/-- A frame that is not understood makes the task panic. -/
def read : Option (Connection Request Response) :=
  match connection.client.reader with
  | .reading call => do
      let (frame, downstream) ← connection.downstream.receive
      let client := match codecs.result.deserialize frame with
        | some result =>
          { connection.client.settle call (.sent (.result result)) with reader := .idle }
        | none => (connection.client.settle call .closed).stopReader
      some { connection with client, downstream }
  | _ => none

/-- The stream reports an error, or its end. -/
def readFails (reason : Option String) : Option (Connection Request Response) :=
  match connection.client.reader with
  | .reading call =>
    let failure := reason.elim "Connection closed" ("Read failed: " ++ ·)
    some (connection.setClient (connection.client.settle call (.sent (.failed failure))).stopReader)
  | _ => none

def readerCloses : Option (Connection Request Response) :=
  if connection.client.reader = .idle ∧ connection.client.callbacks = [] ∧
      connection.client.writer = .ended then
    some (connection.setClient connection.client.stopReader)
  else none

/-- `reader.next()` of the other side. -/
def arrive : Option (Connection Request Response) :=
  if connection.server.running ∧
      connection.server.arrived.length - connection.server.answered < maxFutures then do
    let (frame, upstream) ← connection.upstream.receive
    let server := match codecs.request.deserialize frame with
      | some request =>
        { connection.server with arrived := connection.server.arrived ++ [⟨request, none⟩] }
      | none => { connection.server with running := false }
    some { connection with upstream, server }
  else none

/-- `pending_futures.next()`: the first of them is ready. The sink may report an error,
whether or not the response gets through. -/
def respond (broken : Option Bool) : Option (Connection Request Response) :=
  match connection.server.arrived[connection.server.answered]? with
  | some ⟨_, some result⟩ =>
    if connection.server.running then
      match codecs.result.serialize result with
      | none => some { connection with server := { connection.server with running := false } }
      | some frame => some { connection with
          server := ⟨connection.server.arrived, connection.server.answered + 1, broken.isNone⟩
          downstream := if broken = some false then connection.downstream
            else connection.downstream.send frame }
    else none
  | _ => none

end

end Connection

inductive Event (Request Response : Type) where
  | start (request : Request)
  | submit (call : Nat)
  | await (call : Nat)
  | cancel (call : Nat)
  | release
  | take (reason : String)
  | write
  | writeFails (reason : String) (through : Bool)
  | passOn
  | writerCloses
  | takeCallback
  | read
  | readFails (reason : Option String)
  | readerCloses
  | breakUpstream (number : Nat)
  | breakDownstream (number : Nat)
  | arrive
  | finish (number : Nat) (result : Except String Response)
  | respond (broken : Option Bool)
  | stop

def Connection.step (codecs : Codecs Request Response) (connection : Connection Request Response) :
    Event Request Response → Option (Connection Request Response)
  | .start request => (connection.client.start request).map connection.setClient
  | .submit call => (connection.client.submit call).map connection.setClient
  | .await call => (connection.client.await call).map connection.setClient
  | .cancel call => (connection.client.cancel call).map connection.setClient
  | .release => connection.client.release.map connection.setClient
  | .take reason => connection.take codecs reason
  | .write => connection.write
  | .writeFails reason through => connection.writeFails reason through
  | .passOn => connection.passOn
  | .writerCloses => connection.writerCloses
  | .takeCallback => connection.takeCallback
  | .read => connection.read codecs
  | .readFails reason => connection.readFails reason
  | .readerCloses => connection.readerCloses
  | .breakUpstream number => some { connection with upstream := connection.upstream.sever number }
  | .breakDownstream number =>
    some { connection with downstream := connection.downstream.sever number }
  | .arrive => connection.arrive codecs
  | .finish number result =>
    (connection.server.finish number result).map fun server => { connection with server }
  | .respond broken => connection.respond codecs broken
  | .stop => connection.server.stop.map fun server => { connection with server }

end CacheCat.Raft.Pipeline
