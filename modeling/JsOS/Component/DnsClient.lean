import JsOS.Component.DnsPacket
import JsOS.Library.Run

/-! # The DNS client

Requests wait in an array until a response names their domain, or until the interval handler has
sent their query three times more and gives up. Callbacks run while the array is being scanned, and
may put further requests into it. A request leaves the array when its callback has returned
(`Accounted`), and every call has its reason (`Answered`, `Failed`). The address from which a
response comes and the type of its question are not looked at, so that it may not be `Genuine`.
-/

namespace JsOS.Component.Dns

open Net (IP4Address)

/-- A request that waits; without a `query` in its options that is empty. Its callback goes by the
number of requests made before it. -/
structure Request where
  domain : List Char
  retry : Nat
  query : String
  cb : Nat
  deriving DecidableEq, Repr

/-- `opts.query || 'A'`. -/
def orA (query : String) : String := if query = "" then "A" else query

/-- A call of `resolve`, and whether the socket can send: it throws if no port is free. -/
structure ResolveCall where
  domain : List Char
  query : String
  sends : Bool
  deriving DecidableEq, Repr

/-- What a callback is called with. -/
inductive Reply where
  | response (data : Response)
  | error (message : String)
  deriving DecidableEq, Repr

/-- What happened: a datagram arrived, the query of a request was passed to the socket, a callback
was called, and returned or threw. -/
inductive Entry where
  | received (ip : IP4Address) (port : Nat) (u8 : List UInt8)
  | sent (cb : Nat) (query : List UInt8)
  | called (cb : Nat) (reply : Reply) (threw : Bool)
  deriving DecidableEq, Repr

/-- The handler that is running, and the index that its loop has reached. -/
inductive Scanning where
  | message (data : Response) (i : Nat)
  | interval (i : Nat)
  deriving DecidableEq, Repr

/-- The client: its fields, the requests made so far, and what happened. What `_cache` keeps is
never read. -/
structure DNSClient where
  serverIP : IP4Address := ⟨8, 8, 8, 8⟩
  serverPort : Nat := 53
  requests : List (Option Request) := []
  scanning : Option Scanning := none
  registered : List Request := []
  log : List Entry := []
  deriving DecidableEq, Repr

namespace DNSClient

/-- `resolve`. A query that cannot be made or sent throws before the request is kept. -/
def resolve (client : DNSClient) (call : ResolveCall) : DNSClient :=
  match getQuery call.domain (orA call.query) with
  | none => client
  | some u8 =>
      if call.sends then
        let request : Request := ⟨call.domain, 3, call.query, client.registered.length⟩
        { client with
          requests := client.requests ++ [some request]
          registered := client.registered ++ [request]
          log := client.log ++ [.sent request.cb u8] }
      else client

/-- A callback is called. It calls `resolve`, and returns or throws; if it throws, then out of the
handler. -/
def call (client : DNSClient) (request : Request) (reply : Reply) (made : List ResolveCall)
    (throws : Bool) : DNSClient :=
  made.foldl resolve { client with log := client.log ++ [.called request.cb reply throws] }

/-- The entry of a request is set to `null`. -/
def clear (client : DNSClient) (i : Nat) : DNSClient :=
  { client with requests := client.requests.set i none }

/-- The inputs: calls, datagrams and ticks, and the next round of the handler that is running, with
what a callback does in it and whether a query can be sent. -/
inductive Move where
  | resolve (call : ResolveCall)
  | datagram (ip : IP4Address) (port : Nat) (u8 : List UInt8)
  | tick
  | round (made : List ResolveCall) (throws sends : Bool)
  deriving DecidableEq, Repr

/-- A round of the loop of `onmessage`. -/
def messageRound (client : DNSClient) (data : Response) (i : Nat) (made : List ResolveCall)
    (throws : Bool) : DNSClient :=
  match client.requests[i]? with
  | none => { client with scanning := none }
  | some none => { client with scanning := some (.message data (i + 1)) }
  | some (some request) =>
      if request.domain = data.hostname then
        let called := client.call request (.response data) made throws
        if throws then { called with scanning := none }
        else { called.clear i with scanning := some (.message data (i + 1)) }
      else { client with scanning := some (.message data (i + 1)) }

/-- A round of the loop of the interval handler, or the filter after it. -/
def intervalRound (client : DNSClient) (i : Nat) (made : List ResolveCall)
    (throws sends : Bool) : DNSClient :=
  match client.requests[i]? with
  | none => { client with requests := client.requests.filter (· ≠ none), scanning := none }
  | some none => { client with scanning := some (.interval (i + 1)) }
  | some (some request) =>
      if request.retry > 0 then
        match getQuery request.domain (orA request.query) with
        | none => { client with scanning := none }
        | some u8 =>
            if sends then
              { client with
                requests := client.requests.set i
                  (some { request with retry := request.retry - 1 })
                scanning := some (.interval (i + 1))
                log := client.log ++ [.sent request.cb u8] }
            else { client with scanning := none }
      else
        let called := client.call request (.error "Your network card is not supported") made throws
        if throws then { called with scanning := none }
        else { called.clear i with scanning := some (.interval (i + 1)) }

/-- A datagram arrives; the calls that fit the stack bound the reading of its names. -/
def onmessage (stack : Nat) (client : DNSClient) (ip : IP4Address) (port : Nat)
    (u8 : List UInt8) : DNSClient :=
  let received := { client with log := client.log ++ [.received ip port u8] }
  match parseResponse u8 stack with
  | some (some data) => { received with scanning := some (.message data 0) }
  | _ => received

/-- An input. While a handler runs only its rounds do anything, and they do nothing without one. -/
def step (stack : Nat) (client : DNSClient) (move : Move) : DNSClient :=
  match client.scanning, move with
  | none, .resolve call => client.resolve call
  | none, .datagram ip port u8 => client.onmessage stack ip port u8
  | none, .tick => { client with scanning := some (.interval 0) }
  | some (.message data i), .round made throws _ => client.messageRound data i made throws
  | some (.interval i), .round made throws sends => client.intervalRound i made throws sends
  | _, _ => client

/-! ## What is kept -/

/-- The requests in the array. -/
def waiting (client : DNSClient) : List Request := client.requests.reduceOption

/-- The entry is a call of a callback. -/
def calledTo (cb : Nat) : Entry → Bool
  | .called id _ _ => id == cb
  | _ => false

/-- The entry is a call of a callback that returned. -/
def returnedTo (cb : Nat) : Entry → Bool
  | .called id _ threw => id == cb && !threw
  | _ => false

/-- The queries of a request that were passed to the socket are as many as stated. -/
def Queried (log : List Entry) (request : Request) (count : Nat) : Prop :=
  ∃ u8, getQuery request.domain (orA request.query) = some u8 ∧
    log.count (.sent request.cb u8) = count

/-- A call with a response is for a request of its domain, and a datagram that arrived was read as
the response. -/
def Answered (stack : Nat) (client : DNSClient) : Prop :=
  ∀ id data threw, .called id (.response data) threw ∈ client.log →
    ∃ request ∈ client.registered, request.cb = id ∧ request.domain = data.hostname ∧
      ∃ ip port u8, .received ip port u8 ∈ client.log ∧
        parseResponse u8 stack = some (some data)

/-- A call with a response is for a datagram from the server whose question has the domain and the
type of the request. -/
def Genuine (stack : Nat) (client : DNSClient) : Prop :=
  ∀ id data threw, .called id (.response data) threw ∈ client.log →
    ∃ request ∈ client.registered, request.cb = id ∧
      ∃ u8, .received client.serverIP client.serverPort u8 ∈ client.log ∧
        parseResponse u8 stack = some (some data) ∧
        (readQuestion u8 stack).map (fun question => (question.1, question.2.1)) =
          some (request.domain, queries (orA request.query))

/-- A call with an error comes after four queries of its request. -/
def Failed (client : DNSClient) : Prop :=
  ∀ past future id message threw,
    client.log = past ++ .called id (.error message) threw :: future →
      ∃ request ∈ client.registered, request.cb = id ∧ Queried past request 4

/-- A callback that never throws is called at most once. -/
def CalledOnce (client : DNSClient) : Prop :=
  ∀ id, (∀ reply, .called id reply true ∉ client.log) → client.log.countP (calledTo id) ≤ 1

/-- A request whose callback has not returned from a call is in the array. -/
def Accounted (client : DNSClient) : Prop :=
  ∀ request : Request, request ∈ client.registered →
    (∃ reply, .called request.cb reply false ∈ client.log) ∨
      ∃ held ∈ client.waiting, held.cb = request.cb

/-- **The bookkeeping.** A waiting request was registered, its queries and its retries are four,
and its callback has not returned; the callback of every other request has returned once. -/
structure Balanced (client : DNSClient) : Prop where
  numbered : ∀ (id : Nat) (request : Request), client.registered[id]? = some request → request.cb = id
  distinct : (client.waiting.map Request.cb).Nodup
  original : ∀ request : Request, request ∈ client.waiting →
    { request with retry := 3 } ∈ client.registered
  queried : ∀ request ∈ client.waiting,
    ∃ sent, Queried client.log request sent ∧ sent + request.retry = 4
  unreturned : ∀ request : Request, request ∈ client.waiting →
    client.log.countP (returnedTo request.cb) = 0
  returned : ∀ id < client.registered.length, id ∉ client.waiting.map Request.cb →
    client.log.countP (returnedTo id) = 1
  known : ∀ id query, .sent id query ∈ client.log → id < client.registered.length
  known' : ∀ id reply threw, .called id reply threw ∈ client.log → id < client.registered.length

end DNSClient

end JsOS.Component.Dns
