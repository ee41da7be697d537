import Vgi.Client.OAuth

/-! The pool of worker connections. Every operation of the pool is one step; connections are used,
and auth objects are created and dropped, in between.
-/

namespace Vgi.Client

open Lib

inductive VgiLocation where
  | subprocess (argv : List String)
  | http (url : String)
  | httpi (url : String)
  | iroh (url : String)
  | unix (path : String)
  | tcp (host : String) (port : Nat)
  | launch (argv : List String)
deriving DecidableEq

structure ConnectionOptions where
  workerDebug : Bool
  launcherIdleTimeout : Option Nat
  launcherStateDir : Option String
  rpcTimeout : Option Nat
deriving DecidableEq

/-- An auth object, by the number of its allocation. -/
abbrev AuthId := Nat

inductive Transport where
  /-- A byte stream, with what its RPC client reports. -/
  | stream (reusable : Bool)
  | http
  /-- An HTTP transport that shares an auth object. -/
  | authenticated (auth : AuthId)
  | retry (inner : Transport)
deriving DecidableEq

namespace Transport

/-- `is_reusable`: only the stream transport has more than the default of the trait. -/
def isReusable : Transport → Bool
  | .stream reusable => reusable
  | .http | .authenticated _ | .retry _ => true

def underlying : Transport → Transport
  | .retry inner => inner.underlying
  | transport => transport

/-- The auth object that the transport keeps alive. -/
def auth? : Transport → Option AuthId
  | .stream _ | .http => none
  | .authenticated auth => some auth
  | .retry inner => inner.auth?

/-- The RPC client of a stream reports something else from now on. -/
def report (reusable : Bool) : Transport → Transport
  | .stream _ => .stream reusable
  | .http => .http
  | .authenticated auth => .authenticated auth
  | .retry inner => .retry (inner.report reusable)

end Transport

def connectLocation : VgiLocation → Transport
  | .subprocess _ | .tcp _ _ | .iroh _ | .unix _ | .launch _ => .stream true
  | .http _ | .httpi _ => .retry .http

def connectHttpWithAuth (auth : AuthId) : Transport := .retry (.authenticated auth)

structure Demand where
  location : VgiLocation
  options : Option ConnectionOptions
  auth : Option AuthId
deriving DecidableEq

/-- A connection; its number and what it was opened for are not kept by the code. -/
structure VgiClient where
  id : Nat
  opened : Demand
  transport : Transport
  exchangeReusable : Bool
deriving DecidableEq

def VgiClient.exchangeIsReusable (client : VgiClient) : Bool :=
  client.exchangeReusable && client.transport.isReusable

structure PoolConfig where
  idleTimeout : Nat
  maxIdle : Nat
deriving DecidableEq

def PoolConfig.poolingEnabled (config : PoolConfig) : Bool :=
  0 < config.maxIdle && config.idleTimeout ≠ 0

structure PoolKey where
  location : VgiLocation
  connectionOptions : Option ConnectionOptions
  /-- The address of the auth object. -/
  authScope : Option Nat
deriving DecidableEq

structure Idle where
  key : PoolKey
  client : VgiClient
  since : Instant
deriving DecidableEq

structure PooledClient where
  key : PoolKey
  client : VgiClient
  poisoned : Bool
  /-- What the caller asked for. -/
  demand : Demand
deriving DecidableEq

/-- An allocation, with the number of references outside of connections. -/
structure AuthObject where
  address : Nat
  handles : Nat
deriving DecidableEq

structure Counters where
  hits : Nat
  misses : Nat
  evictedIdle : Nat
  evictedFull : Nat
  discardedPoisoned : Nat
deriving DecidableEq

structure Pool where
  config : PoolConfig
  /-- The buckets of all keys in one list, each newest first. -/
  idle : List Idle
  /-- The checkouts that were ever made; one that was dropped is `none`. -/
  checkouts : List (Option PooledClient)
  auths : List AuthObject
  counters : Counters
  /-- How many connections were opened. -/
  opened : Nat
  /-- The connections that were dropped poisoned, or that reported that they are not reusable. -/
  spoiled : List Nat
deriving DecidableEq

/-- `take_idle` on the entries: the newest one of the key that has not timed out, what is left,
and how many were closed on the way.
-/
def takeIdle (timeout : Nat) (now : Instant) (key : PoolKey)
    : List Idle → Option VgiClient × List Idle × Nat
  | [] => (none, [], 0)
  | entry :: rest =>
    if entry.key = key then
      if now - entry.since ≤ timeout then (some entry.client, rest, 0)
      else
        let (found, left, closed) := takeIdle timeout now key rest
        (found, left, closed + 1)
    else
      let (found, left, closed) := takeIdle timeout now key rest
      (found, entry :: left, closed)

namespace Pool

variable (pool : Pool)

def isLive (auth : AuthId) : Prop :=
  (∃ object, pool.auths[auth]? = some object ∧ 0 < object.handles)
  ∨ (∃ entry ∈ pool.idle, entry.client.transport.auth? = some auth)
  ∨ ∃ checkout, some checkout ∈ pool.checkouts ∧ checkout.client.transport.auth? = some auth

instance (auth : AuthId) : Decidable (pool.isLive auth) :=
  decidable_of_iff
    ((pool.auths[auth]?.any fun object => 0 < object.handles)
      || (pool.idle.any fun entry => entry.client.transport.auth? = some auth)
      || pool.checkouts.any fun slot =>
      slot.any fun checkout => checkout.client.transport.auth? = some auth)
    (by
      simp only [isLive, Bool.or_eq_true, List.any_eq_true, Option.any_eq_true, decide_eq_true_eq,
        or_assoc]
      constructor
      · rintro (⟨object, is, held⟩ | idle | ⟨slot, member, checkout, is, keeps⟩)
        · exact .inl ⟨object, is, held⟩
        · exact .inr (.inl idle)
        · exact .inr (.inr ⟨checkout, is ▸ member, keeps⟩)
      · rintro (⟨object, is, held⟩ | idle | ⟨checkout, member, keeps⟩)
        · exact .inl ⟨object, is, held⟩
        · exact .inr (.inl idle)
        · exact .inr (.inr ⟨some checkout, member, checkout, rfl, keeps⟩))

/-- The key of a demand, with the address of the auth object. -/
def keyOf (demand : Demand) : PoolKey where
  location := demand.location
  connectionOptions := demand.options
  authScope := demand.auth.bind fun auth => pool.auths[auth]?.map (·.address)

def checkOut (demand : Demand) (client : VgiClient) : Pool :=
  { pool with checkouts := pool.checkouts ++ [some ⟨pool.keyOf demand, client, false, demand⟩] }

/-- `acquire_with`, where `connect` is the transport of a new connection, or fails. -/
def acquireWith (demand : Demand) (now : Instant) (connect : Result Transport) : Pool :=
  let (found, left, closed) :=
    if pool.config.poolingEnabled then
      takeIdle pool.config.idleTimeout now (pool.keyOf demand) pool.idle
    else (none, pool.idle, 0)
  let evictedIdle := pool.counters.evictedIdle + closed
  match found with
  | some client =>
    { pool with
      idle := left
      counters := { pool.counters with hits := pool.counters.hits + 1, evictedIdle } }.checkOut
        demand client
  | none =>
    let missed : Pool :=
      { pool with
        idle := left
        counters := { pool.counters with misses := pool.counters.misses + 1, evictedIdle } }
    match connect with
    | .ok transport =>
      { missed with opened := pool.opened + 1 }.checkOut demand
        ⟨pool.opened, demand, transport, true⟩
    | .error _ => missed

def release (key : PoolKey) (client : VgiClient) (now : Instant) : Pool :=
  if pool.config.poolingEnabled then
    if pool.config.maxIdle ≤ pool.idle.length then
      { pool with
        counters := { pool.counters with evictedFull := pool.counters.evictedFull + 1 } }
    else { pool with idle := ⟨key, client, now⟩ :: pool.idle }
  else pool

def dropClient (index : Nat) (checkout : PooledClient) (now : Instant) : Pool :=
  let dropped : Pool :=
    { pool with
      checkouts := pool.checkouts.set index none
      spoiled :=
        if checkout.poisoned || !checkout.client.transport.underlying.isReusable then
          checkout.client.id :: pool.spoiled
        else pool.spoiled }
  if checkout.poisoned || !checkout.client.exchangeIsReusable then
    { dropped with
      counters := { pool.counters with discardedPoisoned := pool.counters.discardedPoisoned + 1 } }
  else dropped.release checkout.key checkout.client now

def flush : Pool := { pool with idle := [] }

def reap (now : Instant) : Pool :=
  let left := pool.idle.filter (now - ·.since ≤ pool.config.idleTimeout)
  { pool with
    idle := left
    counters :=
      { pool.counters with
        evictedIdle := pool.counters.evictedIdle + (pool.idle.length - left.length) } }

end Pool

inductive PoolAction where
  | acquire (location : VgiLocation) (now : Instant) (failure : Option RpcError)
  | acquireWithOptions (location : VgiLocation) (options : ConnectionOptions) (now : Instant)
      (failure : Option RpcError)
  | acquireWithAuth (location : VgiLocation) (auth : AuthId) (options : ConnectionOptions)
      (now : Instant)
  | poison (index : Nat)
  /-- A checkout is used; the connection may become unusable, or usable again. -/
  | use (index : Nat) (reusable exchangeReusable : Bool)
  | drop (index : Nat) (now : Instant)
  | flush
  | reap (now : Instant)
  /-- An auth object is created at an address. -/
  | newAuth (address : Nat)
  | cloneAuth (auth : AuthId)
  | dropAuth (auth : AuthId)
deriving DecidableEq

def connectOr (transport : Transport) : Option RpcError → Result Transport
  | some failure => .error failure
  | none => .ok transport

def Pool.next (pool : Pool) : PoolAction → Option Pool
  | .acquire location now failure =>
    some (pool.acquireWith ⟨location, none, none⟩ now
      (connectOr (connectLocation location) failure))
  | .acquireWithOptions location options now failure =>
    some (pool.acquireWith ⟨location, some options, none⟩ now
      (connectOr (connectLocation location) failure))
  | .acquireWithAuth location auth options now =>
    match pool.auths[auth]? with
    | some ⟨_, _ + 1⟩ =>
      match location with
      | .http _ =>
        some (pool.acquireWith ⟨location, some options, some auth⟩ now
          (.ok (connectHttpWithAuth auth)))
      | _ => some pool
    | _ => none
  | .poison index =>
    match pool.checkouts[index]? with
    | some (some checkout) =>
      some { pool with
        checkouts := pool.checkouts.set index (some { checkout with poisoned := true }) }
    | _ => none
  | .use index reusable exchangeReusable =>
    match pool.checkouts[index]? with
    | some (some checkout) =>
      let client := { checkout.client with
        transport := checkout.client.transport.report reusable
        exchangeReusable }
      some { pool with
        checkouts := pool.checkouts.set index (some { checkout with client }) }
    | _ => none
  | .drop index now =>
    match pool.checkouts[index]? with
    | some (some checkout) => some (pool.dropClient index checkout now)
    | _ => none
  | .flush => some pool.flush
  | .reap now => some (pool.reap now)
  | .newAuth address =>
    if ∃ auth < pool.auths.length, pool.isLive auth
        ∧ pool.auths[auth]?.map (·.address) = some address then none
    else some { pool with auths := pool.auths ++ [⟨address, 1⟩] }
  | .cloneAuth auth =>
    match pool.auths[auth]? with
    | some ⟨address, handles + 1⟩ =>
      some { pool with auths := pool.auths.set auth ⟨address, handles + 2⟩ }
    | _ => none
  | .dropAuth auth =>
    match pool.auths[auth]? with
    | some ⟨address, handles + 1⟩ =>
      some { pool with auths := pool.auths.set auth ⟨address, handles⟩ }
    | _ => none

def poolMachine (config : PoolConfig) : Machine Pool PoolAction where
  initial pool := pool = ⟨config, [], [], [], ⟨0, 0, 0, 0, 0⟩, 0, []⟩
  next := Pool.next

end Vgi.Client
