import Gortcd.Auth
import Gortcd.Calls
import Gortcd.Filters

/-! internal/server: one packet from its context to the response. Handlers pass the
allocator and the context on; what goes out on a relay socket is in `sent`. The answers of
the random source and of the port allocator during the call are in `Env`. Logging, metrics
and write deadlines are left out, and contexts are fresh; their pool is in `Recycling`. -/
namespace Gortcd.Handlers
open Keyed Net Ports Sections Calls Messages Filters Auth

structure Config where
  realm : Bytes
  maxLifetime : Duration
  defaultLifetime : Duration
  authForSTUN : Bool
  software : Bytes
  peerFilter : Rule
  clientFilter : Rule

-- The options that reach `config`; `parseOptions` leaves no rule nil.
structure Options where
  software : Bytes
  realm : Bytes
  authForSTUN : Bool
  peerRule : Rule
  clientRule : Rule

def second : Duration := 1000000000

def newConfig (o : Options) : Config :=
  { realm := o.realm
    maxLifetime := 3600 * second
    defaultLifetime := 60 * second
    authForSTUN := o.authForSTUN
    software := o.software
    peerFilter := o.peerRule
    clientFilter := o.clientRule }

inductive NetAddr where
  | udp (a : Addr)
  | other (text : String)
  deriving DecidableEq, Repr

structure Context where
  addr : NetAddr
  conn : Conn
  cfg : Config
  time : Time
  client : Addr
  server : Addr
  proto : Protocol
  tuple : FiveTuple
  request : Message
  response : Message
  cdata : ChannelData
  nonce : Bytes
  realm : Bytes
  integrity : Bytes
  buf : Bytes

structure Server (ν : Type) where
  addr : Addr
  auth : Option (Message → Except AuthErr Bytes)
  nonce : NonceManager ν

structure Env where
  random : Bytes
  port : Except PortErr NetAllocation

inductive ProcessErr where
  | notSTUNMessage
  | build (cause : LibErr)
  | wrap (text : String) (cause : LibErr)
  | wrapAlloc (text : String) (cause : Err)
  | alloc (cause : Err)
  deriving DecidableEq, Repr

structure Handled where
  allocs : Allocator
  ctx : Context
  sent : Option Write
  err : Option ProcessErr

/- What `serveConn` writes back: nothing after an error or with an empty response. -/
def Handled.reply (h : Handled) : Option Bytes :=
  if h.err.isSome || h.ctx.response.raw.isEmpty then none else some h.ctx.response.raw

def Context.allowPeer (c : Context) (addr : Addr) : Bool := c.cfg.peerFilter addr = .allow

def Context.allowClient (c : Context) (addr : Addr) : Bool := c.cfg.clientFilter addr = .allow

def Context.setTuple (c : Context) : Context := { c with tuple := ⟨c.client,c.server,c.proto⟩ }

/- The setters are applied in this order, and the first error is returned. -/
def Context.build (stun : Stun) (c : Context) (cls : MessageClass) (method : Method) (s : List Setter) :
    Context × Option LibErr :=
  if c.request.type.cls = .indication then (c,none)
  else
    let empty := stun.reset c.response
    let typed := { empty with type := ⟨method,cls⟩, transactionID := c.request.transactionID }
    let out := apply stun (stun.writeHeader typed)
      ([.nonce c.nonce,.realm c.realm] ++ (if c.cfg.software.length > 0 then [.software c.cfg.software] else []) ++ s ++
        (if c.integrity.length > 0 then [.integrity c.integrity] else []) ++ [.fingerprint])
    ({ c with response := out.1 },out.2)

/- `return ctx.buildErr(code)` and `return ctx.buildOk(s...)`. -/
def Context.finish (allocs : Allocator) (built : Context × Option LibErr) : Handled :=
  ⟨allocs,built.1,none,built.2.map .build⟩

def Context.buildErr (stun : Stun) (c : Context) (allocs : Allocator) (code : ErrorCode) : Handled :=
  finish allocs (c.build stun .errorResponse c.request.type.method [.errorCode code])

def Context.buildOk (stun : Stun) (c : Context) (allocs : Allocator) (s : List Setter) : Handled :=
  finish allocs (c.build stun .successResponse c.request.type.method s)

section Requests
variable (turn : Turn) (stun : Stun)

def processBindingRequest (allocs : Allocator) (ctx : Context) : Handled :=
  ctx.buildOk stun allocs [.xorMappedAddress ctx.client]

def processAllocateRequest (env : Env) (allocs : Allocator) (ctx : Context) : Handled :=
  match stun.requestedTransport ctx.request with
  | .error _ => ctx.buildErr stun allocs .badRequest
  | .ok _ =>
    let lifetime := ctx.cfg.defaultLifetime
    match allocs.new turn ctx.tuple (ctx.time + lifetime) env.port with
    | (allocs,.ok relayedAddr) => ctx.buildOk stun allocs
        [.xorMappedAddress ctx.tuple.client,.relayedAddress relayedAddr,.lifetime lifetime]
    | (allocs,.error .allocationMismatch) => ctx.buildErr stun allocs .allocMismatch
    | (allocs,.error _) => ctx.buildErr stun allocs .serverError

/- A missing LIFETIME leaves the duration at zero. -/
def processRefreshRequest (allocs : Allocator) (ctx : Context) : Handled :=
  let refreshed (lifetime : Duration) : Handled :=
    let out :=
      if lifetime = 0 then allocs.remove turn ctx.tuple else allocs.refresh turn ctx.tuple (ctx.time + lifetime)
    match out.2 with
    | none => ctx.buildOk stun out.1 [.lifetime lifetime]
    | some .allocationMismatch => ctx.buildErr stun out.1 .allocMismatch
    | some _ => ctx.buildErr stun out.1 .serverError
  match stun.lifetime ctx.request with
  | .ok lifetime => refreshed lifetime
  | .error .attributeNotFound => refreshed 0
  | .error e => ⟨allocs,ctx,none,some (.wrap "failed to parse" e)⟩

def processCreatePermissionRequest (allocs : Allocator) (ctx : Context) : Handled :=
  match stun.peerAddress ctx.request with
  | .error e => ⟨allocs,ctx,none,some (.wrap "failed to get create permission request addr" e)⟩
  | .ok peerAddr =>
    let created (lifetime : Duration) : Handled :=
      if !ctx.allowPeer peerAddr then ctx.buildErr stun allocs .forbidden
      else match allocs.createPermission turn ctx.tuple peerAddr (ctx.time + lifetime) with
        | (allocs,some .allocationMismatch) => ctx.buildErr stun allocs .allocMismatch
        | (allocs,none) => ctx.buildOk stun allocs [.lifetime lifetime]
        | (allocs,some e) => ⟨allocs,ctx,none,some (.wrapAlloc "failed to create allocation" e)⟩
    match stun.lifetime ctx.request with
    | .ok lifetime => created (if lifetime > ctx.cfg.maxLifetime then ctx.cfg.maxLifetime else lifetime)
    | .error .attributeNotFound => created ctx.cfg.defaultLifetime
    | .error e => ⟨allocs,ctx,none,some (.wrap "failed to get lifetime" e)⟩

/- A failed send is only logged. -/
def processSendIndication (allocs : Allocator) (ctx : Context) : Handled :=
  match stun.data ctx.request with
  | .error e => ⟨allocs,ctx,none,some (.wrap "failed to parse send indication" e)⟩
  | .ok data => match stun.peerAddress ctx.request with
    | .error e => ⟨allocs,ctx,none,some (.wrap "failed to parse send indication" e)⟩
    | .ok addr => ⟨allocs,ctx,(send turn allocs.allocs ctx.tuple addr data).toOption,none⟩

def processChannelBinding (allocs : Allocator) (ctx : Context) : Handled :=
  match stun.peerAddress ctx.request with
  | .error _ => ctx.buildErr stun allocs .badRequest
  | .ok peerAddr => match stun.channelNumber ctx.request with
    | .error _ => ctx.buildErr stun allocs .badRequest
    | .ok number =>
      let lifetime := ctx.cfg.defaultLifetime
      if !ctx.allowPeer peerAddr then ctx.buildErr stun allocs .forbidden
      else match allocs.channelBind turn ctx.tuple number peerAddr (ctx.time + lifetime) with
        | (allocs,some .allocationMismatch) => ctx.buildErr stun allocs .allocMismatch
        | (allocs,none) => ctx.buildOk stun allocs [.channelNumber number,.lifetime lifetime]
        | (allocs,some e) => ⟨allocs,ctx,none,some (.wrapAlloc "failed to create allocation" e)⟩

def processChannelData (allocs : Allocator) (ctx : Context) : Handled :=
  match stun.decodeChannelData ctx.cdata with
  | (cdata,some _) => ⟨allocs,{ ctx with cdata := cdata },none,none⟩
  | (cdata,none) => match sendBound turn allocs.allocs ctx.tuple cdata.number cdata.data with
    | .ok w => ⟨allocs,{ ctx with cdata := cdata },some w,none⟩
    | .error e => ⟨allocs,{ ctx with cdata := cdata },none,some (.alloc e)⟩

def bindingRequest : MessageType := ⟨.binding,.request⟩

/- The handler of the message type, as `setHandlers` installs them. -/
def handle (env : Env) (allocs : Allocator) (ctx : Context) : Handled :=
  match ctx.request.type with
  | ⟨.binding,.request⟩ => processBindingRequest stun allocs ctx
  | ⟨.allocate,.request⟩ => processAllocateRequest turn stun env allocs ctx
  | ⟨.createPermission,.request⟩ => processCreatePermissionRequest turn stun allocs ctx
  | ⟨.refresh,.request⟩ => processRefreshRequest turn stun allocs ctx
  | ⟨.send,.indication⟩ => processSendIndication turn stun allocs ctx
  | ⟨.channelBind,.request⟩ => processChannelBinding turn stun allocs ctx
  | _ => ctx.buildErr stun allocs .badRequest

variable {ν : Type} (srv : Server ν)

def needAuth (ctx : Context) : Bool :=
  if srv.auth.isNone then false
  else if ctx.request.type.cls = .indication then false
  else if ctx.request.type = bindingRequest ∧ !ctx.cfg.authForSTUN then false
  else true

/- How `processMessage` gets to the point where it selects a handler, or returns before. -/
inductive Admission where
  | silent (ctx : Context)
  | refuse (ctx : Context) (code : ErrorCode)
  | pass (ctx : Context)

/- The block under `needAuth`, once `ctx.nonce` is read. -/
def authenticate (env : Env) (nonces : ν) (ctx : Context) (auth : Message → Except AuthErr Bytes) : ν × Admission :=
  let out := srv.nonce.check nonces env.random ctx.tuple ctx.nonce ctx.time
  if out.2.2 = some .other then (out.1,.refuse ctx .serverError)
  else
    let ctx := { ctx with nonce := out.2.1 }
    if stun.get ctx.request .messageIntegrity = .error .attributeNotFound then (out.1,.refuse ctx .unauthorized)
    else if out.2.2 = some .stale then (out.1,.refuse ctx .staleNonce)
    else match auth ctx.request with
      | .ok integrity => (out.1,.pass { ctx with integrity := integrity })
      | .error _ => (out.1,.refuse ctx .unauthorized)

def admission (env : Env) (nonces : ν) (ctx : Context) : ν × Admission :=
  match stun.decode ctx.request with
  | (m,some _) => (nonces,.silent { ctx with request := m })
  | (m,none) =>
    let ctx := { ctx with request := m, realm := ctx.cfg.realm }
    if stun.contains m .fingerprint && (stun.checkFingerprint m).isSome then (nonces,.refuse ctx .badRequest)
    else match needAuth srv ctx,srv.auth with
      | true,some auth => match stun.nonce m with
        | .ok value => authenticate stun srv env nonces { ctx with nonce := value } auth
        | .error .attributeNotFound => authenticate stun srv env nonces ctx auth
        | .error _ => (nonces,.refuse ctx .badRequest)
      | _,_ => (nonces,.pass ctx)

def processMessage (env : Env) (nonces : ν) (allocs : Allocator) (ctx : Context) : ν × Handled :=
  match admission stun srv env nonces ctx with
  | (nonces,.silent ctx) => (nonces,⟨allocs,ctx,none,none⟩)
  | (nonces,.refuse ctx code) => (nonces,ctx.buildErr stun allocs code)
  | (nonces,.pass ctx) => (nonces,handle turn stun env allocs ctx)

def process (env : Env) (nonces : ν) (allocs : Allocator) (ctx : Context) : ν × Handled :=
  if stun.isMessage ctx.request.raw then processMessage turn stun srv env nonces allocs ctx
  else if stun.isChannelData ctx.request.raw then (nonces,processChannelData turn stun allocs ctx)
  else (nonces,⟨allocs,ctx,none,some .notSTUNMessage⟩)

/- The context after `serveConn` and the packet written to `ctx.addr`. -/
structure Served where
  handled : Handled
  response : Option Bytes

/- `serveConn` up to `process`: the error case is an unknown address or a denied client. -/
def Context.arrive (now : Time) (ctx : Context) : Except Context Context :=
  let ctx := { ctx with
    time := now
    request := { ctx.request with raw := ctx.buf }
    cdata := { ctx.cdata with raw := ctx.buf } }
  match ctx.addr with
  | .other _ => .error ctx
  | .udp a =>
    let ctx := { ctx with client := a, proto := turn.protoUDP }
    if !ctx.allowClient ctx.client then .error ctx else .ok ctx.setTuple

def serveConn (env : Env) (now : Time) (nonces : ν) (allocs : Allocator) (ctx : Context) : ν × Served :=
  match ctx.arrive turn now with
  | .error ctx => (nonces,⟨⟨allocs,ctx,none,none⟩,none⟩)
  | .ok ctx =>
    let out := process turn stun srv env nonces allocs ctx
    (out.1,⟨out.2,out.2.reply⟩)

end Requests

/- A context as the pool makes it, and as a worker fills it in for a packet. -/
def Context.fresh (cfg : Config) : Context :=
  { addr := .other "", conn := 0, cfg := cfg, time := 0, client := ⟨[],0⟩, server := ⟨[],0⟩, proto := 0,
    tuple := ⟨⟨[],0⟩,⟨[],0⟩,0⟩, request := emptyMessage, response := emptyMessage, cdata := emptyChannelData,
    nonce := [], realm := [], integrity := [], buf := [] }

def accept {ν : Type} (srv : Server ν) (cfg : Config) (addr : NetAddr) (packet : Bytes) : Context :=
  { Context.fresh cfg with addr := addr, buf := packet.take 2048, server := srv.addr }

end Gortcd.Handlers
