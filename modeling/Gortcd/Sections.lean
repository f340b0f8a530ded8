import Gortcd.Ports

/-! internal/allocator/allocation.go and allocator.go. Every function below is one
critical section under `allocsMux`, over the slice `allocs`. Slices are lists; a `break`
at the first match is `updateFirst`. Logging, the metrics and the callback, which is the
server in every call, are left out. -/
namespace Gortcd.Sections
open Keyed Net Ports

structure Binding where
  port : Port
  channel : ChannelNumber
  timeout : Time
  deriving DecidableEq, Repr

structure Permission where
  ip : IP
  timeout : Time
  bindings : List Binding
  deriving DecidableEq, Repr

def Permission.conflicts (p : Permission) (n : ChannelNumber) (peer : Addr) : Bool :=
  if IP.equal p.ip peer.ip && p.bindings.isEmpty then false
  else if !IP.equal p.ip peer.ip then false
  else match p.bindings.find? (fun b => b.port == peer.port) with
    | some b => b.channel != n
    | none => false

structure Allocation where
  tuple : FiveTuple
  permissions : List Permission
  relayedAddr : Addr
  conn : Option Conn
  timeout : Time
  bufLen : Nat -- of the read buffer `Buf`
  deriving DecidableEq, Repr

inductive Err where
  | allocationMismatch
  | permissionNotFound
  | invalidChannelNumber
  | protoNotImplemented (proto : Protocol)
  | failedToAllocate (cause : PortErr)
  deriving DecidableEq, Repr

structure Write where
  conn : Conn
  data : Bytes
  addr : Addr
  deriving DecidableEq, Repr

abbrev Table := List Allocation

/- No `break` in the loops of `SendBound` and `Send`: the last match wins, also when its
`Conn` is nil. -/
def sendBound (turn : Turn) (allocs : Table) (tuple : FiveTuple) (n : ChannelNumber) (data : Bytes) :
    Except Err Write :=
  let hit := allocs.foldl (fun acc a =>
    if !turn.tuples.same a.tuple tuple then acc
    else a.permissions.foldl (fun acc p =>
      p.bindings.foldl (fun acc b =>
        if b.channel != n then acc else (a.conn,(⟨p.ip,b.port⟩ : Addr))) acc) acc)
    ((none : Option Conn),(⟨[],0⟩ : Addr))
  match hit.1 with
  | none => .error .permissionNotFound
  | some conn => .ok ⟨conn,data,hit.2⟩

def send (turn : Turn) (allocs : Table) (tuple : FiveTuple) (peer : Addr) (data : Bytes) :
    Except Err Write :=
  let conn := allocs.foldl (fun acc a =>
    if !turn.tuples.same a.tuple tuple then acc
    else a.permissions.foldl (fun acc p => if !IP.equal peer.ip p.ip then acc else a.conn) acc)
    (none : Option Conn)
  match conn with
  | none => .error .permissionNotFound
  | some conn => .ok ⟨conn,data,peer⟩

def bound (turn : Turn) (allocs : Table) (tuple : FiveTuple) (peer : Addr) : Except Err ChannelNumber :=
  let found := allocs.findSome? (fun a =>
    if !turn.tuples.same a.tuple tuple then none
    else a.permissions.findSome? (fun p =>
      if !IP.equal p.ip peer.ip then none
      else (p.bindings.find? (fun b => b.port == peer.port)).map Binding.channel))
  match found with
  | some n => .ok n
  | none => .error .allocationMismatch

-- The locked part of `Remove`: the new table and `toDealloc`.
def remove (turn : Turn) (allocs : Table) (t : FiveTuple) : Table × List Allocation :=
  (compact allocs (allocs.filter (fun a => !turn.tuples.same a.tuple t)),
    allocs.filter (fun a => turn.tuples.same a.tuple t))

def Permission.prune (t : Time) (p : Permission) : Permission :=
  { p with bindings := p.bindings.filter (fun b => decide (t < b.timeout)) }

def Allocation.prune (t : Time) (a : Allocation) : Allocation :=
  { a with permissions :=
      compact a.permissions ((a.permissions.map (Permission.prune t)).filter (fun p => decide (t < p.timeout))) }

-- The locked part of `Prune`.
def prune (allocs : Table) (t : Time) : Table × List Allocation :=
  let pruned := allocs.map (Allocation.prune t)
  (compact pruned (pruned.filter (fun a => decide (t < a.timeout))),
    pruned.filter (fun a => !decide (t < a.timeout)))

/- `New` up to its first `Unlock`: the protocol test, the search, and the placeholder. -/
def placeholder (tuple : FiveTuple) (timeout : Time) : Allocation :=
  ⟨tuple,[],⟨[],0⟩,none,timeout,0⟩

def register (turn : Turn) (allocs : Table) (tuple : FiveTuple) (timeout : Time) : Except Err Table :=
  if tuple.proto != turn.protoUDP then .error (.protoNotImplemented tuple.proto)
  else if allocs.any (fun a => turn.tuples.same a.tuple tuple) then .error .allocationMismatch
  else .ok (allocs ++ [placeholder tuple timeout])

/- The second section of `New`: the record registered under the tuple is overwritten by the
call's own copy, which is still the placeholder apart from the fields set here. -/
def installed (tuple : FiveTuple) (timeout : Time) (raddr : Addr) (conn : Conn) : Allocation :=
  { placeholder tuple timeout with conn := some conn, relayedAddr := raddr, bufLen := 2048 }

def install (turn : Turn) (allocs : Table) (tuple : FiveTuple) (timeout : Time) (raddr : Addr) (conn : Conn) :
    Table :=
  updateFirst (fun a => turn.tuples.same a.tuple tuple) (fun _ => installed tuple timeout raddr conn) allocs

-- One matching allocation in the loop of `CreatePermission`.
def Allocation.grant (peer : Addr) (timeout : Time) (a : Allocation) : Allocation :=
  if a.permissions.any (fun p => IP.equal p.ip peer.ip) then
    { a with permissions :=
        updateFirst (fun p => IP.equal p.ip peer.ip) (fun p => { p with timeout := timeout }) a.permissions }
  else { a with permissions := a.permissions ++ [⟨peer.ip,timeout,[]⟩] }

def createPermission (turn : Turn) (allocs : Table) (tuple : FiveTuple) (peer : Addr) (timeout : Time) :
    Table × Option Err :=
  if allocs.any (fun a => turn.tuples.same a.tuple tuple) then
    (updateFirst (fun a => turn.tuples.same a.tuple tuple) (Allocation.grant peer timeout) allocs,none)
  else (allocs,some .allocationMismatch)

structure BindFlags where
  updated : Bool
  found : Bool
  allocFound : Bool
  deriving DecidableEq, Repr

-- `if timeout.After(permission.Timeout) { permission.Timeout = timeout }`
def Permission.raise (timeout : Time) (p : Permission) : Permission :=
  if p.timeout < timeout then { p with timeout := timeout } else p

/- The permission of the peer's address: refresh the first binding with the channel, or
create one unless `updated` is already set. -/
def Permission.bind (n : ChannelNumber) (peer : Addr) (timeout : Time) (updated : Bool) (p : Permission) :
    Permission × Bool :=
  if p.bindings.any (fun b => b.channel == n) then
    (({ p with bindings :=
        updateFirst (fun b => b.channel == n) (fun b => { b with timeout := timeout }) p.bindings } :
      Permission).raise timeout,true)
  else if !updated then
    (({ p with bindings := p.bindings ++ [⟨peer.port,n,timeout⟩] } : Permission).raise timeout,false)
  else (p,true)

/- The loop over permissions, which stops at the first one with the peer's IP; `none` is
the return of `ErrAllocationMismatch` on a conflict. -/
def bindPermissions (n : ChannelNumber) (peer : Addr) (timeout : Time) (flags : BindFlags) :
    List Permission → Option (List Permission × BindFlags)
  | [] => some ([],flags)
  | p :: rest =>
    if !IP.equal p.ip peer.ip then do
      let out ← bindPermissions n peer timeout flags rest
      some (p :: out.1,out.2)
    else if p.conflicts n peer then none
    else
      let out := p.bind n peer timeout flags.updated
      some (out.1 :: rest,{ flags with updated := out.2, found := true })

/- The loop over allocations does not stop at the first match and keeps its flags from one
match to the next; a conflict returns at once, with what was written so far. -/
def bindAllocations (turn : Turn) (tuple : FiveTuple) (n : ChannelNumber) (peer : Addr) (timeout : Time) :
    BindFlags → Table → Table × Option BindFlags
  | flags,[] => ([],some flags)
  | flags,a :: rest =>
    if !turn.tuples.same a.tuple tuple then
      let out := bindAllocations turn tuple n peer timeout flags rest
      (a :: out.1,out.2)
    else match bindPermissions n peer timeout flags a.permissions with
      | none => (a :: rest,none)
      | some (permissions,flags) =>
        let permissions :=
          if flags.found then permissions else permissions ++ [⟨peer.ip,timeout,[⟨peer.port,n,timeout⟩]⟩]
        let out := bindAllocations turn tuple n peer timeout { flags with allocFound := true } rest
        ({ a with permissions := permissions } :: out.1,out.2)

def channelBind (turn : Turn) (allocs : Table) (tuple : FiveTuple) (n : ChannelNumber) (peer : Addr)
    (timeout : Time) : Table × Option Err :=
  if !turn.channelValid n then (allocs,some .invalidChannelNumber)
  else match bindAllocations turn tuple n peer timeout ⟨false,false,false⟩ allocs with
    | (allocs,none) => (allocs,some .allocationMismatch)
    | (allocs,some flags) => (allocs,if flags.allocFound then none else some .allocationMismatch)

-- Returns nil also when nothing matches.
def refresh (turn : Turn) (allocs : Table) (tuple : FiveTuple) (timeout : Time) : Table × Option Err :=
  (updateFirst (fun a => turn.tuples.same a.tuple tuple) (fun a => { a with timeout := timeout }) allocs,none)

structure Stats where
  allocations : Nat
  permissions : Nat
  bindings : Nat
  deriving DecidableEq, Repr

def stats (allocs : Table) : Stats :=
  allocs.foldl (fun s a => a.permissions.foldl (fun s p => { s with bindings := s.bindings + p.bindings.length })
    { s with permissions := s.permissions + a.permissions.length }) ⟨allocs.length,0,0⟩

end Gortcd.Sections
