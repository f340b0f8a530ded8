import Gortcd.Isolation
import Gortcd.PeerFilter

/-! The server with nothing else touching its tables: every change comes from a packet or
from the collector. A packet is served in one step, except that `New` may be interrupted
between its sections: the worker then waits with the context of its Allocate request. What
`Remove` and `Prune` release after unlocking concerns the port table only. -/
namespace Gortcd.Service
open Keyed Net Ports Sections Records Calls Runs Interleaving Isolation Messages Filters Auth Handlers Effects Site

structure State (ν : Type) extends Host ν where
  waiting : List (Nat × Context)

inductive Event where
  | receive (addr : NetAddr) (packet : Bytes)
  | reload (o : Options)
  | serve (i : Nat) (now : Time) (env : Env)
  | allocate (call : Nat) (i : Nat) (now : Time) (env : Env)
  | answer (call : Nat) (port : Except PortErr NetAllocation)
  | install (call : Nat)
  | collect (now : Time)
  | dealloc (addr : Addr) (proto : Protocol)

def callOf (stun : Stun) (port : Except PortErr NetAllocation) (c : Context) : Option Call :=
  match c.request.type with
  | ⟨.allocate,.request⟩ => match stun.requestedTransport c.request with
    | .error _ => none
    | .ok _ => some (.new c.tuple (c.time + c.cfg.defaultLifetime) port)
  | ⟨.refresh,.request⟩ => match stun.lifetime c.request with
    | .ok l => some (if l = 0 then .remove c.tuple else .refresh c.tuple (c.time + l))
    | .error .attributeNotFound => some (.remove c.tuple)
    | .error _ => none
  | ⟨.createPermission,.request⟩ => match stun.peerAddress c.request with
    | .error _ => none
    | .ok peer =>
      if !c.allowPeer peer then none
      else match stun.lifetime c.request with
        | .ok l => some (.createPermission c.tuple peer (c.time + if l > c.cfg.maxLifetime then c.cfg.maxLifetime else l))
        | .error .attributeNotFound => some (.createPermission c.tuple peer (c.time + c.cfg.defaultLifetime))
        | .error _ => none
  | ⟨.channelBind,.request⟩ => match stun.peerAddress c.request with
    | .error _ => none
    | .ok peer => match stun.channelNumber c.request with
      | .error _ => none
      | .ok n =>
        if !c.allowPeer peer then none
        else some (.channelBind c.tuple n peer (c.time + c.cfg.defaultLifetime))
  | _ => none

variable {ν : Type}

/- The context in which the queued packet reaches its handler, if it passes the checks. -/
def reaches (turn : Turn) (stun : Stun) (srv : Server ν) (s : Host ν) (i : Nat) (now : Time) (env : Env) :
    Option Context :=
  match s.queue[i]? with
  | none => none
  | some c => match c.arrive turn now with
    | .error _ => none
    | .ok ctx =>
      if !stun.isMessage ctx.request.raw then none
      else match (admission stun srv env s.nonces ctx).2 with
        | .pass d => some d
        | _ => none

/- The packet is an Allocate request whose `New` comes to its first `Unlock`. -/
def Registers (turn : Turn) (stun : Stun) (srv : Server ν) (s : Host ν) (i : Nat) (now : Time) (env : Env) (d : Context) :
    Prop :=
  reaches turn stun srv s i now env = some d ∧
    callOf stun env.port d = some (.new d.tuple (d.time + d.cfg.defaultLifetime) env.port) ∧
    ∃ allocs, register turn s.alloc.allocs d.tuple (d.time + d.cfg.defaultLifetime) = .ok allocs

def enabled (turn : Turn) (stun : Stun) (srv : Server ν) (s : State ν) : Event → Prop
  | .receive _ _ => True
  | .reload _ => True
  | .serve i _ _ => i < s.queue.length
  | .allocate k i now env => s.alloc.call k = none ∧ ∃ d, Registers turn stun srv s.toHost i now env d
  | .answer k port => Interleaving.enabled s.alloc (.answer k port)
  | .install k => Interleaving.enabled s.alloc (.install k)
  | .collect _ => True
  | .dealloc addr proto => Interleaving.enabled s.alloc (.dealloc addr proto)

def drop (k : Nat) (waiting : List (Nat × Context)) : List (Nat × Context) := waiting.filter (fun w => w.1 != k)

def next (turn : Turn) (stun : Stun) (srv : Server ν) (s : State ν) : Event → State ν
  | .receive addr packet => { s with toHost := Site.next turn stun srv s.toHost (.receive addr packet) }
  | .reload o => { s with toHost := Site.next turn stun srv s.toHost (.reload o) }
  | .serve i now env => { s with toHost := Site.next turn stun srv s.toHost (.serve i now env) }
  | .allocate k i now env => match reaches turn stun srv s.toHost i now env with
    | none => s
    | some d =>
      { toHost := { Site.next turn stun srv s.toHost (.serve i now env) with
          alloc := Interleaving.next turn s.alloc (.register k d.tuple (d.time + d.cfg.defaultLifetime)) }
        waiting := (k,d) :: s.waiting }
  | .answer k (.ok n) => { s with alloc := Interleaving.next turn s.alloc (.answer k (.ok n)) }
  | .answer k (.error e) =>
      { s with alloc := Interleaving.next turn s.alloc (.answer k (.error e)), waiting := drop k s.waiting }
  | .install k => { s with alloc := Interleaving.next turn s.alloc (.install k), waiting := drop k s.waiting }
  | .collect now => { s with alloc := Interleaving.next turn s.alloc (.prune now) }
  | .dealloc addr proto => { s with alloc := Interleaving.next turn s.alloc (.dealloc addr proto) }

def machine (turn : Turn) (stun : Stun) (srv : Server ν) (o : Options) (nonces : ν) : Machine (State ν) Event :=
  ⟨⟨⟨newConfig o,nonces,.empty,[]⟩,[]⟩,enabled turn stun srv,next turn stun srv⟩

def RefreshOf (turn : Turn) (stun : Stun) (srv : Server ν) (d : Context) (x : Step (State ν) Event) : Prop :=
  ∃ i now env, x.event = .serve i now env ∧ reaches turn stun srv x.pre.toHost i now env = some d ∧
    d.request.type = ⟨.refresh,.request⟩

variable {turn : Turn} {stun : Stun} {srv : Server ν} {o : Options} {nonces : ν}

theorem refreshBuilt {c : Context} (out : Allocator × Option Err) (l : Duration) : (match out.2 with
    | none => c.buildOk stun out.1 [.lifetime l]
    | some .allocationMismatch => c.buildErr stun out.1 .allocMismatch
    | some _ => c.buildErr stun out.1 .serverError).allocs = out.1 := by
  split <;> rfl

theorem refreshAllocs {a : Allocator} {c : Context} {port : Except PortErr NetAllocation}
    (type : c.request.type = ⟨.refresh,.request⟩) :
    (processRefreshRequest turn stun a c).allocs = (callOf stun port c).elim a (a.run turn) := by
  simp only [processRefreshRequest,callOf,type]
  cases stun.lifetime c.request with
  | ok l =>
    refine (refreshBuilt _ l).trans ?_
    simp only [Option.elim_some]
    split <;> rfl
  | error e => cases e with
    | attributeNotFound => exact refreshBuilt _ 0
    | other text => rfl

theorem createPermissionBuilt {c : Context} (out : Allocator × Option Err) (l : Duration) : (match out with
    | (allocs,some .allocationMismatch) => c.buildErr stun allocs .allocMismatch
    | (allocs,none) => c.buildOk stun allocs [.lifetime l]
    | (allocs,some e) => ⟨allocs,c,none,some (.wrapAlloc "failed to create allocation" e)⟩).allocs = out.1 := by
  split <;> rfl

theorem createPermissionAllocs {a : Allocator} {c : Context} {port : Except PortErr NetAllocation}
    (type : c.request.type = ⟨.createPermission,.request⟩) :
    (processCreatePermissionRequest turn stun a c).allocs = (callOf stun port c).elim a (a.run turn) := by
  simp only [processCreatePermissionRequest,callOf,type]
  cases stun.peerAddress c.request with
  | error e => rfl
  | ok peer => cases allowed : c.allowPeer peer with
    | false =>
      simp only [allowed,Bool.not_false,if_true]
      split <;> rfl
    | true =>
      simp only [allowed,Bool.not_true,Bool.false_eq_true,if_false]
      cases stun.lifetime c.request with
      | ok l => exact createPermissionBuilt _ _
      | error e => cases e with
        | attributeNotFound => exact createPermissionBuilt _ _
        | other text => rfl

theorem channelBindBuilt {c : Context} (out : Allocator × Option Err) (n : ChannelNumber) (l : Duration) : (match out with
    | (allocs,some .allocationMismatch) => c.buildErr stun allocs .allocMismatch
    | (allocs,none) => c.buildOk stun allocs [.channelNumber n,.lifetime l]
    | (allocs,some e) => ⟨allocs,c,none,some (.wrapAlloc "failed to create allocation" e)⟩).allocs = out.1 := by
  split <;> rfl

theorem channelBindAllocs {a : Allocator} {c : Context} {port : Except PortErr NetAllocation}
    (type : c.request.type = ⟨.channelBind,.request⟩) :
    (processChannelBinding turn stun a c).allocs = (callOf stun port c).elim a (a.run turn) := by
  simp only [processChannelBinding,callOf,type]
  cases stun.peerAddress c.request with
  | error e => rfl
  | ok peer => cases stun.channelNumber c.request with
    | error e => rfl
    | ok n => cases allowed : c.allowPeer peer with
      | false =>
        simp only [allowed,Bool.not_false,if_true]
        rfl
      | true =>
        simp only [allowed,Bool.not_true,Bool.false_eq_true,if_false]
        exact channelBindBuilt _ _ _

theorem allocateBuilt {c : Context} (out : Allocator × Except Err Addr) (l : Duration) : (match out with
    | (allocs,.ok relayedAddr) => c.buildOk stun allocs
        [.xorMappedAddress c.tuple.client,.relayedAddress relayedAddr,.lifetime l]
    | (allocs,.error .allocationMismatch) => c.buildErr stun allocs .allocMismatch
    | (allocs,.error _) => c.buildErr stun allocs .serverError).allocs = out.1 := by
  split <;> rfl

theorem allocateAllocs {a : Allocator} {c : Context} {env : Env} (type : c.request.type = ⟨.allocate,.request⟩) :
    (processAllocateRequest turn stun env a c).allocs = (callOf stun env.port c).elim a (a.run turn) := by
  simp only [processAllocateRequest,callOf,type]
  cases stun.requestedTransport c.request with
  | error e => rfl
  | ok p => exact allocateBuilt _ _

/- What a handler does to the allocator is the call it makes. -/
theorem handleAllocs {a : Allocator} {c : Context} {env : Env} :
    (handle turn stun env a c).allocs = (callOf stun env.port c).elim a (a.run turn) := by
  have idle (other : ∀ method cls, c.request.type = ⟨method,cls⟩ → (cls = .request → method ≠ .allocate ∧ method ≠ .refresh ∧
      method ≠ .createPermission ∧ method ≠ .channelBind)) : callOf stun env.port c = none := by
    unfold callOf
    split
    all_goals first
      | rfl
      | (rename_i type; have apart := other _ _ type rfl; simp at apart)
  unfold handle
  split
  · rename_i type
    rw [idle (by rw [type]; intro m k same; cases same; simp)]
    rfl
  · rename_i type
    exact allocateAllocs type
  · rename_i type
    exact createPermissionAllocs type
  · rename_i type
    exact refreshAllocs type
  · rename_i type
    rw [idle (by rw [type]; intro m k same; cases same; simp)]
    unfold processSendIndication
    split
    · rfl
    · split <;> rfl
  · rename_i type
    exact channelBindAllocs type
  · rename_i allocate create refresh send bind
    rw [idle ?_]
    · rfl
    · intro m k type request
      subst request
      refine ⟨?_,?_,?_,?_⟩ <;> intro same <;> subst same
      · exact allocate type
      · exact refresh type
      · exact create type
      · exact bind type

/- The calls a request can lead to, each with what the handler has read and checked for it. -/
inductive Made (stun : Stun) (port : Except PortErr NetAllocation) (d : Context) : Call → Prop where
  | new (type : d.request.type = ⟨.allocate,.request⟩) : Made stun port d (.new d.tuple (d.time + d.cfg.defaultLifetime) port)
  | removeZero (type : d.request.type = ⟨.refresh,.request⟩) (zero : stun.lifetime d.request = .ok 0) :
    Made stun port d (.remove d.tuple)
  | removeMissing (type : d.request.type = ⟨.refresh,.request⟩)
    (missing : stun.lifetime d.request = .error .attributeNotFound) : Made stun port d (.remove d.tuple)
  | refresh {l : Duration} (type : d.request.type = ⟨.refresh,.request⟩) (given : stun.lifetime d.request = .ok l)
    (positive : l ≠ 0) : Made stun port d (.refresh d.tuple (d.time + l))
  | createGiven {peer : Addr} {l : Duration} (type : d.request.type = ⟨.createPermission,.request⟩)
    (allowed : d.allowPeer peer = true) (given : stun.lifetime d.request = .ok l) :
    Made stun port d
      (.createPermission d.tuple peer (d.time + if l > d.cfg.maxLifetime then d.cfg.maxLifetime else l))
  | createDefault {peer : Addr} (type : d.request.type = ⟨.createPermission,.request⟩)
    (allowed : d.allowPeer peer = true) (missing : stun.lifetime d.request = .error .attributeNotFound) :
    Made stun port d (.createPermission d.tuple peer (d.time + d.cfg.defaultLifetime))
  | channelBind {peer : Addr} {n : ChannelNumber} (type : d.request.type = ⟨.channelBind,.request⟩)
    (allowed : d.allowPeer peer = true) :
    Made stun port d (.channelBind d.tuple n peer (d.time + d.cfg.defaultLifetime))

theorem callMade {port : Except PortErr NetAllocation} {d : Context} {c : Call} (made : callOf stun port d = some c) :
    Made stun port d c := by
  unfold callOf at made
  split at made
  · rename_i type
    split at made <;> cases made
    exact .new type
  · rename_i type
    split at made
    · rename_i l given
      split at made
      · rename_i zero
        cases made
        exact .removeZero type (zero ▸ given)
      · cases made
        exact .refresh type given ‹_›
    · cases made
      exact .removeMissing type ‹_›
    · cases made
  · rename_i type
    split at made
    · cases made
    · split at made
      · cases made
      · rename_i allowed
        rw [Bool.not_eq_true',Bool.not_eq_false] at allowed
        split at made <;> cases made
        · exact .createGiven type allowed ‹_›
        · exact .createDefault type allowed ‹_›
  · rename_i type
    split at made
    · cases made
    · split at made
      · cases made
      · split at made <;> cases made
        rename_i allowed
        rw [Bool.not_eq_true',Bool.not_eq_false] at allowed
        exact .channelBind type allowed
  · cases made

theorem callOfTuple {port : Except PortErr NetAllocation} {d : Context} {c : Call} (made : callOf stun port d = some c) :
    c.tuple = some d.tuple := by
  cases callMade made <;> rfl

theorem reached {s : Host ν} {i : Nat} {now : Time} {env : Env} {d : Context} :
    reaches turn stun srv s i now env = some d ↔
      ∃ c ctx, s.queue[i]? = some c ∧ c.arrive turn now = .ok ctx ∧ stun.isMessage ctx.request.raw = true ∧
        (admission stun srv env s.nonces ctx).2 = .pass d := by
  unfold reaches
  cases queued : s.queue[i]? with
  | none => simp
  | some c => cases arrival : c.arrive turn now with
    | error e => simp [arrival]
    | ok ctx => cases framed : stun.isMessage ctx.request.raw with
      | false => simp [arrival,framed]
      | true => cases admitted : (admission stun srv env s.nonces ctx).2 <;> simp [arrival,framed,admitted]

/- Serving a packet makes the call of the request that reaches its handler, or none. -/
theorem serveAllocs {s : Host ν} {i : Nat} {now : Time} {env : Env} :
    (Site.next turn stun srv s (.serve i now env)).alloc.toAllocator =
      ((reaches turn stun srv s i now env).bind (callOf stun env.port)).elim s.alloc.toAllocator
        (s.alloc.toAllocator.run turn) := by
  unfold reaches
  cases queued : s.queue[i]? with
  | none => simp [Site.next,queued]
  | some c =>
    rw [nextServe queued]
    simp only [serveConn]
    cases arrival : c.arrive turn now with
    | error e => simp
    | ok ctx =>
      simp only [process]
      cases framed : stun.isMessage ctx.request.raw with
      | false =>
        simp only [Bool.false_eq_true,if_false,Bool.not_false,if_true,Option.bind_none,Option.elim_none]
        split
        · unfold processChannelData
          split
          · rfl
          · split <;> rfl
        · rfl
      | true =>
        simp only [if_true,Bool.not_true,Bool.false_eq_true,if_false,processMessage]
        generalize admission stun srv env s.nonces ctx = out
        obtain ⟨after,admitted⟩ := out
        cases admitted with
        | silent c => rfl
        | refuse c code => rfl
        | pass d => simp only [handleAllocs,Option.bind_some]

theorem nextTable {s : State ν} (ok : TableOk turn s.alloc.allocs) (e : Event) :
    TableOk turn (next turn stun srv s e).alloc.allocs := by
  have inner (e : Interleaving.Event) : TableOk turn (Interleaving.next turn s.alloc e).allocs :=
    changeOk (nextChange ok e) ok
  cases e with
  | receive addr packet => exact ok
  | reload o => exact ok
  | serve i now env => exact nextOk ok (.serve i now env)
  | allocate k i now env =>
    simp only [next]
    split
    · exact ok
    · exact inner _
  | answer k port => cases port <;> exact inner _
  | install k => exact inner _
  | collect now => exact inner _
  | dealloc addr proto => exact inner _

theorem serviceOk {h s} (run : Run (machine turn stun srv o nonces) h s) : TableOk turn s.alloc.allocs := by
  have empty : TableOk turn State.empty.allocs := emptyTableOk
  exact invariant (Q := fun s : State ν => TableOk turn s.alloc.allocs) empty (fun _ e ok _ => nextTable ok e) run

/- For running the model: a client allocates, and then its next packet is served. -/
def sampleService : Machine (State NonceAuth) Event :=
  machine .documented Codec.wire PeerFilter.openServer PeerFilter.sampleOptions (newNonceAuth 0)

def allocated (packet : Bytes) : List Event :=
  [.receive PeerFilter.sampleClient PeerFilter.allocatePacket,.serve 0 1 ⟨[],.ok ⟨sampleRelayed,17,1⟩⟩,
    .receive PeerFilter.sampleClient packet]

def refreshing (packet : Bytes) : Step (State NonceAuth) Event :=
  ⟨(trace sampleService [] sampleService.start (allocated packet)).2,.serve 0 2 ⟨[],.error .listen⟩⟩

theorem refreshingRun (packet : Bytes) :
    Run sampleService (refreshing packet :: (trace sampleService [] sampleService.start (allocated packet)).1)
      (sampleService.next (refreshing packet).pre (refreshing packet).event) :=
  .step (traceStart (m := sampleService) (allocated packet) ⟨trivial,Nat.one_pos,trivial,trivial⟩) Nat.one_pos

end Gortcd.Service
