import Gortcd.Bindings
import Gortcd.Isolation
import Gortcd.Lib.Simulation

/-! What the allocator is for, without its slices: a client has at most one relay, a relay at
most one grant for an address, a grant at most one channel for a port, and each of them lasts
until its time. Tuples and addresses are compared as the source compares them. The table of
`Interleaving` implements this store. -/
namespace Gortcd.Store
open Keyed Net Ports Sections Records Relaying Permissions Bindings Runs Interleaving

structure Grant where
  timeout : Time
  bindings : Port → Option (ChannelNumber × Time)

structure Relay where
  relayedAddr : Addr
  conn : Option Conn
  timeout : Time
  grants : IP → Option Grant

abbrev Relays := FiveTuple → Option Relay

def put {κ β : Type} (eq : Equality κ) (k : κ) (value : Option β) (m : κ → Option β) : κ → Option β :=
  fun k' => if eq.same k k' then value else m k'

theorem putHit {κ β : Type} {eq : Equality κ} {k k' : κ} (same : eq.same k k' = true) (value : Option β) (m : κ → Option β) :
    put eq k value m k' = value := if_pos same

theorem putMiss {κ β : Type} {eq : Equality κ} {k k' : κ} (other : ¬ eq.same k k' = true) (value : Option β)
    (m : κ → Option β) : put eq k value m k' = m k' := if_neg other

def Grant.fresh (timeout : Time) : Grant := ⟨timeout,fun _ => none⟩

/- A relay before and after it has a socket. -/
def Relay.fresh (timeout : Time) : Relay := ⟨⟨[],0⟩,none,timeout,fun _ => none⟩

def Relay.listening (addr : Addr) (conn : Conn) (timeout : Time) : Relay :=
  { Relay.fresh timeout with relayedAddr := addr, conn := some conn }

def Relay.permit (ip : IP) (timeout : Time) (r : Relay) : Relay :=
  let grant := { (r.grants ip).getD (.fresh timeout) with timeout := timeout }
  { r with grants := put ips ip (some grant) r.grants }

open scoped Classical in
/- A channel that the grant already has keeps its port. -/
noncomputable def Grant.bind (n : ChannelNumber) (port : Port) (timeout : Time) (g : Grant) : Grant where
  timeout := max g.timeout timeout
  bindings :=
    if ∃ q time, g.bindings q = some (n,time) then
      fun q => (g.bindings q).map (fun b => if b.1 = n then (n,timeout) else b)
    else put (equality Port) port (some (n,timeout)) g.bindings

def Relay.Free (n : ChannelNumber) (peer : Addr) (r : Relay) : Prop :=
  ∀ g b, r.grants peer.ip = some g → g.bindings peer.port = some b → b.1 = n

noncomputable def Relay.bind (n : ChannelNumber) (peer : Addr) (timeout : Time) (r : Relay) : Relay :=
  let grant := ((r.grants peer.ip).getD (.fresh timeout)).bind n peer.port timeout
  { r with grants := put ips peer.ip (some grant) r.grants }

def Grant.expire (now : Time) (g : Grant) : Grant :=
  { g with bindings := fun port => (g.bindings port).filter (fun b => decide (now < b.2)) }

def Relay.expire (now : Time) (r : Relay) : Relay :=
  { r with grants := fun ip => ((r.grants ip).filter (fun g => decide (now < g.timeout))).map (Grant.expire now) }

inductive Op where
  | open' (t : FiveTuple) (timeout : Time)
  | listen (t : FiveTuple) (timeout : Time) (addr : Addr) (conn : Conn)
  | close (t : FiveTuple)
  | expire (now : Time)
  | extend (t : FiveTuple) (timeout : Time)
  | permit (t : FiveTuple) (ip : IP) (timeout : Time)
  | bind (t : FiveTuple) (n : ChannelNumber) (peer : Addr) (timeout : Time)

open scoped Classical in
/- A relay that gets its socket starts again without grants. -/
noncomputable def step (turn : Turn) (m : Relays) : Op → Relays
  | .open' t timeout =>
      if t.proto = turn.protoUDP ∧ m t = none then put turn.tuples t (some (.fresh timeout)) m else m
  | .listen t timeout addr conn => put turn.tuples t ((m t).map (fun _ => .listening addr conn timeout)) m
  | .close t => put turn.tuples t none m
  | .expire now => fun t => ((m t).filter (fun r => decide (now < r.timeout))).map (Relay.expire now)
  | .extend t timeout => put turn.tuples t ((m t).map (fun r => { r with timeout := timeout })) m
  | .permit t ip timeout => put turn.tuples t ((m t).map (Relay.permit ip timeout)) m
  | .bind t n peer timeout =>
      if turn.channelValid n = true ∧ ∃ r, m t = some r ∧ r.Free n peer then
        put turn.tuples t ((m t).map (Relay.bind n peer timeout)) m
      else m

noncomputable def store (turn : Turn) : Machine Relays Op := ⟨fun _ => none,fun _ _ => True,step turn⟩

/- The source's records as grants, relays and a store. -/
def grantOf (p : Permission) : Grant := ⟨p.timeout,fun port => (portBinding p port).map (fun b => (b.channel,b.timeout))⟩

def relayOf (a : Allocation) : Relay := ⟨a.relayedAddr,a.conn,a.timeout,fun ip => (permission a ip).map grantOf⟩

def relaysOf (turn : Turn) (allocs : Table) : Relays := fun t => (find turn allocs t).map relayOf

variable {turn : Turn} {allocs : Table} {timeout : Time} {n : ChannelNumber} {peer : Addr}

theorem relayExt {r s : Relay} (addr : r.relayedAddr = s.relayedAddr) (conn : r.conn = s.conn) (timeout : r.timeout = s.timeout)
    (grants : ∀ ip, r.grants ip = s.grants ip) : r = s := by
  obtain ⟨_,_,_,first⟩ := r
  obtain ⟨_,_,_,second⟩ := s
  cases addr
  cases conn
  cases timeout
  cases (funext grants : first = second)
  rfl

theorem grantExt {g h : Grant} (timeout : g.timeout = h.timeout) (bindings : ∀ port, g.bindings port = h.bindings port) :
    g = h := by
  obtain ⟨_,first⟩ := g
  obtain ⟨_,second⟩ := h
  cases timeout
  cases (funext bindings : first = second)
  rfl

theorem relayGrant (a : Allocation) (peer : Addr) (timeout : Time) :
    relayOf (a.grant peer timeout) = (relayOf a).permit peer.ip timeout := by
  have address : (a.grant peer timeout).relayedAddr = a.relayedAddr ∧ (a.grant peer timeout).timeout = a.timeout := by
    unfold Allocation.grant
    split <;> exact ⟨rfl,rfl⟩
  refine relayExt address.1 (grantConn peer a) address.2 (fun ip => ?_)
  simp only [relayOf,permissionGrant,Relay.permit]
  by_cases same : IP.equal peer.ip ip = true
  · rw [if_pos same,putHit same]
    cases permission a peer.ip <;> rfl
  · rw [if_neg same,putMiss same]

/- The channel of a grant is that of one of its bindings, whose port is the only one. -/
theorem grantHolds {p : Permission} (ok : PermissionOk turn p) :
    (∃ q time, (grantOf p).bindings q = some (n,time)) ↔ (channelBinding p n).isSome = true := by
  rw [Option.isSome_iff_exists]
  constructor
  · intro held
    obtain ⟨q,time,at'⟩ := held
    obtain ⟨b,found,same⟩ := Option.map_eq_some_iff.mp at'
    have channel : b.channel = n := congrArg Prod.fst same
    exact ⟨b,lookupOfMem ok.channels (lookupSome found).1 (beq_iff_eq.mpr channel)⟩
  · intro held
    obtain ⟨c,found⟩ := held
    obtain ⟨mem,hit⟩ := lookupSome found
    have at' : portBinding p c.port = some c := lookupOfMem ok.ports mem (beq_self_eq_true _)
    refine ⟨c.port,c.timeout,?_⟩
    simp only [grantOf,at',Option.map_some]
    rw [beq_iff_eq.mp hit]

theorem grantBind {p : Permission} (ok : PermissionOk turn p) (same : IP.equal p.ip peer.ip = true)
    (free : p.conflicts n peer = false) :
    grantOf (p.bind n peer timeout false).1 = (grantOf p).bind n peer.port timeout := by
  refine grantExt (boundTimeout p _ _) (fun port => ?_)
  have after := @portAfterBind turn timeout n peer p ok same free port
  have holds := @grantHolds turn n p ok
  cases found : channelBinding p n with
  | none =>
    have none : ¬ ∃ q time, (grantOf p).bindings q = some (n,time) := by
      rw [holds,found]
      nofun
    simp only [Grant.bind,if_neg none]
    simp only [grantOf,after,found]
    by_cases own : (peer.port == port) = true
    · rw [if_pos own,putHit own]
      rfl
    · rw [if_neg own,putMiss own]
  | some c =>
    have held : ∃ q time, (grantOf p).bindings q = some (n,time) := by
      rw [holds,found]
      rfl
    obtain ⟨mem,hit⟩ := lookupSome found
    have channel : c.channel = n := beq_iff_eq.mp hit
    simp only [Grant.bind,if_pos held]
    simp only [grantOf,after,found]
    by_cases own : c.port = port
    · have at' : portBinding p port = some c := own ▸ lookupOfMem ok.ports mem (beq_self_eq_true _)
      simp [own,at',channel]
    · simp only [beq_eq_false_iff_ne.mpr own,Bool.false_eq_true,if_false]
      cases at' : portBinding p port with
      | none => rfl
      | some b =>
        obtain ⟨there,port'⟩ := lookupSome at'
        have other : b.channel ≠ n := by
          intro same
          have again : channelBinding p n = some b := lookupOfMem ok.channels there (beq_iff_eq.mpr same)
          cases found.symm.trans again
          exact own (beq_iff_eq.mp port')
        simp [other]

theorem conflictsExactly {p : Permission} (same : IP.equal p.ip peer.ip = true) :
    p.conflicts n peer = false ↔ ∀ b, portBinding p peer.port = some b → b.channel = n := by
  refine ⟨fun free b at' => noConflict same free at',fun free => ?_⟩
  unfold Permission.conflicts
  rw [same]
  simp only [Bool.true_and,Bool.not_true,Bool.false_eq_true,if_false]
  split
  · rfl
  · split
    · rename_i b at'
      exact bne_eq_false_iff_eq.mpr (free b at')
    · rfl

theorem relayFree (a : Allocation) : (Allocation.bindTo n peer timeout a).isSome = true ↔ (relayOf a).Free n peer := by
  constructor
  · intro bound g b grant at'
    obtain ⟨after,bound⟩ := Option.isSome_iff_exists.mp bound
    obtain ⟨p,under,rfl⟩ := Option.map_eq_some_iff.mp grant
    obtain ⟨c,found,rfl⟩ := Option.map_eq_some_iff.mp at'
    exact (conflictsExactly (lookupSome under).2).mp (bindToFree bound under) c found
  · intro free
    refine Option.isSome_iff_exists.mpr (bindToSome (fun p under => ?_))
    refine (conflictsExactly (lookupSome under).2).mpr (fun b at' => ?_)
    refine free (grantOf p) (b.channel,b.timeout) ?_ ?_
    · simp only [relayOf,under,Option.map_some]
    · simp only [grantOf,at',Option.map_some]

theorem relayBind {a b : Allocation} (ok : AllocationOk turn a) (bound : Allocation.bindTo n peer timeout a = some b) :
    relayOf b = (relayOf a).bind n peer timeout := by
  have rest : b.relayedAddr = a.relayedAddr ∧ b.conn = a.conn ∧ b.timeout = a.timeout := by
    unfold Allocation.bindTo at bound
    split at bound
    · cases Option.some.inj bound
      exact ⟨rfl,rfl,rfl⟩
    · split at bound <;> try contradiction
      cases Option.some.inj bound
      exact ⟨rfl,rfl,rfl⟩
  refine relayExt rest.1 rest.2.1 rest.2.2 (fun ip => ?_)
  simp only [relayOf,permissionBind bound,Relay.bind]
  by_cases same : IP.equal peer.ip ip = true
  · rw [if_pos same,putHit same]
    cases under : permission a peer.ip with
    | none =>
      have fresh : ¬ ∃ q time, (Grant.fresh timeout).bindings q = some (n,time) := by
        intro held
        obtain ⟨_,_,none⟩ := held
        cases none
      refine congrArg some (grantExt (Int.max_self _).symm (fun port => ?_))
      simp only [Option.map_none,Option.getD_none,Grant.bind,if_neg fresh]
      by_cases own : (peer.port == port) = true
      · rw [putHit own]
        have at' : peer.port = port := beq_iff_eq.mp own
        simp [grantOf,portBinding,lookup,at']
      · rw [putMiss own]
        have other : peer.port ≠ port := fun at' => own (beq_iff_eq.mpr at')
        simp [grantOf,portBinding,lookup,other,Grant.fresh]
    | some p =>
      obtain ⟨mem,hit⟩ := lookupSome under
      exact congrArg some (grantBind (ok.permissions p mem) hit (bindToFree bound under))
  · rw [if_neg same,putMiss same]

theorem grantPrune {p : Permission} (ok : PermissionOk turn p) (now : Time) : grantOf (p.prune now) = (grantOf p).expire now := by
  refine grantExt rfl (fun port => ?_)
  have filtered : lookup (equality Port) Binding.port port (p.bindings.filter (fun b => decide (now < b.timeout))) =
      (portBinding p port).filter (fun b => decide (now < b.timeout)) := lookupFilter ok.ports _
  have pruned : portBinding (p.prune now) port = (portBinding p port).filter (fun b => decide (now < b.timeout)) := filtered
  simp only [grantOf,Grant.expire,pruned]
  cases portBinding p port with
  | none => rfl
  | some b =>
    simp only [Option.filter_some,Option.map_some]
    split <;> rfl

theorem relayPrune {a : Allocation} (ok : AllocationOk turn a) (now : Time) : relayOf (a.prune now) = (relayOf a).expire now := by
  refine relayExt rfl rfl rfl (fun ip => ?_)
  simp only [relayOf,permissionPrune ok.distinct,Relay.expire]
  cases under : permission a ip with
  | none => rfl
  | some p =>
    have same := grantPrune (ok.permissions p (lookupSome under).1) now
    simp only [Option.map_some,Option.filter_some]
    by_cases alive : decide (now < p.timeout) = true
    · have pruned : decide (now < (p.prune now).timeout) = true := alive
      have granted : decide (now < (grantOf p).timeout) = true := alive
      rw [if_pos pruned,if_pos granted]
      exact congrArg some same
    · have pruned : ¬ decide (now < (p.prune now).timeout) = true := alive
      have granted : ¬ decide (now < (grantOf p).timeout) = true := alive
      rw [if_neg pruned,if_neg granted]
      rfl

theorem relayPlaceholder (t : FiveTuple) (timeout : Time) : relayOf (placeholder t timeout) = .fresh timeout :=
  relayExt rfl rfl rfl (fun _ => rfl)

theorem relayInstalled (t : FiveTuple) (timeout : Time) (addr : Addr) (conn : Conn) :
    relayOf (installed t timeout addr conn) = .listening addr conn timeout := relayExt rfl rfl rfl (fun _ => rfl)

theorem foundNone {t : FiveTuple} : relaysOf turn allocs t = none ↔ find turn allocs t = none := Option.map_eq_none_iff

theorem relaysUpdate {after : Table} {t : FiveTuple} {f : Allocation → Allocation} {g : Relay → Relay}
    (spec : ∀ t', find turn after t' =
      if turn.tuples.same t t' then (find turn allocs t).map f else find turn allocs t')
    (same : ∀ a, find turn allocs t = some a → relayOf (f a) = g (relayOf a)) :
    relaysOf turn after = put turn.tuples t ((relaysOf turn allocs t).map g) (relaysOf turn allocs) := by
  funext t'
  simp only [relaysOf,spec t']
  by_cases hit : turn.tuples.same t t' = true
  · rw [if_pos hit,putHit hit]
    cases found : find turn allocs t with
    | none => rfl
    | some a => exact congrArg some (same a found)
  · rw [if_neg hit,putMiss hit]
    rfl

theorem relaysRegister (t : FiveTuple) (timeout : Time) :
    (∀ out, register turn allocs t timeout = .ok out → relaysOf turn out = step turn (relaysOf turn allocs) (.open' t timeout)) ∧
    (∀ e, register turn allocs t timeout = .error e → step turn (relaysOf turn allocs) (.open' t timeout) = relaysOf turn allocs) := by
  constructor
  · intro out ok
    obtain ⟨udp,fresh,rfl⟩ := registered ok
    simp only [step]
    rw [if_pos ⟨udp,foundNone.mpr fresh⟩]
    funext t'
    simp only [relaysOf,findRegistered fresh]
    by_cases hit : turn.tuples.same t t' = true
    · rw [if_pos hit,putHit hit]
      exact congrArg some (relayPlaceholder t timeout)
    · rw [if_neg hit,putMiss hit]
      rfl
  · intro e failed
    simp only [step]
    refine if_neg (fun both => ?_)
    rcases registerFails failed with ⟨other,_⟩ | ⟨_,used,_⟩
    · exact other both.1
    · rw [foundNone.mp both.2] at used
      cases used

theorem relaysBind (ok : TableOk turn allocs) (t : FiveTuple) (n : ChannelNumber) (peer : Addr) (timeout : Time) :
    relaysOf turn (channelBind turn allocs t n peer timeout).1 = step turn (relaysOf turn allocs) (.bind t n peer timeout) ∧
    ((channelBind turn allocs t n peer timeout).2 = none ↔
      turn.channelValid n = true ∧ ∃ r, relaysOf turn allocs t = some r ∧ r.Free n peer) := by
  have free : (∃ r, relaysOf turn allocs t = some r ∧ r.Free n peer) ↔
      ((find turn allocs t).bind (Allocation.bindTo n peer timeout)).isSome = true := by
    cases found : find turn allocs t with
    | none =>
      simp only [relaysOf,found,Option.map_none,Option.bind_none,Option.isSome_none,Bool.false_eq_true,iff_false]
      intro held
      obtain ⟨_,none,_⟩ := held
      cases none
    | some a =>
      simp only [relaysOf,found,Option.map_some,Option.bind_some,relayFree a]
      constructor
      · intro held
        obtain ⟨r,same,free⟩ := held
        cases Option.some.inj same
        exact free
      · exact fun free => ⟨_,rfl,free⟩
  have spec := @channelBound turn allocs t timeout ok.distinct n peer
  simp only [step,free]
  cases valid : turn.channelValid n with
  | false =>
    rw [spec,valid]
    simp
  | true =>
    cases bound : (find turn allocs t).bind (Allocation.bindTo n peer timeout) with
    | none =>
      rw [spec,valid,bound]
      simp
    | some b =>
      rw [spec,valid,bound]
      obtain ⟨a,found,to'⟩ := Option.bind_eq_some_iff.mp bound
      simp only [Bool.not_true,Bool.false_eq_true,if_false,Option.isSome_some,and_self,if_true,and_true]
      refine relaysUpdate (fun t' => findRebind n peer) (fun c again => ?_)
      cases found.symm.trans again
      rw [Allocation.rebind,to',Option.getD_some]
      exact relayBind (ok.allocations a (lookupSome found).1) to'

theorem relaysExpire (ok : TableOk turn allocs) (now : Time) :
    relaysOf turn (prune allocs now).1 = step turn (relaysOf turn allocs) (.expire now) := by
  funext t
  simp only [relaysOf,step,findPrune ok.distinct]
  cases found : find turn allocs t with
  | none => rfl
  | some a =>
    have same := relayPrune (ok.allocations a (lookupSome found).1) now
    simp only [Option.map_some,Option.filter_some]
    by_cases alive : decide (now < a.timeout) = true
    · have pruned : decide (now < (a.prune now).timeout) = true := alive
      have kept : decide (now < (relayOf a).timeout) = true := alive
      rw [if_pos pruned,if_pos kept]
      exact congrArg some same
    · have pruned : ¬ decide (now < (a.prune now).timeout) = true := alive
      have kept : ¬ decide (now < (relayOf a).timeout) = true := alive
      rw [if_neg pruned,if_neg kept]
      rfl

def op (s : State) : Event → Option Op
  | .register _ t timeout => some (.open' t timeout)
  | .install k => match s.call k with
    | some ⟨_,t,timeout,some n⟩ => some (.listen t timeout n.addr n.conn)
    | _ => none
  | .remove t => some (.close t)
  | .prune now => some (.expire now)
  | .refresh t timeout => some (.extend t timeout)
  | .createPermission t peer timeout => some (.permit t peer.ip timeout)
  | .channelBind t n peer timeout => some (.bind t n peer timeout)
  | _ => none

theorem opStep {s : State} (ok : TableOk turn s.allocs) {e : Event} {d : Op} (acts : op s e = some d) :
    relaysOf turn (next turn s e).allocs = step turn (relaysOf turn s.allocs) d := by
  cases e with
  | register k t timeout =>
    cases acts
    obtain ⟨made,refused⟩ := @relaysRegister turn s.allocs t timeout
    simp only [next]
    cases registering : register turn s.allocs t timeout with
    | ok out => exact made out registering
    | error e => exact (refused e registering).symm
  | install k =>
    simp only [op] at acts
    split at acts <;> try contradiction
    rename_i call
    cases acts
    simp only [next,call]
    exact relaysUpdate (fun t' => findInstall _ _) (fun a _ => relayInstalled _ _ _ _)
  | remove t =>
    cases acts
    funext t'
    simp only [relaysOf,next,findRemove,step]
    by_cases hit : turn.tuples.same t t' = true
    · rw [if_pos hit,putHit hit]
      rfl
    · rw [if_neg hit,putMiss hit]
      rfl
  | prune now =>
    cases acts
    exact relaysExpire ok now
  | refresh t timeout =>
    cases acts
    exact relaysUpdate (fun t' => findRefresh) (fun a _ => rfl)
  | createPermission t peer timeout =>
    cases acts
    exact relaysUpdate (fun t' => findGrant peer) (fun a _ => relayGrant a peer timeout)
  | channelBind t n peer timeout =>
    cases acts
    exact (relaysBind ok t n peer timeout).1
  | answer k port => cases acts
  | dealloc addr proto => cases acts
  | peerData l data peer id => cases acts

theorem opStill {s : State} {e : Event} (none : op s e = none) : (next turn s e).allocs = s.allocs := by
  cases e with
  | install k =>
    simp only [op] at none
    simp only [next]
    split
    · rename_i call
      simp [call] at none
    · rfl
  | answer k port => cases port <;> rfl
  | dealloc addr proto => rfl
  | peerData l data peer id => rfl
  | _ => cases none

theorem tableSimulates (turn : Turn) : Simulation.Simulates (machine turn) (store turn) (fun s => TableOk turn s.allocs)
    (fun s => relaysOf turn s.allocs) op where
  start := rfl
  step _ _ _ ok _ acts := ⟨trivial,opStep ok acts⟩
  still _ _ _ _ none := congrArg (relaysOf turn) (opStill none)

def sendTo (m : Relays) (t : FiveTuple) (peer : Addr) (data : Bytes) : Except Err Write :=
  match (m t).bind (fun r => if (r.grants peer.ip).isSome then r.conn else none) with
  | none => .error .permissionNotFound
  | some conn => .ok ⟨conn,data,peer⟩

def channelOf (m : Relays) (t : FiveTuple) (peer : Addr) : Except Err ChannelNumber :=
  match (m t).bind (fun r => (r.grants peer.ip).bind (fun g => (g.bindings peer.port).map Prod.fst)) with
  | some n => .ok n
  | none => .error .allocationMismatch

def Relay.Binds (r : Relay) (n : ChannelNumber) (x : Addr) : Prop :=
  ∃ g time, r.grants x.ip = some g ∧ g.bindings x.port = some (n,time)

theorem relayBinds {a : Allocation} (ok : AllocationOk turn a) {x : Addr} : (relayOf a).Binds n x ↔ BoundTo a n x.ip x.port := by
  constructor
  · intro binds
    obtain ⟨g,time,grant,at'⟩ := binds
    obtain ⟨p,under,rfl⟩ := Option.map_eq_some_iff.mp grant
    obtain ⟨b,found,same⟩ := Option.map_eq_some_iff.mp at'
    obtain ⟨mem,port⟩ := lookupSome found
    exact ⟨p,b,under,mem,beq_iff_eq.mp port,congrArg Prod.fst same⟩
  · intro bound
    obtain ⟨p,b,under,mem,port,channel⟩ := bound
    have at' : portBinding p x.port = some b :=
      lookupOfMem (ok.permissions p (lookupSome under).1).ports mem (beq_iff_eq.mpr port)
    refine ⟨grantOf p,b.timeout,?_,?_⟩
    · simp only [relayOf,under,Option.map_some]
    · simp only [grantOf,at',Option.map_some,channel]

/- The table gives the answers of the store. A channel may have several peers, of which
`SendBound` takes one. -/
structure Answers (turn : Turn) (allocs : Table) (m : Relays) : Prop where
  sends : ∀ t peer data, send turn allocs t peer data = sendTo m t peer data
  bounds : ∀ t peer, bound turn allocs t peer = channelOf m t peer
  sendsBound : ∀ t n data w, sendBound turn allocs t n data = .ok w →
    w.data = data ∧ ∃ r, m t = some r ∧ r.conn = some w.conn ∧ r.Binds n w.addr
  sendsBoundTo : ∀ t n data, (∃ w, sendBound turn allocs t n data = .ok w) ↔
    ∃ r x, m t = some r ∧ r.conn.isSome = true ∧ r.Binds n x
  registers : ∀ t timeout, (∃ out, register turn allocs t timeout = .ok out) ↔ t.proto = turn.protoUDP ∧ m t = none
  removes : ∀ t, (remove turn allocs t).2 = [] ↔ m t = none
  grants : ∀ t peer timeout, (createPermission turn allocs t peer timeout).2 = none ↔ m t ≠ none
  binds : ∀ t n peer timeout, (channelBind turn allocs t n peer timeout).2 = none ↔
    turn.channelValid n = true ∧ ∃ r, m t = some r ∧ r.Free n peer

theorem answersSend (ok : TableOk turn allocs) (t : FiveTuple) (peer : Addr) (data : Bytes) :
    send turn allocs t peer data = sendTo (relaysOf turn allocs) t peer data := by
  rw [sendSpec ok.distinct,sendTo]
  cases found : find turn allocs t with
  | none => simp only [relaysOf,found,Option.map_none,Option.bind_none]
  | some a =>
    simp only [relaysOf,found,Option.map_some,Option.bind_some,relayOf]
    cases permission a peer.ip <;> rfl

theorem answersBound (ok : TableOk turn allocs) (t : FiveTuple) (peer : Addr) :
    bound turn allocs t peer = channelOf (relaysOf turn allocs) t peer := by
  rw [boundSpec ok,channelOf]
  cases found : find turn allocs t with
  | none => simp only [relaysOf,found,Option.map_none,Option.bind_none]
  | some a =>
    simp only [relaysOf,found,Option.map_some,Option.bind_some,relayOf]
    cases under : permission a peer.ip with
    | none => rfl
    | some p =>
      simp only [Option.map_some,Option.bind_some,grantOf,Option.map_map]
      rfl

theorem answersSendBound (ok : TableOk turn allocs) {t : FiveTuple} {data : Bytes} {w : Write}
    (sent : sendBound turn allocs t n data = .ok w) :
    w.data = data ∧ ∃ r, relaysOf turn allocs t = some r ∧ r.conn = some w.conn ∧ r.Binds n w.addr := by
  obtain ⟨same,a,found,conn,mem⟩ := sendBoundSource ok.distinct sent
  have inside := ok.allocations a (lookupSome found).1
  refine ⟨same,relayOf a,?_,conn,(relayBinds inside).mpr (boundToTarget inside mem)⟩
  simp only [relaysOf,found,Option.map_some]

theorem answersSendBoundTo (ok : TableOk turn allocs) {t : FiveTuple} {data : Bytes} {r : Relay} {x : Addr}
    (found : relaysOf turn allocs t = some r) (conn : r.conn.isSome = true) (binds : r.Binds n x) :
    ∃ w, sendBound turn allocs t n data = .ok w := by
  obtain ⟨a,at',rfl⟩ := Option.map_eq_some_iff.mp found
  obtain ⟨c,open'⟩ := Option.isSome_iff_exists.mp conn
  have connected : a.conn = some c := open'
  obtain ⟨y,mem,_⟩ := targetOfBound ((relayBinds (ok.allocations a (lookupSome at').1)).mp binds)
  have last := List.getLast?_eq_some_getLast (List.ne_nil_of_mem mem)
  rw [sendBoundSpec ok.distinct,at']
  simp only [Option.bind_some,last,connected,Option.map_some]
  exact ⟨_,rfl⟩

theorem answers (ok : TableOk turn allocs) : Answers turn allocs (relaysOf turn allocs) where
  sends := answersSend ok
  bounds := answersBound ok
  sendsBound _ _ _ _ sent := answersSendBound ok sent
  sendsBoundTo t n data := by
    constructor
    · intro sent
      obtain ⟨w,sent⟩ := sent
      obtain ⟨_,r,found,conn,binds⟩ := answersSendBound ok sent
      exact ⟨r,w.addr,found,conn ▸ rfl,binds⟩
    · intro bound
      obtain ⟨r,x,found,conn,binds⟩ := bound
      exact answersSendBoundTo ok found conn binds
  registers t timeout := by
    constructor
    · intro made
      obtain ⟨out,made⟩ := made
      obtain ⟨udp,fresh,_⟩ := registered made
      exact ⟨udp,foundNone.mpr fresh⟩
    · intro free
      exact ⟨_,registerOk free.1 (foundNone.mp free.2)⟩
  removes t := by
    rw [foundNone,← List.isEmpty_iff,Isolation.removedNone,Option.isNone_iff_eq_none]
  grants t peer timeout := by
    rw [ne_eq,foundNone]
    unfold Sections.createPermission
    rw [anyFound]
    cases find turn allocs t with
    | none => simp
    | some a => simp
  binds t n peer timeout := (relaysBind ok t n peer timeout).2

/- Under every interleaving the table goes through a run of the store and answers as the
store does. -/
theorem tableRefines {h s} (run : Run (machine turn) h s) :
    Run (store turn) (Simulation.image (fun s : State => relaysOf turn s.allocs) op h) (relaysOf turn s.allocs) ∧
    Answers turn s.allocs (relaysOf turn s.allocs) :=
  ⟨Simulation.simulated (tableSimulates turn) (fun run => tableOk run) run,answers (tableOk run)⟩

/- The relay of the first client has its socket and a grant, the second one has neither. -/
def sampleRelays : Relays := relaysOf .documented (trace (machine .documented) [] .empty representedEvents).2.allocs

theorem tableRefinesSample : ∃ h, Run (store .documented) h sampleRelays ∧
    sendTo sampleRelays sampleTuple samplePeer [1] = .ok ⟨1,[1],samplePeer⟩ ∧
    channelOf sampleRelays sampleTuple samplePeer = .ok 0x4001 ∧
    sendTo sampleRelays { sampleTuple with client := sampleOther } samplePeer [1] = .error .permissionNotFound := by
  have run := traceStart (m := machine .documented) representedEvents
    ⟨rfl,rfl,⟨⟨_,rfl,rfl⟩,by decide,by decide⟩,trivial,⟨_,_,rfl,rfl⟩,trivial,trivial,trivial,trivial,trivial,trivial⟩
  obtain ⟨spec,answers⟩ := tableRefines run
  refine ⟨_,spec,?_,?_,?_⟩
  · exact (answers.sends _ _ _).symm.trans (by decide +kernel)
  · exact (answers.bounds _ _).symm.trans (by decide +kernel)
  · exact (answers.sends _ _ _).symm.trans (by decide +kernel)

end Gortcd.Store
