import Gortcd.SystemPorts
import Gortcd.Transparency
import Gortcd.Inbound
import Mathlib.Data.List.Pairwise

/-! Two clients of the server talk to each other through their relays. What the server writes
on the relay socket of the one goes through the kernel to the relay socket of the other, whose
read loop hands it on. A socket is the business of one call of `New`: it has one loop, and the
allocation that names it has the tuple of that loop. -/
namespace Gortcd.Joined
open Keyed Net Ports Sections Records Relaying Permissions Calls Runs Messages Handlers Effects Responses
open Interleaving (Loop Pending)
open Auth (NonceAuth newNonceAuth)

variable {turn : Turn} {listen : Addr}

structure Wired (s : Interleaving.State) : Prop where
  pending : ∀ p ∈ s.pending, ∀ n, p.port = some n → n ∈ s.raddr.allocs
  waiting : ∀ p ∈ s.pending, ∀ n, p.port = some n → n.conn ∉ s.loops.map Loop.conn
  calls : ∀ p ∈ s.pending, ∀ q ∈ s.pending, ∀ n m, p.port = some n → q.port = some m → n.conn = m.conn → p.call = q.call
  loops : ∀ l ∈ s.loops, l.conn ∈ s.raddr.allocs.map NetAllocation.conn
  once : (s.loops.map Loop.conn).Nodup
  table : ∀ a ∈ s.allocs, ∀ c, a.conn = some c →
    ⟨a.tuple,c,2048⟩ ∈ s.loops ∧ ∃ n ∈ s.raddr.allocs, n.addr = a.relayedAddr ∧ n.conn = c

variable {s : Interleaving.State} {e : Interleaving.Event}

theorem grantAddr (a : Allocation) (peer : Addr) (timeout : Time) : (a.grant peer timeout).relayedAddr = a.relayedAddr := by
  unfold Allocation.grant
  split <;> rfl

theorem loopsStep (turn : Turn) (s : Interleaving.State) (e : Interleaving.Event) :
    (Interleaving.next turn s e).loops = s.loops ∨ ∃ k p n, e = .install k ∧ s.call k = some p ∧ p.port = some n ∧
      (Interleaving.next turn s e).loops = ⟨p.tuple,n.conn,2048⟩ :: s.loops ∧
      (Interleaving.next turn s e).pending = s.done k := by
  cases e with
  | register k t timeout =>
    simp only [Interleaving.next]
    split <;> exact .inl rfl
  | answer k port => cases port <;> exact .inl rfl
  | install k =>
    cases call : s.call k with
    | none =>
      left
      simp only [Interleaving.next,call]
    | some p =>
      cases port : p.port with
      | none =>
        obtain ⟨_,_,_,_⟩ := p
        cases port
        left
        simp only [Interleaving.next,call]
      | some n =>
        rw [Interleaving.installSpec call port]
        cases found : (find turn s.allocs p.tuple).isSome with
        | false => exact .inl rfl
        | true => exact .inr ⟨k,p,n,rfl,call,port,rfl,rfl⟩
  | _ => exact .inl rfl

theorem loopsGrow (s : Interleaving.State) (e : Interleaving.Event) : s.loops ⊆ (Interleaving.next turn s e).loops := by
  rcases loopsStep turn s e with same | ⟨_,_,_,_,_,_,started,_⟩
  · rw [same]
    exact fun _ mem => mem
  · rw [started]
    exact fun _ mem => List.mem_cons_of_mem _ mem

theorem portsGrow (inv : Isolation.Apart turn listen s) (guard : Interleaving.enabled s e) :
    s.raddr.allocs ⊆ (Interleaving.next turn s e).raddr.allocs := by
  rcases Isolation.portsStep inv guard with same | ⟨k,n,_,grown⟩
  · rw [same]
    exact fun _ mem => mem
  · rw [grown]
    exact fun _ mem => List.mem_append_left _ mem

theorem tableStep (inv : Isolation.Apart turn listen s) (wired : Wired s) (guard : Interleaving.enabled s e) :
    ∀ a ∈ (Interleaving.next turn s e).allocs, ∀ c, a.conn = some c →
      ⟨a.tuple,c,2048⟩ ∈ (Interleaving.next turn s e).loops ∧
        ∃ n ∈ (Interleaving.next turn s e).raddr.allocs, n.addr = a.relayedAddr ∧ n.conn = c := by
  have ok := inv.held.table
  have after := changeOk (Interleaving.nextChange ok e) ok
  intro a mem c conn
  obtain ⟨o,before,step⟩ := Interleaving.stepTo ok (lookupOfMem after.distinct mem (turn.tuples.refl a.tuple))
  have old {b : Allocation} (found : o = some b) (tuple : a.tuple = b.tuple) (same : b.conn = some c)
      (addr : a.relayedAddr = b.relayedAddr) : ⟨a.tuple,c,2048⟩ ∈ (Interleaving.next turn s e).loops ∧
        ∃ n ∈ (Interleaving.next turn s e).raddr.allocs, n.addr = a.relayedAddr ∧ n.conn = c := by
    obtain ⟨loop,n,held,at',is⟩ := wired.table b (lookupSome (before.trans found)).1 c same
    rw [tuple,addr]
    exact ⟨loopsGrow s e loop,n,portsGrow inv guard held,at',is⟩
  cases step with
  | kept => exact old rfl rfl conn rfl
  | registered => cases conn
  | @installed k p n b call port same =>
    cases conn
    have made := @Interleaving.installSpec turn s k p n call port
    have found : (find turn s.allocs p.tuple).isSome = true := by
      rw [foundUnder same before]
      rfl
    rw [made,found]
    exact ⟨List.mem_cons_self,n,wired.pending p (Interleaving.callSome call).1 n port,rfl,rfl⟩
  | @pruned x b => exact @old b rfl rfl conn rfl
  | @refreshed _ _ b => exact @old b rfl rfl conn rfl
  | @granted _ peer timeout b =>
    exact @old b rfl (grantTuple peer b) ((grantConn peer b).symm.trans conn) (grantAddr b peer timeout)
  | @bound _ _ _ _ b _ _ _ to' =>
    obtain ⟨tuple,same,addr,_⟩ := bindToTuple to'
    exact @old b rfl tuple (same.symm.trans conn) addr

theorem portOrigin (guard : (Isolation.machine turn listen).enabled s e) {p : Pending}
    (mem : p ∈ (Interleaving.next turn s e).pending) {n : NetAllocation} (port : p.port = some n) :
    p ∈ s.pending ∨ (e = .answer p.call (.ok n) ∧ (Interleaving.next turn s e).loops = s.loops ∧
      n.conn ∉ s.raddr.allocs.map NetAllocation.conn ∧ n ∈ (Interleaving.next turn s e).raddr.allocs) := by
  rcases Interleaving.pendingOrigin mem with old | ⟨k,t,timeout,rfl,rfl⟩ | ⟨k,m,q,rfl,_,call,rfl⟩
  · exact .inl old
  · cases port
  · cases port
    subst call
    exact .inr ⟨rfl,rfl,guard.2.2.2.1,List.mem_append_right _ (List.mem_singleton_self _)⟩

theorem wiredStep (inv : Isolation.Apart turn listen s) (wired : Wired s)
    (guard : (Isolation.machine turn listen).enabled s e) : Wired (Interleaving.next turn s e) := by
  have grown := portsGrow inv guard.1
  have older {l : Loop} (mem : l ∈ s.loops) : l.conn ∈ (Interleaving.next turn s e).raddr.allocs.map NetAllocation.conn :=
    List.map_subset _ grown (wired.loops l mem)
  refine ⟨?_,?_,?_,?_,?_,tableStep inv wired guard.1⟩
  · intro p mem n port
    rcases portOrigin guard mem port with old | ⟨_,_,_,added⟩
    · exact grown (wired.pending p old n port)
    · exact added
  · intro p mem n port
    rcases portOrigin guard mem port with old | ⟨_,same,fresh,_⟩
    · rcases loopsStep turn s e with same | ⟨k,q,m,rfl,call,given,started,rest⟩
      · rw [same]
        exact wired.waiting p old n port
      · rw [started,List.map_cons,List.mem_cons]
        intro hit
        rcases hit with equal | before
        · rw [rest] at mem
          have ended := (Interleaving.callSome call)
          have one := wired.calls p old q ended.1 n m port given equal
          have other := (List.mem_filter.mp mem).2
          rw [one,ended.2] at other
          simp at other
        · exact wired.waiting p old n port before
    · rw [same]
      intro hit
      obtain ⟨l,mem,equal⟩ := List.mem_map.mp hit
      exact fresh (equal ▸ wired.loops l mem)
  · intro p mem q mem' n m port port' equal
    rcases portOrigin guard mem port with old | ⟨first,_,fresh,_⟩
    · rcases portOrigin guard mem' port' with old' | ⟨_,_,fresh,_⟩
      · exact wired.calls p old q old' n m port port' equal
      · exact absurd (equal ▸ List.mem_map_of_mem (wired.pending p old n port)) fresh
    · rcases portOrigin guard mem' port' with old' | ⟨second,_,_,_⟩
      · exact absurd (equal ▸ List.mem_map_of_mem (wired.pending q old' m port')) fresh
      · injection first.symm.trans second with call _
  · rcases loopsStep turn s e with same | ⟨k,q,m,rfl,call,given,started,_⟩
    · rw [same]
      exact fun l mem => older mem
    · rw [started]
      refine List.forall_mem_cons.mpr ⟨?_,fun l mem => older mem⟩
      exact List.mem_map_of_mem (grown (wired.pending q (Interleaving.callSome call).1 m given))
  · rcases loopsStep turn s e with same | ⟨k,q,m,rfl,call,given,started,_⟩
    · rw [same]
      exact wired.once
    · rw [started,List.map_cons,List.nodup_cons]
      exact ⟨wired.waiting q (Interleaving.callSome call).1 m given,wired.once⟩

theorem wiredRun {h} (run : Run (Isolation.machine turn listen) h s) : Wired s := by
  induction run with
  | start =>
    exact ⟨List.forall_mem_nil _,List.forall_mem_nil _,List.forall_mem_nil _,List.forall_mem_nil _,List.nodup_nil,
      List.forall_mem_nil _⟩
  | step before guard ih => exact wiredStep (Isolation.apart before) ih guard

/- Two sockets of the machine never share a port of an address, nor are they one object. -/
def Separate (x y : SystemPorts.Socket) : Prop := ¬ SystemPorts.Conflict x.addr y.addr ∧ x.conn ≠ y.conn

instance : Std.Symm Separate where
  symm x y apart := by
    refine ⟨fun conflict => apart.1 ?_,fun equal => apart.2 equal.symm⟩
    obtain ⟨port,ip | any | any⟩ := conflict
    · exact ⟨port.symm,.inl ((ips.comm _ _).trans ip)⟩
    · exact ⟨port.symm,.inr (.inr any)⟩
    · exact ⟨port.symm,.inr (.inl any)⟩

def Unshared (s : SystemPorts.State) : Prop := s.sockets.Pairwise Separate

section System
variable {c : SystemPorts.Kernel} {host : SystemPorts.State} (same : ∀ a b, turn.addrs.same a b = a.equal b)

theorem addedUnshared (ok : SystemPorts.Ok turn c host) (unshared : Unshared host) {l : List SystemPorts.Socket}
    (few : l.Pairwise Separate) (free : ∀ x ∈ l, host.Free x.addr) (new : ∀ x ∈ l, x.conn = host.conns) :
    (host.sockets ++ l).Pairwise Separate := by
  refine List.pairwise_append.mpr ⟨unshared,few,fun x old y added => ⟨free y added x old,?_⟩⟩
  rw [new y added]
  exact Nat.ne_of_lt (ok.conns x old)

theorem unsharedStep (ok : SystemPorts.Ok turn c host) (unshared : Unshared host) {e : SystemPorts.Event}
    (guard : SystemPorts.enabled c host e) : Unshared (SystemPorts.next turn c host e) := by
  cases e with
  | call e => exact unshared.filter _
  | listenUDP k port =>
    have single : ∀ x ∈ host.opened c port, x.conn = host.conns := by
      intro x opened
      obtain ⟨ip,_,made⟩ := Option.bind_eq_some_iff.mp opened
      obtain ⟨p,_,rfl⟩ := Option.map_eq_some_iff.mp made
      rfl
    refine addedUnshared ok unshared ?_ (fun x mem => guard.2.1 x (Option.mem_toList.mp mem))
      (fun x mem => single x (Option.mem_toList.mp mem))
    cases host.opened c port with
    | none => exact .nil
    | some x => exact List.pairwise_singleton _ _
  | bind a =>
    refine addedUnshared ok unshared (List.pairwise_singleton _ _) ?_ ?_ <;> intro x mem <;> rw [List.mem_singleton.mp mem]
    exact guard
  | release x => exact List.Pairwise.sublist List.erase_sublist unshared

include same

theorem unsharedRun {h} (run : Run (SystemPorts.machine turn c) h host) : Unshared host := by
  induction run with
  | start => exact List.pairwise_singleton _ _
  | step before guard ih => exact unsharedStep (SystemPorts.okRun same before) ih guard

omit same in
theorem unsharedOne (unshared : Unshared host) {x y : SystemPorts.Socket} (left : x ∈ host.sockets) (right : y ∈ host.sockets)
    (meet : SystemPorts.Conflict x.addr y.addr ∨ x.conn = y.conn) : x = y := by
  by_contra other
  have apart := List.Pairwise.forall unshared left right other
  rcases meet with conflict | equal
  · exact apart.1 conflict
  · exact apart.2 equal

/- No step takes a relay socket away, or a loop that reads one. -/
theorem relaysKept {h} (run : Run (SystemPorts.machine turn c) h host) {es : List SystemPorts.Event}
    (allowed : Allowed (SystemPorts.machine turn c) host es) :
    host.alloc.raddr.allocs ⊆ (trace (SystemPorts.machine turn c) h host es).2.alloc.raddr.allocs ∧
    host.alloc.loops ⊆ (trace (SystemPorts.machine turn c) h host es).2.alloc.loops := by
  induction es generalizing h host with
  | nil => exact ⟨fun _ mem => mem,fun _ mem => mem⟩
  | cons e es ih =>
    obtain ⟨guard,rest⟩ := allowed
    have ok := SystemPorts.okRun same run
    obtain ⟨ports,loops⟩ := ih (.step run guard) rest
    have step : host.alloc.raddr.allocs ⊆ (SystemPorts.next turn c host e).alloc.raddr.allocs ∧
        host.alloc.loops ⊆ (SystemPorts.next turn c host e).alloc.loops := by
      cases e with
      | call e => exact ⟨portsGrow ok.apart (@SystemPorts.callServed turn c host e guard).1,loopsGrow host.alloc e⟩
      | listenUDP k port => exact ⟨portsGrow ok.apart (SystemPorts.listenServed same ok guard).1,loopsGrow host.alloc _⟩
      | bind a => exact ⟨fun _ mem => mem,fun _ mem => mem⟩
      | release x => exact ⟨fun _ mem => mem,fun _ mem => mem⟩
    exact ⟨fun _ mem => ports (step.1 mem),fun _ mem => loops (step.2 mem)⟩

end System

/- The kernel hands a datagram for `a` to a socket with its port on its address, or on all of them. -/
def Receives (x : SystemPorts.Socket) (a : Addr) : Prop :=
  x.addr.port = a.port ∧ (IP.equal x.addr.ip a.ip = true ∨ IP.equal x.addr.ip SystemPorts.unspecified = true)

/- No goroutine has been started that panics and takes the process down. -/
def orphans (turn : Turn) (x : Step SystemPorts.State SystemPorts.Event) : Bool :=
  match x.event with
  | .call e => Interleaving.orphaned turn x.pre.alloc e
  | _ => false

def Alive (turn : Turn) (h : List (Step SystemPorts.State SystemPorts.Event)) : Prop := ∀ x ∈ h, orphans turn x = false

/- What was written on a socket arrives at a loop that reads the receiving one, and comes from
the address of the first, which the kernel chooses only if the socket is on all addresses. The
server has got there by the steps of `h`. -/
structure Carries (turn : Turn) (h : List (Step SystemPorts.State SystemPorts.Event)) (s : SystemPorts.State) (w : Write)
    (l : Loop) (source : Addr) : Prop where
  alive : Alive turn h
  loop : l ∈ s.alloc.loops
  receiver : ∃ x ∈ s.sockets, Receives x w.addr ∧ l.conn = x.conn
  sender : ∃ x ∈ s.sockets, x.conn = w.conn ∧ (IP.equal x.addr.ip SystemPorts.unspecified = false → source = x.addr)

theorem sentBy {ν : Type} {stun : Stun} (demux : Transparency.Demux stun) {r : Running ν}
    (dist : Distinct turn.tuples Allocation.tuple r.allocs.allocs) {client : Addr} {packet : Bytes} {w : Write}
    (sent : (process turn stun r.srv r.env r.nonces r.allocs (arrived turn r client packet)).2.sent = some w) :
    (∃ a, find turn r.allocs.allocs ⟨client,r.srv.addr,turn.protoUDP⟩ = some a ∧ a.conn = some w.conn) ∧
      w.data.length ≤ 2048 := by
  have cut : (packet.take 2048).length ≤ 2048 := List.length_take_le 2048 packet
  have room := Transparency.sentInside demux dist rfl sent
  have raw : (arrived turn r client packet).request.raw = packet.take 2048 := rfl
  rw [raw] at room
  refine ⟨?_,by omega⟩
  have effect := @processEffect ν turn stun r.srv r.env r.nonces r.allocs (arrived turn r client packet)
  rw [sent] at effect
  generalize (process turn stun r.srv r.env r.nonces r.allocs (arrived turn r client packet)).2.allocs = after at effect
  cases effect with
  | message framed pass effect =>
    obtain ⟨m,_,carried,_⟩ := passed pass
    cases effect with
    | sent type made =>
      obtain ⟨_,_,a,_,found,conn,_⟩ := sendSource dist made
      rw [carried.tuple] at found
      exact ⟨a,found,conn⟩
  | channelData decode made =>
    obtain ⟨_,a,found,conn,_⟩ := sendBoundSource dist made
    exact ⟨a,found,conn⟩

/- A datagram that fits the buffer is passed on, as one packet that says what it was. -/
theorem forwardedWhole {stun : Stun} (lib : Inbound.Inverse turn stun) {allocs : Table} (ok : TableOk turn allocs) {l : Loop}
    {data : Bytes} (short : data.length ≤ 2048) (buffer : l.bufLen = 2048) {p : Addr} (udp : RoundTrip.UDPAddr p) {id : Bytes}
    (size : id.length = 12) : ∃ forwarded, Inbound.relay turn stun allocs l data p (some id) = some (forwarded,l.tuple.client) ∧
      Inbound.Says turn stun allocs l.tuple data p forwarded := by
  have whole : Inbound.readFrom l data = data := by
    rw [Inbound.readFrom,buffer]
    exact List.take_of_length_le short
  have sized : ∀ i, some id = some i → i.length = 12 := by
    intro i equal
    cases equal
    exact size
  have small : data.length ≤ 65000 := by omega
  rw [Inbound.relay,whole]
  cases out : PeerData.handlePeerData turn stun allocs data l.tuple p (some id) with
  | none => cases ((Inbound.nothingForwarded lib small udp sized).mp out).1
  | some v =>
    obtain ⟨client,told⟩ := Inbound.handledFaithful lib ok small l.tuple udp sized v out
    exact ⟨v.1,by rw [← client],told⟩

section Delivery
variable {ν : Type} {stun : Stun} {c : SystemPorts.Kernel} {host : SystemPorts.State}
  (same : ∀ a b, turn.addrs.same a b = a.equal b)
include same

theorem relayWired {h} (run : Run (SystemPorts.machine turn c) h host) {a : Allocation} (held : a ∈ host.alloc.allocs)
    {d : Conn} (live : a.conn = some d) :
    ⟨a.tuple,d,2048⟩ ∈ host.alloc.loops ∧
    ∃ n ∈ host.alloc.raddr.allocs, n.addr = a.relayedAddr ∧ n.conn = d := by
  exact (wiredRun (SystemPorts.portsFresh same run).1).table a held d live

/- In every reachable state: what the server writes on the relay socket of one client, to the
relayed address of an allocation, arrives at one loop, that of the allocation's client, however
late it is read and whatever happens to both allocations meanwhile, as long as the process
lives and no read of the relay socket fails. The loop passes it on with the relayed address of
the first client, whether or not the second one has a permission for it. -/
theorem relaysJoined (lib : Inbound.Inverse turn stun) (demux : Transparency.Demux stun) {h}
    (run : Run (SystemPorts.machine turn c) h host) (ranged : ∀ p ∈ c.ports, 0 ≤ p ∧ p < 65536)
    (specific : IP.equal c.listen.ip SystemPorts.unspecified = false)
    {r : Running ν} (listening : r.srv.addr = c.listen) (table : r.allocs = host.alloc.toAllocator)
    {client : Addr} {packet : Bytes} {w : Write}
    (sent : (process turn stun r.srv r.env r.nonces r.allocs (arrived turn r client packet)).2.sent = some w)
    {b : Allocation} (held : b ∈ host.alloc.allocs) {d : Conn} (live : b.conn = some d)
    (meant : w.addr.equal b.relayedAddr = true)
    {es : List SystemPorts.Event} (allowed : Allowed (SystemPorts.machine turn c) host es)
    (alive : Alive turn (trace (SystemPorts.machine turn c) h host es).1) {id : Bytes} (size : id.length = 12) :
    ∃ a after later, find turn host.alloc.allocs ⟨client,c.listen,turn.protoUDP⟩ = some a ∧ a.conn = some w.conn ∧
      trace (SystemPorts.machine turn c) h host es = (after,later) ∧ (∃ l source, Carries turn after later w l source) ∧
      ∀ l source, Carries turn after later w l source → l = ⟨b.tuple,d,2048⟩ ∧ source = a.relayedAddr ∧
        ∃ forwarded, Inbound.relay turn stun later.alloc.allocs l w.data source (some id) = some (forwarded,b.tuple.client) ∧
          Inbound.Says turn stun later.alloc.allocs b.tuple w.data a.relayedAddr forwarded := by
  have ok := SystemPorts.okRun same run
  obtain ⟨⟨a,found,conn⟩,short⟩ := sentBy demux (by rw [table]; exact ok.apart.held.table.distinct) sent
  rw [table,listening] at found
  have reach := traceRun run allowed
  obtain ⟨ports,loops⟩ := relaysKept same run allowed
  obtain ⟨_,n,own,addr,one⟩ := relayWired same run (lookupSome found).1 conn
  obtain ⟨loop,m,other,meant',two⟩ := relayWired same run held live
  generalize ended : trace (SystemPorts.machine turn c) h host es = out at alive reach ports loops
  obtain ⟨after,later⟩ := out
  have ok' := SystemPorts.okRun same reach
  have unshared := unsharedRun same reach
  have wired := wiredRun (SystemPorts.portsFresh same reach).1
  have sender := ok'.held n (ports own)
  have receiver := ok'.held m (ports other)
  have fixed : IP.equal n.addr.ip SystemPorts.unspecified = false := by
    have listens := SystemPorts.resolvedSame (ok'.relayed n (ports own)).1
    rw [Bool.eq_false_iff]
    intro any
    have all : IP.equal c.listen.ip SystemPorts.unspecified = true := Net.ips.trans listens any
    cases all.symm.trans specific
  have udp : RoundTrip.UDPAddr a.relayedAddr := by
    obtain ⟨resolved,port⟩ := ok'.relayed n (ports own)
    rw [← addr]
    exact ⟨.inl (SystemPorts.resolvedLength resolved),ranged _ port⟩
  obtain ⟨port,ip⟩ := (addrEqual _ _).mp meant
  rw [← meant'] at port ip
  refine ⟨a,after,later,found,conn,rfl,⟨⟨b.tuple,d,2048⟩,a.relayedAddr,alive,loops loop,?_,?_⟩,?_⟩
  · exact ⟨_,receiver,⟨port.symm,.inl ((ips.comm _ _).trans ip)⟩,two.symm⟩
  · exact ⟨_,sender,one,fun _ => addr.symm⟩
  · intro l source carries
    obtain ⟨_,mem,⟨x,there,⟨at',on⟩,reads⟩,y,here,writes,from'⟩ := carries
    have met : SystemPorts.Conflict x.addr m.addr := by
      refine ⟨at'.trans port,?_⟩
      rcases on with ip' | any
      · exact .inl (ips.trans ip' ip)
      · exact .inr (.inl any)
    have socket := unsharedOne unshared there receiver (.inl met)
    have socket' := unsharedOne unshared here sender (.inr (writes.trans one.symm))
    subst socket socket'
    have only : l = ⟨b.tuple,d,2048⟩ :=
      List.inj_on_of_nodup_map wired.once mem (loops loop) (reads.trans two)
    have address : source = a.relayedAddr := (from' fixed).trans addr
    subst only address
    exact ⟨rfl,rfl,forwardedWhole lib ok'.apart.held.table short rfl udp size⟩

end Delivery

/- The first client has bound a channel to the relayed address of the second one, which has
deleted its allocation when the datagram is read. -/
def joinedKernel : SystemPorts.Kernel := ⟨sampleServer,[40000,40001]⟩

def joinedEvents : List SystemPorts.Event :=
  [.call (.register 1 sampleTuple 60),.listenUDP 1 (some 40000),.call (.install 1),.call (.register 2 otherTuple 60),
   .listenUDP 2 (some 40001),.call (.install 2),.call (.channelBind sampleTuple 0x4001 ⟨[10,0,0,1],40001⟩ 60)]

def joinedEnd : List (Step SystemPorts.State SystemPorts.Event) × SystemPorts.State :=
  trace (SystemPorts.machine .documented joinedKernel) [] (SystemPorts.machine .documented joinedKernel).start joinedEvents

theorem joinedRun : Run (SystemPorts.machine .documented joinedKernel) joinedEnd.1 joinedEnd.2 := by
  have free (a : Addr) (x : SystemPorts.Socket) (other : x.addr.port ≠ a.port) : ¬ SystemPorts.Conflict x.addr a :=
    fun conflict => other conflict.1
  refine traceStart joinedEvents ⟨⟨rfl,rfl⟩,⟨⟨_,rfl,rfl⟩,?_,by decide⟩,⟨_,_,rfl,rfl⟩,⟨rfl,rfl⟩,⟨⟨_,rfl,rfl⟩,?_,by decide⟩,
    ⟨_,_,rfl,rfl⟩,trivial,trivial⟩
  · intro x opened
    cases Option.some.inj opened
    exact List.forall_mem_cons.mpr ⟨free _ _ (by decide),List.forall_mem_nil _⟩
  · intro x opened
    cases Option.some.inj opened
    exact List.forall_mem_cons.mpr ⟨free _ _ (by decide),List.forall_mem_cons.mpr ⟨free _ _ (by decide),List.forall_mem_nil _⟩⟩

def joinedServer : Running NonceAuth :=
  ⟨PeerFilter.openServer,newConfig PeerFilter.sampleOptions,newNonceAuth 0,joinedEnd.2.alloc.toAllocator,⟨[],.error .listen⟩,3⟩

def joinedWrite : Write := ⟨1,[7,7,7],⟨[10,0,0,1],40001⟩⟩

theorem relaysJoinedSample : ∃ after later, trace (SystemPorts.machine .documented joinedKernel) joinedEnd.1 joinedEnd.2
      [.call (.remove otherTuple)] = (after,later) ∧ later.alloc.allocs.length = 1 ∧
    ∃ l source, Carries .documented after later joinedWrite l source ∧ l.tuple = otherTuple ∧
      source = ⟨[10,0,0,1],40000⟩ := by
  have sent : (process .documented Codec.wire joinedServer.srv joinedServer.env joinedServer.nonces joinedServer.allocs
      (arrived .documented joinedServer sampleTuple.client (Transparency.channelPacket 0x4001 [7,7,7] []))).2.sent =
        some joinedWrite := by decide +kernel
  have held : ⟨otherTuple,[],⟨[10,0,0,1],40001⟩,some 2,60,2048⟩ ∈ joinedEnd.2.alloc.allocs := by decide +kernel
  have alive : Alive .documented (trace (SystemPorts.machine .documented joinedKernel) joinedEnd.1 joinedEnd.2
      [.call (.remove otherTuple)]).1 := by
    unfold Alive
    decide +kernel
  obtain ⟨a,after,later,found,_,reached,⟨l,source,carries⟩,only⟩ :=
    @relaysJoined .documented _ Codec.wire joinedKernel joinedEnd.2
    (fun _ _ => rfl) (Inbound.codecInverse Codec.noHashes) (Transparency.codecDemux Codec.noHashes) _ joinedRun (by decide)
    (by decide) joinedServer rfl rfl _ _ _ sent _ held 2 rfl (by decide) [.call (.remove otherTuple)]
    ⟨trivial,trivial⟩ alive (List.replicate 12 7) rfl
  obtain ⟨same,address,_⟩ := only l source carries
  have first : find .documented joinedEnd.2.alloc.allocs sampleTuple = some
      ⟨sampleTuple,[⟨[10,0,0,1],60,[⟨40001,0x4001,60⟩]⟩],⟨[10,0,0,1],40000⟩,some 1,60,2048⟩ := by decide +kernel
  cases Option.some.inj (first.symm.trans found)
  have ended : (trace (SystemPorts.machine .documented joinedKernel) joinedEnd.1 joinedEnd.2
      [.call (.remove otherTuple)]).2 = later := congrArg Prod.snd reached
  refine ⟨after,later,reached,?_,l,source,carries,by rw [same],address⟩
  rw [← ended]
  decide +kernel

end Gortcd.Joined
