import Gortcd.Isolation
import Gortcd.Lib.Simulation
import Mathlib.Data.List.Nodup
import Mathlib.Data.List.Perm.Subperm

/-! internal/allocator/port_sys.go under the allocator, over the sockets of the machine. The
kernel gives `ListenUDP` with port 0 a port of its range on which no socket of the address is
open, or an error; other programs open and close sockets of their own. The port allocator then
meets what the results on sockets ask of it, and since a relay socket is never released, the
range is used up for ever. -/
namespace Gortcd.SystemPorts
open Net Ports Sections Records Calls Runs Interleaving

structure Socket where
  addr : Addr
  conn : Conn
  deriving DecidableEq, Repr

/- `ResolveUDPAddr` of the default address, `IP.String() + ":0"`: brackets are missing around an IPv6 address, and
the text of any other IP is no host. -/
def resolveUDPAddr (ip : IP) : Option IP := IP.to4 ip

/- `SystemPortAllocator.AllocatePort`; the second argument is what `ListenUDP` returns. -/
def allocatePort (ip : IP) (listenUDP : IP → Option Socket) (proto : Protocol) : Except PortErr NetAllocation :=
  match resolveUDPAddr ip with
  | none => .error .resolve
  | some addr => match listenUDP addr with
    | none => .error .listen
    | some socket => .ok ⟨socket.addr,proto,socket.conn⟩

structure State where
  alloc : Interleaving.State
  sockets : List Socket
  conns : Nat

/- The address of the server's own socket, and `ip_local_port_range`. -/
structure Kernel where
  listen : Addr
  ports : List Port

inductive Event where
  | call (e : Interleaving.Event)
  | listenUDP (call : Nat) (port : Option Port)
  | bind (addr : Addr)
  | release (x : Socket)

def unspecified : IP := [0,0,0,0]

/- Two sockets cannot have one port on one address; the unspecified one is all of them. -/
def Conflict (a b : Addr) : Prop :=
  a.port = b.port ∧ (IP.equal a.ip b.ip = true ∨ IP.equal a.ip unspecified = true ∨ IP.equal b.ip unspecified = true)

def State.Free (s : State) (a : Addr) : Prop := ∀ x ∈ s.sockets, ¬ Conflict x.addr a

variable {turn : Turn} {c : Kernel}

/- The answer to the call of `New` that asked, and the socket that comes with it. -/
def State.opened (c : Kernel) (s : State) (port : Option Port) : Option Socket :=
  (resolveUDPAddr c.listen.ip).bind (fun ip => port.map (fun p => ⟨⟨ip,p⟩,s.conns⟩))

def State.answer (c : Kernel) (s : State) (k : Nat) (port : Option Port) : Except PortErr NetAllocation :=
  allocatePort c.listen.ip (fun ip => port.map (fun p => ⟨⟨ip,p⟩,s.conns⟩))
    (((s.alloc.call k).map (fun p => p.tuple.proto)).getD 0)

def enabled (c : Kernel) (s : State) : Event → Prop
  | .call (.answer _ _) => False
  | .call (.register k t _) => s.alloc.call k = none ∧ t.server = c.listen
  | .call e => Interleaving.enabled s.alloc e
  | .listenUDP k port => (∃ p, s.alloc.call k = some p ∧ p.port = none) ∧
      (∀ x ∈ s.opened c port, s.Free x.addr) ∧ ∀ p ∈ port, p ∈ c.ports
  | .bind a => s.Free a
  | .release x => x.conn ≠ 0 ∧ x.conn ∉ s.alloc.raddr.allocs.map NetAllocation.conn

/- A `Close` of the port table closes the socket. -/
def next (turn : Turn) (c : Kernel) (s : State) : Event → State
  | .call e =>
      let alloc := Interleaving.next turn s.alloc e
      { s with alloc := alloc, sockets := s.sockets.filter (fun x => alloc.raddr.isOpen x.conn) }
  | .listenUDP k port =>
      { alloc := Interleaving.next turn s.alloc (.answer k (s.answer c k port))
        sockets := s.sockets ++ (s.opened c port).toList
        conns := s.conns + 1 }
  | .bind a => { s with sockets := s.sockets ++ [⟨a,s.conns⟩], conns := s.conns + 1 }
  | .release x => { s with sockets := s.sockets.erase x }

def machine (turn : Turn) (c : Kernel) : Machine State Event :=
  ⟨⟨.empty,[⟨c.listen,0⟩],1⟩,enabled c,next turn c⟩

structure Ok (turn : Turn) (c : Kernel) (s : State) : Prop where
  apart : Isolation.Apart turn c.listen s.alloc
  held : ∀ n ∈ s.alloc.raddr.allocs, ⟨n.addr,n.conn⟩ ∈ s.sockets
  listening : ⟨c.listen,0⟩ ∈ s.sockets
  conns : ∀ x ∈ s.sockets, x.conn < s.conns
  relayed : ∀ n ∈ s.alloc.raddr.allocs, resolveUDPAddr c.listen.ip = some n.addr.ip ∧ n.addr.port ∈ c.ports
  distinct : (s.alloc.raddr.allocs.map (fun n => n.addr.port)).Nodup

variable {s : State} {e : Event}

def sectionOf (c : Kernel) (s : State) : Event → Option Interleaving.Event
  | .call e => some e
  | .listenUDP k port => some (.answer k (s.answer c k port))
  | _ => none

theorem answerOpened {k : Nat} {port : Option Port} {n : NetAllocation} (answered : s.answer c k port = .ok n) :
    s.opened c port = some ⟨n.addr,n.conn⟩ ∧ n.conn = s.conns ∧ resolveUDPAddr c.listen.ip = some n.addr.ip ∧
      port = some n.addr.port := by
  simp only [State.answer,allocatePort] at answered
  cases ip : resolveUDPAddr c.listen.ip with
  | none => simp [ip] at answered
  | some addr =>
    cases port with
    | none => simp [ip] at answered
    | some p =>
      simp only [ip,Option.map_some,Except.ok.injEq] at answered
      subst answered
      simp [State.opened,ip]

theorem resolvedLength {ip v4 : IP} (resolved : resolveUDPAddr ip = some v4) : v4.length = 4 := by
  unfold resolveUDPAddr IP.to4 at resolved
  split at resolved
  · rename_i four
    cases resolved
    exact four
  · split at resolved
    · rename_i long
      cases resolved
      rw [List.length_drop,long.1]
    · cases resolved

theorem resolvedSame {ip v4 : IP} (resolved : resolveUDPAddr ip = some v4) : IP.equal ip v4 = true := by
  rw [equalCanon]
  have own : IP.to4 v4 = some v4 := by simp [IP.to4,resolvedLength resolved]
  have left : IP.to4 ip = some v4 := resolved
  simp [IP.canon,own,left]

theorem callServed {e : Interleaving.Event} (guard : enabled c s (.call e)) :
    (Isolation.machine turn c.listen).enabled s.alloc e := by
  cases e with
  | register k t timeout => exact guard
  | answer k port => exact guard.elim
  | _ => exact ⟨guard,trivial⟩

theorem callPorts (ok : Ok turn c s) {e : Interleaving.Event} (guard : enabled c s (.call e)) :
    (Interleaving.next turn s.alloc e).raddr = s.alloc.raddr := by
  rcases Isolation.portsStep ok.apart (@callServed turn c s e guard).1 with kept | ⟨k,n,rfl,_⟩
  · exact kept
  · exact guard.elim

theorem okCall (ok : Ok turn c s) {e : Interleaving.Event} (guard : enabled c s (.call e)) :
    Ok turn c (next turn c s (.call e)) := by
  have apart := Isolation.apartStep ok.apart (callServed guard)
  have ports := callPorts ok guard
  have sockets : s.sockets.filter (fun x => (Interleaving.next turn s.alloc e).raddr.isOpen x.conn) = s.sockets := by
    refine List.filter_eq_self.mpr (fun x _ => ?_)
    rw [ports,NetAllocator.isOpen,ok.apart.held.closed]
    rfl
  simp only [next,sockets]
  refine ⟨apart,?_,ok.listening,ok.conns,?_,?_⟩
  · rw [ports]
    exact ok.held
  · rw [ports]
    exact ok.relayed
  · rw [ports]
    exact ok.distinct

def granted (c : Kernel) (x : Step State Event) : Bool := match x.event with
  | .listenUDP k port => (x.pre.answer c k port).isOk
  | _ => false

theorem grantedStep (ok : Ok turn c s) (guard : enabled c s e) :
    (next turn c s e).alloc.raddr.allocs.length = s.alloc.raddr.allocs.length + (granted c ⟨s,e⟩).toNat := by
  cases e with
  | call e =>
    simp only [next,callPorts ok guard]
    rfl
  | listenUDP k port =>
    cases answered : s.answer c k port with
    | error err =>
      simp only [next,granted,answered]
      rfl
    | ok n =>
      simp only [next,granted,answered,Interleaving.next,NetAllocator.new,List.length_append,List.length_singleton]
      rfl
  | bind a => rfl
  | release x => rfl

section Documented
variable (same : ∀ a b, turn.addrs.same a b = a.equal b)
include same

theorem answerFresh (ok : Ok turn c s) {k : Nat} {port : Option Port} (guard : enabled c s (.listenUDP k port))
    {n : NetAllocation} (answered : s.answer c k port = .ok n) : Sockets.Fresh turn c.listen s.alloc.toAllocator n := by
  obtain ⟨opened,conn,resolved,_⟩ := answerOpened answered
  obtain ⟨_,free,_⟩ := guard
  have unused := free _ opened
  have other {x : Socket} (there : x ∈ s.sockets) : turn.addrs.same x.addr n.addr = false := by
    refine Bool.eq_false_iff.mpr (fun hit => unused x there ?_)
    rw [same,addrEqual] at hit
    exact ⟨hit.1,.inl hit.2⟩
  refine ⟨fun m mem => other (ok.held m mem),other ok.listening,?_,?_⟩
  · intro mem
    obtain ⟨m,there,equal⟩ := List.mem_map.mp mem
    have less := ok.conns _ (ok.held m there)
    simp only [equal,conn] at less
    exact absurd less (Nat.lt_irrefl _)
  · rw [ok.apart.held.closed]
    exact List.not_mem_nil

theorem listenServed (ok : Ok turn c s) {k : Nat} {port : Option Port} (guard : enabled c s (.listenUDP k port)) :
    (Isolation.machine turn c.listen).enabled s.alloc (.answer k (s.answer c k port)) := by
  cases answered : s.answer c k port with
  | error err => exact ⟨guard.1,trivial⟩
  | ok n =>
    have fresh := answerFresh same ok guard answered
    exact ⟨⟨guard.1,fresh.2.2⟩,fresh⟩

theorem okListen (ok : Ok turn c s) {k : Nat} {port : Option Port} (guard : enabled c s (.listenUDP k port)) :
    Ok turn c (next turn c s (.listenUDP k port)) := by
  have apart := Isolation.apartStep ok.apart (listenServed same ok guard)
  have older {x : Socket} (mem : x ∈ s.sockets) : x ∈ s.sockets ++ (s.opened c port).toList := List.mem_append_left _ mem
  have conns : ∀ x ∈ s.sockets ++ (s.opened c port).toList, x.conn < s.conns + 1 := by
    intro x mem
    rcases List.mem_append.mp mem with old | new
    · exact Nat.lt_succ_of_lt (ok.conns x old)
    · obtain ⟨ip,_,at'⟩ := Option.bind_eq_some_iff.mp (Option.mem_toList.mp new)
      obtain ⟨p,_,rfl⟩ := Option.map_eq_some_iff.mp at'
      exact Nat.lt_succ_self _
  cases answered : s.answer c k port with
  | error err =>
    simp only [next,answered] at apart ⊢
    exact ⟨apart,fun n mem => older (ok.held n mem),older ok.listening,conns,ok.relayed,ok.distinct⟩
  | ok n =>
    obtain ⟨opened,_,resolved,chosen⟩ := answerOpened answered
    have fresh := answerFresh same ok guard answered
    have grown : ∀ m ∈ s.alloc.raddr.allocs ++ [n], m ∈ s.alloc.raddr.allocs ∨ m = n := fun m mem =>
      (List.mem_append.mp mem).imp_right List.mem_singleton.mp
    simp only [next,answered] at apart ⊢
    refine ⟨apart,?_,older ok.listening,conns,?_,?_⟩
    · intro m mem
      rcases grown m mem with old | rfl
      · exact older (ok.held m old)
      · rw [opened]
        exact List.mem_append_right _ List.mem_cons_self
    · intro m mem
      rcases grown m mem with old | rfl
      · exact ok.relayed m old
      · exact ⟨resolved,guard.2.2 _ chosen⟩
    · change ((s.alloc.raddr.allocs ++ [n]).map (fun m => m.addr.port)).Nodup
      rw [List.map_append,List.nodup_append]
      refine ⟨ok.distinct,List.nodup_singleton _,?_⟩
      intro p there q here equal
      obtain ⟨m,mem,rfl⟩ := List.mem_map.mp there
      rw [List.map_singleton,List.mem_singleton] at here
      have apart' := fresh.1 m mem
      rw [same] at apart'
      have ips : IP.equal m.addr.ip n.addr.ip = true := by
        rw [Option.some.inj ((ok.relayed m mem).1.symm.trans resolved)]
        exact Net.ips.refl _
      rw [(addrEqual _ _).mpr ⟨equal.trans here,ips⟩] at apart'
      cases apart'

theorem okStep (ok : Ok turn c s) (guard : enabled c s e) : Ok turn c (next turn c s e) := by
  cases e with
  | call e => exact okCall ok guard
  | listenUDP k port => exact okListen same ok guard
  | bind a =>
    refine ⟨ok.apart,fun n mem => List.mem_append_left _ (ok.held n mem),List.mem_append_left _ ok.listening,?_,ok.relayed,
      ok.distinct⟩
    intro x mem
    rcases List.mem_append.mp mem with old | new
    · exact Nat.lt_succ_of_lt (ok.conns x old)
    · rw [List.mem_singleton.mp new]
      exact Nat.lt_succ_self _
  | release x =>
    obtain ⟨own,foreign⟩ := guard
    refine ⟨ok.apart,?_,?_,fun y mem => ok.conns y (List.mem_of_mem_erase mem),ok.relayed,ok.distinct⟩
    · intro n mem
      refine (List.mem_erase_of_ne (fun equal => foreign ?_)).mpr (ok.held n mem)
      rw [← equal]
      exact List.mem_map_of_mem mem
    · refine (List.mem_erase_of_ne (fun equal => own ?_)).mpr ok.listening
      rw [← equal]

theorem okRun {h} (run : Run (machine turn c) h s) : Ok turn c s := by
  refine invariant (Q := Ok turn c) ?_ (fun _ _ ok guard => okStep same ok guard) run
  refine ⟨⟨Sockets.unreleasedEmpty,?_,?_⟩,?_,List.mem_singleton_self _,?_,?_,List.nodup_nil⟩
  · exact List.forall_mem_nil _
  · exact List.forall_mem_nil _
  · exact List.forall_mem_nil _
  · intro x mem
    rw [List.mem_singleton.mp mem]
    exact Nat.one_pos
  · exact List.forall_mem_nil _

theorem portsSimulate : Simulation.Simulates (machine turn c) (Isolation.machine turn c.listen) (Ok turn c) State.alloc
    (sectionOf c) where
  start := rfl
  step s e d ok guard acts := by
    cases e with
    | call e =>
      cases acts
      exact ⟨callServed guard,rfl⟩
    | listenUDP k port =>
      cases acts
      exact ⟨listenServed same ok guard,rfl⟩
    | bind a => cases acts
    | release x => cases acts
  still s e _ _ none := by
    cases e with
    | call e => cases none
    | listenUDP k port => cases none
    | bind a => rfl
    | release x => rfl

/- The system's port allocator meets the assumptions made of it: the run is one in which every
port is fresh, and the relayed addresses have different ports, none of them the server's. -/
theorem portsFresh {h} (run : Run (machine turn c) h s) :
    Run (Isolation.machine turn c.listen) (Simulation.image State.alloc (sectionOf c) h) s.alloc ∧
    (s.alloc.raddr.allocs.map (fun n => n.addr.port)).Nodup ∧
    ∀ n ∈ s.alloc.raddr.allocs, IP.equal c.listen.ip n.addr.ip = true ∧ n.addr.port ∈ c.ports ∧ n.addr.port ≠ c.listen.port := by
  have ok := okRun same run
  refine ⟨Simulation.simulated (portsSimulate same) (okRun same) run,ok.distinct,fun n mem => ?_⟩
  obtain ⟨resolved,ranged⟩ := ok.relayed n mem
  have ips := resolvedSame resolved
  refine ⟨ips,ranged,fun equal => ?_⟩
  have other := ok.apart.held.addrs n mem
  rw [same,(addrEqual _ _).mpr ⟨equal.symm,ips⟩] at other
  cases other

/- However many allocations are removed or expire: no port ever comes back, the calls of `New`
that get one are as many as there are relay sockets, and never more than the kernel has ports.
A server whose address is not IPv4 gets none at all. -/
theorem portsExhaust {h} (run : Run (machine turn c) h s) :
    s.alloc.raddr.closed = [] ∧
    h.countP (granted c) = s.alloc.raddr.allocs.length ∧
    h.countP (granted c) ≤ c.ports.length ∧
    (IP.to4 c.listen.ip = none → h.countP (granted c) = 0) := by
  have ok := okRun same run
  have counted : h.countP (granted c) = s.alloc.raddr.allocs.length := by
    clear ok
    induction run with
    | start => rfl
    | @step h s e before guard ih =>
      change _ = (next turn c s e).alloc.raddr.allocs.length
      rw [grantedStep (okRun same before) guard,List.countP_cons,ih]
      cases granted c ⟨s,e⟩ <;> rfl
  refine ⟨ok.apart.held.closed,counted,?_,?_⟩
  · have ranged : s.alloc.raddr.allocs.map (fun n => n.addr.port) ⊆ c.ports := by
      intro p mem
      obtain ⟨n,there,rfl⟩ := List.mem_map.mp mem
      exact (ok.relayed n there).2
    have few := (ok.distinct.subperm ranged).length_le
    rw [List.length_map] at few
    rw [counted]
    exact few
  · intro none
    rw [counted,List.length_eq_zero_iff,List.eq_nil_iff_forall_not_mem]
    intro n mem
    cases none.symm.trans (ok.relayed n mem).1

end Documented

/- One port: the second client gets none, also after the first allocation was removed. -/
def sampleKernel : Kernel := ⟨sampleServer,[40000]⟩

def sampleEvents : List Event :=
  [.call (.register 1 sampleTuple 60),.listenUDP 1 (some 40000),.call (.install 1),.bind ⟨[10,0,0,1],53⟩,
   .call (.remove sampleTuple),.call (.dealloc sampleServer 17),.call (.register 2 otherTuple 90),.listenUDP 2 none]

def sampleEnd : List (Step State Event) × State :=
  trace (machine .documented sampleKernel) [] (machine .documented sampleKernel).start sampleEvents

theorem sampleRun : Run (machine .documented sampleKernel) sampleEnd.1 sampleEnd.2 := by
  have free (a : Addr) (x : Socket) (other : x.addr.port ≠ a.port) : ¬ Conflict x.addr a := fun conflict => other conflict.1
  refine traceStart sampleEvents ⟨⟨rfl,rfl⟩,⟨⟨_,rfl,rfl⟩,?_,by decide⟩,⟨_,_,rfl,rfl⟩,?_,trivial,List.mem_cons_self,⟨rfl,rfl⟩,
    ⟨⟨_,rfl,rfl⟩,nofun,nofun⟩,trivial⟩
  · intro x opened y mem
    cases Option.some.inj opened
    rw [List.mem_singleton.mp mem]
    exact free _ _ (by decide)
  · refine List.forall_mem_cons.mpr ⟨free _ _ (by decide),List.forall_mem_cons.mpr ⟨free _ _ (by decide),List.forall_mem_nil _⟩⟩

theorem portsFreshSample : ∃ h, Run (Isolation.machine .documented sampleServer) h sampleEnd.2.alloc := by
  exact ⟨_,(portsFresh (fun _ _ => rfl) sampleRun).1⟩

theorem portsExhaustSample : sampleEnd.2.alloc.raddr.closed = [] ∧ sampleEnd.1.countP (granted sampleKernel) = 1 ∧
    (find .documented sampleEnd.2.alloc.allocs sampleTuple).isNone = true := by
  obtain ⟨closed,counted,_⟩ := portsExhaust (fun _ _ => rfl) sampleRun
  exact ⟨closed,counted.trans (by decide +kernel),by decide +kernel⟩

end Gortcd.SystemPorts
