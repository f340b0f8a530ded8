import Mathlib.Data.List.TakeWhile
import Gortcd.Lib.Runs
import Gortcd.Ports

/-! internal/allocator/port_sys_pool.go: `SystemPortPooledAllocator`, which opens a socket
for every port of a range beforehand. What `ListenUDP` and the random sources answer is an
input. `locked` is the mutex after a call: two exits leave it held, the return of `init`
on a failed `ListenUDP` and a panic in `randomFree`. -/
namespace Gortcd.PortPool
open Keyed Net Runs

structure PooledPort where
  port : Port
  addr : Addr
  conn : Option Conn
  allocated : Bool
  deriving DecidableEq, Repr

structure SystemPortPooledAllocator where
  ip : IP
  minPort : Port
  maxPort : Port
  ports : List PooledPort
  free : List Nat
  locked : Bool
  deriving DecidableEq, Repr

structure WrappedConn where
  packetConn : Conn
  port : Port
  deriving DecidableEq, Repr

structure PortAllocation where
  addr : Addr
  proto : Protocol
  conn : WrappedConn
  deriving DecidableEq, Repr

def SystemPortPooledAllocator.fresh (ip : IP) (minPort maxPort : Port) : SystemPortPooledAllocator :=
  ⟨ip,minPort,maxPort,[],[],false⟩

/- `Close`: the pool without its ports, and the connections it closes. -/
def SystemPortPooledAllocator.close (a : SystemPortPooledAllocator) : SystemPortPooledAllocator × List Conn :=
  ({ a with ports := [] },a.ports.filterMap PooledPort.conn)

/- `crypto/rand.Int`, which fails when its reader does, and `math/rand.Intn`. -/
structure Random where
  int : (max : Nat) → Option (Fin max)
  intn : (n : Nat) → 0 < n → Fin n

def Random.draw (r : Random) (n : Nat) (some' : 0 < n) : Fin n :=
  match r.int n with
  | some i => i
  | none => r.intn n some'

/- `none` is a panic: of `rand.Int` on an empty range, or of the index. The number drawn for
the free list is used as an index of the ports. -/
def SystemPortPooledAllocator.randomFree (a : SystemPortPooledAllocator) (r : Random) : Option PooledPort :=
  if some' : 0 < a.free.length then a.ports[(r.draw a.free.length some').val]?
  else none

inductive Allocated where
  | ok (n : PortAllocation)
  | outOfCapacity
  | panicked
  | blocked
  deriving DecidableEq, Repr

def freeFrom : Nat → List PooledPort → List Nat
  | _,[] => []
  | i,p :: rest => if p.allocated then freeFrom (i + 1) rest else i :: freeFrom (i + 1) rest

/- The port of the wrapped connection is not set, and no port is marked. -/
def SystemPortPooledAllocator.allocate (turn : Turn) (a : SystemPortPooledAllocator) (r : Random) :
    SystemPortPooledAllocator × Allocated :=
  if a.locked then (a,.blocked)
  else
    let a := { a with free := freeFrom 0 a.ports }
    match a.randomFree r with
    | none => ({ a with locked := true },.panicked)
    | some p => match p.conn with
      | none => (a,.outOfCapacity)
      | some conn => (a,.ok ⟨⟨a.ip,p.port⟩,turn.protoUDP,⟨conn,0⟩⟩)

/- `listen` is the answer of `ListenUDP` for the address of the port; the second component
is what was closed. -/
def SystemPortPooledAllocator.dealloc (a : SystemPortPooledAllocator) (port : Port) (listen : Option Conn) :
    SystemPortPooledAllocator × List Conn :=
  match a.ports.find? (fun p => p.port == port) with
  | none => (a,[])
  | some p => match listen with
    | none => (a,p.conn.toList)
    | some newConn =>
      let ports := updateFirst (fun p => p.port == port)
        (fun p => { p with allocated := false, conn := some newConn }) a.ports
      ({ a with ports := ports },p.conn.toList)

inductive InitErr where
  | range
  | listen
  | empty
  deriving DecidableEq, Repr

def portRange (minPort maxPort : Port) : List Port :=
  (List.range (maxPort + 1 - minPort).toNat).map (fun k : Nat => minPort + (k : Int))

theorem portBounds {lo hi port : Int} {k : Nat} (small : k < (hi + 1 - lo).toNat) (eq : lo + (k : Int) = port) :
    lo ≤ port ∧ port ≤ hi := by omega

theorem portOffset {lo hi port : Int} (low : lo ≤ port) (high : port ≤ hi) :
    (port - lo).toNat < (hi + 1 - lo).toNat := by omega

theorem portBack {lo port : Int} (low : lo ≤ port) : lo + ((port - lo).toNat : Int) = port := by omega

/- The loop, up to the first `ListenUDP` that fails; the sockets it opens are collected. -/
def listenAll (listen : Port → Option Conn) (a : SystemPortPooledAllocator) (opened : List Conn) :
    List Port → SystemPortPooledAllocator × List Conn × Bool
  | [] => (a,opened,true)
  | port :: rest => match listen port with
    | none => (a,opened,false)
    | some conn =>
      listenAll listen { a with ports := a.ports ++ [⟨port,⟨a.ip,port⟩,some conn,false⟩] } (opened ++ [conn]) rest

structure InitResult where
  pool : SystemPortPooledAllocator
  opened : List Conn
  err : Option InitErr
  deriving DecidableEq, Repr

def SystemPortPooledAllocator.init (a : SystemPortPooledAllocator) (listen : Port → Option Conn) : InitResult :=
  if a.minPort > a.maxPort then ⟨a,[],some .range⟩
  else match listenAll listen { a with locked := true } [] (portRange a.minPort a.maxPort) with
    | (a,opened,false) => ⟨a,opened,some .listen⟩
    | (a,opened,true) => ⟨{ a with locked := false },opened,if a.ports.length = 0 then some .empty else none⟩

def openable (listen : Port → Option Conn) (ports : List Port) : List Port :=
  ports.takeWhile (fun port => (listen port).isSome)

def entry (ip : IP) (listen : Port → Option Conn) (port : Port) : PooledPort := ⟨port,⟨ip,port⟩,listen port,false⟩

theorem listenAllEq (listen : Port → Option Conn) (a : SystemPortPooledAllocator) (opened : List Conn)
    (ports : List Port) :
    listenAll listen a opened ports =
      ({ a with ports := a.ports ++ (openable listen ports).map (entry a.ip listen) },
        opened ++ (openable listen ports).filterMap listen,ports.all (fun port => (listen port).isSome)) := by
  induction ports generalizing a opened with
  | nil => simp [listenAll,openable]
  | cons port rest ih => cases answer : listen port with
    | none => simp [listenAll,openable,answer]
    | some conn =>
      rw [listenAll,answer]
      dsimp only
      rw [ih]
      simp [openable,entry,answer]

theorem openableAll {listen : Port → Option Conn} {ports : List Port}
    (all : ports.all (fun port => (listen port).isSome) = true) : openable listen ports = ports :=
  List.takeWhile_eq_self_iff.mpr (List.all_eq_true.mp all)

theorem memPortRange {lo hi port : Port} : port ∈ portRange lo hi ↔ lo ≤ port ∧ port ≤ hi := by
  unfold portRange
  rw [List.mem_map]
  constructor
  · intro ⟨k,mem,eq⟩
    have small := List.mem_range.mp mem
    exact portBounds small eq
  · intro ⟨low,high⟩
    exact ⟨(port - lo).toNat,List.mem_range.mpr (portOffset low high),portBack low⟩

theorem portRangeSorted (lo hi : Port) : (portRange lo hi).Pairwise (· < ·) := by
  unfold portRange
  rw [List.pairwise_map]
  exact List.pairwise_lt_range.imp (fun lt => Int.add_lt_add_left (Int.ofNat_lt.mpr lt) lo)

def Listens (listen : Port → Option Conn) (lo hi : Port) : Prop :=
  ∀ port, lo ≤ port → port ≤ hi → (listen port).isSome = true

theorem listensIff {listen : Port → Option Conn} {lo hi : Port} :
    (portRange lo hi).all (fun port => (listen port).isSome) = true ↔ Listens listen lo hi := by
  rw [List.all_eq_true]
  constructor
  · intro all port low high
    exact all port (memPortRange.mpr ⟨low,high⟩)
  · intro all port mem
    have inside := memPortRange.mp mem
    exact all port inside.1 inside.2

theorem initAll {a : SystemPortPooledAllocator} {listen : Port → Option Conn} (range : a.minPort ≤ a.maxPort)
    (all : Listens listen a.minPort a.maxPort) :
    a.init listen =
      ⟨{ a with ports := a.ports ++ (portRange a.minPort a.maxPort).map (entry a.ip listen), locked := false },
        (portRange a.minPort a.maxPort).filterMap listen,none⟩ := by
  have whole := listensIff.mpr all
  have first : a.minPort ∈ portRange a.minPort a.maxPort := memPortRange.mpr ⟨Int.le_refl _,range⟩
  have some' : portRange a.minPort a.maxPort ≠ [] := List.ne_nil_of_mem first
  unfold SystemPortPooledAllocator.init
  rw [if_neg (Int.not_lt.mpr range),listenAllEq,whole,openableAll whole]
  simp [some']

theorem initStops {a : SystemPortPooledAllocator} {listen : Port → Option Conn} (range : a.minPort ≤ a.maxPort)
    (fails : ¬Listens listen a.minPort a.maxPort) :
    a.init listen =
      ⟨{ a with ports := a.ports ++ (openable listen (portRange a.minPort a.maxPort)).map (entry a.ip listen),
                locked := true },
        (openable listen (portRange a.minPort a.maxPort)).filterMap listen,some .listen⟩ := by
  have stopped := Bool.eq_false_iff.mpr (fun all => fails (listensIff.mp all))
  unfold SystemPortPooledAllocator.init
  rw [if_neg (Int.not_lt.mpr range),listenAllEq,stopped]
  rfl

/- The three exits of `init`. -/
theorem initCases (a : SystemPortPooledAllocator) (listen : Port → Option Conn) :
    (a.maxPort < a.minPort ∧ a.init listen = ⟨a,[],some .range⟩) ∨
      (a.minPort ≤ a.maxPort ∧ Listens listen a.minPort a.maxPort ∧
        a.init listen =
          ⟨{ a with ports := a.ports ++ (portRange a.minPort a.maxPort).map (entry a.ip listen), locked := false },
            (portRange a.minPort a.maxPort).filterMap listen,none⟩) ∨
      (a.minPort ≤ a.maxPort ∧ ¬Listens listen a.minPort a.maxPort ∧
        a.init listen =
          ⟨{ a with ports := a.ports ++ (openable listen (portRange a.minPort a.maxPort)).map (entry a.ip listen),
                    locked := true },
            (openable listen (portRange a.minPort a.maxPort)).filterMap listen,some .listen⟩) := by
  rcases Int.lt_or_le a.maxPort a.minPort with bad | range
  · exact .inl ⟨bad,if_pos bad⟩
  · by_cases all : Listens listen a.minPort a.maxPort
    · exact .inr (.inl ⟨range,all,initAll range all⟩)
    · exact .inr (.inr ⟨range,all,initStops range all⟩)

structure Filled (ip : IP) (lo hi : Port) (listen : Port → Option Conn) (ports : List PooledPort) : Prop where
  increasing : (ports.map PooledPort.port).Pairwise (· < ·)
  range : ∀ port, port ∈ ports.map PooledPort.port ↔ lo ≤ port ∧ port ≤ hi
  unallocated : ∀ p ∈ ports, p.allocated = false
  opened : ∀ p ∈ ports, p.addr = ⟨ip,p.port⟩ ∧ ∃ c, listen p.port = some c ∧ p.conn = some c

def AllOrNothing (ip : IP) (lo hi : Port) (listen : Port → Option Conn) (r : InitResult) : Prop :=
  r.pool.locked = false ∧
    ((r.err = none ∧ Filled ip lo hi listen r.pool.ports) ∨
      (r.err.isSome = true ∧ r.pool.ports = [] ∧ r.opened = []))

theorem filledRange {ip : IP} {lo hi : Port} {listen : Port → Option Conn} (all : Listens listen lo hi) :
    Filled ip lo hi listen ((portRange lo hi).map (entry ip listen)) := by
  have same : ((portRange lo hi).map (entry ip listen)).map PooledPort.port = portRange lo hi := by
    rw [List.map_map]
    exact List.map_id _
  refine ⟨by rw [same]; exact portRangeSorted lo hi,fun port => by rw [same]; exact memPortRange,?_,?_⟩
  · intro p mem
    obtain ⟨port,_,rfl⟩ := List.mem_map.mp mem
    rfl
  · intro p mem
    obtain ⟨port,inside,rfl⟩ := List.mem_map.mp mem
    have bounds := memPortRange.mp inside
    obtain ⟨c,answer⟩ := Option.isSome_iff_exists.mp (all port bounds.1 bounds.2)
    exact ⟨rfl,c,answer,answer⟩

/- The exit on a failed `ListenUDP` keeps the mutex, the entries and the sockets. -/
theorem initExactly (ip : IP) (lo hi : Port) (listen : Port → Option Conn) :
    AllOrNothing ip lo hi listen ((SystemPortPooledAllocator.fresh ip lo hi).init listen) ↔
      hi < lo ∨ ∀ port, lo ≤ port → port ≤ hi → (listen port).isSome = true := by
  rcases initCases (SystemPortPooledAllocator.fresh ip lo hi) listen with ⟨bad,eq⟩ | ⟨range,all,eq⟩ | ⟨range,fails,eq⟩
  · rw [eq]
    exact ⟨fun _ => .inl bad,fun _ => ⟨rfl,.inr ⟨rfl,rfl,rfl⟩⟩⟩
  · rw [eq]
    exact ⟨fun _ => .inr all,fun _ => ⟨rfl,.inl ⟨rfl,filledRange all⟩⟩⟩
  · rw [eq]
    refine ⟨fun kept => ?_,fun cond => absurd (cond.resolve_left (Int.not_lt.mpr range)) fails⟩
    cases kept.1

def sampleListen (failing : Port) (port : Port) : Option Conn := if port = failing then none else some port.toNat

/- The second of two ports is taken: the first one stays open, and `Close` would block. -/
theorem initLeavesSocket :
    ((SystemPortPooledAllocator.fresh [127,0,0,1] 34000 34001).init (sampleListen 34001)).opened = [34000] ∧
      ¬AllOrNothing [127,0,0,1] 34000 34001 (sampleListen 34001)
        ((SystemPortPooledAllocator.fresh [127,0,0,1] 34000 34001).init (sampleListen 34001)) := by
  refine ⟨by decide +kernel,fun kept => ?_⟩
  have released := kept.1
  revert released
  decide +kernel

/- A pool in use: `live` is what was handed out and not closed, `closed` the sockets closed
so far, one entry for each call. -/
structure State where
  pool : SystemPortPooledAllocator
  live : List PortAllocation
  closed : List Conn
  deriving DecidableEq, Repr

def State.start (a : SystemPortPooledAllocator) : State := ⟨a,[],[]⟩

inductive Event where
  | init (listen : Port → Option Conn)
  | allocate (r : Random)
  | closeAllocation (i : Nat) (listen : Option Conn)
  | close

def State.next (turn : Turn) (s : State) : Event → State
  | .init listen => { s with pool := (s.pool.init listen).pool }
  | .allocate r => match s.pool.allocate turn r with
    | (a,.ok n) => { s with pool := a, live := s.live ++ [n] }
    | (a,_) => { s with pool := a }
  | .closeAllocation i listen => match s.live[i]? with
    | none => s
    | some n =>
      let (a,closed) := s.pool.dealloc n.conn.port listen
      ⟨a,s.live.eraseIdx i,s.closed ++ closed⟩
  | .close => { s with pool := s.pool.close.1, closed := s.closed ++ s.pool.close.2 }

/- A call that waits for the mutex is no step. -/
def State.enabled (s : State) : Event → Prop
  | .closeAllocation i _ => s.pool.locked = false ∧ i < s.live.length
  | _ => s.pool.locked = false

def machine (turn : Turn) (a : SystemPortPooledAllocator) : Machine State Event :=
  ⟨State.start a,State.enabled,State.next turn⟩

/- No port is ever marked, and every entry has a socket. -/
def Ready (a : SystemPortPooledAllocator) : Prop := ∀ p ∈ a.ports, p.allocated = false ∧ p.conn.isSome = true

theorem readyFresh (ip : IP) (lo hi : Port) : Ready (SystemPortPooledAllocator.fresh ip lo hi) :=
  List.forall_mem_nil _

theorem openableOpens {listen : Port → Option Conn} {ports : List Port} {port : Port}
    (mem : port ∈ openable listen ports) : (listen port).isSome = true :=
  @List.mem_takeWhile_imp _ (fun port => (listen port).isSome) _ _ mem

theorem entriesReady {ip : IP} {listen : Port → Option Conn} {before : List PooledPort} {ports : List Port}
    (old : ∀ p ∈ before, p.allocated = false ∧ p.conn.isSome = true)
    (opens : ∀ port ∈ ports, (listen port).isSome = true) :
    ∀ p ∈ before ++ ports.map (entry ip listen), p.allocated = false ∧ p.conn.isSome = true := by
  intro p mem
  rcases List.mem_append.mp mem with here | new
  · exact old p here
  · obtain ⟨port,inside,rfl⟩ := List.mem_map.mp new
    exact ⟨rfl,opens port inside⟩

theorem initReady {a : SystemPortPooledAllocator} (ready : Ready a) (listen : Port → Option Conn) :
    Ready (a.init listen).pool := by
  rcases initCases a listen with ⟨_,eq⟩ | ⟨_,all,eq⟩ | ⟨_,_,eq⟩
  · rw [eq]
    exact ready
  · rw [eq]
    refine entriesReady ready (fun port inside => ?_)
    have bounds := memPortRange.mp inside
    exact all port bounds.1 bounds.2
  · rw [eq]
    exact entriesReady ready (fun port inside => openableOpens inside)

theorem freeFromAll {ports : List PooledPort} (free : ∀ p ∈ ports, p.allocated = false) (i : Nat) :
    (freeFrom i ports).length = ports.length := by
  induction ports generalizing i with
  | nil => rfl
  | cons p rest ih =>
    have tail := ih (fun q mem => free q (List.mem_cons_of_mem _ mem)) (i + 1)
    simp [freeFrom,free p List.mem_cons_self,tail]

theorem allocateEmpty {turn : Turn} {a : SystemPortPooledAllocator} (unlocked : a.locked = false)
    (empty : a.ports = []) (r : Random) :
    a.allocate turn r = ({ a with free := [], locked := true },.panicked) := by
  unfold SystemPortPooledAllocator.allocate
  rw [unlocked,empty]
  rfl

theorem allocateLocked {turn : Turn} {a : SystemPortPooledAllocator} (locked : a.locked = true) (r : Random) :
    a.allocate turn r = (a,.blocked) := if_pos locked

theorem drawSize (r : Random) {m n : Nat} (size : m = n) {left : 0 < m} {right : 0 < n} :
    (r.draw m left).val = (r.draw n right).val := by
  subst size
  rfl

theorem randomFreeReady {a : SystemPortPooledAllocator} (ready : Ready a) (some' : 0 < a.ports.length) (r : Random) :
    ({ a with free := freeFrom 0 a.ports } : SystemPortPooledAllocator).randomFree r =
      a.ports[(r.draw a.ports.length some').val]? := by
  have size := freeFromAll (fun p mem => (ready p mem).1) 0
  unfold SystemPortPooledAllocator.randomFree
  rw [dif_pos (size.symm ▸ some'),drawSize r size]

theorem allocateReady {turn : Turn} {a : SystemPortPooledAllocator} (unlocked : a.locked = false) (ready : Ready a)
    (some' : 0 < a.ports.length) (r : Random) :
    ∃ p conn, a.ports[(r.draw a.ports.length some').val]? = some p ∧ p.conn = some conn ∧
      a.allocate turn r =
        ({ a with free := freeFrom 0 a.ports },.ok ⟨⟨a.ip,p.port⟩,turn.protoUDP,⟨conn,0⟩⟩) := by
  have picked := List.getElem?_eq_getElem (r.draw a.ports.length some').isLt
  have mem := List.getElem_mem (r.draw a.ports.length some').isLt
  obtain ⟨conn,opened⟩ := Option.isSome_iff_exists.mp (ready _ mem).2
  refine ⟨_,conn,picked,opened,?_⟩
  unfold SystemPortPooledAllocator.allocate
  rw [if_neg (by rw [unlocked]; nofun)]
  dsimp only
  rw [randomFreeReady ready some',picked]
  dsimp only
  rw [opened]

theorem allocatePorts (turn : Turn) (a : SystemPortPooledAllocator) (r : Random) :
    (a.allocate turn r).1.ports = a.ports := by
  unfold SystemPortPooledAllocator.allocate
  split
  · rfl
  · dsimp only
    split
    · rfl
    · split <;> rfl

theorem deallocReady {a : SystemPortPooledAllocator} (ready : Ready a) (port : Port) (listen : Option Conn) :
    Ready (a.dealloc port listen).1 := by
  unfold SystemPortPooledAllocator.dealloc
  split
  · exact ready
  · split
    · exact ready
    · intro p mem
      rcases memUpdateFirst mem with old | ⟨q,_,_,rfl⟩
      · exact ready p old
      · exact ⟨rfl,rfl⟩

theorem deallocFrame (a : SystemPortPooledAllocator) (port : Port) (listen : Option Conn) :
    (a.dealloc port listen).1.ip = a.ip ∧ (a.dealloc port listen).1.locked = a.locked ∧
      (a.dealloc port listen).1.ports.map PooledPort.port = a.ports.map PooledPort.port := by
  unfold SystemPortPooledAllocator.dealloc
  split
  · exact ⟨rfl,rfl,rfl⟩
  · split
    · exact ⟨rfl,rfl,rfl⟩
    · exact ⟨rfl,rfl,updateFirstMap (fun _ => rfl)⟩

theorem nextAllocatePool (turn : Turn) (s : State) (r : Random) :
    (s.next turn (.allocate r)).pool = (s.pool.allocate turn r).1 := by
  unfold State.next
  dsimp only
  split <;> rename_i eq <;> rw [eq]

theorem nextReady {turn : Turn} {s : State} {e : Event} (ready : Ready s.pool) : Ready (s.next turn e).pool := by
  cases e with
  | init listen => exact initReady ready listen
  | allocate r =>
    unfold Ready
    rw [nextAllocatePool,allocatePorts]
    exact ready
  | closeAllocation i listen =>
    unfold State.next
    dsimp only
    split
    · exact ready
    · exact deallocReady ready _ listen
  | close => exact List.forall_mem_nil _

theorem runReady {turn : Turn} {a : SystemPortPooledAllocator} (ready : Ready a) {h : List (Step State Event)}
    {s : State} (run : Run (machine turn a) h s) : Ready s.pool :=
  invariant (Q := fun s : State => Ready s.pool) ready (fun _ _ ready _ => nextReady ready) run

/- How `allocate` should answer. The list `free` is rebuilt by every call. -/
structure Graceful (turn : Turn) (a : SystemPortPooledAllocator) (r : Random) : Prop where
  exhausted : (a.allocate turn r).2 = .outOfCapacity ↔ ∀ p ∈ a.ports, p.allocated = true
  unchanged : (a.allocate turn r).2 = .outOfCapacity → { (a.allocate turn r).1 with free := a.free } = a
  served : (∃ p ∈ a.ports, p.allocated = false) → ∃ n, (a.allocate turn r).2 = .ok n
  calm : (a.allocate turn r).2 ≠ .panicked

theorem readyFree {a : SystemPortPooledAllocator} (ready : Ready a) :
    (∃ p ∈ a.ports, p.allocated = false) ↔ 0 < a.ports.length := by
  constructor
  · intro ⟨p,mem,_⟩
    exact List.length_pos_of_mem mem
  · intro some'
    have mem := List.getElem_mem some'
    exact ⟨_,mem,(ready _ mem).1⟩

def Spent (s : State) : Prop := ∀ p ∈ s.pool.ports, ∃ n ∈ s.live, n.addr = ⟨s.pool.ip,p.port⟩

theorem spentServed {turn : Turn} {s : State} (unlocked : s.pool.locked = false) (ready : Ready s.pool)
    (some' : 0 < s.pool.ports.length) (spent : Spent s) (r : Random) :
    ∃ n, (s.pool.allocate turn r).2 = .ok n ∧ ∃ m ∈ s.live, m.addr = n.addr := by
  obtain ⟨p,conn,picked,_,answer⟩ := @allocateReady turn _ unlocked ready some' r
  obtain ⟨m,live,same⟩ := spent p (List.mem_of_getElem? picked)
  exact ⟨_,by rw [answer],m,live,same⟩

/- An empty pool panics before the emptiness is noticed, and the mutex stays held then. A
pool whose ports are all live gives one of them again. -/
theorem allocateExactly {turn : Turn} {ip : IP} {lo hi : Port} {h : List (Step State Event)} {s : State}
    (run : Run (machine turn (SystemPortPooledAllocator.fresh ip lo hi)) h s) (r : Random) :
    (Graceful turn s.pool r ↔ s.pool.locked = false ∧ ∃ p ∈ s.pool.ports, p.allocated = false) ∧
      (s.pool.locked = false → 0 < s.pool.ports.length → Spent s →
        ∃ n, (s.pool.allocate turn r).2 = .ok n ∧ ∃ m ∈ s.live, m.addr = n.addr) := by
  have ready := runReady (readyFresh ip lo hi) run
  refine ⟨?_,fun unlocked some' spent => spentServed unlocked ready some' spent r⟩
  rw [readyFree ready]
  cases locked : s.pool.locked with
  | true =>
    have answer := @allocateLocked turn _ locked r
    refine ⟨fun graceful => ?_,nofun⟩
    rcases Nat.eq_zero_or_pos s.pool.ports.length with zero | some'
    · have all := graceful.exhausted.mpr (List.length_eq_zero_iff.mp zero ▸ List.forall_mem_nil _)
      rw [answer] at all
      cases all
    · obtain ⟨n,served⟩ := graceful.served ((readyFree ready).mpr some')
      rw [answer] at served
      cases served
  | false =>
    refine ⟨fun graceful => ⟨rfl,?_⟩,fun ⟨_,some'⟩ => ?_⟩
    · refine Nat.pos_of_ne_zero (fun zero => graceful.calm ?_)
      rw [allocateEmpty locked (List.length_eq_zero_iff.mp zero)]
    · obtain ⟨p,conn,picked,_,answer⟩ := @allocateReady turn _ locked ready some' r
      have mem := List.mem_of_getElem? picked
      have unmarked := (ready p mem).1
      refine ⟨⟨?_,?_⟩,?_,fun _ => ⟨_,by rw [answer]⟩,?_⟩
      · rw [answer]
        nofun
      · intro all
        rw [all p mem] at unmarked
        cases unmarked
      · rw [answer]
        nofun
      · rw [answer]
        nofun

def samplePool : SystemPortPooledAllocator := SystemPortPooledAllocator.fresh [127,0,0,1] 34000 34001

-- A reader that always fails, and the first number below the bound.
def sampleRandom : Random := ⟨fun _ => none,fun _ some' => ⟨0,some'⟩⟩

def Random.fixed (i : Nat) : Random :=
  ⟨fun max => if below : i < max then some ⟨i,below⟩ else none,fun _ some' => ⟨0,some'⟩⟩

def spending : List Event := [.init (sampleListen 0),.allocate (.fixed 0),.allocate (.fixed 1)]

theorem allocateAfterInit :
    ∃ h s, Run (machine Turn.documented samplePool) h s ∧ Graceful Turn.documented s.pool sampleRandom ∧
      s.live.map (fun n => n.addr.port) = [34000,34001] ∧
      ∃ n, (s.pool.allocate Turn.documented sampleRandom).2 = .ok n ∧ ∃ m ∈ s.live, m.addr = n.addr := by
  have run := traceStart (m := machine Turn.documented samplePool) spending ⟨rfl,rfl,rfl,trivial⟩
  obtain ⟨graceful,again⟩ := allocateExactly run sampleRandom
  refine ⟨_,_,run,graceful.mpr (by decide +kernel),by decide +kernel,again rfl (by decide +kernel) ?_⟩
  unfold Spent
  decide +kernel

/- `Close` of the pool leaves no entry to draw. -/
theorem closedPoolPanics :
    ∃ h s, Run (machine Turn.documented samplePool) h s ∧
      ∀ r, (s.pool.allocate Turn.documented r).2 = .panicked ∧ ¬Graceful Turn.documented s.pool r := by
  have run := traceStart (m := machine Turn.documented samplePool) [.init (sampleListen 0),.close]
    ⟨rfl,rfl,trivial⟩
  refine ⟨_,_,run,fun r => ?_⟩
  have answer := congrArg Prod.snd (@allocateEmpty Turn.documented (trace (machine Turn.documented samplePool) []
    (State.start samplePool) [.init (sampleListen 0),.close]).2.pool (by decide +kernel) (by decide +kernel) r)
  exact ⟨answer,fun graceful => graceful.calm answer⟩

def Event.serves : Event → Bool
  | .allocate _ => true
  | .closeAllocation _ _ => true
  | _ => false

def Event.allocates : Event → Bool
  | .allocate _ => true
  | _ => false

def serving (turn : Turn) (a : SystemPortPooledAllocator) : Machine State Event :=
  ⟨State.start a,fun s e => s.enabled e ∧ e.serves = true,State.next turn⟩

structure Exclusive (s : State) : Prop where
  distinct : (s.live.map (fun n => n.addr.port)).Nodup
  marked : ∀ port, (∃ n ∈ s.live, n.addr.port = port) ↔ ∃ p ∈ s.pool.ports, p.port = port ∧ p.allocated = true

/- What a call should do besides: hand out an unmarked entry; close the socket of the
allocation, open its port again and make exactly that port available. -/
def Proper (turn : Turn) (x : Step State Event) : Prop :=
  match x.event with
  | .allocate r => ∀ n, (x.pre.pool.allocate turn r).2 = .ok n →
      ∃ p ∈ x.pre.pool.ports, p.port = n.addr.port ∧ p.allocated = false
  | .closeAllocation i listen => ∀ n, x.pre.live[i]? = some n →
      (x.pre.next turn x.event).closed = x.pre.closed ++ [n.conn.packetConn] ∧
        ∀ c, listen = some c → (x.pre.next turn x.event).pool.ports =
          updateFirst (fun p => p.port == n.addr.port)
            (fun p => { p with allocated := false, conn := some c }) x.pre.pool.ports
  | _ => True

def Kept (turn : Turn) (a : SystemPortPooledAllocator) (h : List (Step State Event)) : Prop :=
  Exclusive (State.start a) ∧ ∀ x ∈ h, Exclusive (x.pre.next turn x.event) ∧ Proper turn x

theorem exclusiveIff {s : State} (ready : Ready s.pool) : Exclusive s ↔ s.live = [] := by
  have unmarked : ∀ port, ¬∃ p ∈ s.pool.ports, p.port = port ∧ p.allocated = true := by
    intro port ⟨p,mem,_,marked⟩
    rw [(ready p mem).1] at marked
    cases marked
  constructor
  · intro kept
    refine List.eq_nil_iff_forall_not_mem.mpr (fun n mem => ?_)
    exact unmarked _ ((kept.marked _).mp ⟨n,mem,rfl⟩)
  · intro empty
    refine ⟨by rw [empty]; exact List.nodup_nil,fun port => ⟨fun ⟨n,mem,_⟩ => ?_,fun marked => ?_⟩⟩
    · rw [empty] at mem
      cases mem
    · exact absurd marked (unmarked port)

structure Serving (a : SystemPortPooledAllocator) : Prop where
  unlocked : a.locked = false
  ready : Ready a
  some' : 0 < a.ports.length

theorem initServing {ip : IP} {lo hi : Port} {listen : Port → Option Conn}
    (ok : ((SystemPortPooledAllocator.fresh ip lo hi).init listen).err = none) :
    Serving ((SystemPortPooledAllocator.fresh ip lo hi).init listen).pool := by
  have ready := initReady (readyFresh ip lo hi) listen
  rcases initCases (SystemPortPooledAllocator.fresh ip lo hi) listen with ⟨_,eq⟩ | ⟨range,_,eq⟩ | ⟨_,_,eq⟩
  · rw [eq] at ok
    cases ok
  · have first := memPortRange.mpr (And.intro (Int.le_refl lo) range)
    refine ⟨by rw [eq],ready,?_⟩
    rw [eq]
    exact List.length_pos_of_mem (List.mem_map_of_mem first)
  · rw [eq] at ok
    cases ok

theorem deallocServing {a : SystemPortPooledAllocator} (pool : Serving a) (port : Port) (listen : Option Conn) :
    Serving (a.dealloc port listen).1 := by
  obtain ⟨_,locked,numbers⟩ := deallocFrame a port listen
  refine ⟨locked.trans pool.unlocked,deallocReady pool.ready port listen,?_⟩
  rw [← List.length_map (f := PooledPort.port),numbers,List.length_map]
  exact pool.some'

theorem nextAllocate {turn : Turn} {s : State} (pool : Serving s.pool) (r : Random) :
    ∃ p conn, s.pool.ports[(r.draw s.pool.ports.length pool.some').val]? = some p ∧ p.conn = some conn ∧
      s.next turn (.allocate r) =
        { s with pool := { s.pool with free := freeFrom 0 s.pool.ports },
                 live := s.live ++ [⟨⟨s.pool.ip,p.port⟩,turn.protoUDP,⟨conn,0⟩⟩] } := by
  obtain ⟨p,conn,picked,opened,answer⟩ := @allocateReady turn _ pool.unlocked pool.ready pool.some' r
  refine ⟨p,conn,picked,opened,?_⟩
  unfold State.next
  dsimp only
  rw [answer]

theorem nextServing {turn : Turn} {s : State} {e : Event} (pool : Serving s.pool) (serves : e.serves = true) :
    Serving (s.next turn e).pool := by
  cases e with
  | init listen => cases serves
  | close => cases serves
  | allocate r =>
    obtain ⟨p,conn,_,_,eq⟩ := @nextAllocate turn s pool r
    rw [eq]
    exact ⟨pool.unlocked,pool.ready,pool.some'⟩
  | closeAllocation i listen =>
    unfold State.next
    dsimp only
    split
    · exact pool
    · exact deallocServing pool _ listen

theorem runServing {turn : Turn} {a : SystemPortPooledAllocator} (pool : Serving a) {h : List (Step State Event)}
    {s : State} (run : Run (serving turn a) h s) : Serving s.pool :=
  invariant (m := serving turn a) (Q := fun s : State => Serving s.pool) pool
    (fun _ _ pool guard => nextServing pool guard.2) run

theorem idleRun {turn : Turn} {a : SystemPortPooledAllocator} {h : List (Step State Event)} {s : State}
    (run : Run (serving turn a) h s) (idle : ∀ x ∈ h, x.event.allocates = false) : h = [] ∧ s = State.start a := by
  induction run with
  | start => exact ⟨rfl,rfl⟩
  | @step h s e before guard ih =>
    obtain ⟨rfl,rfl⟩ := ih (fun x mem => idle x (List.mem_cons_of_mem _ mem))
    have quiet := idle _ List.mem_cons_self
    obtain ⟨enabled,serves⟩ := guard
    cases e with
    | init listen => cases serves
    | close => cases serves
    | allocate r => cases quiet
    | closeAllocation i listen => exact absurd enabled.2 (Nat.not_lt_zero i)

/- The first `allocate` already leaves an allocation whose entry is not marked. -/
theorem exclusiveExactly {turn : Turn} {ip : IP} {lo hi : Port} {listen : Port → Option Conn}
    (ok : ((SystemPortPooledAllocator.fresh ip lo hi).init listen).err = none) {h : List (Step State Event)} {s : State}
    (run : Run (serving turn ((SystemPortPooledAllocator.fresh ip lo hi).init listen).pool) h s) :
    Kept turn ((SystemPortPooledAllocator.fresh ip lo hi).init listen).pool h ↔
      ∀ x ∈ h, x.event.allocates = false := by
  have pool := initServing ok
  constructor
  · intro kept x mem
    obtain ⟨before,reached,_,_⟩ := preReached run mem
    have served := runServing pool reached
    have exclusive := (kept.2 x mem).1
    obtain ⟨pre,e⟩ := x
    cases e with
    | allocate r =>
      obtain ⟨p,conn,_,_,eq⟩ := @nextAllocate turn pre served r
      have empty := (exclusiveIff (nextReady served.ready)).mp exclusive
      rw [eq] at empty
      simp at empty
    | init listen => rfl
    | close => rfl
    | closeAllocation i listen => rfl
  · intro idle
    obtain ⟨rfl,rfl⟩ := idleRun run idle
    exact ⟨(exclusiveIff pool.ready).mpr rfl,List.forall_mem_nil _⟩

theorem exclusiveExactlyAtSample :
    ∃ h s, Run (serving Turn.documented (samplePool.init (sampleListen 0)).pool) h s ∧ h.length = 1 ∧
      ¬Kept Turn.documented (samplePool.init (sampleListen 0)).pool h :=
  have run := traceStart (m := serving Turn.documented (samplePool.init (sampleListen 0)).pool)
    [.allocate sampleRandom] ⟨⟨rfl,rfl⟩,trivial⟩
  ⟨_,_,run,rfl,fun kept => nomatch (exclusiveExactly (by decide +kernel) run).mp kept _ List.mem_cons_self⟩

theorem samePortTwice :
    ∃ h s, Run (serving Turn.documented (samplePool.init (sampleListen 0)).pool) h s ∧
      s.live.map (fun n => n.addr.port) = [34000,34000] ∧
      ¬Kept Turn.documented (samplePool.init (sampleListen 0)).pool h := by
  have run := traceStart (m := serving Turn.documented (samplePool.init (sampleListen 0)).pool)
    [.allocate sampleRandom,.allocate sampleRandom] ⟨⟨rfl,rfl⟩,⟨rfl,rfl⟩,trivial⟩
  refine ⟨_,_,run,by decide +kernel,fun kept => ?_⟩
  have distinct := (kept.2 _ List.mem_cons_self).1.distinct
  revert distinct
  decide +kernel

theorem fixedDraw {i n : Nat} (below : i < n) (some' : 0 < n) : ((Random.fixed i).draw n some').val = i := by
  simp [Random.draw,Random.fixed,below]

/- What the live allocations of a run look like: their port is one of the pool's, and they
give back port 0. -/
def Issued (a : SystemPortPooledAllocator) (s : State) : Prop :=
  s.pool.ip = a.ip ∧ s.pool.ports.map PooledPort.port = a.ports.map PooledPort.port ∧
    ∀ n ∈ s.live, n.addr.ip = a.ip ∧ n.addr.port ∈ a.ports.map PooledPort.port ∧ n.conn.port = 0

theorem nextIssued {turn : Turn} {a : SystemPortPooledAllocator} {s : State} {e : Event} (pool : Serving s.pool)
    (issued : Issued a s) (serves : e.serves = true) : Issued a (s.next turn e) := by
  obtain ⟨ip,numbers,live⟩ := issued
  cases e with
  | init listen => cases serves
  | close => cases serves
  | allocate r =>
    obtain ⟨p,conn,picked,_,eq⟩ := @nextAllocate turn s pool r
    rw [eq]
    refine ⟨ip,numbers,fun n mem => ?_⟩
    rcases List.mem_append.mp mem with old | new
    · exact live n old
    · have inside := List.mem_map_of_mem (f := PooledPort.port) (List.mem_of_getElem? picked)
      rw [numbers] at inside
      rw [List.mem_singleton.mp new]
      exact ⟨ip,inside,rfl⟩
  | closeAllocation i listen =>
    unfold State.next
    dsimp only
    split
    · exact ⟨ip,numbers,live⟩
    · rename_i n _
      obtain ⟨sameIp,_,sameNumbers⟩ := deallocFrame s.pool n.conn.port listen
      exact ⟨sameIp.trans ip,sameNumbers.trans numbers,fun n mem => live n (List.mem_of_mem_eraseIdx mem)⟩

theorem runIssued {turn : Turn} {a : SystemPortPooledAllocator} (pool : Serving a) {h : List (Step State Event)}
    {s : State} (run : Run (serving turn a) h s) : Issued a s := by
  have both := invariant (m := serving turn a) (Q := fun s : State => Serving s.pool ∧ Issued a s)
    ⟨pool,rfl,rfl,List.forall_mem_nil _⟩
    (fun s e held guard => ⟨nextServing held.1 guard.2,nextIssued held.1 held.2 guard.2⟩) run
  exact both.2

/- Whatever is handed out can be handed out once more, after any run. -/
theorem handedOutAgain {turn : Turn} {a : SystemPortPooledAllocator} (pool : Serving a) {h : List (Step State Event)}
    {s : State} (run : Run (serving turn a) h s) {n : PortAllocation} (live : n ∈ s.live) :
    ∃ r again, (s.pool.allocate turn r).2 = .ok again ∧ again.addr = n.addr := by
  obtain ⟨ip,numbers,all⟩ := runIssued pool run
  have served := runServing pool run
  obtain ⟨sameIp,inside,_⟩ := all n live
  rw [← numbers] at inside
  obtain ⟨p,mem,port⟩ := List.mem_map.mp inside
  obtain ⟨i,below,rfl⟩ := List.mem_iff_getElem.mp mem
  obtain ⟨q,conn,picked,_,answer⟩ :=
    @allocateReady turn _ served.unlocked served.ready served.some' (Random.fixed i)
  rw [fixedDraw below,List.getElem?_eq_getElem below] at picked
  refine ⟨Random.fixed i,_,by rw [answer],?_⟩
  rw [← Option.some.inj picked,port,ip,← sameIp]

/- On a range without port 0 closing an allocation neither closes nor opens a socket. -/
theorem closeIdle {turn : Turn} {a : SystemPortPooledAllocator} (pool : Serving a)
    (positive : ∀ p ∈ a.ports, p.port ≠ 0) {h : List (Step State Event)} {s : State} (run : Run (serving turn a) h s)
    (i : Nat) (listen : Option Conn) :
    (s.next turn (.closeAllocation i listen)).pool = s.pool ∧
      (s.next turn (.closeAllocation i listen)).closed = s.closed := by
  obtain ⟨_,numbers,all⟩ := runIssued pool run
  have absent : s.pool.ports.find? (fun p => p.port == 0) = none := by
    refine List.find?_eq_none.mpr (fun p mem zero => ?_)
    have inside := List.mem_map_of_mem (f := PooledPort.port) mem
    rw [numbers] at inside
    obtain ⟨q,old,same⟩ := List.mem_map.mp inside
    exact positive q old (same.trans (eq_of_beq zero))
  unfold State.next
  dsimp only
  split
  · exact ⟨rfl,rfl⟩
  · rename_i n found
    rw [(all n (List.mem_of_getElem? found)).2.2]
    unfold SystemPortPooledAllocator.dealloc
    rw [absent]
    exact ⟨rfl,List.append_nil _⟩

end Gortcd.PortPool
