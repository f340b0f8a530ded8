import Gortcd.Relaying

/-! The exported methods of `Allocator` over its `NetAllocator`, each run to its end with
nothing interleaved. The answer of the port allocator is an argument of `new`. -/
namespace Gortcd.Calls
open Keyed Net Ports Sections Records

structure Allocator where
  allocs : Table
  raddr : NetAllocator
  deriving DecidableEq, Repr

def Allocator.empty : Allocator := ⟨[],.empty⟩

def Allocator.new (turn : Turn) (a : Allocator) (tuple : FiveTuple) (timeout : Time)
    (port : Except PortErr NetAllocation) : Allocator × Except Err Addr :=
  match register turn a.allocs tuple timeout with
  | .error e => (a,.error e)
  | .ok allocs => match port with
    | .error e => ({ a with allocs := allocs },.error (.failedToAllocate e))
    | .ok n => (⟨install turn allocs tuple timeout n.addr n.conn,a.raddr.new n⟩,.ok n.addr)

/- `Remove` and `Prune` hand `Tuple.Server` to the port table, not `RelayedAddr`. -/
def dealloc (turn : Turn) (ports : NetAllocator) (toDealloc : List Allocation) : NetAllocator :=
  toDealloc.foldl (fun ports a => ports.remove turn a.tuple.server a.tuple.proto) ports

def Allocator.remove (turn : Turn) (a : Allocator) (t : FiveTuple) : Allocator × Option Err :=
  let out := Sections.remove turn a.allocs t
  if out.2.isEmpty then ({ a with allocs := out.1 },some .allocationMismatch)
  else (⟨out.1,dealloc turn a.raddr out.2⟩,none)

def Allocator.prune (turn : Turn) (a : Allocator) (t : Time) : Allocator :=
  let out := Sections.prune a.allocs t
  ⟨out.1,dealloc turn a.raddr out.2⟩

def Allocator.createPermission (turn : Turn) (a : Allocator) (tuple : FiveTuple) (peer : Addr) (timeout : Time) :
    Allocator × Option Err :=
  let out := Sections.createPermission turn a.allocs tuple peer timeout
  ({ a with allocs := out.1 },out.2)

def Allocator.channelBind (turn : Turn) (a : Allocator) (tuple : FiveTuple) (n : ChannelNumber) (peer : Addr)
    (timeout : Time) : Allocator × Option Err :=
  let out := Sections.channelBind turn a.allocs tuple n peer timeout
  ({ a with allocs := out.1 },out.2)

def Allocator.refresh (turn : Turn) (a : Allocator) (tuple : FiveTuple) (timeout : Time) : Allocator × Option Err :=
  let out := Sections.refresh turn a.allocs tuple timeout
  ({ a with allocs := out.1 },out.2)

/- A call that changes the table, with the arguments and the answer it depends on. -/
inductive Call where
  | new (tuple : FiveTuple) (timeout : Time) (port : Except PortErr NetAllocation)
  | remove (tuple : FiveTuple)
  | prune (t : Time)
  | refresh (tuple : FiveTuple) (timeout : Time)
  | createPermission (tuple : FiveTuple) (peer : Addr) (timeout : Time)
  | channelBind (tuple : FiveTuple) (n : ChannelNumber) (peer : Addr) (timeout : Time)

def Allocator.run (turn : Turn) (a : Allocator) : Call → Allocator
  | .new tuple timeout port => (a.new turn tuple timeout port).1
  | .remove tuple => (a.remove turn tuple).1
  | .prune t => a.prune turn t
  | .refresh tuple timeout => (a.refresh turn tuple timeout).1
  | .createPermission tuple peer timeout => (a.createPermission turn tuple peer timeout).1
  | .channelBind tuple n peer timeout => (a.channelBind turn tuple n peer timeout).1

def returned : Option Err → Except Err (Option Addr)
  | none => .ok none
  | some e => .error e

/- What the call returns to its caller: an error, or the relayed address of `New`. -/
def Allocator.outcome (turn : Turn) (a : Allocator) : Call → Except Err (Option Addr)
  | .new tuple timeout port => (a.new turn tuple timeout port).2.map some
  | .remove tuple => returned (a.remove turn tuple).2
  | .prune _ => .ok none
  | .refresh tuple timeout => returned (a.refresh turn tuple timeout).2
  | .createPermission tuple peer timeout => returned (a.createPermission turn tuple peer timeout).2
  | .channelBind tuple n peer timeout => returned (a.channelBind turn tuple n peer timeout).2

def Call.tuple : Call → Option FiveTuple
  | .new tuple _ _ => some tuple
  | .remove tuple => some tuple
  | .prune _ => none
  | .refresh tuple _ => some tuple
  | .createPermission tuple _ _ => some tuple
  | .channelBind tuple _ _ _ => some tuple

def Allocator.Ok (turn : Turn) (a : Allocator) : Prop := TableOk turn a.allocs

variable {turn : Turn} {a : Allocator}

theorem emptyTableOk : Allocator.empty.Ok turn := ⟨List.Pairwise.nil,by simp [Allocator.empty]⟩

/- Every way a sequential `New` can end. -/
theorem newCases (turn : Turn) (a : Allocator) (t : FiveTuple) (timeout : Time) (port : Except PortErr NetAllocation) :
    (∃ e, register turn a.allocs t timeout = .error e ∧ a.new turn t timeout port = (a,.error e)) ∨
    (t.proto = turn.protoUDP ∧ find turn a.allocs t = none ∧
      ((∃ e, port = .error e ∧ a.new turn t timeout port =
          ({ a with allocs := a.allocs ++ [placeholder t timeout] },.error (.failedToAllocate e))) ∨
        ∃ n, port = .ok n ∧ a.new turn t timeout port =
          (⟨a.allocs ++ [installed t timeout n.addr n.conn],a.raddr.new n⟩,.ok n.addr))) := by
  cases registering : register turn a.allocs t timeout with
  | error e => exact .inl ⟨e,rfl,by simp [Allocator.new,registering]⟩
  | ok allocs =>
    obtain ⟨udp,fresh,rfl⟩ := registered registering
    refine .inr ⟨udp,fresh,?_⟩
    cases port with
    | error e => exact .inl ⟨e,rfl,by simp [Allocator.new,registering]⟩
    | ok n =>
      have placed : install turn (a.allocs ++ [placeholder t timeout]) t timeout n.addr n.conn =
          a.allocs ++ [installed t timeout n.addr n.conn] := updateFirstAppend fresh (turn.tuples.refl t)
      exact .inr ⟨n,rfl,by simp [Allocator.new,registering,placed]⟩

theorem newOk (ok : a.Ok turn) (t : FiveTuple) (timeout : Time) (port : Except PortErr NetAllocation) :
    (a.new turn t timeout port).1.Ok turn := by
  rcases newCases turn a t timeout port with ⟨e,_,eq⟩ | ⟨_,fresh,⟨e,_,eq⟩ | ⟨n,_,eq⟩⟩ <;> rw [eq]
  · exact ok
  · exact changeOk (.register fresh) ok
  · refine ⟨distinctAppend ok.distinct _ fresh,?_⟩
    intro b mem
    rcases List.mem_append.mp mem with old | new
    · exact ok.allocations b old
    · rw [List.mem_singleton.mp new]
      exact emptyOk rfl

theorem removeOk (ok : a.Ok turn) (t : FiveTuple) : (a.remove turn t).1.Ok turn := by
  unfold Allocator.remove
  dsimp only
  split <;> exact changeOk (.remove a.allocs t) ok

theorem runOk (ok : a.Ok turn) (c : Call) : (a.run turn c).Ok turn := by
  cases c with
  | new tuple timeout port => exact newOk ok tuple timeout port
  | remove t => exact removeOk ok t
  | prune t => exact changeOk (.prune a.allocs t) ok
  | refresh tuple timeout => exact changeOk (.refresh a.allocs tuple timeout) ok
  | createPermission tuple peer timeout => exact changeOk (grantChange peer) ok
  | channelBind tuple n peer timeout => exact changeOk (bindChange ok.distinct n peer) ok

end Gortcd.Calls
