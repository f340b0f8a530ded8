import Gortcd.Net

/-! internal/allocator/port.go: the port table `NetAllocator`. The port allocator itself
(the system or the pool) is outside; its answer is an input. Closing a connection is
recorded in `closed`, one entry for each call of `Close`, in order. -/
namespace Gortcd.Ports
open Keyed Net

inductive PortErr where
  | resolve
  | listen
  | outOfCapacity
  deriving DecidableEq, Repr

structure NetAllocation where
  addr : Addr
  proto : Protocol
  conn : Conn
  deriving DecidableEq, Repr

structure NetAllocator where
  allocs : List NetAllocation
  newAllocs : List NetAllocation
  closed : List Conn
  deriving DecidableEq, Repr

def NetAllocator.empty : NetAllocator := ⟨[],[],[]⟩

-- `AllocatePort` succeeded with `n`; its failure returns before the table is touched.
def NetAllocator.new (a : NetAllocator) (n : NetAllocation) : NetAllocator :=
  { a with allocs := a.allocs ++ [n] }

def matched (turn : Turn) (addr : Addr) (proto : Protocol) (n : NetAllocation) : Bool :=
  n.proto == proto && turn.addrs.same addr n.addr

/- Both exits empty the scratch slice `newAllocs`, which is shared between calls and
starts from whatever the previous call left in it. -/
def NetAllocator.remove (turn : Turn) (a : NetAllocator) (addr : Addr) (proto : Protocol) : NetAllocator :=
  let newAllocs := a.newAllocs ++ a.allocs.filter (fun n => !matched turn addr proto n)
  let toRemove := a.allocs.filter (matched turn addr proto)
  if toRemove.isEmpty then { a with newAllocs := [] }
  else
    { allocs := compact a.allocs newAllocs
      newAllocs := []
      closed := a.closed ++ toRemove.map NetAllocation.conn }

def NetAllocator.isOpen (a : NetAllocator) (c : Conn) : Bool := !a.closed.contains c

def NetAllocator.sockets (a : NetAllocator) : List Conn :=
  (a.allocs.map NetAllocation.conn).filter a.isOpen

theorem removeUnmatched {turn : Turn} {a : NetAllocator} {addr : Addr} {proto : Protocol}
    (scratch : a.newAllocs = []) (none : ∀ n ∈ a.allocs, matched turn addr proto n = false) :
    a.remove turn addr proto = a := by
  have empty : a.allocs.filter (matched turn addr proto) = [] := by
    rw [List.filter_eq_nil_iff]
    intro n mem
    simp [none n mem]
  have same : ({ a with newAllocs := [] } : NetAllocator) = a := by rw [← scratch]
  simp only [NetAllocator.remove,empty,List.isEmpty_nil,if_true,same]

end Gortcd.Ports
