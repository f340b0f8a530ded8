import Gortcd.Channels

/-! What sequential calls leave behind. `New` registers its placeholder before it asks for a
port and returns the port allocator's error without taking it back. `Remove` and `Prune`
release `Tuple.Server` instead of the relayed address, so that no relay socket of a dropped
allocation is ever closed when relayed addresses differ from the listening address. -/
namespace Gortcd.Sockets
open Keyed Net Ports Sections Records Calls Runs

variable {turn : Turn} {timeout : Time}

/- A `New` that returns an error leaves both tables as they were: the retry after an error of
the port allocator succeeds, and the other calls for the tuple answer as before. -/
def FailsAtomically (turn : Turn) (a : Allocator) (t : FiveTuple) (timeout : Time)
    (port : Except PortErr NetAllocation) : Prop :=
  let after := (a.new turn t timeout port).1
  ∀ e, (a.new turn t timeout port).2 = .error e →
    after = a ∧
    (∀ cause, e = .failedToAllocate cause → ∀ later n, (after.new turn t later (.ok n)).2 = .ok n.addr) ∧
    (∀ peer later, (after.createPermission turn t peer later).2 = (a.createPermission turn t peer later).2) ∧
    (∀ n peer later, (after.channelBind turn t n peer later).2 = (a.channelBind turn t n peer later).2)

theorem newLeftover {a : Allocator} {t : FiveTuple} (udp : t.proto = turn.protoUDP)
    (fresh : find turn a.allocs t = none) (e : PortErr) :
    a.new turn t timeout (.error e) =
      ({ a with allocs := a.allocs ++ [placeholder t timeout] },.error (.failedToAllocate e)) := by
  simp [Allocator.new,registerOk udp fresh]

theorem failedNewAtomic (turn : Turn) (a : Allocator) (t : FiveTuple) (timeout : Time)
    (port : Except PortErr NetAllocation) :
    FailsAtomically turn a t timeout port ↔
      (t.proto ≠ turn.protoUDP ∨ (find turn a.allocs t).isSome ∨ ∃ n, port = .ok n) := by
  constructor
  · intro atomic
    by_cases udp : t.proto = turn.protoUDP
    · cases fresh : find turn a.allocs t with
      | some b => exact .inr (.inl rfl)
      | none => cases port with
        | ok n => exact .inr (.inr ⟨n,rfl⟩)
        | error e =>
          have left := @newLeftover turn timeout a t udp fresh e
          have same := (atomic _ (congrArg Prod.snd left)).1
          rw [left] at same
          have lengths := congrArg (fun b : Allocator => b.allocs.length) same
          simp at lengths
    · exact .inl udp
  · intro cond e fails
    cases registering : register turn a.allocs t timeout with
    | error f =>
      have eq : a.new turn t timeout port = (a,.error f) := by simp [Allocator.new,registering]
      rw [eq] at fails
      cases fails
      refine ⟨by rw [eq],?_,fun peer later => by rw [eq],fun n peer later => by rw [eq]⟩
      intro cause wrapped
      rcases registerFails registering with ⟨_,other⟩ | ⟨_,_,other⟩ <;> rw [other] at wrapped <;> cases wrapped
    | ok allocs =>
      obtain ⟨udp,fresh,_⟩ := registered registering
      rcases cond with other | used | ⟨n,rfl⟩
      · exact absurd udp other
      · rw [fresh] at used; cases used
      · simp [Allocator.new,registering] at fails

/- The retry is refused with `ErrAllocationMismatch`, and a permission is granted on the
leftover placeholder. -/
theorem failedNewLeavesPlaceholder : ¬ FailsAtomically .documented .empty sampleTuple 60 (.error .listen) := by
  intro atomic
  obtain ⟨_,retry,_⟩ := atomic _ rfl
  have refused : ((Allocator.empty.new .documented sampleTuple 60 (.error .listen)).1.new .documented sampleTuple 120
      (.ok ⟨sampleRelayed,17,1⟩)).2 = .error .allocationMismatch := by rfl
  have granted := retry .listen rfl 120 ⟨sampleRelayed,17,1⟩
  rw [refused] at granted
  cases granted

/- Runs over a port allocator that hands out new sockets on addresses different from every
open relayed address and from the listening address of all tuples. -/
def Fresh (turn : Turn) (listen : Addr) (a : Allocator) (n : NetAllocation) : Prop :=
  (∀ m ∈ a.raddr.allocs, turn.addrs.same m.addr n.addr = false) ∧ turn.addrs.same listen n.addr = false ∧
    n.conn ∉ a.raddr.allocs.map NetAllocation.conn ∧ n.conn ∉ a.raddr.closed

def Permitted (turn : Turn) (listen : Addr) (a : Allocator) : Call → Prop
  | .new t _ (.ok n) => t.server = listen ∧ Fresh turn listen a n
  | .new t _ (.error _) => t.server = listen
  | _ => True

def machine (turn : Turn) (listen : Addr) : Machine Allocator Call :=
  ⟨.empty,Permitted turn listen,Allocator.run turn⟩

def conns (allocs : Table) : List Conn := allocs.filterMap Allocation.conn

/- The registered open sockets are exactly the sockets of the table. -/
def Conserved (a : Allocator) : Prop := a.raddr.sockets.Perm (conns a.allocs)

/- The call takes no allocation with a socket out of the table. -/
def KeepsSockets (turn : Turn) (x : Step Allocator Call) : Prop :=
  match x.event with
  | .remove t => ∀ a, find turn x.pre.allocs t = some a → a.conn = none
  | .prune now => ∀ a ∈ x.pre.allocs, a.timeout ≤ now → a.conn = none
  | _ => True

structure Unreleased (turn : Turn) (listen : Addr) (a : Allocator) : Prop where
  table : TableOk turn a.allocs
  servers : ∀ b ∈ a.allocs, b.tuple.server = listen
  scratch : a.raddr.newAllocs = []
  addrs : ∀ n ∈ a.raddr.allocs, turn.addrs.same listen n.addr = false
  closed : a.raddr.closed = []

variable {listen : Addr}

/- The key handed to the port table matches nothing there. -/
theorem deallocNothing {ports : NetAllocator} (scratch : ports.newAllocs = [])
    (addrs : ∀ n ∈ ports.allocs, turn.addrs.same listen n.addr = false) {l : List Allocation}
    (servers : ∀ b ∈ l, b.tuple.server = listen) : dealloc turn ports l = ports := by
  induction l with
  | nil => rfl
  | cons b l ih =>
    have none : ∀ n ∈ ports.allocs, matched turn b.tuple.server b.tuple.proto n = false := by
      intro n mem
      simp [matched,servers b List.mem_cons_self,addrs n mem]
    have same := removeUnmatched scratch none
    have rest := ih (fun c mem => servers c (List.mem_cons_of_mem _ mem))
    simpa only [dealloc,List.foldl_cons,same] using rest

theorem removeDealloc {a : Allocator} (inv : Unreleased turn listen a) (t : FiveTuple) :
    (a.remove turn t).1 = { a with allocs := (remove turn a.allocs t).1 } := by
  have same : dealloc turn a.raddr (remove turn a.allocs t).2 = a.raddr :=
    deallocNothing inv.scratch inv.addrs (fun b mem => inv.servers b (List.mem_filter.mp mem).1)
  unfold Allocator.remove
  dsimp only
  split
  · rfl
  · rw [same]

theorem pruneDealloc {a : Allocator} (inv : Unreleased turn listen a) (x : Time) :
    a.prune turn x = { a with allocs := (prune a.allocs x).1 } := by
  have same : dealloc turn a.raddr (prune a.allocs x).2 = a.raddr := by
    refine deallocNothing inv.scratch inv.addrs ?_
    intro b mem
    obtain ⟨c,hc,rfl⟩ := List.mem_map.mp (List.mem_filter.mp mem).1
    exact inv.servers c hc
  unfold Allocator.prune
  dsimp only
  rw [same]

theorem unreleasedStep {a : Allocator} (inv : Unreleased turn listen a) (c : Call) (guard : Permitted turn listen a c) :
    Unreleased turn listen (a.run turn c) := by
  have table := runOk inv.table c
  have keeps {allocs : Table} (eq : a.run turn c = { a with allocs := allocs })
      (servers : ∀ b ∈ allocs, b.tuple.server = listen) : Unreleased turn listen (a.run turn c) := by
    rw [eq] at table ⊢
    exact ⟨table,servers,inv.scratch,inv.addrs,inv.closed⟩
  have appended {b : Allocation} (server : b.tuple.server = listen) : ∀ c ∈ a.allocs ++ [b], c.tuple.server = listen := by
    intro c mem
    rcases List.mem_append.mp mem with old | new
    · exact inv.servers c old
    · rw [List.mem_singleton.mp new]
      exact server
  have updated {p : Allocation → Bool} {f : Allocation → Allocation} (same : ∀ b, (f b).tuple = b.tuple) :
      ∀ b ∈ updateFirst p f a.allocs, b.tuple.server = listen := by
    intro b mem
    rcases memUpdateFirst mem with old | ⟨d,hd,_,rfl⟩
    · exact inv.servers b old
    · rw [same d]
      exact inv.servers d hd
  cases c with
  | new t timeout port =>
    have run : a.run turn (.new t timeout port) = (a.new turn t timeout port).1 := rfl
    rcases newCases turn a t timeout port with ⟨e,_,eq⟩ | ⟨_,_,⟨e,rfl,eq⟩ | ⟨n,rfl,eq⟩⟩
    · rw [run,eq]; exact inv
    · exact keeps (run.trans (congrArg Prod.fst eq)) (appended guard)
    · obtain ⟨server,_,apart,_⟩ := guard
      rw [run,eq] at table ⊢
      refine ⟨table,appended server,inv.scratch,?_,inv.closed⟩
      intro m mem
      rcases List.mem_append.mp mem with old | new
      · exact inv.addrs m old
      · rw [List.mem_singleton.mp new]
        exact apart
  | remove t =>
    refine keeps (removeDealloc inv t) ?_
    rw [removeTable]
    exact fun b mem => inv.servers b (List.mem_filter.mp mem).1
  | prune x =>
    refine keeps (pruneDealloc inv x) ?_
    rw [pruneTable]
    intro b mem
    obtain ⟨d,hd,rfl⟩ := List.mem_map.mp (List.mem_filter.mp mem).1
    exact inv.servers d hd
  | refresh t timeout => exact keeps rfl (updated (fun _ => rfl))
  | createPermission t peer timeout =>
    refine keeps rfl ?_
    rw [createdPermission]
    exact updated (grantTuple peer)
  | channelBind t n peer timeout =>
    refine keeps rfl ?_
    rcases @bindCases turn a.allocs t timeout inv.table.distinct n peer with ⟨_,same⟩ | ⟨d,e,_,_,_,eq⟩
    · rw [same]; exact inv.servers
    · rw [eq]; exact updated (rebindTuple n peer)

theorem unreleasedEmpty : Unreleased turn listen .empty :=
  ⟨emptyTableOk,by simp [Allocator.empty],rfl,by simp [Allocator.empty,NetAllocator.empty],rfl⟩

theorem unreleased {h s} (run : Run (machine turn listen) h s) : Unreleased turn listen s :=
  invariant (Q := Unreleased turn listen) unreleasedEmpty (fun _ c inv guard => unreleasedStep inv c guard) run

theorem openSockets {a : Allocator} (inv : Unreleased turn listen a) :
    a.raddr.sockets = a.raddr.allocs.map NetAllocation.conn := by
  unfold NetAllocator.sockets
  rw [List.filter_eq_self]
  intro c _
  simp [NetAllocator.isOpen,inv.closed]

theorem connsSame {l l' : Table} (same : l'.map Allocation.conn = l.map Allocation.conn) : conns l' = conns l := by
  have whole (l : Table) : conns l = (l.map Allocation.conn).filterMap id := by simp [conns,List.filterMap_map]
  rw [whole,whole,same]

theorem rebindConn (n : ChannelNumber) (peer : Addr) (a : Allocation) :
    (Allocation.rebind n peer timeout a).conn = a.conn := by
  unfold Allocation.rebind
  cases bound : Allocation.bindTo n peer timeout a with
  | none => rfl
  | some b => exact (bindToTuple bound).2.1

theorem removeKeeps {a : Allocator} (ok : TableOk turn a.allocs) {t : FiveTuple}
    (none : ∀ b, find turn a.allocs t = some b → b.conn = none) : conns (remove turn a.allocs t).1 = conns a.allocs := by
  rw [removeTable]
  refine filterMapKept ?_
  intro b mem hit
  exact none b (lookupOfMem ok.distinct mem (by simpa using hit))

theorem removeLoses {a : Allocator} {t : FiveTuple}
    (same : (conns a.allocs).length ≤ (conns (remove turn a.allocs t).1).length) :
    ∀ b, find turn a.allocs t = some b → b.conn = none := by
  intro b found
  obtain ⟨mem,hit⟩ := lookupSome found
  rw [removeTable] at same
  exact filterMapLost same b mem (by simp [hit])

theorem prunedConns (l : Table) (x : Time) : conns (l.map (Allocation.prune x)) = conns l :=
  connsSame (by simp [Allocation.prune,Function.comp_def])

theorem pruneKeeps {a : Allocator} {x : Time} (none : ∀ b ∈ a.allocs, b.timeout ≤ x → b.conn = none) :
    conns (prune a.allocs x).1 = conns a.allocs := by
  rw [pruneTable,← prunedConns a.allocs x]
  refine filterMapKept ?_
  intro b mem late
  obtain ⟨c,hc,rfl⟩ := List.mem_map.mp mem
  exact none c hc (Int.not_lt.mp (of_decide_eq_false late))

theorem pruneLoses {a : Allocator} {x : Time}
    (same : (conns a.allocs).length ≤ (conns (prune a.allocs x).1).length) :
    ∀ b ∈ a.allocs, b.timeout ≤ x → b.conn = none := by
  intro b mem late
  rw [pruneTable,← prunedConns a.allocs x] at same
  exact filterMapLost same (b.prune x) (List.mem_map.mpr ⟨b,mem,rfl⟩) (decide_eq_false (Int.not_lt.mpr late))

theorem conservedStep {a : Allocator} (inv : Unreleased turn listen a) (now : Conserved a) (c : Call)
    (guard : Permitted turn listen a c) (kept : KeepsSockets turn ⟨a,c⟩) : Conserved (a.run turn c) := by
  have next := unreleasedStep inv c guard
  unfold Conserved at now ⊢
  rw [openSockets inv] at now
  rw [openSockets next]
  have same {allocs : Table} (eq : a.run turn c = { a with allocs := allocs }) (table : conns allocs = conns a.allocs) :
      ((a.run turn c).raddr.allocs.map NetAllocation.conn).Perm (conns (a.run turn c).allocs) := by
    rw [eq,table]
    exact now
  cases c with
  | new t timeout port =>
    have run : a.run turn (.new t timeout port) = (a.new turn t timeout port).1 := rfl
    rcases newCases turn a t timeout port with ⟨e,_,eq⟩ | ⟨_,_,⟨e,rfl,eq⟩ | ⟨n,rfl,eq⟩⟩
    · rw [run,eq]; exact now
    · refine same (run.trans (congrArg Prod.fst eq)) ?_
      simp [conns,placeholder]
    · rw [run,eq]
      simpa [conns,NetAllocator.new,installed,placeholder] using now.append_right [n.conn]
  | remove t => exact same (removeDealloc inv t) (removeKeeps inv.table kept)
  | prune x => exact same (pruneDealloc inv x) (pruneKeeps kept)
  | refresh t timeout => exact same rfl (connsSame (updateFirstMap (fun _ => rfl)))
  | createPermission t peer timeout =>
    refine same rfl ?_
    rw [createdPermission]
    exact connsSame (updateFirstMap (grantConn peer))
  | channelBind t n peer timeout =>
    refine same rfl ?_
    rcases @bindCases turn a.allocs t timeout inv.table.distinct n peer with ⟨_,eq⟩ | ⟨d,e,_,_,_,eq⟩
    · rw [eq]
    · rw [eq]; exact connsSame (updateFirstMap (rebindConn n peer))

theorem lostStep {a : Allocator} (inv : Unreleased turn listen a) (before : Conserved a) (c : Call)
    (guard : Permitted turn listen a c) (after : Conserved (a.run turn c)) : KeepsSockets turn ⟨a,c⟩ := by
  have next := unreleasedStep inv c guard
  have left := before.length_eq
  have right := after.length_eq
  rw [openSockets inv] at left
  rw [openSockets next] at right
  cases c with
  | remove t =>
    have run : a.run turn (.remove t) = { a with allocs := (remove turn a.allocs t).1 } := removeDealloc inv t
    rw [run] at right
    exact removeLoses (Nat.le_of_eq (left.symm.trans right))
  | prune x =>
    have run : a.run turn (.prune x) = { a with allocs := (prune a.allocs x).1 } := pruneDealloc inv x
    rw [run] at right
    exact pruneLoses (Nat.le_of_eq (left.symm.trans right))
  | _ => trivial

/- In every run, the sockets of the port table are those of the allocation table in all
states reached if and only if no step drops an allocation that has a socket. -/
theorem socketsConserved {h s} (run : Run (machine turn listen) h s) :
    ((∀ x ∈ h, Conserved x.pre) ∧ Conserved s) ↔ ∀ x ∈ h, KeepsSockets turn x := by
  induction run with
  | start => exact ⟨fun _ => by simp,fun _ => ⟨by simp,List.Perm.nil⟩⟩
  | @step h s c run guard ih =>
    have inv := unreleased run
    constructor
    · intro held
      obtain ⟨states,last⟩ := held
      obtain ⟨now,earlier⟩ := List.forall_mem_cons.mp states
      exact List.forall_mem_cons.mpr ⟨lostStep inv now c guard last,ih.mp ⟨earlier,now⟩⟩
    · intro kept
      obtain ⟨now,earlier⟩ := List.forall_mem_cons.mp kept
      obtain ⟨states,current⟩ := ih.mpr earlier
      have after := conservedStep inv current c guard now
      exact ⟨List.forall_mem_cons.mpr ⟨current,states⟩,after⟩

def opened : List Call := [.new sampleTuple 60 (.ok ⟨sampleRelayed,17,1⟩)]

theorem openedAllowed : Allowed (machine .documented sampleServer) .empty opened :=
  ⟨⟨rfl,by simp [Fresh,Allocator.empty,NetAllocator.empty]; decide⟩,trivial⟩

theorem socketsConservedSample :
    (∀ x ∈ (trace (machine .documented sampleServer) [] .empty opened).1, Conserved x.pre) ∧
      Conserved (trace (machine .documented sampleServer) [] .empty opened).2 := by
  have run := traceStart (m := machine .documented sampleServer) opened openedAllowed
  refine (socketsConserved run).mpr ?_
  exact List.forall_mem_cons.mpr ⟨trivial,by simp⟩

def removed : List Call := opened ++ [.remove sampleTuple]

/- After `Remove` the table is empty and the socket is still registered and open. -/
theorem removedSocketStaysOpen : ∃ s, Reachable (machine .documented sampleServer) s ∧ ¬ Conserved s := by
  have run := traceStart (m := machine .documented sampleServer) removed ⟨openedAllowed.1,trivial,trivial⟩
  refine ⟨_,⟨_,run⟩,?_⟩
  intro same
  have lengths := same.length_eq
  exact absurd lengths (by decide)

end Gortcd.Sockets
