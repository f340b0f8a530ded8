import Gortcd.Interleaving
import Gortcd.Sockets

/-! Clients do not see each other. `effect` and `returns` describe a call by the record of
its own tuple alone; the table with its scans behaves as one such record for each client,
so that calls on different tuples leave each other's records alone and commute. Closing a
relay socket goes through the port table, by the address that all clients share: it closes
nothing as long as no relayed address is the listening address. -/
namespace Gortcd.Isolation
open Keyed Net Ports Sections Records Relaying Calls Runs Interleaving

variable {turn : Turn} {listen : Addr}

def effect (turn : Turn) : Call → Option Allocation → Option Allocation
  | .new t timeout port,none =>
      if t.proto != turn.protoUDP then none
      else match port with
        | .error _ => some (placeholder t timeout)
        | .ok n => some (installed t timeout n.addr n.conn)
  | .new _ _ _,some a => some a
  | .remove _,_ => none
  | .prune _,o => o
  | .refresh _ timeout,o => o.map (fun a => { a with timeout := timeout })
  | .createPermission _ peer timeout,o => o.map (Allocation.grant peer timeout)
  | .channelBind _ n peer timeout,o => if turn.channelValid n then o.map (Allocation.rebind n peer timeout) else o

def returns (turn : Turn) : Call → Option Allocation → Except Err (Option Addr)
  | .new t _ port,o =>
      if t.proto != turn.protoUDP then .error (.protoNotImplemented t.proto)
      else if o.isSome then .error .allocationMismatch
      else match port with
        | .error e => .error (.failedToAllocate e)
        | .ok n => .ok (some n.addr)
  | .remove _,o => if o.isSome then .ok none else .error .allocationMismatch
  | .prune _,_ => .ok none
  | .refresh _ _,_ => .ok none
  | .createPermission _ _ _,o => if o.isSome then .ok none else .error .allocationMismatch
  | .channelBind _ n peer timeout,o =>
      if !turn.channelValid n then .error .invalidChannelNumber
      else if (o.bind (Allocation.bindTo n peer timeout)).isSome then .ok none
      else .error .allocationMismatch

theorem removedNone (allocs : Table) (t : FiveTuple) :
    (remove turn allocs t).2.isEmpty = (find turn allocs t).isNone := by
  have none : (allocs.filter (fun a => turn.tuples.same a.tuple t) = []) ↔ find turn allocs t = none := by
    rw [List.filter_eq_nil_iff,find,lookupNone]
    simp
  simp only [remove]
  cases found : find turn allocs t with
  | none => simp [none.mpr found]
  | some a =>
    rw [Option.isNone_some,List.isEmpty_eq_false_iff]
    intro empty
    rw [none.mp empty] at found
    cases found

theorem removeAllocs (a : Allocator) (t : FiveTuple) :
    (a.remove turn t).1.allocs = (remove turn a.allocs t).1 := by
  unfold Allocator.remove
  dsimp only
  split <;> rfl

theorem newRecord {a : Allocator} {t t' : FiveTuple} {timeout : Time} {port : Except PortErr NetAllocation} :
    find turn (a.new turn t timeout port).1.allocs t' =
      if turn.tuples.same t t' then effect turn (.new t timeout port) (find turn a.allocs t) else find turn a.allocs t' := by
  have appended {b : Allocation} (fresh : find turn a.allocs t = none) (tuple : b.tuple = t) :
      find turn (a.allocs ++ [b]) t' = if turn.tuples.same t t' then some b else find turn a.allocs t' := by
    subst tuple
    exact lookupAppend fresh
  have refused {o : Option Allocation} (same : o = find turn a.allocs t) :
      find turn a.allocs t' = if turn.tuples.same t t' then o else find turn a.allocs t' := by
    split
    · rename_i hit
      rw [same]
      exact (lookupCongr hit).symm
    · rfl
  rcases newCases turn a t timeout port with ⟨e,failed,eq⟩ | ⟨udp,fresh,⟨e,rfl,eq⟩ | ⟨n,rfl,eq⟩⟩ <;> rw [eq]
  · refine refused ?_
    rcases registerFails failed with ⟨other,_⟩ | ⟨_,used,_⟩
    · cases find turn a.allocs t with
      | none => simp [effect,other]
      | some b => rfl
    · obtain ⟨b,found⟩ := Option.isSome_iff_exists.mp used
      rw [found]
      rfl
  · rw [fresh,appended fresh rfl]
    simp [effect,udp]
  · rw [fresh,appended fresh rfl]
    simp [effect,udp]

/- A call acts on the record of its own tuple, as if that were the only one. -/
theorem runRecord {a : Allocator} (ok : TableOk turn a.allocs) {c : Call} {t t' : FiveTuple} (own : c.tuple = some t) :
    find turn (a.run turn c).allocs t' =
      if turn.tuples.same t t' then effect turn c (find turn a.allocs t) else find turn a.allocs t' := by
  cases c with
  | prune x => cases own
  | new s timeout port =>
    cases own
    exact newRecord
  | remove s =>
    cases own
    rw [Allocator.run,removeAllocs,findRemove]
    rfl
  | refresh s timeout =>
    cases own
    exact findRefresh
  | createPermission s peer timeout =>
    cases own
    exact findGrant peer
  | channelBind s n peer timeout =>
    cases own
    have moved : find turn a.allocs t' = if turn.tuples.same t t' then find turn a.allocs t else find turn a.allocs t' := by
      split
      · rename_i same
        exact (lookupCongr same).symm
      · rfl
    simp only [Allocator.run,Allocator.channelBind,channelBound ok.distinct,effect]
    cases valid : turn.channelValid n with
    | false => simpa using moved
    | true =>
      cases found : find turn a.allocs t with
      | none => simpa [found] using moved
      | some b => cases bound : Allocation.bindTo n peer timeout b with
        | none => simpa [found,bound,Allocation.rebind] using moved
        | some d => simp [bound,findRebind,found]

theorem runOutcome {a : Allocator} (ok : TableOk turn a.allocs) {c : Call} {t : FiveTuple} (own : c.tuple = some t) :
    a.outcome turn c = returns turn c (find turn a.allocs t) := by
  cases c with
  | prune x => cases own
  | new s timeout port =>
    cases own
    rw [Allocator.outcome]
    rcases newCases turn a t timeout port with ⟨e,failed,eq⟩ | ⟨udp,fresh,⟨e,rfl,eq⟩ | ⟨n,rfl,eq⟩⟩ <;> rw [eq]
    · rcases registerFails failed with ⟨other,rfl⟩ | ⟨udp,used,rfl⟩
      · simp [returns,other,Except.map]
      · simp [returns,udp,used,Except.map]
    · simp [returns,udp,fresh,Except.map]
    · simp [returns,udp,fresh,Except.map]
  | remove s =>
    cases own
    simp only [Allocator.outcome,Allocator.remove,removedNone,returns]
    cases find turn a.allocs t <;> rfl
  | refresh s timeout => rfl
  | createPermission s peer timeout =>
    cases own
    simp only [Allocator.outcome,Allocator.createPermission,createdPermission,returns]
    cases find turn a.allocs t <;> rfl
  | channelBind s n peer timeout =>
    cases own
    simp only [Allocator.outcome,Allocator.channelBind,channelBound ok.distinct,returns]
    cases turn.channelValid n with
    | false => rfl
    | true => cases (find turn a.allocs t).bind (Allocation.bindTo n peer timeout) <;> rfl

/- Tuples have the listening address of the server, and the port allocator hands out new
sockets on other addresses. -/
def Served (turn : Turn) (listen : Addr) (s : State) : Event → Prop
  | .register _ t _ => t.server = listen
  | .answer _ (.ok n) => Sockets.Fresh turn listen s.toAllocator n
  | _ => True

def machine (turn : Turn) (listen : Addr) : Machine State Event :=
  ⟨.empty,fun s e => enabled s e ∧ Served turn listen s e,next turn⟩

structure Apart (turn : Turn) (listen : Addr) (s : State) : Prop where
  held : Sockets.Unreleased turn listen s.toAllocator
  pending : ∀ p ∈ s.pending, p.tuple.server = listen
  dealloc : ∀ d ∈ s.dealloc, d.1 = listen

theorem serversStep {s : State} (inv : Apart turn listen s) {e : Event} (served : Served turn listen s e) :
    ∀ b ∈ (next turn s e).allocs, b.tuple.server = listen := by
  have ok := inv.held.table
  have after := changeOk (nextChange ok e) ok
  intro b mem
  obtain ⟨o,before,step⟩ := stepTo ok (lookupOfMem after.distinct mem (turn.tuples.refl b.tuple))
  have old {c : Allocation} (found : o = some c) : c.tuple.server = listen :=
    inv.held.servers c (lookupSome (before.trans found)).1
  cases step with
  | kept => exact old rfl
  | registered => exact served
  | installed call => exact inv.pending _ (callSome call).1
  | @pruned x c => exact @old c rfl
  | @refreshed _ _ c => exact @old c rfl
  | granted =>
    rw [grantTuple]
    exact old rfl
  | bound _ _ to' =>
    rw [(bindToTuple to').1]
    exact old rfl

theorem pendingStep {s : State} (inv : Apart turn listen s) {e : Event} (served : Served turn listen s e) :
    ∀ p ∈ (next turn s e).pending, p.tuple.server = listen := by
  intro p mem
  rcases pendingOrigin mem with old | ⟨k,t,timeout,rfl,rfl⟩ | ⟨k,n,q,_,held,_,rfl⟩
  · exact inv.pending p old
  · exact served
  · exact inv.pending q held

theorem deallocStep {s : State} (inv : Apart turn listen s) (e : Event) : ∀ d ∈ (next turn s e).dealloc, d.1 = listen := by
  have released {l : List Allocation} (servers : ∀ b ∈ l, b.tuple.server = listen) :
      ∀ d ∈ s.dealloc ++ releases l, d.1 = listen := by
    intro d mem
    rcases List.mem_append.mp mem with old | new
    · exact inv.dealloc d old
    · obtain ⟨b,listed,rfl⟩ := List.mem_map.mp new
      exact servers b listed
  cases e with
  | register k t timeout =>
    simp only [next]
    split <;> exact inv.dealloc
  | answer k port => cases port <;> exact inv.dealloc
  | install k =>
    simp only [next]
    split <;> exact inv.dealloc
  | remove t => exact released (fun b mem => inv.held.servers b (List.mem_filter.mp mem).1)
  | prune x =>
    refine released ?_
    intro b mem
    obtain ⟨c,listed,rfl⟩ := List.mem_map.mp (List.mem_filter.mp mem).1
    exact inv.held.servers c listed
  | dealloc addr proto => exact fun d mem => inv.dealloc d (List.mem_of_mem_erase mem)
  | _ => exact inv.dealloc

/- The port table only grows: a release names the listening address and matches nothing. -/
theorem portsStep {s : State} (inv : Apart turn listen s) {e : Event} (guard : enabled s e) :
    (next turn s e).raddr = s.raddr ∨ ∃ k n, e = .answer k (.ok n) ∧ (next turn s e).raddr = s.raddr.new n := by
  cases e with
  | register k t timeout =>
    simp only [next]
    split <;> exact .inl rfl
  | answer k port => cases port with
    | error e => exact .inl rfl
    | ok n => exact .inr ⟨k,n,rfl,rfl⟩
  | install k =>
    simp only [next]
    split <;> exact .inl rfl
  | dealloc addr proto =>
    have shared : addr = listen := inv.dealloc _ guard
    refine .inl (removeUnmatched inv.held.scratch ?_)
    intro n mem
    simp [matched,shared,inv.held.addrs n mem]
  | _ => exact .inl rfl

theorem apartStep {s : State} (inv : Apart turn listen s) {e : Event} (guard : (machine turn listen).enabled s e) :
    Apart turn listen (next turn s e) := by
  obtain ⟨guard,served⟩ := guard
  refine ⟨?_,pendingStep inv served,deallocStep inv e⟩
  have table := changeOk (nextChange inv.held.table e) inv.held.table
  rcases portsStep inv guard with same | ⟨k,n,rfl,grown⟩
  · exact ⟨table,serversStep inv served,by rw [same]; exact inv.held.scratch,by rw [same]; exact inv.held.addrs,
      by rw [same]; exact inv.held.closed⟩
  · refine ⟨table,serversStep inv served,by rw [grown]; exact inv.held.scratch,?_,by rw [grown]; exact inv.held.closed⟩
    intro m mem
    rw [grown] at mem
    rcases List.mem_append.mp mem with old | new
    · exact inv.held.addrs m old
    · rw [List.mem_singleton.mp new]
      exact served.2.1

theorem apart {h s} (run : Run (machine turn listen) h s) : Apart turn listen s := by
  have empty : Apart turn listen .empty := ⟨Sockets.unreleasedEmpty,by simp [State.empty],by simp [State.empty]⟩
  exact invariant (Q := Apart turn listen) empty (fun _ e inv guard => apartStep inv guard) run

/- The record of a tuple and, if it has a relay socket, whether that is open. -/
def record (turn : Turn) (a : Allocator) (t : FiveTuple) : Option (Allocation × Option Bool) :=
  (find turn a.allocs t).map (fun b => (b,b.conn.map a.raddr.isOpen))

/- The same call, apart from the fresh address that a `New` receives. -/
inductive Alike : Call → Call → Prop where
  | same (c : Call) : Alike c c
  | new (t : FiveTuple) (timeout : Time) (n m : NetAllocation) :
      Alike (.new t timeout (.ok n)) (.new t timeout (.ok m))

def unaddressed (a : Allocation) : Allocation := { a with relayedAddr := ⟨[],0⟩, conn := a.conn.map (fun _ => 0) }

def nameless (r : Allocation × Option Bool) : Allocation × Option Bool := (unaddressed r.1,r.2)

theorem openRecord {a : Allocator} (inv : Sockets.Unreleased turn listen a) (t : FiveTuple) :
    record turn a t = (find turn a.allocs t).map (fun b => (b,b.conn.map (fun _ => true))) := by
  have opened : a.raddr.isOpen = fun _ => true := by
    funext c
    simp [NetAllocator.isOpen,inv.closed]
  rw [record,opened]

theorem namelessRecord {a : Allocator} (inv : Sockets.Unreleased turn listen a) (t : FiveTuple) :
    (record turn a t).map nameless =
      ((find turn a.allocs t).map unaddressed).map (fun b => (b,b.conn.map (fun _ => true))) := by
  rw [openRecord inv,Option.map_map,Option.map_map]
  congr 1
  funext b
  simp [nameless,unaddressed,Function.comp_def]

theorem alikeTuple {c c' : Call} (alike : Alike c c') : c'.tuple = c.tuple := by
  cases alike <;> rfl

theorem alikeEffect {c c' : Call} (alike : Alike c c') (o : Option Allocation) :
    (effect turn c o).map unaddressed = (effect turn c' o).map unaddressed := by
  cases alike with
  | same => rfl
  | new t timeout n m => cases o with
    | none =>
      simp only [effect]
      split <;> rfl
    | some a => rfl

theorem alikeReturns {c c' : Call} (alike : Alike c c') (o : Option Allocation) :
    (returns turn c o).map (fun _ => ()) = (returns turn c' o).map (fun _ => ()) := by
  cases alike with
  | same => rfl
  | new t timeout n m =>
    simp only [returns]
    split
    · rfl
    · split <;> rfl

theorem pairRecord {a : Allocator} (ok : TableOk turn a.allocs) {c d : Call} {t t' : FiveTuple}
    (first : c.tuple = some t) (second : d.tuple = some t') (other : turn.tuples.same t t' = false) (u : FiveTuple) :
    find turn ((a.run turn c).run turn d).allocs u =
      if turn.tuples.same t' u then effect turn d (find turn a.allocs t')
      else if turn.tuples.same t u then effect turn c (find turn a.allocs t)
      else find turn a.allocs u := by
  have after : TableOk turn (a.run turn c).allocs := runOk ok c
  have alone : find turn (a.run turn c).allocs t' = find turn a.allocs t' := by
    rw [runRecord ok first,if_neg (by simp [other])]
  rw [runRecord after second,alone,runRecord ok first]

theorem notBoth {t t' u : FiveTuple} (other : turn.tuples.same t t' = false) (left : turn.tuples.same t u = true) :
    turn.tuples.same t' u = false := by
  rw [Bool.eq_false_iff]
  intro right
  rw [turn.tuples.trans left (turn.tuples.symm right)] at other
  cases other

section Orders
variable {a : Allocator} (ok : TableOk turn a.allocs) {c d c' d' : Call} {t t' : FiveTuple}
  (first : c.tuple = some t) (second : d.tuple = some t') (other : turn.tuples.same t t' = false)
include ok first second other

theorem sameRecords (u : FiveTuple) :
    find turn ((a.run turn c).run turn d).allocs u = find turn ((a.run turn d).run turn c).allocs u := by
  have turned : turn.tuples.same t' t = false := by rw [turn.tuples.comm,other]
  rw [pairRecord ok first second other u,pairRecord ok second first turned u]
  cases left : turn.tuples.same t u with
  | false => simp
  | true => simp [notBoth other left]

theorem alikeRecords (alikeFirst : Alike c c') (alikeSecond : Alike d d') (u : FiveTuple) :
    (find turn ((a.run turn c).run turn d).allocs u).map unaddressed =
      (find turn ((a.run turn d').run turn c').allocs u).map unaddressed := by
  have turned : turn.tuples.same t' t = false := by rw [turn.tuples.comm,other]
  have firstAlike := (alikeTuple alikeFirst).trans first
  have secondAlike := (alikeTuple alikeSecond).trans second
  rw [pairRecord ok first second other u,pairRecord ok secondAlike firstAlike turned u]
  cases left : turn.tuples.same t u with
  | false =>
    simp only [Bool.false_eq_true,if_false]
    split
    · exact alikeEffect alikeSecond _
    · rfl
  | true =>
    simp only [notBoth other left,Bool.false_eq_true,if_false,if_true]
    exact alikeEffect alikeFirst _

theorem outcomeAlone : (a.run turn c).outcome turn d = a.outcome turn d := by
  have after : TableOk turn (a.run turn c).allocs := runOk ok c
  rw [runOutcome after second,runOutcome ok second,runRecord ok first,if_neg (by simp [other])]

end Orders

theorem outcomeAlike {a : Allocator} (ok : TableOk turn a.allocs) {c c' : Call} {t : FiveTuple} (own : c.tuple = some t)
    (alike : Alike c c') :
    (a.outcome turn c).map (fun _ => ()) = (a.outcome turn c').map (fun _ => ()) := by
  rw [runOutcome ok own,runOutcome ok ((alikeTuple alike).trans own)]
  exact alikeReturns alike _

theorem runFrame {a : Allocator} (inv : Sockets.Unreleased turn listen a) {c : Call} {t t' : FiveTuple}
    (own : c.tuple = some t) (other : turn.tuples.same t t' = false) :
    find turn (a.run turn c).allocs t' = find turn a.allocs t' ∧ (a.run turn c).raddr.closed = a.raddr.closed := by
  refine ⟨by rw [runRecord inv.table own,if_neg (by simp [other])],?_⟩
  cases c with
  | new s timeout port =>
    rw [Allocator.run]
    rcases newCases turn a s timeout port with ⟨e,_,eq⟩ | ⟨_,_,⟨e,_,eq⟩ | ⟨n,_,eq⟩⟩
    · rw [eq]
    · rw [eq]
    · exact congrArg (fun out => out.1.raddr.closed) eq
  | remove s => rw [Allocator.run,Sockets.removeDealloc inv]
  | prune x => cases own
  | _ => rfl

/- In every reachable state a call on one tuple leaves what every other tuple has, and what is
relayed for it, as it was. Two calls on different tuples may be exchanged, also when a `New`
receives another fresh address then. -/
theorem clientsIsolated {h s} (run : Run (machine turn listen) h s) :
    (∀ c t t', c.tuple = some t → turn.tuples.same t t' = false →
      record turn (s.run turn c) t' = record turn s.toAllocator t' ∧
      (∀ peer data, send turn (s.run turn c).allocs t' peer data = send turn s.allocs t' peer data) ∧
      (∀ n data, sendBound turn (s.run turn c).allocs t' n data = sendBound turn s.allocs t' n data) ∧
      ∀ peer, bound turn (s.run turn c).allocs t' peer = bound turn s.allocs t' peer) ∧
    ∀ c d c' d' t t', c.tuple = some t → d.tuple = some t' → turn.tuples.same t t' = false →
      Alike c c' → Alike d d' →
      Sockets.Permitted turn listen s.toAllocator c → Sockets.Permitted turn listen (s.run turn c) d →
      Sockets.Permitted turn listen s.toAllocator d' → Sockets.Permitted turn listen (s.run turn d') c' →
      (∀ u, (record turn ((s.run turn c).run turn d) u).map nameless =
        (record turn ((s.run turn d').run turn c') u).map nameless) ∧
      (s.outcome turn c).map (fun _ => ()) = ((s.run turn d').outcome turn c').map (fun _ => ()) ∧
      ((s.run turn c).outcome turn d).map (fun _ => ()) = (s.outcome turn d').map (fun _ => ()) ∧
      (c' = c → d' = d →
        (∀ u, record turn ((s.run turn c).run turn d) u = record turn ((s.run turn d).run turn c) u) ∧
        s.outcome turn c = (s.run turn d).outcome turn c ∧ (s.run turn c).outcome turn d = s.outcome turn d) := by
  have inv := (apart run).held
  have ok := inv.table
  refine ⟨?_,?_⟩
  · intro c t t' own other
    have after : TableOk turn (s.run turn c).allocs := runOk ok c
    obtain ⟨found,closed⟩ := runFrame inv own other
    refine ⟨?_,?_,?_,?_⟩
    · have opened : (s.run turn c).raddr.isOpen = s.raddr.isOpen := by
        funext conn
        simp only [NetAllocator.isOpen,closed]
      simp only [record,found,opened]
    · intro peer data
      rw [sendSpec after.distinct,sendSpec ok.distinct,found]
    · intro n data
      rw [sendBoundSpec after.distinct,sendBoundSpec ok.distinct,found]
    · intro peer
      rw [boundSpec after,boundSpec ok,found]
  · intro c d c' d' t t' first second other alikeFirst alikeSecond allowC allowD allowD' allowC'
    have turned : turn.tuples.same t' t = false := by rw [turn.tuples.comm,other]
    have firstAlike := (alikeTuple alikeFirst).trans first
    have secondAlike := (alikeTuple alikeSecond).trans second
    have left := Sockets.unreleasedStep (Sockets.unreleasedStep inv c allowC) d allowD
    have right := Sockets.unreleasedStep (Sockets.unreleasedStep inv d' allowD') c' allowC'
    refine ⟨?_,?_,?_,?_⟩
    · intro u
      rw [namelessRecord left,namelessRecord right,alikeRecords ok first second other alikeFirst alikeSecond u]
    · rw [outcomeAlone ok secondAlike firstAlike turned]
      exact outcomeAlike ok first alikeFirst
    · rw [outcomeAlone ok first second other]
      exact outcomeAlike ok second alikeSecond
    · intro sameC sameD
      subst sameC sameD
      refine ⟨?_,(outcomeAlone ok second first turned).symm,outcomeAlone ok first second other⟩
      intro u
      rw [openRecord left,openRecord right,sameRecords ok first second other u]

/- One client with an open socket; another one allocates while the first is removed. -/
def isolatedEvents : List Event :=
  [.register 1 sampleTuple 60,.answer 1 (.ok ⟨sampleRelayed,17,1⟩),.install 1]

theorem isolatedAllowed : Allowed (machine .documented sampleServer) .empty isolatedEvents := by
  refine ⟨⟨rfl,rfl⟩,⟨⟨⟨_,rfl,rfl⟩,by decide,by decide⟩,?_⟩,⟨⟨_,_,rfl,rfl⟩,trivial⟩,trivial⟩
  exact ⟨by decide,by decide,by decide,by decide⟩

theorem clientsIsolatedSample :
    (∀ u, record .documented (((trace (machine .documented sampleServer) [] .empty isolatedEvents).2.run .documented
        (.remove sampleTuple)).run .documented (.new otherTuple 60 (.ok ⟨⟨[10,0,0,1],5002⟩,17,2⟩))) u =
      record .documented (((trace (machine .documented sampleServer) [] .empty isolatedEvents).2.run .documented
        (.new otherTuple 60 (.ok ⟨⟨[10,0,0,1],5002⟩,17,2⟩))).run .documented (.remove sampleTuple)) u) ∧
    record .documented ((trace (machine .documented sampleServer) [] .empty isolatedEvents).2.run .documented
        (.new otherTuple 60 (.ok ⟨⟨[10,0,0,1],5002⟩,17,2⟩))) sampleTuple =
      some (installed sampleTuple 60 sampleRelayed 1,some true) := by
  have run := traceStart (m := machine .documented sampleServer) isolatedEvents isolatedAllowed
  obtain ⟨frame,exchange⟩ := clientsIsolated run
  refine ⟨?_,?_⟩
  · have permitted := exchange (.remove sampleTuple) (.new otherTuple 60 (.ok ⟨⟨[10,0,0,1],5002⟩,17,2⟩)) _ _ sampleTuple
      otherTuple rfl rfl (by decide) (.same _) (.same _) trivial ⟨rfl,by decide,by decide,by decide,by decide⟩
      ⟨rfl,by decide,by decide,by decide,by decide⟩ trivial
    exact (permitted.2.2.2 rfl rfl).1
  · exact (frame _ otherTuple sampleTuple rfl (by decide)).1

end Gortcd.Isolation
