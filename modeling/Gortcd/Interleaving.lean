import Gortcd.Lib.Runs
import Gortcd.Calls
import Gortcd.Permissions

/-! The allocator under concurrent callers. Each critical section under `allocsMux` is one
step, as is each section of the port table; `New` takes three steps (`register`, `answer`
by the port allocator, `install`), and the releases that `Remove` and `Prune` make after
unlocking wait in `dealloc`. A call of `New` in progress is a `Pending` record. -/
namespace Gortcd.Interleaving
open Keyed Net Ports Sections Records Permissions Calls Runs

structure Pending where
  call : Nat
  tuple : FiveTuple
  timeout : Time
  port : Option NetAllocation
  deriving DecidableEq, Repr

/- `go allocation.ReadUntilClosed()` on the copy of the allocation that `New` holds. -/
structure Loop where
  tuple : FiveTuple
  conn : Conn
  bufLen : Nat
  deriving DecidableEq, Repr

structure State extends Allocator where
  pending : List Pending
  dealloc : List (Addr × Protocol)
  loops : List Loop
  deriving DecidableEq, Repr

def State.empty : State := ⟨.empty,[],[],[]⟩

inductive Event where
  | register (call : Nat) (t : FiveTuple) (timeout : Time)
  | answer (call : Nat) (port : Except PortErr NetAllocation)
  | install (call : Nat)
  | remove (t : FiveTuple)
  | prune (now : Time)
  | dealloc (addr : Addr) (proto : Protocol)
  | refresh (t : FiveTuple) (timeout : Time)
  | createPermission (t : FiveTuple) (peer : Addr) (timeout : Time)
  | channelBind (t : FiveTuple) (n : ChannelNumber) (peer : Addr) (timeout : Time)
  | peerData (l : Loop) (data : Bytes) (peer : Addr) (id : Option Bytes)

def State.call (s : State) (k : Nat) : Option Pending := s.pending.find? (fun p => p.call == k)

def State.done (s : State) (k : Nat) : List Pending := s.pending.filter (fun p => p.call != k)

def releases (l : List Allocation) : List (Addr × Protocol) := l.map (fun a => (a.tuple.server,a.tuple.proto))

/- A new socket is a new object. -/
def NewSocket (s : State) (n : NetAllocation) : Prop :=
  n.conn ∉ s.raddr.allocs.map NetAllocation.conn ∧ n.conn ∉ s.raddr.closed

def enabled (s : State) : Event → Prop
  | .register k _ _ => s.call k = none
  | .answer k (.ok n) => (∃ p, s.call k = some p ∧ p.port = none) ∧ NewSocket s n
  | .answer k (.error _) => ∃ p, s.call k = some p ∧ p.port = none
  | .install k => ∃ p n, s.call k = some p ∧ p.port = some n
  | .dealloc addr proto => (addr,proto) ∈ s.dealloc
  | .peerData l data _ _ => l ∈ s.loops ∧ s.raddr.isOpen l.conn = true ∧ data.length ≤ l.bufLen
  | _ => True

theorem openCall {s : State} {k : Nat} :
    (s.call k).any (fun p => p.port.isNone) = true ↔ ∃ p, s.call k = some p ∧ p.port = none := by
  simp only [Option.any_eq_true,Option.isNone_iff_eq_none]

theorem answeredCall {s : State} {k : Nat} :
    (s.call k).any (fun p => p.port.isSome) = true ↔ ∃ p n, s.call k = some p ∧ p.port = some n := by
  simp only [Option.any_eq_true,Option.isSome_iff_exists,exists_and_left]

instance (s : State) (k : Nat) : Decidable (∃ p, s.call k = some p ∧ p.port = none) := decidable_of_iff _ openCall

instance (s : State) (n : NetAllocation) : Decidable (NewSocket s n) := inferInstanceAs (Decidable (_ ∧ _))

instance (s : State) (e : Event) : Decidable (enabled s e) :=
  match e with
  | .register _ _ _ => inferInstanceAs (Decidable (_ = none))
  | .answer _ (.ok _) => inferInstanceAs (Decidable (_ ∧ _))
  | .answer k (.error _) => inferInstanceAs (Decidable (∃ p, s.call k = some p ∧ p.port = none))
  | .install _ => decidable_of_iff _ answeredCall
  | .dealloc _ _ => inferInstanceAs (Decidable (_ ∈ s.dealloc))
  | .peerData _ _ _ _ => inferInstanceAs (Decidable (_ ∧ _))
  | .remove _ | .prune _ | .refresh _ _ | .createPermission _ _ _ | .channelBind _ _ _ _ => .isTrue trivial

/- `New` reports success after its second section whether or not that section found a
record. The loop is started either way, but `Conn` is set only inside the match: without
one the goroutine panics on a nil connection, and no socket is read. -/
def next (turn : Turn) (s : State) : Event → State
  | .register k t timeout => match register turn s.allocs t timeout with
    | .error _ => s
    | .ok allocs => { s with allocs := allocs, pending := ⟨k,t,timeout,none⟩ :: s.pending }
  | .answer k (.error _) => { s with pending := s.done k }
  | .answer k (.ok n) =>
      { s with raddr := s.raddr.new n, pending := s.pending.map (fun p => if p.call == k then { p with port := some n } else p) }
  | .install k => match s.call k with
    | some ⟨_,t,timeout,some n⟩ =>
        { s with
          allocs := install turn s.allocs t timeout n.addr n.conn
          pending := s.done k
          loops := if (find turn s.allocs t).isSome then ⟨t,n.conn,2048⟩ :: s.loops else s.loops }
    | _ => s
  | .remove t =>
      let out := remove turn s.allocs t
      { s with allocs := out.1, dealloc := s.dealloc ++ releases out.2 }
  | .prune now =>
      let out := prune s.allocs now
      { s with allocs := out.1, dealloc := s.dealloc ++ releases out.2 }
  | .dealloc addr proto => { s with raddr := s.raddr.remove turn addr proto, dealloc := s.dealloc.erase (addr,proto) }
  | .refresh t timeout => { s with allocs := (refresh turn s.allocs t timeout).1 }
  | .createPermission t peer timeout => { s with allocs := (createPermission turn s.allocs t peer timeout).1 }
  | .channelBind t n peer timeout => { s with allocs := (channelBind turn s.allocs t n peer timeout).1 }
  | .peerData _ _ _ _ => s

def machine (turn : Turn) : Machine State Event := ⟨.empty,enabled,next turn⟩

instance (turn : Turn) (s : State) (e : Event) : Decidable ((machine turn).enabled s e) :=
  inferInstanceAs (Decidable (enabled s e))

/- The step leaves such a goroutine behind, and nothing recovers its panic: the process goes
down as soon as it runs. Invariants of the states up to then do not depend on it; a result that
says what still happens takes runs without such a step. -/
def orphaned (turn : Turn) (s : State) : Event → Bool
  | .install k => match s.call k with
    | some ⟨_,t,_,some _⟩ => (find turn s.allocs t).isNone
    | _ => false
  | _ => false

variable {turn : Turn}

theorem nextChange {s : State} (ok : TableOk turn s.allocs) (e : Event) :
    Change turn s.allocs (next turn s e).allocs := by
  cases e with
  | register k t timeout =>
    simp only [next]
    cases registering : register turn s.allocs t timeout with
    | error f => exact .keep s.allocs
    | ok allocs => exact registerChange registering
  | answer k port => cases port <;> exact .keep s.allocs
  | install k =>
    simp only [next]
    split
    · exact .install s.allocs _ _ _ _
    · exact .keep s.allocs
  | remove t => exact .remove s.allocs t
  | prune now => exact .prune s.allocs now
  | dealloc addr proto => exact .keep s.allocs
  | refresh t timeout => exact .refresh s.allocs t timeout
  | createPermission t peer timeout => exact grantChange peer
  | channelBind t n peer timeout => exact bindChange ok.distinct n peer
  | peerData l data peer id => exact .keep s.allocs

theorem tableOk {h s} (run : Run (machine turn) h s) : TableOk turn s.allocs := by
  have empty : TableOk turn State.empty.allocs := emptyTableOk
  exact invariant (Q := fun s : State => TableOk turn s.allocs) empty (fun _ e ok _ => changeOk (nextChange ok e) ok) run

/- The same with the comparisons and the range of a channel number written out. -/
theorem tableRepresented {h s} (run : Run (machine turn) h s) :
    s.allocs.Pairwise (fun a b => turn.tuples.same a.tuple b.tuple = false) ∧
    ∀ a ∈ s.allocs, a.permissions.Pairwise (fun p q => IP.equal p.ip q.ip = false) ∧
      ∀ p ∈ a.permissions, p.bindings.Pairwise (fun b c => b.port ≠ c.port) ∧
        p.bindings.Pairwise (fun b c => b.channel ≠ c.channel) ∧
        ∀ b ∈ p.bindings, 0x4000 ≤ b.channel ∧ b.channel ≤ 0x7fff := by
  have ok := tableOk run
  refine ⟨ok.distinct,?_⟩
  intro a mem
  have inside := ok.allocations a mem
  refine ⟨inside.distinct,?_⟩
  intro p held
  have inner := inside.permissions p held
  refine ⟨inner.ports.imp ?_,inner.channels.imp ?_,?_⟩
  · intro b c apart
    exact beq_eq_false_iff_ne.mp apart
  · intro b c apart
    exact beq_eq_false_iff_ne.mp apart
  · intro b bound
    exact (turn.channelRange b.channel).mp (inner.valid b bound)

/- Two allocations, a permission granted twice and three bindings of it, one of them refused. -/
def representedEvents : List Event :=
  [.register 1 sampleTuple 60,.register 2 { sampleTuple with client := sampleOther } 60,
    .answer 1 (.ok ⟨sampleRelayed,17,1⟩),.createPermission sampleTuple samplePeer 50,.install 1,
    .createPermission sampleTuple samplePeer 40,.createPermission sampleTuple samplePeer 50,
    .channelBind sampleTuple 0x4001 samplePeer 50,.channelBind sampleTuple 0x4002 samplePeer 50,
    .channelBind sampleTuple 0x4002 { samplePeer with port := 2002 } 50]

def represented : List (Step State Event) × State := trace (machine .documented) [] .empty representedEvents

theorem representedRun : Run (machine .documented) represented.1 represented.2 := traceStart representedEvents
  ⟨rfl,rfl,⟨⟨_,rfl,rfl⟩,by decide,by decide⟩,trivial,⟨_,_,rfl,rfl⟩,trivial,trivial,trivial,trivial,trivial,trivial⟩

theorem tableRepresentedSample :
    represented.2.allocs.length = 2 ∧ ∀ a ∈ represented.2.allocs, ∀ p ∈ a.permissions,
      p.bindings.length = 2 ∧ p.bindings.Pairwise (fun b c => b.port ≠ c.port) := by
  refine ⟨by decide,?_⟩
  intro a mem p held
  refine ⟨?_,((tableRepresented representedRun).2 a mem).2 p held |>.1⟩
  revert a p
  decide

theorem tableOkAt {h s} (run : Run (machine turn) h s) {x : Step State Event} (mem : x ∈ h) :
    TableOk turn x.pre.allocs := by
  obtain ⟨_,before,_⟩ := preReached run mem
  exact tableOk before

theorem installSpec {s : State} {k : Nat} {p : Pending} {n : NetAllocation} (call : s.call k = some p)
    (port : p.port = some n) : next turn s (.install k) =
      { s with
        allocs := install turn s.allocs p.tuple p.timeout n.addr n.conn
        pending := s.done k
        loops := if (find turn s.allocs p.tuple).isSome then ⟨p.tuple,n.conn,2048⟩ :: s.loops else s.loops } := by
  obtain ⟨c,t,timeout,_⟩ := p
  subst port
  simp only [next,call]

/- The step is not about a record found under `t`, or it is a `ChannelBind` that fails. -/
def Elsewhere (turn : Turn) (s : State) (t : FiveTuple) : Event → Prop
  | .install k => ∀ p n, s.call k = some p → p.port = some n → turn.tuples.same p.tuple t = false
  | .remove t' => turn.tuples.same t' t = false
  | .prune _ => False
  | .refresh t' _ => turn.tuples.same t' t = false
  | .createPermission t' _ _ => turn.tuples.same t' t = false
  | .channelBind t' n peer timeout =>
      turn.tuples.same t' t = false ∨ (channelBind turn s.allocs t' n peer timeout).2 ≠ none
  | _ => True

/- Everything a step can do to what is found under `t`. -/
inductive RecordStep (turn : Turn) (s : State) (t : FiveTuple) : Event → Option Allocation → Option Allocation → Prop where
  | absent {e} : RecordStep turn s t e none none
  | kept {e a} (elsewhere : Elsewhere turn s t e) : RecordStep turn s t e (some a) (some a)
  | registered {k t' timeout} (same : turn.tuples.same t' t = true) :
      RecordStep turn s t (.register k t' timeout) none (some (placeholder t' timeout))
  | installed {k p n a} (call : s.call k = some p) (port : p.port = some n)
      (same : turn.tuples.same p.tuple t = true) :
      RecordStep turn s t (.install k) (some a) (some (installed p.tuple p.timeout n.addr n.conn))
  | removed {t' a} (same : turn.tuples.same t' t = true) : RecordStep turn s t (.remove t') (some a) none
  | pruned {x a} (alive : x < a.timeout) : RecordStep turn s t (.prune x) (some a) (some (a.prune x))
  | expired {x a} (late : a.timeout ≤ x) : RecordStep turn s t (.prune x) (some a) none
  | refreshed {t' timeout a} (same : turn.tuples.same t' t = true) :
      RecordStep turn s t (.refresh t' timeout) (some a) (some { a with timeout := timeout })
  | granted {t' peer timeout a} (same : turn.tuples.same t' t = true) :
      RecordStep turn s t (.createPermission t' peer timeout) (some a) (some (a.grant peer timeout))
  | bound {t' n peer timeout a b} (same : turn.tuples.same t' t = true)
      (success : (channelBind turn s.allocs t' n peer timeout).2 = none)
      (to' : Allocation.bindTo n peer timeout a = some b) :
      RecordStep turn s t (.channelBind t' n peer timeout) (some a) (some b)

theorem keptStep {s : State} {e : Event} {t : FiveTuple} (o : Option Allocation) (elsewhere : Elsewhere turn s t e) :
    RecordStep turn s t e o o := by
  cases o with
  | none => exact .absent
  | some a => exact .kept elsewhere

/- The updates of one record: `f` is applied to what is found under an equal tuple. -/
theorem updatedStep {s : State} {e : Event} {t t' : FiveTuple} {f : Allocation → Allocation} {after : Table}
    (spec : find turn after t =
      if turn.tuples.same t' t then (find turn s.allocs t').map f else find turn s.allocs t)
    (elsewhere : turn.tuples.same t' t = false → Elsewhere turn s t e)
    (hit : turn.tuples.same t' t = true → ∀ a, find turn s.allocs t' = some a →
      RecordStep turn s t e (some a) (some (f a))) :
    RecordStep turn s t e (find turn s.allocs t) (find turn after t) := by
  rw [spec]
  cases same : turn.tuples.same t' t with
  | false => exact keptStep _ (elsewhere same)
  | true =>
    have moved : find turn s.allocs t' = find turn s.allocs t := lookupCongr same
    rw [if_pos rfl,← moved]
    cases found : find turn s.allocs t' with
    | none => exact .absent
    | some a => exact hit same a found

theorem pruneStep {s : State} (ok : TableOk turn s.allocs) (x : Time) (t : FiveTuple) :
    RecordStep turn s t (.prune x) (find turn s.allocs t) (find turn (next turn s (.prune x)).allocs t) := by
  simp only [next,findPrune ok.distinct]
  cases find turn s.allocs t with
  | none => exact .absent
  | some a =>
    rw [Option.map_some,Option.filter_some]
    split
    · rename_i alive
      exact .pruned (of_decide_eq_true alive)
    · rename_i late
      exact .expired (Int.not_lt.mp (fun alive => late (decide_eq_true alive)))

theorem recordStep {s : State} (ok : TableOk turn s.allocs) (e : Event) (t : FiveTuple) :
    RecordStep turn s t e (find turn s.allocs t) (find turn (next turn s e).allocs t) := by
  cases e with
  | register k t' timeout =>
    simp only [next]
    cases registering : register turn s.allocs t' timeout with
    | error f => exact keptStep _ trivial
    | ok allocs =>
      obtain ⟨_,fresh,rfl⟩ := registered registering
      simp only [findRegistered fresh]
      split
      · rename_i same
        have moved : find turn s.allocs t' = find turn s.allocs t := lookupCongr same
        rw [← moved,fresh]
        exact .registered same
      · exact keptStep _ trivial
  | answer k port => cases port <;> exact keptStep _ trivial
  | install k =>
    simp only [next]
    split
    · rename_i call
      refine updatedStep (findInstall _ _) ?_ (fun same a _ => .installed call rfl same)
      intro other p n again port
      cases call.symm.trans again
      exact other
    · rename_i idle
      refine keptStep _ (fun p n call port => ?_)
      obtain ⟨k',t',timeout,port'⟩ := p
      have held : port' = some n := port
      subst held
      exact absurd call (idle k' t' timeout n)
  | remove t' =>
    simp only [next,findRemove]
    split
    · rename_i same
      cases find turn s.allocs t with
      | none => exact .absent
      | some a => exact .removed same
    · rename_i other
      exact keptStep _ (Bool.eq_false_iff.mpr other)
  | prune x => exact pruneStep ok x t
  | dealloc addr proto => exact keptStep _ trivial
  | refresh t' timeout => exact updatedStep findRefresh id (fun same a _ => .refreshed same)
  | createPermission t' peer timeout => exact updatedStep (findGrant peer) id (fun same a _ => .granted same)
  | channelBind t' n peer timeout =>
    rcases @bindCases turn s.allocs t' timeout ok.distinct n peer with ⟨failed,eq⟩ | ⟨b,c,_,before,bound,eq⟩
    · simp only [next,eq]
      exact keptStep _ (.inr failed)
    · simp only [next,eq]
      refine updatedStep (findRebind n peer) .inl (fun same a found => .bound same (by rw [eq]) ?_)
      cases before.symm.trans found
      rw [Allocation.rebind,bound,Option.getD_some]
  | peerData l data peer id => exact keptStep _ trivial

theorem stepFrom {s : State} (ok : TableOk turn s.allocs) (e : Event) {t : FiveTuple} {a : Allocation}
    (found : find turn s.allocs t = some a) :
    ∃ o, find turn (next turn s e).allocs t = o ∧ RecordStep turn s t e (some a) o :=
  ⟨_,rfl,found ▸ recordStep ok e t⟩

theorem stepTo {s : State} (ok : TableOk turn s.allocs) {e : Event} {t : FiveTuple} {a : Allocation}
    (found : find turn (next turn s e).allocs t = some a) :
    ∃ o, find turn s.allocs t = o ∧ RecordStep turn s t e o (some a) :=
  ⟨_,rfl,found ▸ recordStep ok e t⟩

theorem pendingOrigin {s : State} {e : Event} {p : Pending} (mem : p ∈ (next turn s e).pending) :
    p ∈ s.pending ∨ (∃ k t timeout, e = .register k t timeout ∧ p = ⟨k,t,timeout,none⟩) ∨
      ∃ k n q, e = .answer k (.ok n) ∧ q ∈ s.pending ∧ q.call = k ∧ p = { q with port := some n } := by
  cases e with
  | register k t timeout =>
    simp only [next] at mem
    cases registering : register turn s.allocs t timeout with
    | error f =>
      simp only [registering] at mem
      exact .inl mem
    | ok allocs =>
      simp only [registering] at mem
      rcases List.mem_cons.mp mem with new | old
      · exact .inr (.inl ⟨k,t,timeout,rfl,new⟩)
      · exact .inl old
  | answer k port =>
    cases port with
    | error f => exact .inl (List.mem_filter.mp mem).1
    | ok n =>
      obtain ⟨q,held,rfl⟩ := List.mem_map.mp mem
      split
      · rename_i call
        exact .inr (.inr ⟨k,n,q,rfl,held,beq_iff_eq.mp call,rfl⟩)
      · exact .inl held
  | install k =>
    simp only [next] at mem
    split at mem
    · exact .inl (List.mem_filter.mp mem).1
    · exact .inl mem
  | _ => exact .inl mem

theorem callSome {s : State} {k : Nat} {p : Pending} (call : s.call k = some p) : p ∈ s.pending ∧ p.call = k :=
  ⟨List.mem_of_find?_eq_some call,by simpa using List.find?_some call⟩

end Gortcd.Interleaving
