import Gortcd.Interleaving

/-! Who owns a relay socket. `New` matches its second section by tuple only, so a call
whose registration is gone by then installs nothing, or installs over the record of
another call, and reports success either way. -/
namespace Gortcd.Ownership
open Keyed Net Ports Sections Records Calls Runs Interleaving

variable {turn : Turn}

/- The installation step of call `k`, whose port allocator answered `n`. -/
def Installs (x : Step State Event) (k : Nat) (p : Pending) (n : NetAllocation) : Prop :=
  x.event = .install k ∧ x.pre.call k = some p ∧ p.port = some n

def Registers (turn : Turn) (k : Nat) (x : Step State Event) : Prop :=
  ∃ t timeout allocs, x.event = .register k t timeout ∧ register turn x.pre.allocs t timeout = .ok allocs

def Drops (turn : Turn) (t : FiveTuple) (x : Step State Event) : Prop :=
  match x.event with
  | .remove t' => turn.tuples.same t' t = true ∧ (find turn x.pre.allocs t).isSome
  | .prune now => ∃ a, find turn x.pre.allocs t = some a ∧ a.timeout ≤ now
  | _ => False

def Lost (turn : Turn) (k : Nat) (t : FiveTuple) (h : List (Step State Event)) : Prop :=
  Since (Drops turn t) (fun x => ¬ Registers turn k x) h

def LostSocket (turn : Turn) (c : Conn) : List (Step State Event) → Prop
  | [] => False
  | x :: h => (∃ k p n, Installs x k p n ∧ n.conn = c ∧ Lost turn k p.tuple h) ∨ LostSocket turn c h

def Owned (turn : Turn) (x : Step State Event) : Prop :=
  ∀ k p n, Installs x k p n → ∃ a, find turn (next turn x.pre x.event).allocs p.tuple = some a ∧
    a.relayedAddr = n.addr ∧ a.conn = some n.conn

def Referenced (s : State) (c : Conn) : Prop := s.raddr.isOpen c = true → ∃ a ∈ s.allocs, a.conn = some c

/- An installation finds a record of its tuple, and no step takes out or overwrites a
record with the socket of a call that had lost its registration. -/
def Owning (turn : Turn) (h : List (Step State Event)) (x : Step State Event) : Prop :=
  match x.event with
  | .install k => ∀ p n, x.pre.call k = some p → p.port = some n → ∃ a, find turn x.pre.allocs p.tuple = some a ∧
      ∀ c, a.conn = some c → ¬ LostSocket turn c h
  | .remove t => ∀ a c, find turn x.pre.allocs t = some a → a.conn = some c → ¬ LostSocket turn c h
  | .prune now => ∀ a ∈ x.pre.allocs, a.timeout ≤ now → ∀ c, a.conn = some c → ¬ LostSocket turn c h
  | _ => True

theorem ownedInstall {s : State} {e : Event} {h : List (Step State Event)} (met : Owning turn h ⟨s,e⟩) :
    Owned turn ⟨s,e⟩ := by
  intro k p n installs
  obtain ⟨rfl,call,port⟩ := installs
  obtain ⟨a,found,_⟩ := met p n call port
  have after := @installSpec turn s k p n call port
  refine ⟨installed p.tuple p.timeout n.addr n.conn,?_,rfl,rfl⟩
  dsimp only
  rw [after,findInstall,if_pos (turn.tuples.refl _),found,Option.map_some]

theorem lostKept {s : State} (ok : TableOk turn s.allocs) {e : Event} {h : List (Step State Event)}
    (met : Owning turn h ⟨s,e⟩) {t : FiveTuple} {a : Allocation} {c : Conn} (found : find turn s.allocs t = some a)
    (conn : a.conn = some c) (lost : LostSocket turn c h) :
    ∃ b, find turn (next turn s e).allocs t = some b ∧ b.conn = some c := by
  obtain ⟨o,after,step⟩ := stepFrom ok e found
  cases step with
  | kept => exact ⟨a,after,conn⟩
  | installed call port same =>
    obtain ⟨b,before,keeps⟩ := met _ _ call port
    cases before.symm.trans (foundUnder same found)
    exact absurd lost (keeps c conn)
  | removed same => exact absurd lost (met a c (foundUnder same found) conn)
  | pruned => exact ⟨_,after,conn⟩
  | expired late => exact absurd lost (met a (lookupSome found).1 late c conn)
  | refreshed => exact ⟨_,after,conn⟩
  | granted => exact ⟨_,after,by rw [grantConn]; exact conn⟩
  | bound _ _ to' => exact ⟨_,after,by rw [(bindToTuple to').2.1]; exact conn⟩

theorem lostHeld {h s} (run : Run (machine turn) h s) (cond : Along (Owning turn) h) {c : Conn}
    (lost : LostSocket turn c h) : ∃ t a, find turn s.allocs t = some a ∧ a.conn = some c := by
  induction run with
  | start => exact lost.elim
  | @step h s e before guard ih =>
    obtain ⟨met,earlier⟩ := cond
    rcases lost with ⟨k,p,n,installs,rfl,_⟩ | old
    · obtain ⟨a,found,_,conn⟩ := ownedInstall met k p n installs
      exact ⟨p.tuple,a,found,conn⟩
    · obtain ⟨t,a,found,conn⟩ := ih earlier old
      obtain ⟨b,after,same⟩ := lostKept (tableOk before) met found conn old
      exact ⟨t,b,after,same⟩

theorem grantedOwned {h s} (run : Run (machine turn) h s) (cond : Along (Owning turn) h) :
    (∀ x ∈ h, Owned turn x) ∧ ∀ c, LostSocket turn c h → Referenced s c := by
  refine ⟨?_,?_⟩
  · induction h generalizing s with
    | nil => simp
    | cons x h ih => cases run with
      | step before _ => exact List.forall_mem_cons.mpr ⟨ownedInstall cond.1,ih before cond.2⟩
  · intro c lost _
    obtain ⟨t,a,found,conn⟩ := lostHeld run cond lost
    exact ⟨a,(lookupSome found).1,conn⟩

theorem registersNot {k : Nat} {x : Step State Event} (other : ∀ t timeout, x.event ≠ .register k t timeout) :
    ¬ Registers turn k x := by
  intro registers
  obtain ⟨t,timeout,_,event,_⟩ := registers
  exact other t timeout event

/- The first call loses its registration and installs over the record of the second, whose
port allocator then fails. -/
def takenOver : List Event :=
  [.register 1 sampleTuple 60,.remove sampleTuple,.register 2 sampleTuple 60,.answer 1 (.ok ⟨sampleRelayed,17,1⟩),
    .install 1,.answer 2 (.error .listen)]

theorem takenOverAllowed : Allowed (machine .documented) .empty takenOver :=
  ⟨rfl,trivial,rfl,⟨⟨_,rfl,rfl⟩,by decide,by decide⟩,⟨_,_,rfl,rfl⟩,⟨_,rfl,rfl⟩,trivial⟩

theorem takenOverLost : LostSocket .documented 1 (trace (machine .documented) [] .empty takenOver).1 :=
  .inr (.inl ⟨1,_,_,⟨rfl,rfl,rfl⟩,rfl,
    .inr ⟨registersNot nofun,.inr ⟨registersNot nofun,.inl ⟨rfl,rfl⟩⟩⟩⟩)

theorem grantedOwnedSample :
    (∀ x ∈ (trace (machine .documented) [] .empty takenOver).1, Owned .documented x) ∧
      Referenced (trace (machine .documented) [] .empty takenOver).2 1 := by
  have run := traceStart (m := machine .documented) takenOver takenOverAllowed
  have cond : Along (Owning .documented) (trace (machine .documented) [] .empty takenOver).1 := by
    refine ⟨trivial,?_,trivial,trivial,?_,trivial,trivial⟩
    · intro p n call port
      cases Option.some.inj call
      exact ⟨placeholder sampleTuple 60,rfl,fun c conn => by cases conn⟩
    · intro a c found conn
      cases Option.some.inj found
      cases conn
  obtain ⟨owned,kept⟩ := grantedOwned run cond
  exact ⟨owned,kept 1 takenOverLost⟩

def removedMeanwhile : List Event :=
  [.register 1 sampleTuple 60,.remove sampleTuple,.answer 1 (.ok ⟨sampleRelayed,17,1⟩),.install 1]

/- The call returns its relayed address, the table is empty, and the socket stays open. -/
theorem grantedWithoutAllocation : ∃ h s, Run (machine .documented) h s ∧
    (∃ x ∈ h, ¬ Owned .documented x) ∧ ∃ c, LostSocket .documented c h ∧ ¬ Referenced s c := by
  have allowed : Allowed (machine .documented) .empty removedMeanwhile :=
    ⟨rfl,trivial,⟨⟨_,rfl,rfl⟩,by decide,by decide⟩,⟨_,_,rfl,rfl⟩,trivial⟩
  refine ⟨_,_,traceStart (m := machine .documented) removedMeanwhile allowed,⟨_,List.mem_cons_self,?_⟩,1,?_,?_⟩
  · intro owned
    obtain ⟨a,found,_⟩ := owned 1 _ _ ⟨rfl,rfl,rfl⟩
    cases found
  · exact .inl ⟨1,_,_,⟨rfl,rfl,rfl⟩,rfl,.inr ⟨registersNot nofun,.inl ⟨rfl,rfl⟩⟩⟩
  · intro kept
    obtain ⟨a,mem,_⟩ := kept rfl
    cases mem

end Gortcd.Ownership
