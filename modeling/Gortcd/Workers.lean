import Gortcd.Lib.Runs
import Gortcd.Net
import Mathlib.Data.Multiset.Bind
import Mathlib.Data.Multiset.Count

/-! internal/server/worker_pool.go under every schedule. A section under `lock` is one step,
and so is a send on a worker channel, a receive, a call of `WorkerFunc`, a `putContext` and an
access to `workerChanPool`; `Stop` keeps the lock while it sends. Goroutines and messages have
no order among themselves, so they are multisets; the notices of one `clean` may go out in any
order. A context is the number of its acquisition, and `Start` only starts the cleaner, so that
a `clean` may begin at any time. -/
namespace Gortcd.Workers
open Net Runs

/- A `workerChan` and the worker that listens on it. The code sees the channel only. -/
structure Slot where
  chan : Nat
  worker : Nat
  deriving DecidableEq, Repr

/- In `workerFunc`: at the receive; before `WorkerFunc`, `putContext`, `release` and
`workersCount--`; before `workerChanPool.Put`. -/
inductive Phase where
  | idle
  | got (c : Nat)
  | served (c : Nat)
  | releasing
  | leaving
  | gone
  deriving DecidableEq, Repr

structure Worker where
  slot : Slot
  phase : Phase
  deriving DecidableEq, Repr

inductive Sender where
  | serve (c : Nat)
  | clean
  | stop
  deriving DecidableEq, Repr

-- `clean` and `Stop` send nil.
def Sender.item : Sender → Option Nat
  | .serve c => some c
  | .clean => none
  | .stop => none

/- A goroutine that is about to send on a channel, or blocked there. -/
structure Send where
  slot : Slot
  sender : Sender
  deriving DecidableEq, Repr

structure Mail where
  slot : Slot
  item : Option Nat
  deriving DecidableEq, Repr

/- A context that a worker received, with the channel it was sent on. -/
structure Pick where
  context : Nat
  sentOn : Slot
  worker : Nat
  deriving DecidableEq, Repr

structure State where
  locked : Bool
  workersCount : Nat
  mustStop : Bool
  ready : List Slot
  workerChanPool : Multiset Nat
  lastUseTime : Nat → Time
  workers : Multiset Worker
  creating : Multiset Nat
  sends : Multiset Send
  mail : Multiset Mail
  held : Multiset Nat
  acquired : Nat
  chans : Nat
  spawned : Nat
  accepted : List Nat
  picked : List Pick
  worked : List (Nat × Nat)
  returned : List Nat

def State.empty : State :=
  { locked := false, workersCount := 0, mustStop := false, ready := [], workerChanPool := 0, lastUseTime := fun _ => 0,
    workers := 0, creating := 0, sends := 0, mail := 0, held := 0, acquired := 0, chans := 0, spawned := 0,
    accepted := [], picked := [], worked := [], returned := [] }

-- A maximum below zero acts as zero.
structure Pool where
  maxWorkersCount : Nat
  maxIdleWorkerDuration : Duration
  workerChanCap : Nat

def Pool.getMaxIdleWorkerDuration (p : Pool) : Duration :=
  if p.maxIdleWorkerDuration ≤ 0 then 10 * 1000000000 else p.maxIdleWorkerDuration

inductive Event where
  | acquire
  | abandon (c : Nat)
  | serve (c : Nat)
  | create (c : Nat)
  | reuse (c chan : Nat)
  | forget (chan : Nat)
  | clean (now : Time)
  | stop
  | stopNext
  | stopEnd
  | send (x : Send)
  | deliver (x : Send) (w : Worker)
  | receive (m : Mail) (w : Worker)
  | work (w : Worker) (c : Nat)
  | put (w : Worker) (c : Nat)
  | release (w : Worker) (now : Time)
  | leave (w : Worker)
  | recycle (w : Worker)
  deriving DecidableEq

def State.stopSends (s : State) : Multiset Send := s.sends.filter (fun x => x.sender = .stop)

def State.buffer (s : State) (chan : Nat) : Multiset Mail := s.mail.filter (fun m => m.slot.chan = chan)

def enabled (p : Pool) (s : State) : Event → Prop
  | .acquire => True
  | .abandon c => c ∈ s.held
  | .serve c => c ∈ s.held ∧ s.locked = false
  | .create c => c ∈ s.creating
  | .reuse c chan => c ∈ s.creating ∧ chan ∈ s.workerChanPool
  | .forget chan => chan ∈ s.workerChanPool
  | .clean _ => s.locked = false
  | .stop => s.locked = false
  | .stopNext => s.locked = true ∧ s.stopSends = 0 ∧ s.ready ≠ []
  | .stopEnd => s.locked = true ∧ s.stopSends = 0 ∧ s.ready = []
  | .send x => x ∈ s.sends ∧ Multiset.card (s.buffer x.slot.chan) < p.workerChanCap
  | .deliver x w => x ∈ s.sends ∧ w ∈ s.workers ∧ w.phase = .idle ∧ x.slot.chan = w.slot.chan ∧ s.buffer w.slot.chan = 0
  | .receive m w => m ∈ s.mail ∧ w ∈ s.workers ∧ w.phase = .idle ∧ m.slot.chan = w.slot.chan
  | .work w c => w ∈ s.workers ∧ w.phase = .got c
  | .put w c => w ∈ s.workers ∧ w.phase = .served c
  | .release w _ => w ∈ s.workers ∧ w.phase = .releasing ∧ s.locked = false
  | .leave w => w ∈ s.workers ∧ w.phase = .leaving ∧ s.locked = false
  | .recycle w => w ∈ s.workers ∧ w.phase = .gone

instance (p : Pool) (s : State) (e : Event) : Decidable (enabled p s e) := by
  cases e <;> dsimp only [enabled] <;> infer_instance

/- The worker goes on to another point of `workerFunc`. -/
def State.move (s : State) (w : Worker) (phase : Phase) : State :=
  { s with workers := ⟨w.slot,phase⟩ ::ₘ s.workers.erase w }

/- What a worker does with what it receives: it serves a context, and leaves on nil. -/
def taking : Option Nat → Phase
  | some c => .got c
  | none => .leaving

def State.pick (s : State) (w : Worker) (slot : Slot) (item : Option Nat) : State :=
  { s.move w (taking item) with picked := item.toList.map (fun c => ⟨c,slot,w.slot.worker⟩) ++ s.picked }

/- The send is over; for `Serve` this is where it returns true. -/
def State.sent (s : State) (x : Send) : State :=
  { s with sends := s.sends.erase x, accepted := x.sender.item.toList ++ s.accepted }

/- `getCh` after its section, with a channel for the new worker. -/
def State.spawn (s : State) (c chan : Nat) : State :=
  { s with
    creating := s.creating.erase c
    workers := ⟨⟨chan,s.spawned⟩,.idle⟩ ::ₘ s.workers
    spawned := s.spawned + 1
    sends := ⟨⟨chan,s.spawned⟩,.serve c⟩ ::ₘ s.sends }

def State.obsolete (p : Pool) (s : State) (now : Time) (r : Slot) : Bool :=
  decide (now - s.lastUseTime r.chan > p.getMaxIdleWorkerDuration)

def next (p : Pool) (s : State) : Event → State
  | .acquire => { s with held := s.acquired ::ₘ s.held, acquired := s.acquired + 1 }
  | .abandon c => { s with held := s.held.erase c }
  | .serve c => match s.ready.getLast? with
    | some r => { s with ready := s.ready.dropLast, held := s.held.erase c, sends := ⟨r,.serve c⟩ ::ₘ s.sends }
    | none =>
      if s.workersCount < p.maxWorkersCount then
        { s with workersCount := s.workersCount + 1, held := s.held.erase c, creating := c ::ₘ s.creating }
      else s
  | .create c => { s.spawn c s.chans with chans := s.chans + 1 }
  | .reuse c chan => { s.spawn c chan with workerChanPool := s.workerChanPool.erase chan }
  | .forget chan => { s with workerChanPool := s.workerChanPool.erase chan }
  | .clean now =>
    { s with
      ready := s.ready.dropWhile (s.obsolete p now)
      sends := ((s.ready.takeWhile (s.obsolete p now)).map (fun r => ⟨r,.clean⟩) : List Send) + s.sends }
  | .stop => { s with locked := true }
  | .stopNext => match s.ready with
    | r :: rest => { s with ready := rest, sends := ⟨r,.stop⟩ ::ₘ s.sends }
    | [] => s
  | .stopEnd => { s with mustStop := true, locked := false }
  | .send x => { s.sent x with mail := ⟨x.slot,x.sender.item⟩ ::ₘ s.mail }
  | .deliver x w => (s.sent x).pick w x.slot x.sender.item
  | .receive m w => { s.pick w m.slot m.item with mail := s.mail.erase m }
  | .work w c => { s.move w (.served c) with worked := (w.slot.worker,c) :: s.worked }
  | .put w c => { s.move w .releasing with returned := c :: s.returned }
  | .release w now =>
    let stamped := { s with lastUseTime := fun chan => if chan = w.slot.chan then now else s.lastUseTime chan }
    if s.mustStop then stamped.move w .leaving
    else { stamped.move w .idle with ready := s.ready ++ [w.slot] }
  | .leave w => { s.move w .gone with workersCount := s.workersCount - 1 }
  | .recycle w =>
    { s with workers := s.workers.erase w, workerChanPool := w.slot.chan ::ₘ s.workerChanPool }

def machine (p : Pool) : Machine State Event := ⟨.empty,enabled p,next p⟩

end Gortcd.Workers
