import Gortcd.Lib.Progress
import Mathlib.Data.Multiset.Filter

/-! internal/server/server.go: `Serve`, its workers, the collector and `Close`, under every
schedule. Socket 0 is `s.conn`; with `reusePort` the loop of `Serve` opens more sockets while
`Close` may already be on its way. `ReadFrom` on a closed socket returns an error. What the
pool answers to `Serve(ctx)` is an input; `Stop` is one step, since it comes to its end
(`Drain`). -/
namespace Gortcd.Shutdown
open Runs Progress

/- In `worker`: at the select on `s.close`, in `ReadFrom`, before a try to serve (with the
tries that failed), after `wg.Done`. -/
inductive Phase where
  | top
  | reading
  | serving (failed : Nat)
  | done
  deriving DecidableEq, Repr

structure Worker where
  socket : Nat
  phase : Phase
  deriving DecidableEq, Repr

/- In `Serve`: before it is called; at the head of the loop; after `wg.Add(1)`; with the socket
for the worker; after `wg.Wait`. -/
inductive Serving where
  | idle
  | loop (i : Nat)
  | added (i : Nat)
  | opened (i socket : Nat)
  | returned
  deriving DecidableEq, Repr

/- In `Close`: after `close(s.close)`, `s.pool.Stop()`, `s.conn.Close()`, inside the loop over
`s.conns`, after `wg.Wait`. `Stop` panics if the pool was not started. -/
inductive Closing where
  | idle
  | closed
  | stopped
  | closedConn
  | closingConns (rest : List Nat)
  | returned
  | panicked
  deriving DecidableEq, Repr

structure State where
  serve : Serving
  close : Closing
  started : Bool
  collector : Bool
  wg : Nat
  workers : Multiset Worker
  conns : List Nat
  sockets : List Nat -- the open ones
  missed : List Nat -- opened after `Close` had read `s.conns`
  deriving DecidableEq

structure Setup where
  procs : Nat
  reusePort : Bool
  manualStart : Bool

def State.start (c : Setup) : State :=
  { serve := .idle, close := .idle, started := false, collector := !c.manualStart, wg := (!c.manualStart).toNat,
    workers := 0, conns := [], sockets := [0], missed := [] }

-- The channel `s.close`.
def State.closed (s : State) : Bool := s.close != .idle

inductive Event where
  | serve
  | add
  | listen (socket : Option Nat)
  | spawn
  | serveReturn
  | check (w : Worker)
  | read (w : Worker)
  | readError (w : Worker)
  | readClosed (w : Worker)
  | tryServe (w : Worker) (ok : Bool)
  | tick
  | collectorReturn
  | close
  | stop
  | closeConn
  | closeConns
  | closeNext
  | closeReturn
  deriving DecidableEq

/- The loop over `s.conns` reads the slice once. -/
def enabled (c : Setup) (s : State) : Event → Prop
  | .serve => s.serve = .idle ∧ s.started = false ∧ s.close ≠ .panicked
  | .add => ∃ i, s.serve = .loop i ∧ i < c.procs
  | .listen socket => (∃ i, s.serve = .added i) ∧ (socket.isSome = true → c.reusePort = true) ∧
      ∀ x ∈ socket, x ≠ 0 ∧ x ∉ s.conns ∧ x ∉ s.sockets
  | .spawn => ∃ i socket, s.serve = .opened i socket
  | .serveReturn => (∃ i, s.serve = .loop i ∧ c.procs ≤ i) ∧ s.wg = 0
  | .check w => w ∈ s.workers ∧ w.phase = .top
  | .read w => w ∈ s.workers ∧ w.phase = .reading ∧ w.socket ∈ s.sockets
  | .readError w => w ∈ s.workers ∧ w.phase = .reading ∧ w.socket ∈ s.sockets
  | .readClosed w => w ∈ s.workers ∧ w.phase = .reading ∧ w.socket ∉ s.sockets
  | .tryServe w _ => w ∈ s.workers ∧ ∃ failed, w.phase = .serving failed
  | .tick => s.collector = true
  | .collectorReturn => s.collector = true ∧ s.closed = true
  | .close => s.close = .idle
  | .stop => s.close = .closed
  | .closeConn => s.close = .stopped
  | .closeConns => s.close = .closedConn
  | .closeNext => ∃ x rest, s.close = .closingConns (x :: rest)
  | .closeReturn => s.close = .closingConns [] ∧ s.wg = 0

def State.move (s : State) (w : Worker) (phase : Phase) : State :=
  { s with workers := ⟨w.socket,phase⟩ ::ₘ s.workers.erase w }

-- `defer s.wg.Done()`
def State.finish (s : State) (w : Worker) : State := { s.move w .done with wg := s.wg - 1 }

/- The number of tries for one packet; after the last one it is dropped. -/
def tries : Nat := 7

def nextPhase (failed : Nat) (ok : Bool) : Phase :=
  if ok then .top else if failed + 1 < tries then .serving (failed + 1) else .top

def State.snapshot (s : State) : Bool :=
  match s.close with
  | .closingConns _ => true
  | .returned => true
  | _ => false

def next (s : State) : Event → State
  | .serve => { s with serve := .loop 0, started := true }
  | .add => match s.serve with
    | .loop i => { s with serve := .added i, wg := s.wg + 1 }
    | _ => s
  | .listen socket => match s.serve,socket with
    | .added i,none => { s with serve := .opened i 0 }
    | .added i,some x =>
      { s with
        serve := .opened i x
        conns := s.conns ++ [x]
        sockets := s.sockets ++ [x]
        missed := if s.snapshot then s.missed ++ [x] else s.missed }
    | _,_ => s
  | .spawn => match s.serve with
    | .opened i socket => { s with serve := .loop (i + 1), workers := ⟨socket,.top⟩ ::ₘ s.workers }
    | _ => s
  | .serveReturn => { s with serve := .returned }
  | .check w => if s.closed then s.finish w else s.move w .reading
  | .read w => s.move w (.serving 0)
  | .readError w => s.finish w
  | .readClosed w => s.finish w
  | .tryServe w ok => match w.phase with
    | .serving failed => s.move w (nextPhase failed ok)
    | _ => s
  | .tick => s
  | .collectorReturn => { s with collector := false, wg := s.wg - 1 }
  | .close => { s with close := .closed }
  | .stop => if s.started then { s with close := .stopped, started := false } else { s with close := .panicked }
  | .closeConn => { s with close := .closedConn, sockets := s.sockets.filter (· != 0) }
  | .closeConns => { s with close := .closingConns s.conns }
  | .closeNext => match s.close with
    | .closingConns (x :: rest) => { s with close := .closingConns rest, sockets := s.sockets.filter (· != x) }
    | _ => s
  | .closeReturn => { s with close := .returned }

def machine (c : Setup) : Machine State Event := ⟨.start c,enabled c,next⟩

/- What may happen once `Close` was called: packets still come in, reads fail. The ticks of
the collector are left out, and a call of `Serve` has to be asked for. -/
def May : Event → Prop
  | .serve => False
  | .tick => False
  | .close => False
  | _ => True

/- What happens without a packet or an error from outside. -/
def Own : Event → Prop
  | .serve => False
  | .tick => False
  | .close => False
  | .read _ => False
  | .readError _ => False
  | _ => True

variable {c : Setup} {s : State} {e : Event}

theorem memMoved {w x : Worker} {phase : Phase} (mem : x ∈ (s.move w phase).workers) :
    x = ⟨w.socket,phase⟩ ∨ x ∈ s.workers := by
  rcases Multiset.mem_cons.mp mem with rfl | old
  · exact .inl rfl
  · exact .inr (Multiset.mem_of_mem_erase old)

theorem nextAdd {i : Nat} (at' : s.serve = .loop i) : next s .add = { s with serve := .added i, wg := s.wg + 1 } := by
  simp only [next,at']

theorem nextSpawn {i x : Nat} (at' : s.serve = .opened i x) :
    next s .spawn = { s with serve := .loop (i + 1), workers := ⟨x,.top⟩ ::ₘ s.workers } := by
  simp only [next,at']

theorem nextListen {i : Nat} (at' : s.serve = .added i) (socket : Option Nat) :
    next s (.listen socket) =
      { s with
        serve := .opened i (socket.getD 0)
        conns := s.conns ++ socket.toList
        sockets := s.sockets ++ socket.toList
        missed := if s.snapshot then s.missed ++ socket.toList else s.missed } := by
  cases socket with
  | none => simp [next,at']
  | some x => simp [next,at']

theorem nextTry {w : Worker} {failed : Nat} (phase : w.phase = .serving failed) (ok : Bool) :
    next s (.tryServe w ok) = s.move w (nextPhase failed ok) := by
  simp only [next,phase]

theorem nextClose {x : Nat} {rest : List Nat} (at' : s.close = .closingConns (x :: rest)) :
    next s .closeNext = { s with close := .closingConns rest, sockets := s.sockets.filter (· != x) } := by
  simp only [next,at']

/- A worker reads from the first socket or from one of `s.conns`. -/
structure Owned (s : State) : Prop where
  workers : ∀ w ∈ s.workers, w.socket = 0 ∨ w.socket ∈ s.conns
  serving : ∀ i x, s.serve = .opened i x → x = 0 ∨ x ∈ s.conns
  sockets : ∀ x ∈ s.sockets, x = 0 ∨ x ∈ s.conns
  missed : ∀ x ∈ s.missed, x ≠ 0 ∧ x ∈ s.conns

def live (w : Worker) : Nat := match w.phase with
  | .done => 0
  | _ => 1

def serveWait : Serving → Nat
  | .added _ => 1
  | .opened _ _ => 1
  | _ => 0

def waits (s : State) : Nat := (s.workers.map live).sum + serveWait s.serve + s.collector.toNat

def Counted (s : State) : Prop := s.wg = waits s

theorem moveLive {w : Worker} (here : w ∈ s.workers) (phase : Phase) :
    ((s.move w phase).workers.map live).sum + live w = (s.workers.map live).sum + live ⟨w.socket,phase⟩ :=
  sumMoved here ⟨w.socket,phase⟩ live

theorem moveCounted (counted : Counted s) {w : Worker} (here : w ∈ s.workers) {phase : Phase}
    (same : live ⟨w.socket,phase⟩ = live w) : Counted (s.move w phase) := by
  have moved := moveLive here phase
  have before : s.wg = waits s := counted
  simp only [Counted,waits] at before ⊢
  have wg : (s.move w phase).wg = s.wg := rfl
  have serve : (s.move w phase).serve = s.serve := rfl
  have collector : (s.move w phase).collector = s.collector := rfl
  rw [wg,serve,collector]
  omega

theorem finishCounted (counted : Counted s) {w : Worker} (here : w ∈ s.workers) (going : live w = 1) :
    Counted (s.finish w) := by
  have moved := moveLive here .done
  have before : s.wg = waits s := counted
  simp only [Counted,waits] at before ⊢
  have wg : (s.finish w).wg = s.wg - 1 := rfl
  have workers : (s.finish w).workers = (s.move w .done).workers := rfl
  have serve : (s.finish w).serve = s.serve := rfl
  have collector : (s.finish w).collector = s.collector := rfl
  have ended : live ⟨w.socket,.done⟩ = 0 := rfl
  rw [wg,workers,serve,collector]
  omega

theorem livePhase {w : Worker} {phase : Phase} (at' : w.phase = phase) (going : phase ≠ .done) : live w = 1 := by
  subst at'
  unfold live
  split
  · contradiction
  · rfl

theorem nextPhaseLive (failed : Nat) (ok : Bool) : nextPhase failed ok ≠ .done := by
  unfold nextPhase
  split
  · nofun
  · split <;> nofun

theorem countedStep (counted : Counted s) (guard : enabled c s e) : Counted (next s e) := by
  have before : s.wg = waits s := counted
  simp only [waits] at before
  cases e with
  | serve =>
    rw [guard.1] at before
    exact before
  | add =>
    obtain ⟨i,at',_⟩ := guard
    rw [nextAdd at']
    rw [at'] at before
    simp only [Counted,waits,serveWait] at before ⊢
    omega
  | listen socket =>
    obtain ⟨⟨i,at'⟩,_⟩ := guard
    rw [nextListen at']
    rw [at'] at before
    exact before
  | spawn =>
    obtain ⟨i,x,at'⟩ := guard
    rw [nextSpawn at']
    rw [at'] at before
    simp only [Counted,waits,serveWait,Multiset.map_cons,Multiset.sum_cons,live] at before ⊢
    omega
  | serveReturn =>
    obtain ⟨⟨i,at',_⟩,_⟩ := guard
    rw [at'] at before
    exact before
  | check w =>
    have going := livePhase guard.2 nofun
    simp only [next]
    split
    · exact finishCounted counted guard.1 going
    · exact moveCounted counted guard.1 going.symm
  | read w => exact moveCounted counted guard.1 (livePhase guard.2.1 nofun).symm
  | readError w => exact finishCounted counted guard.1 (livePhase guard.2.1 nofun)
  | readClosed w => exact finishCounted counted guard.1 (livePhase guard.2.1 nofun)
  | tryServe w ok =>
    obtain ⟨here,failed,phase⟩ := guard
    rw [nextTry phase]
    have going : live ⟨w.socket,nextPhase failed ok⟩ = 1 := livePhase rfl (nextPhaseLive failed ok)
    exact moveCounted counted here (going.trans (livePhase phase nofun).symm)
  | tick => exact counted
  | collectorReturn =>
    rw [guard.1] at before
    simp only [Counted,waits,next,Bool.toNat_true,Bool.toNat_false] at before ⊢
    omega
  | close => exact counted
  | stop =>
    simp only [next]
    split <;> exact counted
  | closeConn => exact counted
  | closeConns => exact counted
  | closeNext =>
    obtain ⟨x,rest,at'⟩ := guard
    rw [nextClose at']
    exact counted
  | closeReturn => exact counted

theorem ownedMove (owned : Owned s) {w : Worker} (here : w ∈ s.workers) (phase : Phase) : Owned (s.move w phase) := by
  refine ⟨fun x mem => ?_,owned.serving,owned.sockets,owned.missed⟩
  rcases memMoved mem with rfl | old
  · exact owned.workers w here
  · exact owned.workers x old

theorem ownedFinish (owned : Owned s) {w : Worker} (here : w ∈ s.workers) : Owned (s.finish w) := by
  obtain ⟨workers,serving,sockets,missed⟩ := ownedMove owned here .done
  exact ⟨workers,serving,sockets,missed⟩

theorem ownedFilter (owned : Owned s) (keep : Nat → Bool) (close : Closing) :
    Owned { s with close := close, sockets := s.sockets.filter keep } :=
  ⟨owned.workers,owned.serving,fun x mem => owned.sockets x (List.mem_of_mem_filter mem),owned.missed⟩

theorem ownedListen (owned : Owned s) {i : Nat} {socket : Option Nat} (at' : s.serve = .added i)
    (fresh : ∀ x ∈ socket, x ≠ 0) : Owned (next s (.listen socket)) := by
  have grown {x : Nat} (old : x = 0 ∨ x ∈ s.conns) : x = 0 ∨ x ∈ s.conns ++ socket.toList :=
    old.imp_right (List.mem_append_left _)
  have added {x : Nat} (mem : x ∈ socket.toList) : x ≠ 0 ∧ x ∈ s.conns ++ socket.toList :=
    ⟨fresh x (Option.mem_toList.mp mem),List.mem_append_right _ mem⟩
  rw [nextListen at']
  refine ⟨fun w here => grown (owned.workers w here),?_,?_,?_⟩
  · intro j x opened
    cases socket with
    | none =>
      cases opened
      exact .inl rfl
    | some y =>
      cases opened
      exact .inr (List.mem_append_right _ List.mem_cons_self)
  · intro x mem
    rcases List.mem_append.mp mem with old | new
    · exact grown (owned.sockets x old)
    · exact .inr (added new).2
  · have kept : ∀ x ∈ s.missed, x ≠ 0 ∧ x ∈ s.conns ++ socket.toList := fun x old =>
      ⟨(owned.missed x old).1,List.mem_append_left _ (owned.missed x old).2⟩
    intro x mem
    cases snapshot : s.snapshot with
    | false =>
      rw [snapshot] at mem
      exact kept x mem
    | true =>
      rw [snapshot] at mem
      rcases List.mem_append.mp mem with old | new
      · exact kept x old
      · exact added new

theorem ownedStep (owned : Owned s) (guard : enabled c s e) : Owned (next s e) := by
  have closing (close : Closing) (started : Bool) : Owned { s with close := close, started := started } :=
    ⟨owned.workers,owned.serving,owned.sockets,owned.missed⟩
  cases e with
  | serve => exact ⟨owned.workers,nofun,owned.sockets,owned.missed⟩
  | add =>
    obtain ⟨i,at',_⟩ := guard
    rw [nextAdd at']
    exact ⟨owned.workers,nofun,owned.sockets,owned.missed⟩
  | listen socket =>
    obtain ⟨⟨i,at'⟩,_,fresh⟩ := guard
    exact ownedListen owned at' (fun x mem => (fresh x mem).1)
  | spawn =>
    obtain ⟨i,x,at'⟩ := guard
    rw [nextSpawn at']
    refine ⟨fun w mem => ?_,nofun,owned.sockets,owned.missed⟩
    rcases Multiset.mem_cons.mp mem with rfl | old
    · exact owned.serving i x at'
    · exact owned.workers w old
  | serveReturn => exact ⟨owned.workers,nofun,owned.sockets,owned.missed⟩
  | check w =>
    simp only [next]
    split
    · exact ownedFinish owned guard.1
    · exact ownedMove owned guard.1 _
  | read w => exact ownedMove owned guard.1 _
  | readError w => exact ownedFinish owned guard.1
  | readClosed w => exact ownedFinish owned guard.1
  | tryServe w ok =>
    obtain ⟨here,failed,phase⟩ := guard
    rw [nextTry phase]
    exact ownedMove owned here _
  | tick => exact owned
  | collectorReturn => exact ⟨owned.workers,owned.serving,owned.sockets,owned.missed⟩
  | close => exact closing _ _
  | stop =>
    simp only [next]
    split
    · exact closing _ _
    · exact closing _ _
  | closeConn => exact ownedFilter owned _ _
  | closeConns => exact closing _ _
  | closeNext =>
    obtain ⟨x,rest,at'⟩ := guard
    rw [nextClose at']
    exact ownedFilter owned _ _
  | closeReturn => exact closing _ _

def toClose : Closing → List Nat
  | .closingConns rest => rest
  | _ => []

/- Once the slice was read, an open socket is one that `Close` is coming to, or it was missed.
No worker reads from a missed one: it finds `s.close` closed first. -/
structure Shut (s : State) : Prop where
  first : s.close = .closedConn → 0 ∉ s.sockets
  closing : s.snapshot = true → ∀ x ∈ s.sockets, x ∈ toClose s.close ∨ x ∈ s.missed
  none : s.snapshot = false → s.missed = []
  reading : ∀ w ∈ s.workers, w.phase = .reading → w.socket ∉ s.missed

theorem shutMove (shut : Shut s) {w : Worker} {phase : Phase} (notReading : phase = .reading → s.missed = []) :
    Shut (s.move w phase) := by
  refine ⟨shut.first,shut.closing,shut.none,fun x mem reads => ?_⟩
  rcases memMoved mem with rfl | old
  · have none : (s.move w phase).missed = [] := notReading reads
    rw [none]
    exact List.not_mem_nil
  · exact shut.reading x old reads

theorem shutFinish (shut : Shut s) (w : Worker) : Shut (s.finish w) := by
  have moved : Shut (s.move w .done) := shutMove shut nofun
  exact ⟨moved.first,moved.closing,moved.none,moved.reading⟩

theorem shutListen (owned : Owned s) (shut : Shut s) {i : Nat} {socket : Option Nat} (at' : s.serve = .added i)
    (fresh : ∀ x ∈ socket, x ≠ 0 ∧ x ∉ s.conns ∧ x ∉ s.sockets) : Shut (next s (.listen socket)) := by
  rw [nextListen at']
  refine ⟨?_,?_,?_,?_⟩
  · intro close mem
    rcases List.mem_append.mp mem with old | new
    · exact shut.first close old
    · exact (fresh 0 (Option.mem_toList.mp new)).1 rfl
  · intro snapshot x mem
    have before : s.snapshot = true := snapshot
    simp only [before,if_true]
    rcases List.mem_append.mp mem with old | new
    · exact (shut.closing before x old).imp_right (List.mem_append_left _)
    · exact .inr (List.mem_append_right _ new)
  · intro snapshot
    have before : s.snapshot = false := snapshot
    simp only [before,Bool.false_eq_true,if_false]
    exact shut.none before
  · intro w here reads mem
    cases snapshot : s.snapshot with
    | false =>
      rw [snapshot] at mem
      exact shut.reading w here reads mem
    | true =>
      rw [snapshot] at mem
      rcases List.mem_append.mp mem with old | new
      · exact shut.reading w here reads old
      · obtain ⟨nonzero,unlisted,_⟩ := fresh _ (Option.mem_toList.mp new)
        exact (owned.workers w here).elim nonzero unlisted

theorem openSnapshot (going : s.closed = false) : s.snapshot = false := by
  have idle : s.close = .idle := by simpa [State.closed] using going
  simp only [State.snapshot,idle]

theorem shutBefore (shut : Shut s) {close : Closing} (started : Bool) (before : s.snapshot = false)
    (after : close = .closed ∨ close = .stopped ∨ close = .panicked) : Shut { s with close := close, started := started } := by
  refine ⟨?_,?_,fun _ => shut.none before,shut.reading⟩
  · intro at'
    change close = .closedConn at at'
    subst at'
    simp at after
  · intro snapshot
    change State.snapshot { s with close := close, started := started } = true at snapshot
    rcases after with rfl | rfl | rfl <;> cases snapshot

theorem shutStep (owned : Owned s) (shut : Shut s) (guard : enabled c s e) : Shut (next s e) := by
  have kept (serve : Serving) (started collector : Bool) (wg : Nat) :
      Shut { s with serve := serve, started := started, collector := collector, wg := wg } :=
    ⟨shut.first,shut.closing,shut.none,shut.reading⟩
  cases e with
  | serve => exact kept _ _ _ _
  | add =>
    obtain ⟨i,at',_⟩ := guard
    rw [nextAdd at']
    exact kept _ _ _ _
  | listen socket =>
    obtain ⟨⟨i,at'⟩,_,fresh⟩ := guard
    exact shutListen owned shut at' fresh
  | spawn =>
    obtain ⟨i,x,at'⟩ := guard
    rw [nextSpawn at']
    refine ⟨shut.first,shut.closing,shut.none,fun w mem reads => ?_⟩
    rcases Multiset.mem_cons.mp mem with rfl | old
    · cases reads
    · exact shut.reading w old reads
  | serveReturn => exact kept _ _ _ _
  | check w =>
    simp only [next]
    split
    · exact shutFinish shut w
    · rename_i going
      exact shutMove shut (fun _ => shut.none (openSnapshot (Bool.eq_false_iff.mpr going)))
  | read w => exact shutMove shut nofun
  | readError w => exact shutFinish shut w
  | readClosed w => exact shutFinish shut w
  | tryServe w ok =>
    obtain ⟨_,failed,phase⟩ := guard
    rw [nextTry phase]
    refine shutMove shut ?_
    unfold nextPhase
    split
    · nofun
    · split <;> nofun
  | tick => exact shut
  | collectorReturn => exact kept _ _ _ _
  | close =>
    have before : s.close = .idle := guard
    exact shutBefore shut s.started (by simp only [State.snapshot,before]) (.inl rfl)
  | stop =>
    have before : s.close = .closed := guard
    have unread : s.snapshot = false := by simp only [State.snapshot,before]
    simp only [next]
    split
    · exact shutBefore shut false unread (.inr (.inl rfl))
    · exact shutBefore shut s.started unread (.inr (.inr rfl))
  | closeConn =>
    have before : s.close = .stopped := guard
    have unread : s.snapshot = false := by simp only [State.snapshot,before]
    refine ⟨fun _ mem => ?_,nofun,fun _ => shut.none unread,shut.reading⟩
    simp [next] at mem
  | closeConns =>
    have before : s.close = .closedConn := guard
    have unread : s.snapshot = false := by simp only [State.snapshot,before]
    refine ⟨nofun,fun _ x mem => .inl ?_,nofun,shut.reading⟩
    rcases owned.sockets x mem with rfl | listed
    · exact absurd mem (shut.first before)
    · exact listed
  | closeNext =>
    obtain ⟨y,rest,at'⟩ := guard
    have read : s.snapshot = true := by simp only [State.snapshot,at']
    rw [nextClose at']
    refine ⟨nofun,fun _ x mem => ?_,nofun,shut.reading⟩
    obtain ⟨there,other⟩ := List.mem_filter.mp mem
    have listed := shut.closing read x there
    rw [at'] at listed
    rcases listed with ahead | missed
    · rcases List.mem_cons.mp ahead with rfl | later
      · simp at other
      · exact .inl later
    · exact .inr missed
  | closeReturn =>
    have read : s.snapshot = true := by simp only [State.snapshot,guard.1]
    refine ⟨nofun,fun _ x mem => ?_,nofun,shut.reading⟩
    have listed := shut.closing read x mem
    rw [guard.1] at listed
    exact listed

/- `Serve` comes before the pool is stopped; `Close` without it panics. -/
def Ran (s : State) : Prop := match s.close with
  | .idle => s.started = true ↔ s.serve ≠ .idle
  | .closed => s.started = true ↔ s.serve ≠ .idle
  | .panicked => s.serve = .idle
  | _ => s.serve ≠ .idle

theorem ranServing (ran : Ran s) (running : s.serve ≠ .idle) {t : State} (close : t.close = s.close)
    (started : t.started = s.started) (later : t.serve ≠ .idle) : Ran t := by
  unfold Ran at ran ⊢
  rw [close,started]
  split at ran
  · exact ran.trans ⟨fun _ => later,fun _ => running⟩
  · exact ran.trans ⟨fun _ => later,fun _ => running⟩
  · exact absurd ran running
  · exact later

theorem ranSame (ran : Ran s) {t : State} (close : t.close = s.close) (started : t.started = s.started)
    (serve : t.serve = s.serve) : Ran t := by
  unfold Ran at ran ⊢
  rw [close,started,serve]
  exact ran

theorem ranStep (ran : Ran s) (guard : enabled c s e) : Ran (next s e) := by
  cases e with
  | serve =>
    obtain ⟨idle,_,_⟩ := guard
    unfold Ran at ran ⊢
    simp only [next]
    split
    · simp
    · simp
    · contradiction
    · nofun
  | add =>
    obtain ⟨i,at',_⟩ := guard
    rw [nextAdd at']
    exact ranServing ran (by simp [at']) rfl rfl nofun
  | listen socket =>
    obtain ⟨⟨i,at'⟩,_⟩ := guard
    rw [nextListen at']
    exact ranServing ran (by simp [at']) rfl rfl nofun
  | spawn =>
    obtain ⟨i,x,at'⟩ := guard
    rw [nextSpawn at']
    exact ranServing ran (by simp [at']) rfl rfl nofun
  | serveReturn =>
    obtain ⟨⟨i,at',_⟩,_⟩ := guard
    exact ranServing ran (by simp [at']) rfl rfl nofun
  | check w =>
    simp only [next]
    split <;> exact ranSame ran rfl rfl rfl
  | read w => exact ranSame ran rfl rfl rfl
  | readError w => exact ranSame ran rfl rfl rfl
  | readClosed w => exact ranSame ran rfl rfl rfl
  | tryServe w ok =>
    obtain ⟨_,failed,phase⟩ := guard
    rw [nextTry phase]
    exact ranSame ran rfl rfl rfl
  | tick => exact ran
  | collectorReturn => exact ranSame ran rfl rfl rfl
  | close =>
    have before : s.close = .idle := guard
    simpa only [Ran,before,next] using ran
  | stop =>
    have before : s.close = .closed := guard
    simp only [Ran,before] at ran
    simp only [next]
    split
    · rename_i started
      exact ran.mp started
    · rename_i unstarted
      exact Classical.byContradiction (fun running => unstarted (ran.mpr running))
  | closeConn =>
    have before : s.close = .stopped := guard
    simpa only [Ran,before,next] using ran
  | closeConns =>
    have before : s.close = .closedConn := guard
    simpa only [Ran,before,next] using ran
  | closeNext =>
    obtain ⟨x,rest,at'⟩ := guard
    rw [nextClose at']
    simpa only [Ran,at'] using ran
  | closeReturn =>
    have before := guard.1
    simpa only [Ran,before,next] using ran

/- How many sockets the loop of `Serve` can have opened, and how far it has come. -/
def openedSockets (c : Setup) : Serving → Nat
  | .idle => 0
  | .loop i => i
  | .added i => i
  | .opened i _ => i + 1
  | .returned => c.procs

def reached (c : Setup) : Serving → Nat
  | .idle => 0
  | .loop i => i
  | .added i => i + 1
  | .opened i _ => i + 1
  | .returned => c.procs

structure Bounded (c : Setup) (s : State) : Prop where
  conns : s.conns.length ≤ openedSockets c s.serve
  reached : reached c s.serve ≤ c.procs
  single : c.reusePort = false → s.conns = []

theorem boundedSame (bounded : Bounded c s) {t : State} (conns : t.conns = s.conns) (serve : t.serve = s.serve) :
    Bounded c t := by
  obtain ⟨length,far,single⟩ := bounded
  refine ⟨?_,?_,?_⟩
  · rw [conns,serve]
    exact length
  · rw [serve]
    exact far
  · rw [conns]
    exact single

theorem boundedStep (bounded : Bounded c s) (guard : enabled c s e) : Bounded c (next s e) := by
  obtain ⟨length,far,single⟩ := bounded
  cases e with
  | serve =>
    rw [guard.1] at length
    exact ⟨length,Nat.zero_le _,single⟩
  | add =>
    obtain ⟨i,at',less⟩ := guard
    rw [nextAdd at']
    rw [at'] at length
    exact ⟨length,less,single⟩
  | listen socket =>
    obtain ⟨⟨i,at'⟩,reuse,_⟩ := guard
    rw [nextListen at']
    rw [at'] at length far
    refine ⟨?_,far,?_⟩
    · have one : socket.toList.length ≤ 1 := by cases socket <;> simp
      simp only [openedSockets,List.length_append] at length ⊢
      omega
    · intro plain
      cases socket with
      | none => simpa using single plain
      | some x => cases plain.symm.trans (reuse rfl)
  | spawn =>
    obtain ⟨i,x,at'⟩ := guard
    rw [nextSpawn at']
    rw [at'] at length far
    exact ⟨length,far,single⟩
  | serveReturn =>
    obtain ⟨⟨i,at',_⟩,_⟩ := guard
    rw [at'] at length far
    exact ⟨Nat.le_trans length far,Nat.le_refl _,single⟩
  | check w =>
    simp only [next]
    split <;> exact boundedSame ⟨length,far,single⟩ rfl rfl
  | tryServe w ok =>
    obtain ⟨_,failed,phase⟩ := guard
    rw [nextTry phase]
    exact boundedSame ⟨length,far,single⟩ rfl rfl
  | stop =>
    simp only [next]
    split <;> exact boundedSame ⟨length,far,single⟩ rfl rfl
  | closeNext =>
    obtain ⟨x,rest,at'⟩ := guard
    rw [nextClose at']
    exact boundedSame ⟨length,far,single⟩ rfl rfl
  | _ => exact boundedSame ⟨length,far,single⟩ rfl rfl

structure Ok (c : Setup) (s : State) : Prop where
  owned : Owned s
  counted : Counted s
  shut : Shut s
  ran : Ran s
  bounded : Bounded c s

theorem okStep (ok : Ok c s) (guard : enabled c s e) : Ok c (next s e) :=
  ⟨ownedStep ok.owned guard,countedStep ok.counted guard,shutStep ok.owned ok.shut guard,ranStep ok.ran guard,
   boundedStep ok.bounded guard⟩

theorem okStart (c : Setup) : Ok c (.start c) := by
  refine ⟨⟨nofun,nofun,?_,nofun⟩,?_,⟨nofun,nofun,fun _ => rfl,nofun⟩,?_,⟨Nat.le_refl _,Nat.zero_le _,fun _ => rfl⟩⟩
  · intro x mem
    exact .inl (List.mem_singleton.mp mem)
  · simp [Counted,waits,State.start,serveWait]
  · simp [Ran,State.start]

theorem okRun {h} (run : Run (machine c) h s) : Ok c s :=
  invariant (Q := Ok c) (okStart c) (fun _ _ ok guard => okStep ok guard) run

end Gortcd.Shutdown
