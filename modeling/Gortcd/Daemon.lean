import Gortcd.Service
import Gortcd.Inbound
import Gortcd.Responses

/-! The process with all it sends. Workers serve packets, an Allocate request in the three
sections of `New`, and the read loops pass on what peers send. A `New` that has lost its record
to a `Remove` or a `Prune` starts a loop without a socket, which panics when it is scheduled:
the process then ends, and takes no further step. -/
namespace Gortcd.Daemon
open Keyed Net Ports Sections Records Calls Runs Messages Filters Auth Handlers Effects Responses
open Interleaving (Loop orphaned)

structure State (ν : Type) extends Service.State ν where
  doomed : Bool
  alive : Bool

inductive Event where
  | service (e : Service.Event)
  | peerData (l : Loop) (data : Bytes) (peer : Addr) (id : Option Bytes)
  | crash

variable {ν : Type}

/- `New` is never one step here, and the random source gives 12 bytes when it gives any. -/
def guarded (turn : Turn) (stun : Stun) (srv : Server ν) (s : State ν) : Event → Prop
  | .service (.serve i now env) =>
      i < s.queue.length ∧ env.random.length = 12 ∧ ¬ ∃ d, Service.Registers turn stun srv s.toHost i now env d
  | .service (.allocate k i now env) =>
      env.random.length = 12 ∧ Service.enabled turn stun srv s.toState (.allocate k i now env)
  | .service e => Service.enabled turn stun srv s.toState e
  | .peerData l _ _ id => l ∈ s.alloc.loops ∧ s.alloc.raddr.isOpen l.conn = true ∧ ∀ i, id = some i → i.length = 12
  | .crash => s.doomed = true

def enabled (turn : Turn) (stun : Stun) (srv : Server ν) (s : State ν) (e : Event) : Prop :=
  s.alive = true ∧ guarded turn stun srv s e

def orphans (turn : Turn) (s : State ν) : Service.Event → Bool
  | .install k => orphaned turn s.alloc (.install k)
  | _ => false

def next (turn : Turn) (stun : Stun) (srv : Server ν) (s : State ν) : Event → State ν
  | .service e => ⟨Service.next turn stun srv s.toState e,s.doomed || orphans turn s e,s.alive⟩
  | .peerData _ _ _ _ => s
  | .crash => { s with alive := false }

def machine (turn : Turn) (stun : Stun) (srv : Server ν) (o : Options) (nonces : ν) : Machine (State ν) Event :=
  ⟨⟨(Service.machine turn stun srv o nonces).start,false,true⟩,enabled turn stun srv,next turn stun srv⟩

/- The end of `processAllocateRequest`, when `New` has returned. -/
def finishNew (stun : Stun) (allocs : Allocator) (ctx : Context) : Except Err Addr → Handled
  | .ok relayedAddr => ctx.buildOk stun allocs
      [.xorMappedAddress ctx.tuple.client,.relayedAddress relayedAddr,.lifetime ctx.cfg.defaultLifetime]
  | .error .allocationMismatch => ctx.buildErr stun allocs .allocMismatch
  | .error _ => ctx.buildErr stun allocs .serverError

/- A reply with the address it goes to, the data written to a peer, and the packet made of
what a peer has sent. -/
structure Output where
  response : Option (Bytes × NetAddr)
  sent : Option Write
  forwarded : Option (Bytes × Addr)

def Output.nothing : Output := ⟨none,none,none⟩

def State.returns (stun : Stun) (s : State ν) (k : Nat) (result : Except Err Addr) : Output :=
  match s.waiting.find? (fun w => w.1 == k) with
  | none => .nothing
  | some w => ⟨(finishNew stun s.alloc.toAllocator w.2 result).reply.map (fun r => (r,w.2.addr)),none,none⟩

def output (turn : Turn) (stun : Stun) (srv : Server ν) (s : State ν) : Event → Output
  | .service (.serve i now env) => match s.queue[i]? with
    | none => .nothing
    | some c =>
      let out := (serveConn turn stun srv env now s.nonces s.alloc.toAllocator c).2
      ⟨out.response.map (fun r => (r,c.addr)),out.handled.sent,none⟩
  | .service (.answer k (.error e)) => s.returns stun k (.error (.failedToAllocate e))
  | .service (.install k) => match s.alloc.call k with
    | some ⟨_,_,_,some n⟩ => s.returns stun k (.ok n.addr)
    | _ => .nothing
  | .peerData l data peer id => ⟨none,none,Inbound.relay turn stun s.alloc.allocs l data peer id⟩
  | _ => .nothing

variable {turn : Turn} {stun : Stun} {srv : Server ν} {o : Options} {nonces : ν}

def registers (turn : Turn) (stun : Stun) (srv : Server ν) (s : Site.Host ν) (i : Nat) (now : Time) (env : Env) : Bool :=
  match Service.reaches turn stun srv s i now env with
  | none => false
  | some d => match Service.callOf stun env.port d with
    | some (.new t timeout _) => match register turn s.alloc.allocs t timeout with
      | .ok _ => true
      | .error _ => false
    | _ => false

theorem registersExactly {s : Site.Host ν} {i : Nat} {now : Time} {env : Env} :
    registers turn stun srv s i now env = true ↔ ∃ d, Service.Registers turn stun srv s i now env d := by
  unfold registers
  constructor
  · intro known
    split at known <;> try contradiction
    rename_i d reached
    split at known <;> try contradiction
    rename_i made
    split at known <;> try contradiction
    rename_i allocs registering
    cases Service.callMade made
    exact ⟨d,reached,made,allocs,registering⟩
  · intro some'
    obtain ⟨d,reached,made,allocs,registering⟩ := some'
    simp only [reached,made,registering]

instance (s : Site.Host ν) (i : Nat) (now : Time) (env : Env) : Decidable (∃ d, Service.Registers turn stun srv s i now env d) :=
  decidable_of_iff _ registersExactly

instance (s : State ν) (e : Event) : Decidable (guarded turn stun srv s e) :=
  match e with
  | .service (.receive _ _) | .service (.reload _) | .service (.collect _) => .isTrue trivial
  | .service (.serve _ _ _) => inferInstanceAs (Decidable (_ ∧ _ ∧ ¬ _))
  | .service (.allocate k i now env) =>
      inferInstanceAs (Decidable (_ ∧ s.alloc.call k = none ∧ ∃ d, Service.Registers turn stun srv s.toHost i now env d))
  | .service (.answer k port) => inferInstanceAs (Decidable (Interleaving.enabled s.alloc (.answer k port)))
  | .service (.install k) => inferInstanceAs (Decidable (Interleaving.enabled s.alloc (.install k)))
  | .service (.dealloc addr proto) => inferInstanceAs (Decidable (Interleaving.enabled s.alloc (.dealloc addr proto)))
  | .peerData _ _ _ _ => inferInstanceAs (Decidable (_ ∧ _ ∧ ∀ i, _ = some i → _))
  | .crash => inferInstanceAs (Decidable (_ = true))

instance (s : State ν) (e : Event) : Decidable (enabled turn stun srv s e) := inferInstanceAs (Decidable (_ ∧ _))

instance (s : State ν) (e : Event) : Decidable ((machine turn stun srv o nonces).enabled s e) :=
  inferInstanceAs (Decidable (enabled turn stun srv s e))

theorem allocateFinished {env : Env} {a : Allocator} {c : Context} : processAllocateRequest turn stun env a c =
    match stun.requestedTransport c.request with
    | .error _ => c.buildErr stun a .badRequest
    | .ok _ => finishNew stun (a.new turn c.tuple (c.time + c.cfg.defaultLifetime) env.port).1 c
        (a.new turn c.tuple (c.time + c.cfg.defaultLifetime) env.port).2 := by
  unfold processAllocateRequest
  cases stun.requestedTransport c.request with
  | error e => rfl
  | ok p =>
    dsimp only
    generalize a.new turn c.tuple (c.time + c.cfg.defaultLifetime) env.port = out
    obtain ⟨after,result⟩ := out
    cases result with
    | ok addr => rfl
    | error e => cases e <;> rfl

theorem newAnswers (a : Allocator) (c : Context) (result : Except Err Addr) : Answers stun c (finishNew stun a c result) := by
  unfold finishNew
  split
  · exact okAnswers _ (by simp [Short]) (Nat.le_refl 3)
  · exact errAnswers _ .allocMismatch
  · exact errAnswers _ .serverError

/- A run of the process is one of the service with steps that leave it alone. -/
theorem serviceRun {h s} (run : Run (machine turn stun srv o nonces) h s) :
    Reachable (Service.machine turn stun srv o nonces) s.toState := by
  induction run with
  | start => exact ⟨[],.start⟩
  | @step h s e _ guard ih =>
    obtain ⟨past,run⟩ := ih
    obtain ⟨_,guard⟩ := guard
    cases e with
    | service e =>
      refine ⟨_,.step run (?_ : Service.enabled turn stun srv s.toState e)⟩
      cases e with
      | serve i now env => exact guard.1
      | allocate k i now env => exact guard.2
      | _ => exact guard
    | peerData l data peer id => exact ⟨past,run⟩
    | crash => exact ⟨past,run⟩

theorem daemonOk {h s} (run : Run (machine turn stun srv o nonces) h s) : TableOk turn s.alloc.allocs := by
  obtain ⟨_,run⟩ := serviceRun run
  exact Service.serviceOk run

theorem queueStep {s : State ν} {e : Event} {c : Context} (mem : c ∈ (next turn stun srv s e).queue) :
    c ∈ s.queue ∨ ∃ addr packet, e = .service (.receive addr packet) ∧ c = accept srv s.cfg addr packet := by
  have served {i : Nat} {now : Time} {env : Env} (mem : c ∈ (Site.next turn stun srv s.toHost (.serve i now env)).queue) :
      c ∈ s.queue := by
    cases queued : s.queue[i]? with
    | none =>
      simp only [Site.next,queued] at mem
      exact mem
    | some d =>
      rw [Site.nextServe queued] at mem
      exact List.mem_of_mem_eraseIdx mem
  cases e with
  | peerData l data peer id => exact .inl mem
  | crash => exact .inl mem
  | service e => cases e with
    | receive addr packet =>
      rcases List.mem_append.mp mem with old | new
      · exact .inl old
      · exact .inr ⟨addr,packet,rfl,List.mem_singleton.mp new⟩
    | serve i now env => exact .inl (served mem)
    | allocate k i now env =>
      simp only [next,Service.next] at mem
      cases reached : Service.reaches turn stun srv s.toHost i now env with
      | none =>
        simp only [reached] at mem
        exact .inl mem
      | some d =>
        simp only [reached] at mem
        exact .inl (served mem)
    | answer k port => cases port <;> exact .inl mem
    | _ => exact .inl mem

theorem queueRead {h s} (run : Run (machine turn stun srv o nonces) h s) : ∀ c ∈ s.queue,
    ∃ y ∈ h, ∃ addr packet, y.event = .service (.receive addr packet) ∧ c = accept srv y.pre.cfg addr packet := by
  induction run with
  | start => exact List.forall_mem_nil _
  | @step h s e _ _ ih =>
    intro c mem
    rcases queueStep mem with old | ⟨addr,packet,event,rfl⟩
    · obtain ⟨y,past,read⟩ := ih c old
      exact ⟨y,List.mem_cons_of_mem _ past,read⟩
    · exact ⟨⟨s,e⟩,List.mem_cons_self,addr,packet,event,rfl⟩

theorem waitingStep {s : State ν} {e : Event} {w : Nat × Context} (mem : w ∈ (next turn stun srv s e).waiting) :
    w ∈ s.waiting ∨ ∃ i now env, e = .service (.allocate w.1 i now env) ∧
      Service.reaches turn stun srv s.toHost i now env = some w.2 := by
  cases e with
  | peerData l data peer id => exact .inl mem
  | crash => exact .inl mem
  | service e => cases e with
    | allocate k i now env =>
      simp only [next,Service.next] at mem
      cases reached : Service.reaches turn stun srv s.toHost i now env with
      | none =>
        simp only [reached] at mem
        exact .inl mem
      | some d =>
        simp only [reached] at mem
        rcases List.mem_cons.mp mem with rfl | old
        · exact .inr ⟨i,now,env,rfl,reached⟩
        · exact .inl old
    | answer k port => cases port with
      | ok n => exact .inl mem
      | error e => exact .inl (List.mem_filter.mp mem).1
    | install k => exact .inl (List.mem_filter.mp mem).1
    | _ => exact .inl mem

/- The step takes the packet that `dst` has sent from the queue and admits it like this. -/
structure Takes (turn : Turn) (stun : Stun) (srv : Server ν) (y : Step (State ν) Event) (cfg : Config) (dst : NetAddr)
    (packet : Bytes) (ctx : Context) (a : Admission) : Prop where
  taken : ∃ i now env, (y.event = .service (.serve i now env) ∨ ∃ k, y.event = .service (.allocate k i now env)) ∧
    y.pre.queue[i]? = some (accept srv cfg dst packet) ∧ (accept srv cfg dst packet).arrive turn now = .ok ctx ∧
    (admission stun srv env y.pre.nonces ctx).2 = a

def Read (h : List (Step (State ν) Event)) (cfg : Config) (dst : NetAddr) (packet : Bytes) : Prop :=
  ∃ y ∈ h, y.event = .service (.receive dst packet) ∧ y.pre.cfg = cfg

structure Arrived (cfg : Config) (dst : NetAddr) (packet : Bytes) (ctx : Context) : Prop where
  cfg : ctx.cfg = cfg
  addr : ctx.addr = dst
  request : ctx.request = received packet
  cdata : ctx.cdata.raw = packet.take 2048
  response : ctx.response.raw = []
  integrity : ctx.integrity = []
  nonce : ctx.nonce = []

theorem acceptArrived {cfg : Config} {dst : NetAddr} {packet : Bytes} {now : Time} {ctx : Context}
    (arrival : (accept srv cfg dst packet).arrive turn now = .ok ctx) : Arrived cfg dst packet ctx := by
  unfold Context.arrive at arrival
  dsimp only at arrival
  split at arrival
  · cases arrival
  · split at arrival
    · cases arrival
    · cases arrival
      exact ⟨rfl,rfl,rfl,rfl,rfl,rfl,rfl⟩

/- The step sends a reply: it has served a packet, or ended the call of one that was taken before. -/
def Ends (x y : Step (State ν) Event) : Prop :=
  x = y ∨ ∃ k i now env, y.event = .service (.allocate k i now env) ∧
    ((∃ port, x.event = .service (.answer k port)) ∨ x.event = .service (.install k))

/- How a reply came about: a packet that was read is taken, and answered in the context in
which it was admitted, now or when its `New` has returned. -/
structure Replied (turn : Turn) (stun : Stun) (srv : Server ν) (h : List (Step (State ν) Event)) (x : Step (State ν) Event)
    (r : Bytes) (dst : NetAddr) : Prop where
  source : ∃ y ∈ h, ∃ cfg packet ctx a c out, Ends x y ∧ Takes turn stun srv y cfg dst packet ctx a ∧
    Read h cfg dst packet ∧ ctx.response.raw = [] ∧ Admits a c ∧ Answers stun c out ∧ out.reply = some r

theorem readMono {h k : List (Step (State ν) Event)} {cfg : Config} {dst : NetAddr} {packet : Bytes}
    (read : Read h cfg dst packet) (part : ∀ y ∈ h, y ∈ k) : Read k cfg dst packet := by
  obtain ⟨y,past,event,same⟩ := read
  exact ⟨y,part y past,event,same⟩

theorem readQueued {h s} (run : Run (machine turn stun srv o nonces) h s) {i : Nat} {c : Context}
    (queued : s.queue[i]? = some c) : ∃ cfg packet, c = accept srv cfg c.addr packet ∧ Read h cfg c.addr packet := by
  obtain ⟨y,past,addr,packet,event,rfl⟩ := queueRead run c (List.mem_of_getElem? queued)
  exact ⟨y.pre.cfg,packet,rfl,y,past,event,rfl⟩

theorem waitingTaken {h s} (run : Run (machine turn stun srv o nonces) h s) : ∀ w ∈ s.waiting,
    ∃ y ∈ h, ∃ cfg packet ctx, (∃ i now env, y.event = .service (.allocate w.1 i now env)) ∧
      Takes turn stun srv y cfg w.2.addr packet ctx (.pass w.2) ∧ Read h cfg w.2.addr packet ∧ ctx.response.raw = [] := by
  induction run with
  | start => exact List.forall_mem_nil _
  | @step h s e before _ ih =>
    intro w mem
    rcases waitingStep mem with old | ⟨i,now,env,rfl,reached⟩
    · obtain ⟨y,past,cfg,packet,ctx,event,takes,read,empty⟩ := ih w old
      exact ⟨y,List.mem_cons_of_mem _ past,cfg,packet,ctx,event,takes,readMono read (fun y => List.mem_cons_of_mem _),empty⟩
    · obtain ⟨c,ctx,queued,arrival,_,pass⟩ := Service.reached.mp reached
      obtain ⟨m,_,carried,_⟩ := passed pass
      obtain ⟨cfg,packet,same,read⟩ := readQueued before queued
      rw [same] at queued arrival
      have arrived := acceptArrived arrival
      have dst : w.2.addr = c.addr := carried.addr.trans arrived.addr
      refine ⟨⟨s,_⟩,List.mem_cons_self,cfg,packet,ctx,⟨i,now,env,rfl⟩,?_,?_,arrived.response⟩
      · rw [dst]
        exact ⟨⟨i,now,env,.inr ⟨w.1,rfl⟩,queued,arrival,pass⟩⟩
      · rw [dst]
        exact readMono read (fun y => List.mem_cons_of_mem _)

theorem repliedStep {h s} (run : Run (machine turn stun srv o nonces) h s) {e : Event} {r : Bytes} {dst : NetAddr}
    (sent : (output turn stun srv s e).response = some (r,dst)) : Replied turn stun srv (⟨s,e⟩ :: h) ⟨s,e⟩ r dst := by
  have returned {k : Nat} {result : Except Err Addr} (sent : (s.returns stun k result).response = some (r,dst))
      (ends : (∃ port, e = .service (.answer k port)) ∨ e = .service (.install k)) :
      Replied turn stun srv (⟨s,e⟩ :: h) ⟨s,e⟩ r dst := by
    unfold State.returns at sent
    split at sent
    · cases sent
    · rename_i w found
      obtain ⟨r',replied,same⟩ := Option.map_eq_some_iff.mp sent
      cases same
      have own : w.1 = k := by simpa using List.find?_some found
      obtain ⟨y,past,cfg,packet,ctx,⟨i,now,env,event⟩,takes,read,empty⟩ := waitingTaken run w (List.mem_of_find?_eq_some found)
      rw [own] at event
      exact ⟨⟨y,List.mem_cons_of_mem _ past,cfg,packet,ctx,_,w.2,_,.inr ⟨k,i,now,env,event,ends⟩,takes,
        readMono read (fun y => List.mem_cons_of_mem _),empty,.pass w.2,newAnswers _ w.2 result,replied⟩⟩
  cases e with
  | peerData l data peer id => cases sent
  | crash => cases sent
  | service e => cases e with
    | serve i now env =>
      simp only [output] at sent
      split at sent
      · cases sent
      · rename_i c queued
        obtain ⟨r',replied,same⟩ := Option.map_eq_some_iff.mp sent
        cases same
        obtain ⟨cfg,packet,same,read⟩ := readQueued run queued
        unfold serveConn at replied
        cases arrival : c.arrive turn now with
        | error ctx =>
          rw [arrival] at replied
          cases replied
        | ok ctx =>
          rw [arrival] at replied
          have empty : ctx.response.raw = [] := by
            rw [same] at arrival
            exact (acceptArrived arrival).response
          rcases @processAnswers ν turn stun srv env s.nonces s.alloc.toAllocator ctx with kept | ⟨_,d,admits,answers⟩
          · have raw := (replyRaw replied).2.1
            rw [kept] at raw
            exact absurd empty raw
          · rw [same] at queued arrival
            exact ⟨⟨_,List.mem_cons_self,cfg,packet,ctx,_,d,_,.inl rfl,⟨⟨i,now,env,.inl rfl,queued,arrival,rfl⟩⟩,
              readMono read (fun y => List.mem_cons_of_mem _),empty,admits,answers,replied⟩⟩
    | answer k port => cases port with
      | ok n => cases sent
      | error e => exact returned sent (.inl ⟨_,rfl⟩)
    | install k =>
      simp only [output] at sent
      split at sent
      · exact returned sent (.inr rfl)
      · cases sent
    | _ => cases sent

theorem repliedRun {h s} (run : Run (machine turn stun srv o nonces) h s) {x : Step (State ν) Event} (mem : x ∈ h) {r : Bytes}
    {dst : NetAddr} (sent : (output turn stun srv x.pre x.event).response = some (r,dst)) : Replied turn stun srv h x r dst := by
  obtain ⟨later,before,rfl⟩ := List.append_of_mem mem
  obtain ⟨y,past,cfg,packet,ctx,a,c,out,ends,takes,read,rest⟩ := (repliedStep (earlier run).1 sent).source
  have part : ∀ y ∈ x :: before, y ∈ later ++ x :: before := fun y => List.mem_append_right _
  exact ⟨⟨y,part y past,cfg,packet,ctx,a,c,out,ends,takes,readMono read part,rest⟩⟩

/- A process without authentication, for running the model. -/
abbrev openProcess : Machine (State NonceAuth) Event :=
  machine .documented Codec.wire PeerFilter.openServer PeerFilter.sampleOptions (newNonceAuth 0)

end Gortcd.Daemon
