import Gortcd.Effects
import Gortcd.Grants

/-! The server as a system. A worker reads a packet and takes the configuration with it;
the context is served later, by any worker and in any order; the options are reloaded in
between. A packet is served in one step. The sections of `New`, the releases of `Remove`
and the collector may also come as steps of their own (`inner`), so that every interleaving
at the granularity of `allocsMux` is a run. -/
namespace Gortcd.Site
open Keyed Net Ports Sections Records Permissions Calls Runs Interleaving Grants Messages Filters Auth Handlers Effects

structure Host (ν : Type) where
  cfg : Config
  nonces : ν
  alloc : State
  queue : List Context

inductive Event where
  | receive (addr : NetAddr) (packet : Bytes)
  | serve (i : Nat) (now : Time) (env : Env)
  | reload (o : Options)
  | inner (e : Interleaving.Event)

/- The sections that need no packet of their own in the run. -/
def Internal : Interleaving.Event → Prop
  | .createPermission _ _ _ => False
  | .channelBind _ _ _ _ => False
  | _ => True

variable {ν : Type}

/- `parseOptions` builds the peer filter. -/
def Parsed (texts : Texts) (rule : Rule) : Prop := ∃ raw f, parseFilteringRules texts raw = .ok f ∧ rule = f.act

def enabled (texts : Texts) (s : Host ν) : Event → Prop
  | .receive _ _ => True
  | .serve i _ _ => i < s.queue.length
  | .reload o => Parsed texts o.peerRule
  | .inner e => Internal e ∧ Interleaving.enabled s.alloc e

/- The loop that `New` has started. No other call adds a socket to the port table. -/
def started (env : Env) (before : Allocator) (out : Handled) : List Loop :=
  match env.port with
  | .ok n => if out.allocs.raddr = before.raddr.new n then [⟨out.ctx.tuple,n.conn,2048⟩] else []
  | .error _ => []

def next (turn : Turn) (stun : Stun) (srv : Server ν) (s : Host ν) : Event → Host ν
  | .receive addr packet => { s with queue := s.queue ++ [accept srv s.cfg addr packet] }
  | .serve i now env => match s.queue[i]? with
    | none => s
    | some c =>
      let out := serveConn turn stun srv env now s.nonces s.alloc.toAllocator c
      { s with
        nonces := out.1
        alloc := { s.alloc with
          toAllocator := out.2.handled.allocs
          loops := started env s.alloc.toAllocator out.2.handled ++ s.alloc.loops }
        queue := s.queue.eraseIdx i }
  | .reload o => { s with cfg := newConfig o }
  | .inner e => { s with alloc := Interleaving.next turn s.alloc e }

def machine (turn : Turn) (stun : Stun) (srv : Server ν) (texts : Texts) (o : Options) (nonces : ν) :
    Machine (Host ν) Event :=
  ⟨⟨newConfig o,nonces,.empty,[]⟩,enabled texts,next turn stun srv⟩

variable {turn : Turn} {stun : Stun} {srv : Server ν} {texts : Texts} {o : Options} {nonces : ν}

theorem nextServe {s : Host ν} {i : Nat} {c : Context} (queued : s.queue[i]? = some c) (now : Time) (env : Env) :
    next turn stun srv s (.serve i now env) =
      { s with
        nonces := (serveConn turn stun srv env now s.nonces s.alloc.toAllocator c).1
        alloc := { s.alloc with
          toAllocator := (serveConn turn stun srv env now s.nonces s.alloc.toAllocator c).2.handled.allocs
          loops := started env s.alloc.toAllocator (serveConn turn stun srv env now s.nonces s.alloc.toAllocator c).2.handled ++
            s.alloc.loops }
        queue := s.queue.eraseIdx i } := by
  simp only [next,queued]

theorem servePending {s : Host ν} {i : Nat} {now : Time} {env : Env} :
    (next turn stun srv s (.serve i now env)).alloc.pending = s.alloc.pending := by
  cases queued : s.queue[i]? with
  | none => simp only [next,queued]
  | some c => rw [nextServe queued]

theorem serveEffect {env : Env} {now : Time} {allocs : Allocator} {c : Context} :
    ((serveConn turn stun srv env now nonces allocs c).2.handled.allocs = allocs ∧
      (serveConn turn stun srv env now nonces allocs c).2.handled.sent = none) ∨
    ∃ ctx, c.arrive turn now = .ok ctx ∧ PacketEffect turn stun srv env nonces allocs ctx
      (serveConn turn stun srv env now nonces allocs c).2.handled.allocs
      (serveConn turn stun srv env now nonces allocs c).2.handled.sent := by
  unfold serveConn
  cases arrival : c.arrive turn now with
  | error d => exact .inl ⟨rfl,rfl⟩
  | ok ctx => exact .inr ⟨ctx,rfl,processEffect⟩

theorem arrivedContext {c ctx : Context} {now : Time} (arrival : c.arrive turn now = .ok ctx) :
    ctx.cfg = c.cfg ∧ ctx.time = now := by
  unfold Context.arrive at arrival
  dsimp only at arrival
  split at arrival
  · cases arrival
  · split at arrival
    · cases arrival
    · cases arrival
      exact ⟨rfl,rfl⟩

theorem serveOk {env : Env} {now : Time} {allocs : Allocator} {c : Context} (ok : TableOk turn allocs.allocs) :
    TableOk turn (serveConn turn stun srv env now nonces allocs c).2.handled.allocs.allocs := by
  rcases @serveEffect ν turn stun srv nonces env now allocs c with ⟨same,_⟩ | ⟨ctx,_,effect⟩
  · rw [same]
    exact ok
  · generalize (serveConn turn stun srv env now nonces allocs c).2.handled.allocs = after at effect ⊢
    generalize (serveConn turn stun srv env now nonces allocs c).2.handled.sent = w at effect
    cases effect with
    | quiet => exact ok
    | message _ _ effect => cases effect with
      | quiet => exact ok
      | @called call _ => exact runOk ok call
      | sent => exact ok
    | channelData => exact ok

theorem nextOk {s : Host ν} (ok : TableOk turn s.alloc.allocs) (e : Event) :
    TableOk turn (next turn stun srv s e).alloc.allocs := by
  cases e with
  | receive addr packet => exact ok
  | serve i now env =>
    cases queued : s.queue[i]? with
    | none =>
      simp only [next,queued]
      exact ok
    | some c =>
      rw [nextServe queued]
      exact serveOk ok
  | reload o => exact ok
  | inner e => exact changeOk (nextChange ok e) ok

theorem siteOk {h s} (run : Run (machine turn stun srv texts o nonces) h s) : TableOk turn s.alloc.allocs := by
  have empty : TableOk turn State.empty.allocs := emptyTableOk
  exact invariant (Q := fun s : Host ν => TableOk turn s.alloc.allocs) empty (fun _ e ok _ => nextOk ok e) run

/- A property of every configuration in use: the current one and those of the contexts. -/
def Configs (Q : Config → Prop) (s : Host ν) : Prop := Q s.cfg ∧ ∀ c ∈ s.queue, Q c.cfg

theorem startConfigs {Q : Config → Prop} (first : Q (newConfig o)) :
    Configs Q (machine turn stun srv texts o nonces).start := by
  refine ⟨first,?_⟩
  intro c mem
  cases mem

theorem nextConfigs {Q : Config → Prop} {s : Host ν} (now : Configs Q s) (e : Event)
    (reload : ∀ o, e = .reload o → Q (newConfig o)) : Configs Q (next turn stun srv s e) := by
  cases e with
  | receive addr packet =>
    refine ⟨now.1,?_⟩
    intro c mem
    rcases List.mem_append.mp mem with old | new
    · exact now.2 c old
    · rw [List.mem_singleton.mp new]
      exact now.1
  | serve i at' env =>
    cases queued : s.queue[i]? with
    | none =>
      simp only [next,queued]
      exact now
    | some c =>
      rw [nextServe queued]
      exact ⟨now.1,fun d mem => now.2 d (List.mem_of_mem_eraseIdx mem)⟩
  | reload o => exact ⟨reload o rfl,now.2⟩
  | inner e => exact now

end Gortcd.Site
