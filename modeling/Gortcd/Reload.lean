import Gortcd.Handlers
import Gortcd.Lib.Runs

/-! Options at run time: internal/server/reload.go, `setOptions`, and the goroutines of
internal/cli that use them. The reload goroutine stores new options and then notifies the
subscribed servers one by one under the read lock; every listener reads the options, makes
a server from them and subscribes it under the write lock. A server that subscribes after a
whole `Set` keeps what it read before. -/
namespace Gortcd.Reload
open Net Messages Filters Handlers Runs
open Auth (AuthErr NonceManager)

/- The options that reach `config`, of which handlers read those of `Handlers`, and `Auth`, which
reaches the server alone. -/
structure ServerOptions (α : Type) extends Options where
  workers : Int
  debugCollect : Bool
  metricsEnabled : Bool
  auth : Option α

inductive Metrics where
  | noop
  | prom (server : Nat)
  deriving DecidableEq, Repr

structure ServerConfig extends Config where
  workers : Int
  debugCollect : Bool
  metrics : Metrics
  metricsEnabled : Bool

/- `Server.newConfig`; the metrics are those of the server, and nothing sets the last field. -/
def newConfig {α : Type} (server : Nat) (o : ServerOptions α) : ServerConfig :=
  { Handlers.newConfig o.toOptions with
    workers := o.workers
    debugCollect := o.debugCollect
    metrics := if o.metricsEnabled then .prom server else .noop
    metricsEnabled := false }

/- The default that `New` sets in its own copy. -/
def ServerOptions.withDefaults {α : Type} (o : ServerOptions α) : ServerOptions α :=
  if o.workers = 0 then { o with workers := 100 } else o

/- A server; its number stands for its address. -/
structure Subscribed (α : Type) where
  server : Nat
  auth : Option α
  cfg : ServerConfig

def newServer {α : Type} (server : Nat) (o : ServerOptions α) : Subscribed α := ⟨server,o.auth,newConfig server o.withDefaults⟩

def Subscribed.setOptions {α : Type} (o : ServerOptions α) (s : Subscribed α) : Subscribed α :=
  { s with cfg := newConfig s.server o }

def Subscribed.handling {ν : Type} (x : Subscribed (Message → Except AuthErr Bytes)) (addr : Addr) (nonce : NonceManager ν) :
    Server ν := ⟨addr,x.auth,nonce⟩

/- A goroutine in `ListenUDPAndServe`: its options, and the server after `New`. -/
structure Listener (α : Type) where
  server : Nat
  opt : ServerOptions α
  made : Option (Subscribed α)

/- `Set` after its store, and inside its loop before the listener with the index. -/
inductive Setting (α : Type) where
  | stored (o : ServerOptions α)
  | notifying (o : ServerOptions α) (i : Nat)

structure State (α : Type) where
  v : ServerOptions α
  setting : Option (Setting α)
  starting : List (Listener α)
  listeners : List (Subscribed α)

inductive Event (α : Type) where
  | get (server : Nat)
  | new (server : Nat)
  | fail (server : Nat) -- listening or `New` returned an error
  | subscribe (server : Nat)
  | store (o : ServerOptions α)
  | lock
  | notify
  | unlock

variable {α : Type}

def State.listener (s : State α) (k : Nat) : Option (Listener α) := s.starting.find? (fun l => l.server == k)

def State.others (s : State α) (k : Nat) : List (Listener α) := s.starting.filter (fun l => l.server != k)

/- `Subscribe` needs the write lock, which the loop of `Set` excludes. -/
def enabled (s : State α) : Event α → Prop
  | .get k => s.listener k = none ∧ ∀ x ∈ s.listeners, x.server ≠ k
  | .new k => ∃ l, s.listener k = some l ∧ l.made = none
  | .fail k => ∃ l, s.listener k = some l ∧ l.made = none
  | .subscribe k => (∃ l x, s.listener k = some l ∧ l.made = some x) ∧ ∀ o i, s.setting ≠ some (.notifying o i)
  | .store _ => s.setting = none
  | .lock => ∃ o, s.setting = some (.stored o)
  | .notify => ∃ o i, s.setting = some (.notifying o i) ∧ i < s.listeners.length
  | .unlock => ∃ o, s.setting = some (.notifying o s.listeners.length)

def next (s : State α) : Event α → State α
  | .get k => { s with starting := ⟨k,s.v,none⟩ :: s.starting }
  | .new k => { s with starting := s.starting.map (fun l =>
      if l.server == k then { l with made := some (newServer k l.opt) } else l) }
  | .fail k => { s with starting := s.others k }
  | .subscribe k => match s.listener k with
    | some ⟨_,_,some x⟩ => { s with starting := s.others k, listeners := s.listeners ++ [x] }
    | _ => s
  | .store o => { s with v := o, setting := some (.stored o) }
  | .lock => match s.setting with
    | some (.stored o) => { s with setting := some (.notifying o 0) }
    | _ => s
  | .notify => match s.setting with
    | some (.notifying o i) =>
        { s with setting := some (.notifying o (i + 1)), listeners := s.listeners.modify i (Subscribed.setOptions o) }
    | _ => s
  | .unlock => { s with setting := none }

def machine (o : ServerOptions α) : Machine (State α) (Event α) := ⟨⟨o,none,[],[]⟩,enabled,next⟩

def Current (s : State α) (x : Subscribed α) : Prop := x.cfg = newConfig x.server s.v

def Settled (s : State α) : Prop := s.setting = none → ∀ x ∈ s.listeners, Current s x

def ServerOptions.Agree (o p : ServerOptions α) : Prop := { o with auth := p.auth } = p

/- A server that subscribes outside of a `Set` was made from the current options. -/
def SubscribesCurrent (x : Step (State α) (Event α)) : Prop :=
  match x.event with
  | .subscribe k => x.pre.setting = none → ∀ l, x.pre.listener k = some l → l.opt.withDefaults.Agree x.pre.v
  | _ => True

theorem agreeConfig {k : Nat} {o p : ServerOptions α} : newConfig k o = newConfig k p ↔ o.Agree p := by
  constructor
  · intro same
    have metrics := congrArg ServerConfig.metrics same
    have enabled : o.metricsEnabled = p.metricsEnabled := by
      cases first : o.metricsEnabled <;> cases second : p.metricsEnabled <;> simp [newConfig,first,second] at metrics ⊢
    obtain ⟨⟨software,realm,auth,peer,client⟩,workers,collect,_,_⟩ := o
    obtain ⟨⟨software',realm',auth',peer',client'⟩,workers',collect',_,_⟩ := p
    simp_all [newConfig,Handlers.newConfig,ServerOptions.Agree]
  · intro agree
    have same : newConfig k { o with auth := p.auth } = newConfig k p := congrArg (newConfig k) agree
    exact same

def Made (s : State α) : Prop := ∀ l ∈ s.starting, ∀ x, l.made = some x → x = newServer l.server l.opt

theorem madeStep {s : State α} (made : Made s) (e : Event α) : Made (next s e) := by
  have fewer (k : Nat) : ∀ l ∈ s.others k, ∀ x, l.made = some x → x = newServer l.server l.opt :=
    fun l mem => made l (List.mem_filter.mp mem).1
  cases e with
  | get k => exact List.forall_mem_cons.mpr ⟨nofun,made⟩
  | new k =>
    intro l mem x has
    obtain ⟨m,old,rfl⟩ := List.mem_map.mp mem
    by_cases own : m.server = k
    · simp only [own,beq_self_eq_true,if_true,Option.some.injEq] at has ⊢
      exact has.symm
    · simp only [beq_eq_false_iff_ne.mpr own] at has ⊢
      exact made m old x has
  | fail k => exact fewer k
  | subscribe k =>
    simp only [next]
    split
    · exact fewer k
    · exact made
  | store o => exact made
  | lock =>
    simp only [next]
    split <;> exact made
  | notify =>
    simp only [next]
    split <;> exact made
  | unlock => exact made

/- The loop of `Set` has told the listeners before its index. -/
structure Told (s : State α) : Prop where
  settled : Settled s
  stored : ∀ o, s.setting = some (.stored o) → o = s.v
  notified : ∀ o i, s.setting = some (.notifying o i) →
    o = s.v ∧ ∀ j x, j < i → s.listeners[j]? = some x → Current s x

theorem subscribeSpec {s : State α} {k : Nat} {l : Listener α} {x : Subscribed α} (found : s.listener k = some l)
    (has : l.made = some x) :
    next s (.subscribe k) = { s with starting := s.others k, listeners := s.listeners ++ [x] } := by
  obtain ⟨server,opt,_⟩ := l
  subst has
  simp only [next,found]

theorem listenerSome {s : State α} {k : Nat} {l : Listener α} (found : s.listener k = some l) :
    l ∈ s.starting ∧ l.server = k :=
  ⟨List.mem_of_find?_eq_some found,by simpa using List.find?_some found⟩

theorem toldStep {s : State α} {e : Event α} (made : Made s) (told : Told s) (guard : enabled s e)
    (cond : SubscribesCurrent ⟨s,e⟩) : Told (next s e) := by
  cases e with
  | get k => exact ⟨told.settled,told.stored,told.notified⟩
  | new k => exact ⟨told.settled,told.stored,told.notified⟩
  | fail k => exact ⟨told.settled,told.stored,told.notified⟩
  | subscribe k =>
    obtain ⟨⟨l,y,found,has⟩,outside⟩ := guard
    obtain ⟨mem,rfl⟩ := listenerSome found
    rw [subscribeSpec found has]
    refine ⟨?_,told.stored,fun o i now => absurd now (outside o i)⟩
    intro idle x listed
    rcases List.mem_append.mp listed with old | new
    · exact told.settled idle x old
    · rw [List.mem_singleton.mp new,made l mem y has]
      exact agreeConfig.mpr (cond idle l found)
  | store o =>
    refine ⟨nofun,?_,nofun⟩
    intro p now
    cases now
    rfl
  | lock =>
    obtain ⟨o,now⟩ := guard
    simp only [next,now]
    refine ⟨nofun,nofun,?_⟩
    intro p i running
    cases running
    exact ⟨told.stored o now,nofun⟩
  | notify =>
    obtain ⟨o,i,now,_⟩ := guard
    obtain ⟨same,before⟩ := told.notified o i now
    simp only [next,now]
    refine ⟨nofun,nofun,?_⟩
    intro p j running
    cases running
    refine ⟨same,?_⟩
    intro j x upto listed
    rw [List.getElem?_modify] at listed
    obtain ⟨y,here,rfl⟩ := Option.map_eq_some_iff.mp listed
    split
    · exact congrArg (newConfig y.server) same
    · rename_i other
      exact before j y (Nat.lt_of_le_of_ne (Nat.le_of_lt_succ upto) (Ne.symm other)) here
  | unlock =>
    obtain ⟨o,now⟩ := guard
    refine ⟨?_,nofun,nofun⟩
    intro _ x mem
    obtain ⟨j,here⟩ := List.getElem?_of_mem mem
    exact (told.notified o _ now).2 j x (List.getElem?_eq_some_iff.mp here).1 here

/- A server made from other options stays behind from its subscription on. -/
theorem subscribedStale {s : State α} {k : Nat} (made : Made s) (guard : enabled s (.subscribe k))
    (settled : Settled (next s (.subscribe k))) : SubscribesCurrent ⟨s,.subscribe k⟩ := by
  intro idle l found
  obtain ⟨⟨m,y,found',has⟩,_⟩ := guard
  cases Option.some.inj (found.symm.trans found')
  obtain ⟨mem,rfl⟩ := listenerSome found
  rw [subscribeSpec found has] at settled
  have current := settled idle y (List.mem_append_right _ List.mem_cons_self)
  rw [made l mem y has] at current
  exact agreeConfig.mp current

variable {initial : ServerOptions α}

theorem madeRun {h s} (run : Run (machine initial) h s) : Made s := by
  have none : Made (machine initial).start := List.forall_mem_nil _
  exact invariant none (fun _ e made _ => madeStep made e) run

theorem toldRun {h s} (run : Run (machine initial) h s) (cond : ∀ x ∈ h, SubscribesCurrent x) : Told s := by
  induction run with
  | start => exact ⟨fun _ => List.forall_mem_nil _,nofun,nofun⟩
  | step before guard ih =>
    obtain ⟨now,past⟩ := List.forall_mem_cons.mp cond
    exact toldStep (madeRun before) (ih past) guard now

/- Every state of a run is settled exactly when all of its subscriptions are current. -/
theorem reloadReachesExactly {h s} (run : Run (machine initial) h s) :
    ((∀ x ∈ h, Settled x.pre) ∧ Settled s) ↔ ∀ x ∈ h, SubscribesCurrent x := by
  induction run with
  | start => exact ⟨fun _ => List.forall_mem_nil _,fun _ => ⟨List.forall_mem_nil _,fun _ => List.forall_mem_nil _⟩⟩
  | @step h s e before guard ih =>
    rw [List.forall_mem_cons,List.forall_mem_cons,← ih]
    constructor
    · intro all
      obtain ⟨⟨pre,past⟩,post⟩ := all
      refine ⟨?_,past,pre⟩
      cases e with
      | subscribe k => exact subscribedStale (madeRun before) guard post
      | _ => trivial
    · intro parts
      obtain ⟨now,past,pre⟩ := parts
      have told := toldRun before (ih.mp ⟨past,pre⟩)
      exact ⟨⟨pre,past⟩,(toldStep (madeRun before) told guard now).settled⟩

def allowing : ServerOptions Unit := ⟨⟨[],[],false,allowAll,allowAll⟩,100,false,false,none⟩
def denying : ServerOptions Unit := ⟨⟨[],[],false,fun _ => .deny,allowAll⟩,100,false,false,none⟩

def reloaded : List (Event Unit) := [.get 1,.new 1,.subscribe 1,.get 2,.store denying,.new 2,.subscribe 2,.lock,.notify,.notify,.unlock]

theorem reloadReachesExactlySample : (trace (machine allowing) [] (machine allowing).start reloaded).2.listeners =
    [⟨1,none,newConfig 1 denying⟩,⟨2,none,newConfig 2 denying⟩] ∧
    Settled (trace (machine allowing) [] (machine allowing).start reloaded).2 := by
  refine ⟨rfl,((reloadReachesExactly (traceStart (m := machine allowing) reloaded ?_)).mpr ?_).2⟩
  · refine ⟨⟨rfl,List.forall_mem_nil _⟩,⟨_,rfl,rfl⟩,⟨⟨_,_,rfl,rfl⟩,nofun⟩,⟨rfl,?_⟩,rfl,⟨_,rfl,rfl⟩,⟨⟨_,_,rfl,rfl⟩,nofun⟩,
      ⟨_,rfl⟩,⟨_,_,rfl,by decide⟩,⟨_,_,rfl,by decide⟩,⟨_,rfl⟩,trivial⟩
    exact List.forall_mem_cons.mpr ⟨by decide,List.forall_mem_nil _⟩
  · refine List.forall_mem_cons.mpr ⟨trivial,List.forall_mem_cons.mpr ⟨trivial,List.forall_mem_cons.mpr ⟨trivial,
      List.forall_mem_cons.mpr ⟨trivial,List.forall_mem_cons.mpr ⟨nofun,List.forall_mem_cons.mpr ⟨trivial,
      List.forall_mem_cons.mpr ⟨trivial,List.forall_mem_cons.mpr ⟨trivial,List.forall_mem_cons.mpr ⟨?_,
      List.forall_mem_cons.mpr ⟨trivial,List.forall_mem_cons.mpr ⟨trivial,List.forall_mem_nil _⟩⟩⟩⟩⟩⟩⟩⟩⟩⟩⟩
    intro _ l found
    cases Option.some.inj found
    rfl

def missed : List (Event Unit) := [.get 1,.store denying,.lock,.unlock,.new 1,.subscribe 1]

theorem reloadMissed : ∃ h s, Run (machine allowing) h s ∧ ¬ Settled s ∧
    ∃ x ∈ s.listeners, x.cfg.peerFilter samplePeer = .allow ∧ (newConfig x.server s.v).peerFilter samplePeer = .deny := by
  have allowed : Allowed (machine allowing) (machine allowing).start missed :=
    ⟨⟨rfl,List.forall_mem_nil _⟩,rfl,⟨_,rfl⟩,⟨_,rfl⟩,⟨_,rfl,rfl⟩,⟨⟨_,_,rfl,rfl⟩,nofun⟩,trivial⟩
  refine ⟨_,_,traceStart (m := machine allowing) missed allowed,?_,_,List.mem_cons_self,rfl,rfl⟩
  intro settled
  have same := congrArg (fun c => c.peerFilter samplePeer) (settled rfl _ List.mem_cons_self)
  cases same

def Reads (k : Nat) (auth : Option α) (x : Step (State α) (Event α)) : Prop := x.event = .get k ∧ x.pre.v.auth = auth

def Rereads (k : Nat) (x : Step (State α) (Event α)) : Prop := x.event = .get k

/- The last `Get` of the listener returned options with this `Auth`. -/
def LastRead (h : List (Step (State α) (Event α))) (k : Nat) (auth : Option α) : Prop :=
  Since (Reads k auth) (fun y => ¬ Rereads k y) h

/- Listeners and their servers have the `Auth` that was there when the listener read the options. -/
structure AuthRead (h : List (Step (State α) (Event α))) (s : State α) : Prop where
  starting : ∀ l ∈ s.starting, LastRead h l.server l.opt.auth
  listeners : ∀ x ∈ s.listeners, LastRead h x.server x.auth

theorem newListeners {s : State α} {k : Nat} {l : Listener α} (mem : l ∈ (next s (.new k)).starting) :
    ∃ m ∈ s.starting, l.server = m.server ∧ l.opt = m.opt := by
  obtain ⟨m,old,rfl⟩ := List.mem_map.mp mem
  refine ⟨m,old,?_⟩
  split <;> exact ⟨rfl,rfl⟩

theorem notifyAuth {s : State α} {x : Subscribed α} (mem : x ∈ (next s .notify).listeners) :
    ∃ y ∈ s.listeners, x.server = y.server ∧ x.auth = y.auth := by
  simp only [next] at mem
  split at mem
  · obtain ⟨j,here⟩ := List.getElem?_of_mem mem
    rw [List.getElem?_modify] at here
    obtain ⟨y,old,rfl⟩ := Option.map_eq_some_iff.mp here
    refine ⟨y,List.mem_of_getElem? old,?_⟩
    split <;> exact ⟨rfl,rfl⟩
  · exact ⟨x,mem,rfl,rfl⟩

theorem authReadStep {h : List (Step (State α) (Event α))} {s : State α} {e : Event α} (made : Made s) (read : AuthRead h s)
    (guard : enabled s e) : AuthRead (⟨s,e⟩ :: h) (next s e) := by
  -- Only a `Get` of the same listener takes the place of the last one.
  have keep {k : Nat} {auth : Option α} (other : e ≠ .get k) (past : LastRead h k auth) : LastRead (⟨s,e⟩ :: h) k auth :=
    .inr ⟨other,past⟩
  cases e with
  | get k =>
    obtain ⟨absent,unsubscribed⟩ := guard
    refine ⟨List.forall_mem_cons.mpr ⟨.inl ⟨rfl,rfl⟩,?_⟩,?_⟩
    · intro l mem
      refine keep ?_ (read.starting l mem)
      intro same
      cases same
      exact List.find?_eq_none.mp absent l mem (beq_self_eq_true _)
    · intro x mem
      refine keep ?_ (read.listeners x mem)
      intro same
      cases same
      exact unsubscribed x mem rfl
  | new k =>
    refine ⟨?_,fun x mem => keep nofun (read.listeners x mem)⟩
    intro l mem
    obtain ⟨m,old,server,opt⟩ := newListeners mem
    rw [server,opt]
    exact keep nofun (read.starting m old)
  | fail k =>
    exact ⟨fun l mem => keep nofun (read.starting l (List.mem_filter.mp mem).1),
      fun x mem => keep nofun (read.listeners x mem)⟩
  | subscribe k =>
    obtain ⟨⟨l,y,found,has⟩,_⟩ := guard
    rw [subscribeSpec found has]
    refine ⟨fun m mem => keep nofun (read.starting m (List.mem_filter.mp mem).1),?_⟩
    intro x mem
    rcases List.mem_append.mp mem with old | new
    · exact keep nofun (read.listeners x old)
    · have here := (listenerSome found).1
      rw [List.mem_singleton.mp new,made l here y has]
      exact keep nofun (read.starting l here)
  | store o => exact ⟨fun l mem => keep nofun (read.starting l mem),fun x mem => keep nofun (read.listeners x mem)⟩
  | lock =>
    obtain ⟨o,now⟩ := guard
    simp only [next,now]
    exact ⟨fun l mem => keep nofun (read.starting l mem),fun x mem => keep nofun (read.listeners x mem)⟩
  | notify =>
    obtain ⟨o,i,now,_⟩ := guard
    refine ⟨?_,?_⟩
    · intro l mem
      simp only [next,now] at mem
      exact keep nofun (read.starting l mem)
    · intro x mem
      obtain ⟨y,old,server,auth⟩ := notifyAuth mem
      rw [server,auth]
      exact keep nofun (read.listeners y old)
  | unlock => exact ⟨fun l mem => keep nofun (read.starting l mem),fun x mem => keep nofun (read.listeners x mem)⟩

theorem authReadRun {h s} (run : Run (machine initial) h s) : AuthRead h s := by
  induction run with
  | start => exact ⟨List.forall_mem_nil _,List.forall_mem_nil _⟩
  | step before guard ih => exact authReadStep (madeRun before) ih guard

def IsStore (x : Step (State α) (Event α)) : Prop := ∃ o, x.event = .store o

theorem valueKept {s : State α} {e : Event α} (other : ¬ IsStore ⟨s,e⟩) : (next s e).v = s.v := by
  cases e with
  | store o => exact absurd ⟨o,rfl⟩ other
  | subscribe k =>
    simp only [next]
    split <;> rfl
  | lock =>
    simp only [next]
    split <;> rfl
  | notify =>
    simp only [next]
    split <;> rfl
  | _ => rfl

/- The value is the first one until a `Set`, and then the one of the last `Set`. -/
theorem valueRun {h s} (run : Run (machine initial) h s) :
    ((∀ x ∈ h, ¬ IsStore x) → s.v = initial) ∧ ((∃ x ∈ h, IsStore x) → ∃ x ∈ h, x.event = .store s.v) := by
  induction run with
  | start => exact ⟨fun _ => rfl,fun stored => absurd stored.choose_spec.1 List.not_mem_nil⟩
  | @step h s e before guard ih =>
    by_cases now : IsStore (⟨s,e⟩ : Step (State α) (Event α))
    · refine ⟨fun none => absurd now (none _ List.mem_cons_self),fun _ => ⟨_,List.mem_cons_self,?_⟩⟩
      obtain ⟨o,is⟩ := now
      cases is
      rfl
    · have same : ((machine initial).next s e).v = s.v := valueKept now
      rw [same]
      refine ⟨fun none => ih.1 (fun x mem => none x (List.mem_cons_of_mem _ mem)),fun stored => ?_⟩
      obtain ⟨x,mem,is⟩ := stored
      rcases List.mem_cons.mp mem with rfl | past
      · exact absurd is now
      · obtain ⟨y,old,value⟩ := ih.2 ⟨x,past,is⟩
        exact ⟨y,List.mem_cons_of_mem _ old,value⟩

end Gortcd.Reload
