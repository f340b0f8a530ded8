import Gortcd.Service

/-! How long a record may live after the request that last set its timeout. `Key` names an
allocation, a permission or a binding, `Writes` says which calls set its timeout, and
`Sets` which request a step carries out that way. Every handler stays within the maximal
lifetime except that of Refresh, which takes the LIFETIME of the client as it is. -/
namespace Gortcd.Lifetimes
open Keyed Net Ports Sections Records Permissions Calls Runs Interleaving Isolation Messages Filters Auth Handlers Site
open Service

inductive Key where
  | allocation (t : FiveTuple)
  | permission (t : FiveTuple) (ip : IP)
  | binding (t : FiveTuple) (ip : IP) (n : ChannelNumber)

def Key.tuple : Key → FiveTuple
  | .allocation t => t
  | .permission t _ => t
  | .binding t _ _ => t

def Key.read : Key → Allocation → Option Time
  | .allocation _,a => some a.timeout
  | .permission _ ip,a => (Records.permission a ip).map Permission.timeout
  | .binding _ ip n,a => (Records.permission a ip).bind (fun p => (channelBinding p n).map Binding.timeout)

def timeoutOf (turn : Turn) (allocs : Table) (key : Key) : Option Time := (find turn allocs key.tuple).bind key.read

def deadline : Call → Time
  | .new _ timeout _ => timeout
  | .remove _ => 0
  | .prune t => t
  | .refresh _ timeout => timeout
  | .createPermission _ _ timeout => timeout
  | .channelBind _ _ _ timeout => timeout

/- The call sets the timeout of the record to its deadline. `ChannelBind` sets that of a
permission only when it comes later. -/
def Writes (turn : Turn) (allocs : Table) : Key → Call → Prop
  | .allocation t,.new t' _ _ => turn.tuples.same t' t = true ∧ t'.proto = turn.protoUDP ∧ find turn allocs t' = none
  | .allocation t,.refresh t' _ => turn.tuples.same t' t = true ∧ (find turn allocs t').isSome
  | .permission t ip,.createPermission t' q _ =>
      turn.tuples.same t' t = true ∧ IP.equal q.ip ip = true ∧ (find turn allocs t').isSome
  | .permission t ip,.channelBind t' n q timeout =>
      turn.tuples.same t' t = true ∧ IP.equal q.ip ip = true ∧ (channelBind turn allocs t' n q timeout).2 = none ∧
        ∀ a p, find turn allocs t' = some a → Records.permission a q.ip = some p → p.timeout < timeout
  | .binding t ip m,.channelBind t' n q timeout =>
      turn.tuples.same t' t = true ∧ IP.equal q.ip ip = true ∧ n = m ∧ (channelBind turn allocs t' n q timeout).2 = none
  | _,_ => False

variable {ν : Type} {turn : Turn} {stun : Stun} {srv : Server ν} {o : Options} {nonces : ν}

/- A read after a write: the deadline if the call writes the key, else the old timeout. -/
def Written (turn : Turn) (allocs : Table) (key : Key) (c : Call) (v : Time) : Prop :=
  (Writes turn allocs key c ∧ v = deadline c) ∨ (¬ Writes turn allocs key c ∧ timeoutOf turn allocs key = some v)

theorem writesTuple {allocs : Table} {key : Key} {c : Call} (writes : Writes turn allocs key c) :
    ∃ t, c.tuple = some t ∧ turn.tuples.same t key.tuple = true := by
  cases key <;> cases c <;> first
    | exact writes.elim
    | exact ⟨_,rfl,writes.1⟩

theorem boundChannel {n m : ChannelNumber} {peer : Addr} {timeout : Time} (p : Permission) :
    (channelBinding (p.bind n peer timeout false).1 m).map Binding.timeout =
      if n = m then some timeout else (channelBinding p m).map Binding.timeout := by
  rw [channelBinding,bindBindings]
  split
  · rename_i present
    have updated := @lookupUpdate _ _ (equality ChannelNumber) Binding.channel n m p.bindings
      (fun b => { b with timeout := timeout }) (fun _ hit => hit)
    rw [update] at updated
    simp only [equalitySame,beq_iff_eq] at updated
    rw [updated]
    split
    · have some' : (lookup (equality ChannelNumber) Binding.channel n p.bindings).isSome = true := by
        rw [lookupIsSome]
        exact present
      obtain ⟨b,found⟩ := Option.isSome_iff_exists.mp some'
      rw [found]
      rfl
    · rfl
  · rename_i absent
    have fresh : lookup (equality ChannelNumber) Binding.channel n p.bindings = none := by
      rw [lookupNone]
      simpa using absent
    have appended := @lookupAppend _ _ (equality ChannelNumber) Binding.channel m p.bindings ⟨peer.port,n,timeout⟩ fresh
    rw [appended]
    simp only [equalitySame,beq_iff_eq]
    split <;> rfl

theorem grantTimeout {peer : Addr} {timeout : Time} (a : Allocation) : (a.grant peer timeout).timeout = a.timeout := by
  unfold Allocation.grant
  split <;> rfl

theorem grantRead {peer : Addr} {timeout v : Time} {a : Allocation} {key : Key}
    (read : key.read (a.grant peer timeout) = some v) :
    (∃ t ip, key = .permission t ip ∧ IP.equal peer.ip ip = true ∧ v = timeout) ∨
      ((∀ t ip, key = .permission t ip → IP.equal peer.ip ip = false) ∧ key.read a = some v) := by
  cases key with
  | allocation t =>
    simp only [Key.read,grantTimeout] at read
    exact .inr ⟨nofun,read⟩
  | permission t ip =>
    simp only [Key.read,permissionGrant] at read
    cases same : IP.equal peer.ip ip with
    | false =>
      rw [same] at read
      refine .inr ⟨?_,read⟩
      intro t' ip' eq
      cases eq
      exact same
    | true =>
      refine .inl ⟨t,ip,rfl,same,?_⟩
      rw [same] at read
      cases under : Records.permission a peer.ip <;> rw [under] at read <;> exact (Option.some.inj read).symm
  | binding t ip n =>
    refine .inr ⟨nofun,?_⟩
    simp only [Key.read,permissionGrant] at read ⊢
    cases same : IP.equal peer.ip ip with
    | false =>
      rw [same] at read
      exact read
    | true =>
      have moved : Records.permission a ip = Records.permission a peer.ip := (lookupCongr same).symm
      rw [same] at read
      rw [moved]
      cases under : Records.permission a peer.ip <;> rw [under] at read
      · cases read
      · exact read

theorem permissionBound {n : ChannelNumber} {peer : Addr} {timeout v : Time} {a b : Allocation}
    (bound : Allocation.bindTo n peer timeout a = some b) {t : FiveTuple} {ip : IP} (same : IP.equal peer.ip ip = true)
    (read : (Key.permission t ip).read b = some v) :
    (v = timeout ∧ ∀ p, Records.permission a peer.ip = some p → p.timeout < timeout) ∨
    ((∃ p, Records.permission a peer.ip = some p ∧ timeout ≤ p.timeout) ∧ (Key.permission t ip).read a = some v) := by
  simp only [Key.read,permissionBind bound,same] at read
  cases under : Records.permission a peer.ip with
  | none =>
    rw [under] at read
    exact .inl ⟨(Option.some.inj read).symm,nofun⟩
  | some p =>
    rw [under] at read
    simp only [if_true,Option.map_some,Option.getD_some,boundTimeout,Option.some.injEq] at read
    rcases Int.lt_or_le p.timeout timeout with later | early
    · rw [Int.max_eq_right (Int.le_of_lt later)] at read
      refine .inl ⟨read.symm,?_⟩
      intro q eq
      cases eq
      exact later
    · rw [Int.max_eq_left early] at read
      have moved : Records.permission a ip = some p := (lookupCongr same).symm.trans under
      exact .inr ⟨⟨p,rfl,early⟩,by simp [Key.read,moved,read]⟩

theorem bindingBound {n m : ChannelNumber} {peer : Addr} {timeout v : Time} {a b : Allocation}
    (bound : Allocation.bindTo n peer timeout a = some b) {t : FiveTuple} {ip : IP} (same : IP.equal peer.ip ip = true)
    (read : (Key.binding t ip m).read b = some v) :
    (n = m ∧ v = timeout) ∨ (n ≠ m ∧ (Key.binding t ip m).read a = some v) := by
  simp only [Key.read,permissionBind bound,same] at read
  have moved : Records.permission a ip = Records.permission a peer.ip := (lookupCongr same).symm
  have touched : (if n = m then some timeout else (Records.permission a peer.ip).bind
      (fun p => (channelBinding p m).map Binding.timeout)) = some v := by
    cases under : Records.permission a peer.ip with
    | none =>
      rw [under] at read
      simpa [channelBinding,lookupCons,lookupNil,apply_ite] using read
    | some p =>
      rw [under] at read
      simpa [boundChannel] using read
  split at touched
  · rename_i channel
    exact .inl ⟨channel,(Option.some.inj touched).symm⟩
  · rename_i other
    refine .inr ⟨other,?_⟩
    rw [Key.read,moved]
    exact touched

theorem bindRead {n : ChannelNumber} {peer : Addr} {timeout v : Time} {a b : Allocation}
    (bound : Allocation.bindTo n peer timeout a = some b) {key : Key} (read : key.read b = some v) :
    (v = timeout ∧
      ((∃ t ip, key = .permission t ip ∧ IP.equal peer.ip ip = true ∧
        ∀ p, Records.permission a peer.ip = some p → p.timeout < timeout) ∨
      ∃ t ip, key = .binding t ip n ∧ IP.equal peer.ip ip = true)) ∨
    ((∀ t ip, key = .permission t ip → IP.equal peer.ip ip = true →
        ∃ p, Records.permission a peer.ip = some p ∧ timeout ≤ p.timeout) ∧
      (∀ t ip, key = .binding t ip n → IP.equal peer.ip ip = false) ∧ key.read a = some v) := by
  cases key with
  | allocation t =>
    simp only [Key.read,(bindToTuple bound).2.2.2] at read
    exact .inr ⟨nofun,nofun,read⟩
  | permission t ip =>
    cases same : IP.equal peer.ip ip with
    | false =>
      simp only [Key.read,permissionBind bound,same] at read
      refine .inr ⟨?_,nofun,read⟩
      intro t' ip' eq hit
      cases eq
      cases same.symm.trans hit
    | true =>
      rcases permissionBound bound same read with ⟨made,raised⟩ | ⟨later,before⟩
      · exact .inl ⟨made,.inl ⟨t,ip,rfl,same,raised⟩⟩
      · exact .inr ⟨fun _ _ _ _ => later,nofun,before⟩
  | binding t ip m =>
    cases same : IP.equal peer.ip ip with
    | false =>
      simp only [Key.read,permissionBind bound,same] at read
      refine .inr ⟨nofun,?_,read⟩
      intro t' ip' eq
      cases eq
      exact same
    | true =>
      rcases bindingBound bound same read with ⟨rfl,made⟩ | ⟨other,before⟩
      · exact .inl ⟨made,.inr ⟨t,ip,rfl,same⟩⟩
      · refine .inr ⟨nofun,?_,before⟩
        intro t' ip' eq
        cases eq
        exact absurd rfl other

theorem newWritten {a : Allocator} {t : FiveTuple} {timeout v : Time} {port : Except PortErr NetAllocation} {key : Key}
    (same : turn.tuples.same t key.tuple = true)
    (read : (effect turn (.new t timeout port) (find turn a.allocs t)).bind key.read = some v) :
    Written turn a.allocs key (.new t timeout port) v := by
  cases found : find turn a.allocs t with
  | some b =>
    rw [found] at read
    refine .inr ⟨?_,?_⟩
    · intro writes
      cases key with
      | allocation => cases writes.2.2.symm.trans found
      | permission => exact writes
      | binding => exact writes
    · rw [timeoutOf,foundUnder (turn.tuples.symm same) found]
      exact read
  | none =>
    rw [found] at read
    have bare {b : Allocation} (eq : effect turn (.new t timeout port) none = some b) :
        b.timeout = timeout ∧ b.permissions = [] ∧ t.proto = turn.protoUDP := by
      simp only [effect] at eq
      split at eq
      · cases eq
      · rename_i udp
        split at eq <;> cases eq <;> exact ⟨rfl,rfl,by simpa using udp⟩
    cases made : effect turn (.new t timeout port) none with
    | none =>
      rw [made] at read
      cases read
    | some b =>
      obtain ⟨at',none,udp⟩ := bare made
      rw [made,Option.bind_some] at read
      cases key with
      | allocation => exact .inl ⟨⟨same,udp,found⟩,(Option.some.inj read).symm.trans at'⟩
      | permission =>
        simp only [Key.read,noPermission none] at read
        cases read
      | binding =>
        simp only [Key.read,noPermission none] at read
        cases read

theorem refreshWritten {a : Allocator} {t : FiveTuple} {timeout v : Time} {key : Key}
    (same : turn.tuples.same t key.tuple = true)
    (read : (effect turn (.refresh t timeout) (find turn a.allocs t)).bind key.read = some v) :
    Written turn a.allocs key (.refresh t timeout) v := by
  cases found : find turn a.allocs t with
  | none =>
    rw [found] at read
    cases read
  | some b =>
    rw [found] at read
    have old : find turn a.allocs key.tuple = some b := foundUnder (turn.tuples.symm same) found
    cases key with
    | allocation => exact .inl ⟨⟨same,by rw [found]; rfl⟩,(Option.some.inj read).symm⟩
    | permission => exact .inr ⟨id,by rw [timeoutOf,old]; exact read⟩
    | binding => exact .inr ⟨id,by rw [timeoutOf,old]; exact read⟩

theorem grantWritten {a : Allocator} {t : FiveTuple} {peer : Addr} {timeout v : Time} {key : Key}
    (same : turn.tuples.same t key.tuple = true)
    (read : (effect turn (.createPermission t peer timeout) (find turn a.allocs t)).bind key.read = some v) :
    Written turn a.allocs key (.createPermission t peer timeout) v := by
  cases found : find turn a.allocs t with
  | none =>
    rw [found] at read
    cases read
  | some b =>
    rw [found] at read
    have old : find turn a.allocs key.tuple = some b := foundUnder (turn.tuples.symm same) found
    rcases grantRead read with ⟨t',ip,rfl,hit,rfl⟩ | ⟨other,before⟩
    · exact .inl ⟨⟨same,hit,by rw [found]; rfl⟩,rfl⟩
    · refine .inr ⟨?_,by rw [timeoutOf,old]; exact before⟩
      intro writes
      cases key with
      | allocation => exact writes
      | permission t' ip => cases (other t' ip rfl).symm.trans writes.2.1
      | binding => exact writes

theorem bindWritten {a : Allocator} (ok : TableOk turn a.allocs) {t : FiveTuple} {n : ChannelNumber} {peer : Addr}
    {timeout v : Time} {key : Key} (same : turn.tuples.same t key.tuple = true)
    (read : (effect turn (.channelBind t n peer timeout) (find turn a.allocs t)).bind key.read = some v) :
    Written turn a.allocs key (.channelBind t n peer timeout) v := by
  have moved : find turn a.allocs key.tuple = find turn a.allocs t := lookupCongr (turn.tuples.symm same)
  have refused (eq : effect turn (.channelBind t n peer timeout) (find turn a.allocs t) = find turn a.allocs t)
      (failed : (channelBind turn a.allocs t n peer timeout).2 ≠ none) :
      Written turn a.allocs key (.channelBind t n peer timeout) v := by
    rw [eq,← moved] at read
    refine .inr ⟨?_,read⟩
    intro writes
    cases key with
    | allocation => exact writes
    | permission => exact failed writes.2.2.1
    | binding => exact failed writes.2.2.2
  have spec := @channelBound turn a.allocs t timeout ok.distinct n peer
  cases valid : turn.channelValid n with
  | false => exact refused (by simp [effect,valid]) (by simp [spec,valid])
  | true =>
    cases found : find turn a.allocs t with
    | none => exact refused (by simp [effect,valid,found]) (by simp [spec,valid,found])
    | some b => cases bound : Allocation.bindTo n peer timeout b with
      | none => exact refused (by simp [effect,valid,found,Allocation.rebind,bound]) (by simp [spec,valid,found,bound])
      | some d =>
        have success : (channelBind turn a.allocs t n peer timeout).2 = none := by simp [spec,valid,found,bound]
        have after : key.read d = some v := by simpa [effect,valid,found,Allocation.rebind,bound] using read
        rcases bindRead bound after with ⟨rfl,⟨t',ip,rfl,hit,later⟩ | ⟨t',ip,rfl,hit⟩⟩ | ⟨permission,binding,before⟩
        · refine .inl ⟨⟨same,hit,success,?_⟩,rfl⟩
          intro b' p found' under
          cases found.symm.trans found'
          exact later p under
        · exact .inl ⟨⟨same,hit,rfl,success⟩,rfl⟩
        · refine .inr ⟨?_,by rw [timeoutOf,moved,found]; exact before⟩
          intro writes
          cases key with
          | allocation => exact writes
          | permission t' ip =>
            obtain ⟨p,under,late⟩ := permission t' ip rfl writes.2.1
            exact absurd (writes.2.2.2 b p found under) (Int.not_lt.mpr late)
          | binding t' ip m =>
            obtain ⟨_,hit,rfl,_⟩ := writes
            cases (binding t' ip rfl).symm.trans hit

theorem callWritten {a : Allocator} (ok : TableOk turn a.allocs) {c : Call} {t : FiveTuple} (own : c.tuple = some t)
    {key : Key} {v : Time} (read : timeoutOf turn (a.run turn c).allocs key = some v) : Written turn a.allocs key c v := by
  rw [timeoutOf,runRecord ok own] at read
  cases same : turn.tuples.same t key.tuple with
  | false =>
    rw [same] at read
    refine .inr ⟨?_,read⟩
    intro writes
    obtain ⟨t',own',hit⟩ := writesTuple writes
    cases own.symm.trans own'
    cases same.symm.trans hit
  | true =>
    rw [same,if_pos rfl] at read
    cases c with
    | prune => cases own
    | new => cases own; exact newWritten same read
    | remove => cases read
    | refresh => cases own; exact refreshWritten same read
    | createPermission => cases own; exact grantWritten same read
    | channelBind => cases own; exact bindWritten ok same read

/- The step carries out, for the request with context `d`, a section that sets the timeout
of the record: when its packet is served, or when the waiting `New` of the request
installs its record. -/
def Sets (turn : Turn) (stun : Stun) (srv : Server ν) (key : Key) (d : Context)
    (x : Step (Service.State ν) Service.Event) : Prop :=
  match x.event with
  | .serve i now env => reaches turn stun srv x.pre.toHost i now env = some d ∧
      ∃ c, callOf stun env.port d = some c ∧ Writes turn x.pre.alloc.allocs key c
  | .allocate _ i now env => reaches turn stun srv x.pre.toHost i now env = some d ∧
      Writes turn x.pre.alloc.allocs key (.new d.tuple (d.time + d.cfg.defaultLifetime) env.port)
  | .install k => ∃ t p n, key = .allocation t ∧ x.pre.alloc.call k = some p ∧ p.port = some n ∧ (k,d) ∈ x.pre.waiting ∧
      p.tuple = d.tuple ∧ p.timeout = d.time + d.cfg.defaultLifetime ∧ turn.tuples.same d.tuple t = true ∧
      (find turn x.pre.alloc.allocs d.tuple).isSome
  | _ => False

def Within (turn : Turn) (stun : Stun) (srv : Server ν) (h : List (Step (Service.State ν) Service.Event)) (key : Key)
    (v : Time) : Prop :=
  Since (fun x => ∃ d, Sets turn stun srv key d x ∧ v ≤ d.time + d.cfg.maxLifetime)
    (fun x => ¬ ∃ d, Sets turn stun srv key d x) h

def Bounded (turn : Turn) (stun : Stun) (srv : Server ν) (h : List (Step (Service.State ν) Service.Event))
    (s : Service.State ν) : Prop :=
  ∀ a ∈ s.alloc.allocs, Within turn stun srv h (.allocation a.tuple) a.timeout ∧
    ∀ p ∈ a.permissions, Within turn stun srv h (.permission a.tuple p.ip) p.timeout ∧
      ∀ b ∈ p.bindings, Within turn stun srv h (.binding a.tuple p.ip b.channel) b.timeout

/- A Refresh request that finds an allocation asks for no more than the maximal lifetime. -/
def Capped (turn : Turn) (stun : Stun) (srv : Server ν) (x : Step (Service.State ν) Service.Event) : Prop :=
  ∀ d l, RefreshOf turn stun srv d x → stun.lifetime d.request = .ok l →
    (find turn x.pre.alloc.allocs d.tuple).isSome → l ≤ d.cfg.maxLifetime

def Sound (cfg : Config) : Prop := 0 ≤ cfg.maxLifetime ∧ cfg.defaultLifetime ≤ cfg.maxLifetime

theorem newConfigSound (o : Options) : Sound (newConfig o) := by
  simp only [Sound,newConfig,second]
  decide

/- The context of every waiting `New` is at hand, and all configurations are sound. -/
structure Waits (s : Service.State ν) : Prop where
  pending : ∀ p ∈ s.alloc.pending, ∃ d, (p.call,d) ∈ s.waiting ∧ p.tuple = d.tuple ∧
    p.timeout = d.time + d.cfg.defaultLifetime
  configs : Configs Sound s.toHost
  waiting : ∀ w ∈ s.waiting, Sound w.2.cfg

theorem reachedSound {s : Service.State ν} (configs : Configs Sound s.toHost) {i : Nat} {now : Time} {env : Env} {d : Context}
    (request : reaches turn stun srv s.toHost i now env = some d) : Sound d.cfg := by
  obtain ⟨c,ctx,queued,arrival,_,admitted⟩ := reached.mp request
  obtain ⟨m,_,carried,_⟩ := Effects.passed admitted
  rw [carried.cfg,(arrivedContext arrival).1]
  exact configs.2 c (List.mem_of_getElem? queued)

theorem configsStep {s : Service.State ν} (configs : Configs Sound s.toHost) (e : Service.Event) :
    Configs Sound (Service.next turn stun srv s e).toHost := by
  have site (e : Site.Event) : Configs Sound (Site.next turn stun srv s.toHost e) :=
    nextConfigs configs e (fun o _ => newConfigSound o)
  cases e with
  | receive addr packet => exact site (.receive addr packet)
  | reload o => exact site (.reload o)
  | serve i now env => exact site (.serve i now env)
  | allocate k i now env =>
    simp only [Service.next]
    split
    · exact configs
    · exact site (.serve i now env)
  | answer k port => cases port <;> exact configs
  | _ => exact configs

theorem notDropped {s : Service.State ν} {k : Nat} {p : Pending} (mem : p ∈ s.alloc.done k) {d : Context}
    (held : (p.call,d) ∈ s.waiting) : (p.call,d) ∈ drop k s.waiting :=
  List.mem_filter.mpr ⟨held,(List.mem_filter.mp mem).2⟩

theorem pendingWaits {s : Service.State ν} (inv : Waits s) {e : Service.Event} (guard : Service.enabled turn stun srv s e) :
    ∀ p ∈ (Service.next turn stun srv s e).alloc.pending, ∃ d, (p.call,d) ∈ (Service.next turn stun srv s e).waiting ∧
      p.tuple = d.tuple ∧ p.timeout = d.time + d.cfg.defaultLifetime := by
  cases e with
  | serve i now env =>
    simp only [Service.next,servePending]
    exact inv.pending
  | allocate k i now env =>
    obtain ⟨_,d,request,_,allocs,registering⟩ := guard
    intro p mem
    simp only [Service.next,request,Interleaving.next,registering] at mem ⊢
    rcases List.mem_cons.mp mem with rfl | old
    · exact ⟨d,List.mem_cons_self,rfl,rfl⟩
    · obtain ⟨d',held,rest⟩ := inv.pending p old
      exact ⟨d',List.mem_cons_of_mem _ held,rest⟩
  | answer k port => cases port with
    | error e =>
      intro p mem
      obtain ⟨d,held,rest⟩ := inv.pending p (List.mem_filter.mp mem).1
      exact ⟨d,notDropped mem held,rest⟩
    | ok n =>
      intro p mem
      obtain ⟨q,listed,rfl⟩ := List.mem_map.mp mem
      obtain ⟨d,held,rest⟩ := inv.pending q listed
      split
      · exact ⟨d,held,rest⟩
      · exact ⟨d,held,rest⟩
  | install k =>
    obtain ⟨q,n,call,port⟩ := guard
    intro p mem
    simp only [Service.next,installSpec call port] at mem ⊢
    obtain ⟨d,held,rest⟩ := inv.pending p (List.mem_filter.mp mem).1
    exact ⟨d,notDropped mem held,rest⟩
  | _ => exact inv.pending

theorem waitsStep {s : Service.State ν} (inv : Waits s) {e : Service.Event} (guard : Service.enabled turn stun srv s e) :
    Waits (Service.next turn stun srv s e) := by
  refine ⟨pendingWaits inv guard,configsStep inv.configs e,?_⟩
  have dropped (k : Nat) : ∀ w ∈ drop k s.waiting, Sound w.2.cfg := fun w mem => inv.waiting w (List.mem_filter.mp mem).1
  cases e with
  | allocate k i now env =>
    obtain ⟨_,d,request,_⟩ := guard
    simp only [Service.next,request]
    exact List.forall_mem_cons.mpr ⟨reachedSound inv.configs request,inv.waiting⟩
  | answer k port => cases port with
    | error e => exact dropped k
    | ok n => exact inv.waiting
  | install k => exact dropped k
  | _ => exact inv.waiting

theorem waits {h s} (run : Run (Service.machine turn stun srv o nonces) h s) : Waits s := by
  have start : Waits (Service.machine turn stun srv o nonces).start := by
    refine ⟨?_,⟨newConfigSound o,?_⟩,?_⟩
    · intro p mem
      cases mem
    · intro c mem
      cases mem
    · intro w mem
      cases mem
  exact invariant (Q := Waits) start (fun _ _ inv guard => waitsStep inv guard) run

theorem requestWithin {port : Except PortErr NetAllocation} {d : Context} (sound : Sound d.cfg) {c : Call}
    (made : callOf stun port d = some c) {allocs : Table} {key : Key} (writes : Writes turn allocs key c)
    (capped : ∀ l, d.request.type = ⟨.refresh,.request⟩ → stun.lifetime d.request = .ok l →
      (find turn allocs d.tuple).isSome → l ≤ d.cfg.maxLifetime) : deadline c ≤ d.time + d.cfg.maxLifetime := by
  have byDefault : d.time + d.cfg.defaultLifetime ≤ d.time + d.cfg.maxLifetime := Int.add_le_add_left sound.2 _
  cases callMade made with
  | new => exact byDefault
  | removeZero => cases key <;> exact writes.elim
  | removeMissing => cases key <;> exact writes.elim
  | refresh type given => cases key with
    | allocation => exact Int.add_le_add_left (capped _ type given writes.2) _
    | permission => exact writes.elim
    | binding => exact writes.elim
  | createGiven =>
    refine Int.add_le_add_left ?_ _
    split
    · exact Int.le_refl _
    · rename_i less
      exact Int.not_lt.mp less
  | createDefault => exact byDefault
  | channelBind => exact byDefault

theorem pruneRead {x v : Time} {a : Allocation} (ok : AllocationOk turn a) {key : Key}
    (read : key.read (a.prune x) = some v) : key.read a = some v := by
  cases key with
  | allocation => exact read
  | permission t ip =>
    simp only [Key.read,permissionPrune ok.distinct] at read ⊢
    obtain ⟨p,under,at'⟩ := Option.map_eq_some_iff.mp read
    obtain ⟨pruned,_⟩ := Option.filter_eq_some_iff.mp under
    obtain ⟨q,old,rfl⟩ := Option.map_eq_some_iff.mp pruned
    rw [old]
    exact congrArg some at'
  | binding t ip n =>
    simp only [Key.read,permissionPrune ok.distinct] at read ⊢
    obtain ⟨p,under,inside⟩ := Option.bind_eq_some_iff.mp read
    obtain ⟨pruned,_⟩ := Option.filter_eq_some_iff.mp under
    obtain ⟨q,old,rfl⟩ := Option.map_eq_some_iff.mp pruned
    have channels := (ok.permissions q (lookupSome old).1).channels
    have filtered : channelBinding (q.prune x) n = (channelBinding q n).filter (fun b => decide (x < b.timeout)) :=
      lookupFilter channels _
    obtain ⟨b,held,at'⟩ := Option.map_eq_some_iff.mp inside
    rw [filtered] at held
    rw [old,Option.bind_some,(Option.filter_eq_some_iff.mp held).1]
    exact congrArg some at'

/- A timeout found after the step was set by it, within bounds, or was there before. -/
def Settled (turn : Turn) (stun : Stun) (srv : Server ν) (x : Step (Service.State ν) Service.Event) (key : Key) (v : Time) :
    Prop :=
  (∃ d, Sets turn stun srv key d x ∧ v ≤ d.time + d.cfg.maxLifetime) ∨
    ((¬ ∃ d, Sets turn stun srv key d x) ∧ timeoutOf turn x.pre.alloc.allocs key = some v)

theorem unset {x : Step (Service.State ν) Service.Event} {key : Key} {v : Time} (idle : ∀ d, ¬ Sets turn stun srv key d x)
    (read : timeoutOf turn x.pre.alloc.allocs key = some v) : Settled turn stun srv x key v := by
  refine .inr ⟨?_,read⟩
  intro sets
  obtain ⟨d,sets⟩ := sets
  exact idle d sets

section Steps
variable {s : Service.State ν} (ok : TableOk turn s.alloc.allocs) (inv : Waits s) {key : Key} {v : Time}

include ok inv in
theorem serveSettled {i : Nat} {now : Time} {env : Env} (capped : Capped turn stun srv ⟨s,.serve i now env⟩)
    (read : timeoutOf turn (Service.next turn stun srv s (.serve i now env)).alloc.allocs key = some v) :
    Settled turn stun srv ⟨s,.serve i now env⟩ key v := by
  simp only [Service.next,serveAllocs] at read
  cases request : reaches turn stun srv s.toHost i now env with
  | none =>
    rw [request] at read
    exact unset (fun d sets => by cases request.symm.trans sets.1) read
  | some d => cases made : callOf stun env.port d with
    | none =>
      simp only [request,made,Option.bind_some] at read
      refine unset ?_ read
      intro d' sets
      obtain ⟨same,c,made',_⟩ := sets
      cases request.symm.trans same
      cases made.symm.trans made'
    | some c =>
      simp only [request,made,Option.bind_some,Option.elim_some] at read
      rcases callWritten ok (callOfTuple made) read with ⟨writes,rfl⟩ | ⟨other,before⟩
      · refine .inl ⟨d,⟨request,c,made,writes⟩,requestWithin (reachedSound inv.configs request) made writes ?_⟩
        intro l type given present
        exact capped d l ⟨i,now,env,rfl,request,type⟩ given present
      · refine unset ?_ before
        intro d' sets
        obtain ⟨same,c',made',writes⟩ := sets
        cases request.symm.trans same
        cases made.symm.trans made'
        exact other writes

include ok inv in
theorem allocateSettled {k i : Nat} {now : Time} {env : Env}
    (guard : Service.enabled turn stun srv s (.allocate k i now env))
    (read : timeoutOf turn (Service.next turn stun srv s (.allocate k i now env)).alloc.allocs key = some v) :
    Settled turn stun srv ⟨s,.allocate k i now env⟩ key v := by
  obtain ⟨_,d,request,_,allocs,registering⟩ := guard
  -- the first section of `New` is `New` with a port allocator that fails
  have section' : (s.alloc.toAllocator.run turn (.new d.tuple (d.time + d.cfg.defaultLifetime) (.error .listen))).allocs =
      (Service.next turn stun srv s (.allocate k i now env)).alloc.allocs := by
    simp only [Service.next,request,Interleaving.next,registering,Allocator.run,Allocator.new]
  have anyPort (port : Except PortErr NetAllocation) :
      Writes turn s.alloc.allocs key (.new d.tuple (d.time + d.cfg.defaultLifetime) port) ↔
        Writes turn s.alloc.allocs key (.new d.tuple (d.time + d.cfg.defaultLifetime) env.port) := by
    cases key <;> exact Iff.rfl
  rw [← section'] at read
  rcases callWritten ok rfl read with ⟨writes,rfl⟩ | ⟨other,before⟩
  · exact .inl ⟨d,⟨request,(anyPort _).mp writes⟩,Int.add_le_add_left (reachedSound inv.configs request).2 _⟩
  · refine unset ?_ before
    intro d' sets
    cases request.symm.trans sets.1
    exact other ((anyPort _).mpr sets.2)

include inv in
theorem installSettled {k : Nat} (guard : Service.enabled turn stun srv s (.install k))
    (read : timeoutOf turn (Service.next turn stun srv s (.install k)).alloc.allocs key = some v) :
    Settled turn stun srv ⟨s,.install k⟩ key v := by
  obtain ⟨p,n,call,port⟩ := guard
  obtain ⟨listed,rfl⟩ := callSome call
  obtain ⟨d,held,tuple,at'⟩ := inv.pending p listed
  simp only [Service.next,installSpec call port,timeoutOf,findInstall] at read
  cases same : turn.tuples.same p.tuple key.tuple with
  | false =>
    rw [same] at read
    refine unset ?_ read
    intro d' sets
    obtain ⟨t,q,m,rfl,call',_,_,tuple',_,hit,_⟩ := sets
    cases call.symm.trans call'
    rw [← tuple'] at hit
    cases same.symm.trans hit
  | true =>
    rw [same] at read
    cases found : find turn s.alloc.allocs p.tuple with
    | none =>
      rw [found] at read
      cases read
    | some a =>
      rw [found] at read
      cases key with
      | allocation t =>
        refine .inl ⟨d,⟨t,p,n,rfl,call,port,held,tuple,at',tuple ▸ same,tuple ▸ (by rw [found]; rfl)⟩,?_⟩
        have installedAt : v = p.timeout := (Option.some.inj read).symm
        rw [installedAt,at']
        exact Int.add_le_add_left (inv.waiting _ held).2 _
      | permission => cases read
      | binding => cases read

include ok in
theorem collectSettled {now : Time} (read : timeoutOf turn (Service.next turn stun srv s (.collect now)).alloc.allocs key = some v) :
    Settled turn stun srv ⟨s,.collect now⟩ key v := by
  refine unset (fun _ => id) ?_
  simp only [Service.next,Interleaving.next,timeoutOf,findPrune ok.distinct] at read
  obtain ⟨b,kept,inside⟩ := Option.bind_eq_some_iff.mp read
  obtain ⟨pruned,_⟩ := Option.filter_eq_some_iff.mp kept
  obtain ⟨a,found,rfl⟩ := Option.map_eq_some_iff.mp pruned
  rw [timeoutOf,found]
  exact pruneRead (ok.allocations a (lookupSome found).1) inside

include ok inv in
theorem timeoutStep {e : Service.Event} (guard : Service.enabled turn stun srv s e) (capped : Capped turn stun srv ⟨s,e⟩)
    (read : timeoutOf turn (Service.next turn stun srv s e).alloc.allocs key = some v) :
    Settled turn stun srv ⟨s,e⟩ key v := by
  cases e with
  | receive addr packet => exact unset (fun _ => id) read
  | reload o => exact unset (fun _ => id) read
  | dealloc addr proto => exact unset (fun _ => id) read
  | answer k port => cases port <;> exact unset (fun _ => id) read
  | serve i now env => exact serveSettled ok inv capped read
  | allocate k i now env => exact allocateSettled ok inv guard read
  | install k => exact installSettled inv guard read
  | collect now => exact collectSettled ok read

end Steps

theorem storedRead {allocs : Table} (ok : TableOk turn allocs) {a : Allocation} (mem : a ∈ allocs) :
    timeoutOf turn allocs (.allocation a.tuple) = some a.timeout ∧
    ∀ p ∈ a.permissions, timeoutOf turn allocs (.permission a.tuple p.ip) = some p.timeout ∧
      ∀ b ∈ p.bindings, timeoutOf turn allocs (.binding a.tuple p.ip b.channel) = some b.timeout := by
  have found : find turn allocs a.tuple = some a := lookupOfMem ok.distinct mem (turn.tuples.refl a.tuple)
  have inside := ok.allocations a mem
  have row (key : Key) (own : key.tuple = a.tuple) : timeoutOf turn allocs key = key.read a := by
    rw [timeoutOf,own,found,Option.bind_some]
  refine ⟨row _ rfl,?_⟩
  intro p held
  have under := permissionMem inside held
  refine ⟨by rw [row _ rfl,Key.read,under]; rfl,?_⟩
  intro b bound
  have channel : channelBinding p b.channel = some b :=
    lookupOfMem (inside.permissions p held).channels bound ((equality ChannelNumber).refl b.channel)
  rw [row _ rfl,Key.read,under,Option.bind_some,channel]
  rfl

theorem timeoutsWithin {h s} (run : Run (Service.machine turn stun srv o nonces) h s)
    (capped : ∀ x ∈ h, Capped turn stun srv x) {key : Key} {v : Time} (read : timeoutOf turn s.alloc.allocs key = some v) :
    Within turn stun srv h key v := by
  induction run with
  | start => cases read
  | step before guard ih =>
    obtain ⟨now,earlier⟩ := List.forall_mem_cons.mp capped
    rcases timeoutStep (serviceOk before) (waits before) guard now read with made | ⟨other,old⟩
    · exact .inl made
    · exact .inr ⟨other,ih earlier old⟩

theorem boundedOf {h s} (run : Run (Service.machine turn stun srv o nonces) h s)
    (capped : ∀ x ∈ h, Capped turn stun srv x) : Bounded turn stun srv h s := by
  intro a mem
  obtain ⟨allocation,inside⟩ := storedRead (serviceOk run) mem
  refine ⟨timeoutsWithin run capped allocation,?_⟩
  intro p held
  obtain ⟨permission,bindings⟩ := inside p held
  exact ⟨timeoutsWithin run capped permission,fun b bound => timeoutsWithin run capped (bindings b bound)⟩

theorem cappedNeeded {h : List (Step (Service.State ν) Service.Event)} {s : Service.State ν} (inv : Waits s)
    {e : Service.Event} (after : Bounded turn stun srv (⟨s,e⟩ :: h) (Service.next turn stun srv s e)) :
    Capped turn stun srv ⟨s,e⟩ := by
  intro d l refresh given present
  obtain ⟨i,now,env,rfl,request,type⟩ := refresh
  obtain ⟨a,found⟩ := Option.isSome_iff_exists.mp present
  by_cases zero : l = 0
  · rw [zero]
    exact (reachedSound inv.configs request).1
  · have made : callOf stun env.port d = some (.refresh d.tuple (d.time + l)) := by simp [callOf,type,given,zero]
    have row : find turn (Service.next turn stun srv s (.serve i now env)).alloc.allocs d.tuple =
        some { a with timeout := d.time + l } := by
      simp only [Service.next,serveAllocs,request,Option.bind_some,made,Option.elim_some,Allocator.run,
        Allocator.refresh,findRefresh,turn.tuples.refl,if_true]
      rw [found]
      rfl
    obtain ⟨mem,same⟩ := lookupSome row
    have own : turn.tuples.same d.tuple a.tuple = true := turn.tuples.symm same
    rcases (after _ mem).1 with ⟨d',⟨again,_⟩,within⟩ | ⟨none,_⟩
    · cases request.symm.trans again
      exact Int.le_of_add_le_add_left within
    · refine absurd ⟨d,request,_,made,own,?_⟩ none
      exact present

/- In every run, all timeouts lie within the maximal lifetime in every state reached if and
only if every Refresh request that finds an allocation asks for no more. -/
theorem lifetimesCapped {h s} (run : Run (Service.machine turn stun srv o nonces) h s) :
    (Along (fun g x => Bounded turn stun srv g x.pre) h ∧ Bounded turn stun srv h s) ↔
      ∀ x ∈ h, Capped turn stun srv x := by
  induction run with
  | start => exact ⟨fun _ => by simp,fun capped => ⟨trivial,boundedOf .start capped⟩⟩
  | @step h s e before guard ih =>
    constructor
    · intro bounded
      obtain ⟨⟨now,earlier⟩,last⟩ := bounded
      exact List.forall_mem_cons.mpr ⟨cappedNeeded (waits before) last,ih.mp ⟨earlier,now⟩⟩
    · intro capped
      obtain ⟨earlier,now⟩ := ih.mpr (List.forall_mem_cons.mp capped).2
      exact ⟨⟨now,earlier⟩,boundedOf (.step before guard) capped⟩

def shortPacket : Bytes := Codec.refreshRequest 0x02 0x58

def longPacket : Bytes := Codec.refreshRequest 0x1c 0x20

theorem refreshRead {s : Service.State ν} {i : Nat} {now : Time} {env : Env} {d : Context} {β : Type} {f : Context → β}
    {value : β} (read : (reaches turn stun srv s.toHost i now env).map f = some value)
    (refresh : RefreshOf turn stun srv d ⟨s,.serve i now env⟩) : f d = value := by
  obtain ⟨_,_,_,event,request,_⟩ := refresh
  cases event
  rw [request] at read
  exact Option.some.inj read

theorem lifetimesCappedSample :
    Bounded .documented Codec.wire PeerFilter.openServer
      (refreshing shortPacket :: (trace sampleService [] sampleService.start (allocated shortPacket)).1)
      (sampleService.next (refreshing shortPacket).pre (refreshing shortPacket).event) ∧
    (timeoutOf .documented (sampleService.next (refreshing shortPacket).pre (refreshing shortPacket).event).alloc.allocs
      (.allocation sampleTuple)) = some 600000000002 := by
  refine ⟨((lifetimesCapped (refreshingRun shortPacket)).mpr ?_).2,by decide +kernel⟩
  refine List.forall_mem_cons.mpr ⟨?_,List.forall_mem_cons.mpr ⟨?_,List.forall_mem_cons.mpr ⟨?_,
    List.forall_mem_cons.mpr ⟨?_,List.forall_mem_nil _⟩⟩⟩⟩
  · intro d l refresh given _
    have read := @refreshRead _ _ _ _ _ _ _ _ _ _ (fun d => (Codec.wire.lifetime d.request,d.cfg.maxLifetime))
      (.ok 600000000000,3600000000000) (by decide +kernel) refresh
    obtain ⟨lifetime,most⟩ := Prod.mk.inj read
    cases given.symm.trans lifetime
    rw [most]
    decide
  · intro d l refresh
    obtain ⟨_,_,_,event,_⟩ := refresh
    cases event
  · intro d l refresh
    have read := @refreshRead _ _ _ _ _ _ _ _ _ _ (fun d => d.request.type) ⟨.allocate,.request⟩ (by decide +kernel) refresh
    obtain ⟨_,_,_,_,_,type⟩ := refresh
    cases type.symm.trans read
  · intro d l refresh
    obtain ⟨_,_,_,event,_⟩ := refresh
    cases event

/- The allocation is kept for two hours although the maximal lifetime is one. -/
theorem refreshUncapped : ∃ h s, Run sampleService h s ∧
    ¬ Bounded .documented Codec.wire PeerFilter.openServer h s := by
  refine ⟨_,_,refreshingRun longPacket,?_⟩
  intro bounded
  have read : (reaches .documented Codec.wire PeerFilter.openServer (refreshing longPacket).pre.toHost 0 2
      ⟨[],.error .listen⟩).map (fun d => (d.request.type,Codec.wire.lifetime d.request,d.tuple,d.cfg.maxLifetime)) =
      some (⟨.refresh,.request⟩,.ok 7200000000000,sampleTuple,3600000000000) := by decide +kernel
  obtain ⟨d,request,same⟩ := Option.map_eq_some_iff.mp read
  obtain ⟨type,rest⟩ := Prod.mk.inj same
  obtain ⟨given,rest⟩ := Prod.mk.inj rest
  obtain ⟨tuple,most⟩ := Prod.mk.inj rest
  have present : (find .documented (refreshing longPacket).pre.alloc.allocs sampleTuple).isSome := by decide +kernel
  rw [← tuple] at present
  have run := traceStart (m := sampleService) (allocated longPacket) ⟨trivial,Nat.one_pos,trivial,trivial⟩
  have within := cappedNeeded (waits run) bounded d _ ⟨0,2,_,rfl,request,type⟩ given present
  rw [most] at within
  exact absurd within (by decide)

end Gortcd.Lifetimes
