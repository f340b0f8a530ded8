import Gortcd.Interleaving

/-! Updates around an allocation. A `CreatePermission`, `ChannelBind` or `Refresh` that
returned nil is kept by every later step that neither drops nor updates the same record,
unless the second section of `New` writes its placeholder over it. -/
namespace Gortcd.Updates
open Keyed Net Ports Sections Records Permissions Calls Runs Interleaving

variable {turn : Turn} {timeout : Time}

def HasTimeout (turn : Turn) (t : FiveTuple) (timeout : Time) (s : State) : Prop :=
  ∃ a, find turn s.allocs t = some a ∧ a.timeout = timeout

def HasPermission (turn : Turn) (t : FiveTuple) (ip : IP) (timeout : Time) (s : State) : Prop :=
  ∃ a p, find turn s.allocs t = some a ∧ permission a ip = some p ∧ p.timeout = timeout

def HasBinding (turn : Turn) (t : FiveTuple) (n : ChannelNumber) (peer : Addr) (timeout : Time) (s : State) : Prop :=
  ∃ a p, find turn s.allocs t = some a ∧ permission a peer.ip = some p ∧ ⟨peer.port,n,timeout⟩ ∈ p.bindings

/- The step is no `Remove` of the tuple, no expiry of the record and no update of it. -/
def SparesTimeout (turn : Turn) (t : FiveTuple) (x : Step State Event) : Prop :=
  match x.event with
  | .remove t' => turn.tuples.same t' t = false
  | .prune now => ∀ a, find turn x.pre.allocs t = some a → now < a.timeout
  | .refresh t' _ => turn.tuples.same t' t = false
  | _ => True

def SparesPermission (turn : Turn) (t : FiveTuple) (ip : IP) (x : Step State Event) : Prop :=
  match x.event with
  | .remove t' => turn.tuples.same t' t = false
  | .prune now => ∀ a, find turn x.pre.allocs t = some a → now < a.timeout ∧
      ∀ p, permission a ip = some p → now < p.timeout
  | .createPermission t' q timeout => ¬ (turn.tuples.same t' t = true ∧ IP.equal q.ip ip = true ∧
      (createPermission turn x.pre.allocs t' q timeout).2 = none)
  | .channelBind t' n q timeout => ¬ (turn.tuples.same t' t = true ∧ IP.equal q.ip ip = true ∧
      (channelBind turn x.pre.allocs t' n q timeout).2 = none)
  | _ => True

def SparesBinding (turn : Turn) (t : FiveTuple) (n : ChannelNumber) (peer : Addr) (x : Step State Event) : Prop :=
  match x.event with
  | .remove t' => turn.tuples.same t' t = false
  | .prune now => ∀ a, find turn x.pre.allocs t = some a → now < a.timeout ∧
      ∀ p, permission a peer.ip = some p → now < p.timeout ∧
        ∀ b ∈ p.bindings, b.port = peer.port → b.channel = n → now < b.timeout
  | .channelBind t' m q timeout => ¬ (turn.tuples.same t' t = true ∧ IP.equal q.ip peer.ip = true ∧ m = n ∧
      (channelBind turn x.pre.allocs t' m q timeout).2 = none)
  | _ => True

/- Every successful update that no later step took back is in the table. -/
structure NoLostUpdate (turn : Turn) (h : List (Step State Event)) (s : State) : Prop where
  timeouts : ∀ later pre before t timeout, h = later ++ ⟨pre,.refresh t timeout⟩ :: before →
    (refresh turn pre.allocs t timeout).2 = none →
    (∀ x ∈ later, SparesTimeout turn t x) → HasTimeout turn t timeout s
  permissions : ∀ later pre before t q timeout, h = later ++ ⟨pre,.createPermission t q timeout⟩ :: before →
    (createPermission turn pre.allocs t q timeout).2 = none →
    (∀ x ∈ later, SparesPermission turn t q.ip x) → HasPermission turn t q.ip timeout s
  bindings : ∀ later pre before t n q timeout, h = later ++ ⟨pre,.channelBind t n q timeout⟩ :: before →
    (channelBind turn pre.allocs t n q timeout).2 = none →
    (∀ x ∈ later, SparesBinding turn t n q x) → HasBinding turn t n q timeout s

def RefreshesTuple (turn : Turn) (t : FiveTuple) (x : Step State Event) : Prop :=
  ∃ t' timeout, x.event = .refresh t' timeout ∧ turn.tuples.same t' t = true

def RegistersTuple (turn : Turn) (t : FiveTuple) (x : Step State Event) : Prop :=
  ∃ k t' timeout allocs, x.event = .register k t' timeout ∧ turn.tuples.same t' t = true ∧
    register turn x.pre.allocs t' timeout = .ok allocs

/- An installation finds its record without permissions and, if a `Refresh` came after the
registration, with the timeout it writes; a `Refresh` finds an allocation; and a
`ChannelBind` that is not refused finds its channel unbound under the peer's IP, or
bound to the peer's own port. -/
def Preserving (turn : Turn) (h : List (Step State Event)) (x : Step State Event) : Prop :=
  match x.event with
  | .install k => ∀ p n a, x.pre.call k = some p → p.port = some n → find turn x.pre.allocs p.tuple = some a →
      a.permissions = [] ∧
        (a.timeout = p.timeout ∨ ¬ Since (RefreshesTuple turn p.tuple) (fun y => ¬ RegistersTuple turn p.tuple y) h)
  | .refresh t _ => (find turn x.pre.allocs t).isSome
  | .channelBind t n q _ => ∀ a p b, find turn x.pre.allocs t = some a → permission a q.ip = some p →
      p.conflicts n q = false → channelBinding p n = some b → b.port = q.port
  | _ => True

theorem permissionMade {s : State} {t : FiveTuple} {q : Addr}
    (success : (createPermission turn s.allocs t q timeout).2 = none) :
    HasPermission turn t q.ip timeout (next turn s (.createPermission t q timeout)) := by
  rw [createdPermission] at success
  cases found : find turn s.allocs t with
  | none => simp [found] at success
  | some a =>
    have after : find turn (next turn s (.createPermission t q timeout)).allocs t = some (a.grant q timeout) := by
      simp only [next,findGrant,turn.tuples.refl,if_true,found,Option.map_some]
    refine ⟨_,_,after,(permissionGrant a q q.ip).trans (if_pos (ips.refl _)),?_⟩
    cases permission a q.ip <;> rfl

theorem permissionKept {s : State} (ok : TableOk turn s.allocs) {e : Event} {h : List (Step State Event)}
    (met : Preserving turn h ⟨s,e⟩) {t : FiveTuple} {ip : IP} (spared : SparesPermission turn t ip ⟨s,e⟩)
    (now : HasPermission turn t ip timeout s) : HasPermission turn t ip timeout (next turn s e) := by
  obtain ⟨a,p,found,under,at'⟩ := now
  obtain ⟨o,after,step⟩ := stepFrom ok e found
  cases step with
  | kept => exact ⟨a,p,after,under,at'⟩
  | installed call port same =>
    obtain ⟨none,_⟩ := met _ _ a call port (foundUnder same found)
    rw [noPermission none] at under
    cases under
  | removed same => exact absurd (same.symm.trans spared) (by simp)
  | @pruned x _ alive =>
    have late := (spared a found).2 p under
    refine ⟨_,p.prune x,after,?_,at'⟩
    rw [permissionPrune (ok.allocations a (lookupSome found).1).distinct,under]
    simp [Permission.prune,late]
  | expired late => exact absurd (spared a found).1 (Int.not_lt.mpr late)
  | refreshed => exact ⟨_,p,after,under,at'⟩
  | @granted t' q later _ same =>
    have other : IP.equal q.ip ip = false := by
      refine Bool.eq_false_iff.mpr (fun ips => spared ⟨same,ips,?_⟩)
      simp [createdPermission,foundUnder same found]
    exact ⟨_,p,after,by rw [permissionGrant,other]; exact under,at'⟩
  | @bound t' n q later _ _ same success to' =>
    have other : IP.equal q.ip ip = false := Bool.eq_false_iff.mpr (fun ips => spared ⟨same,ips,success⟩)
    exact ⟨_,p,after,by rw [permissionBind to',other]; exact under,at'⟩

theorem bindMade {p : Permission} {n : ChannelNumber} {q : Addr}
    (own : ∀ b, channelBinding p n = some b → b.port = q.port) :
    ⟨q.port,n,timeout⟩ ∈ (p.bind n q timeout false).1.bindings := by
  rw [bindBindings]
  split
  · rename_i present
    have some' : (channelBinding p n).isSome = true := by
      rw [channelBinding,lookupIsSome]
      exact present
    obtain ⟨b,found⟩ := Option.isSome_iff_exists.mp some'
    have hit : ({ b with timeout := timeout } : Binding) ∈ updateFirst (fun b => b.channel == n)
        (fun b => { b with timeout := timeout }) p.bindings := memUpdateHit found
    have channel : b.channel = n := beq_iff_eq.mp (lookupSome found).2
    rw [own b found,channel] at hit
    exact hit
  · exact List.mem_append_right _ List.mem_cons_self

theorem bindSpared {p : Permission} {n : ChannelNumber} {q : Addr} {b : Binding} (mem : b ∈ p.bindings)
    (other : b.channel ≠ n) : b ∈ (p.bind n q timeout false).1.bindings := by
  rw [bindBindings]
  split
  · exact memUpdateOther mem (beq_eq_false_iff_ne.mpr other)
  · exact List.mem_append_left _ mem

theorem bindingMade {s : State} (ok : TableOk turn s.allocs) {h : List (Step State Event)} {t : FiveTuple}
    {n : ChannelNumber} {q : Addr} (met : Preserving turn h ⟨s,.channelBind t n q timeout⟩)
    (success : (channelBind turn s.allocs t n q timeout).2 = none) :
    HasBinding turn t n q timeout (next turn s (.channelBind t n q timeout)) := by
  rcases @bindCases turn s.allocs t timeout ok.distinct n q with ⟨failed,_⟩ | ⟨a,b,_,found,bound,eq⟩
  · exact absurd success failed
  · have after : find turn (next turn s (.channelBind t n q timeout)).allocs t = some b := by
      simp only [next,eq,findRebind,turn.tuples.refl,if_true,found,Option.map_some,Allocation.rebind,bound,
        Option.getD_some]
    refine ⟨b,_,after,(permissionBind bound q.ip).trans (if_pos (ips.refl _)),?_⟩
    cases under : permission a q.ip with
    | none => exact List.mem_cons_self
    | some p => exact bindMade (fun c channel => met a p c found under (bindToFree bound under) channel)

theorem bindingKept {s : State} (ok : TableOk turn s.allocs) {e : Event} {h : List (Step State Event)}
    (met : Preserving turn h ⟨s,e⟩) {t : FiveTuple} {n : ChannelNumber} {q : Addr}
    (spared : SparesBinding turn t n q ⟨s,e⟩) (now : HasBinding turn t n q timeout s) :
    HasBinding turn t n q timeout (next turn s e) := by
  obtain ⟨a,p,found,under,mem⟩ := now
  obtain ⟨o,after,step⟩ := stepFrom ok e found
  cases step with
  | kept => exact ⟨a,p,after,under,mem⟩
  | installed call port same =>
    obtain ⟨none,_⟩ := met _ _ a call port (foundUnder same found)
    rw [noPermission none] at under
    cases under
  | removed same => exact absurd (same.symm.trans spared) (by simp)
  | @pruned x _ alive =>
    obtain ⟨late,binding⟩ := (spared a found).2 p under
    refine ⟨_,p.prune x,after,?_,List.mem_filter.mpr ⟨mem,decide_eq_true (binding _ mem rfl rfl)⟩⟩
    rw [permissionPrune (ok.allocations a (lookupSome found).1).distinct,under]
    simp [Permission.prune,late]
  | expired late => exact absurd (spared a found).1 (Int.not_lt.mpr late)
  | refreshed => exact ⟨_,p,after,under,mem⟩
  | @granted t' r later _ same =>
    cases ip : IP.equal r.ip q.ip with
    | false => exact ⟨_,p,after,by rw [permissionGrant,ip]; exact under,mem⟩
    | true =>
      have old : permission a r.ip = some p := (lookupCongr ip).trans under
      exact ⟨_,{ p with timeout := later },after,by simp [permissionGrant,ip,old],mem⟩
  | @bound t' m r later _ _ same success to' =>
    cases ip : IP.equal r.ip q.ip with
    | false => exact ⟨_,p,after,by rw [permissionBind to',ip]; exact under,mem⟩
    | true =>
      have old : permission a r.ip = some p := (lookupCongr ip).trans under
      have other : n ≠ m := fun same' => spared ⟨same,ip,same'.symm,success⟩
      exact ⟨_,_,after,by rw [permissionBind to',ip,old]; rfl,bindSpared mem other⟩

theorem timeoutMade {s : State} {h : List (Step State Event)} {t : FiveTuple}
    (met : Preserving turn h ⟨s,.refresh t timeout⟩) : HasTimeout turn t timeout (next turn s (.refresh t timeout)) := by
  obtain ⟨a,found⟩ := Option.isSome_iff_exists.mp met
  refine ⟨{ a with timeout := timeout },?_,rfl⟩
  simp only [next,findRefresh,turn.tuples.refl,if_true,found,Option.map_some]

/- With a record present the tuple is not registered again, so the `Refresh` stays the
last one of this registration. -/
theorem sinceRefresh {s : State} {e : Event} {h : List (Step State Event)} {t : FiveTuple} {a : Allocation}
    (found : find turn s.allocs t = some a)
    (past : Since (RefreshesTuple turn t) (fun y => ¬ RegistersTuple turn t y) h) :
    Since (RefreshesTuple turn t) (fun y => ¬ RegistersTuple turn t y) (⟨s,e⟩ :: h) := by
  refine .inr ⟨?_,past⟩
  intro registers
  obtain ⟨k,t',timeout,allocs,_,same,ok⟩ := registers
  have absent := (registered ok).2.1
  cases (foundUnder same found).symm.trans absent

theorem sinceCongr {t t' : FiveTuple} (same : turn.tuples.same t t' = true) {h : List (Step State Event)}
    (past : Since (RefreshesTuple turn t) (fun y => ¬ RegistersTuple turn t y) h) :
    Since (RefreshesTuple turn t') (fun y => ¬ RegistersTuple turn t' y) h := by
  refine sinceMono ?_ ?_ past
  · intro x _ refreshes
    obtain ⟨r,later,event,tuple⟩ := refreshes
    exact ⟨r,later,event,turn.tuples.trans tuple same⟩
  · intro x _ none registers
    obtain ⟨k,r,later,allocs,event,tuple,ok⟩ := registers
    exact none ⟨k,r,later,allocs,event,turn.tuples.trans tuple (turn.tuples.symm same),ok⟩

theorem timeoutKept {s : State} (ok : TableOk turn s.allocs) {e : Event} {h : List (Step State Event)}
    (met : Preserving turn h ⟨s,e⟩) {t : FiveTuple} (spared : SparesTimeout turn t ⟨s,e⟩)
    (past : Since (RefreshesTuple turn t) (fun y => ¬ RegistersTuple turn t y) h)
    (now : HasTimeout turn t timeout s) : HasTimeout turn t timeout (next turn s e) := by
  obtain ⟨a,found,at'⟩ := now
  obtain ⟨o,after,step⟩ := stepFrom ok e found
  cases step with
  | kept => exact ⟨a,after,at'⟩
  | installed call port same =>
    rcases (met _ _ a call port (foundUnder same found)).2 with equal | none
    · exact ⟨_,after,equal.symm.trans at'⟩
    · exact absurd (sinceCongr (turn.tuples.symm same) past) none
  | removed same => exact absurd (same.symm.trans spared) (by simp)
  | pruned => exact ⟨_,after,at'⟩
  | expired late => exact absurd (spared a found) (Int.not_lt.mpr late)
  | refreshed same => exact absurd (same.symm.trans spared) (by simp)
  | @granted t' q later =>
    refine ⟨_,after,?_⟩
    unfold Allocation.grant
    split <;> exact at'
  | bound _ _ to' => exact ⟨_,after,(bindToTuple to').2.2.2.trans at'⟩

theorem metAt {h later : List (Step State Event)} {x y : Step State Event} {newer older before}
    (cond : Along (Preserving turn) h) (split : h = later ++ x :: before) (inside : later = newer ++ y :: older) :
    Preserving turn (older ++ x :: before) y := by
  rw [split,inside,List.append_assoc] at cond
  exact alongAt cond

theorem noLostUpdate {h s} (run : Run (machine turn) h s) (cond : Along (Preserving turn) h) :
    NoLostUpdate turn h s := by
  have inLater {later newer older : List (Step State Event)} {y : Step State Event} (eq : later = newer ++ y :: older) :
      y ∈ later := by rw [eq]; exact List.mem_append_right _ List.mem_cons_self
  refine ⟨?_,?_,?_⟩
  · intro later pre before t timeout split success spared
    subst split
    have kept := stable (Q := fun g s => HasTimeout turn t timeout s ∧
      Since (RefreshesTuple turn t) (fun y => ¬ RegistersTuple turn t y) g) run
      ⟨timeoutMade (alongAt cond),.inl ⟨t,timeout,rfl,turn.tuples.refl t⟩⟩ ?_
    · exact kept.1
    · intro y newer older eq reached _ held
      obtain ⟨a,found,_⟩ := held.1
      exact ⟨timeoutKept (tableOk reached) (metAt cond rfl eq) (spared y (inLater eq)) held.2 held.1,
        sinceRefresh found held.2⟩
  · intro later pre before t q timeout split success spared
    subst split
    refine stable (Q := fun _ s => HasPermission turn t q.ip timeout s) run (permissionMade success) ?_
    intro y newer older eq reached _ held
    exact permissionKept (tableOk reached) (metAt cond rfl eq) (spared y (inLater eq)) held
  · intro later pre before t n q timeout split success spared
    subst split
    have start := tableOk (earlier run).1
    refine stable (Q := fun _ s => HasBinding turn t n q timeout s) run (bindingMade start (alongAt cond) success) ?_
    intro y newer older eq reached _ held
    exact bindingKept (tableOk reached) (metAt cond rfl eq) (spared y (inLater eq)) held

/- Between the first and the last section of a `New` its record is refreshed, and another
client allocates and is granted a permission. -/
def updated : List Event :=
  [.register 1 sampleTuple 60,.refresh sampleTuple 60,.register 2 otherTuple 70,.answer 2 (.ok ⟨⟨[10,0,0,1],5002⟩,17,2⟩),.install 2,
    .createPermission otherTuple samplePeer 45,.answer 1 (.ok ⟨sampleRelayed,17,1⟩),.install 1,.refresh sampleTuple 90,
    .createPermission sampleTuple samplePeer 50,.channelBind sampleTuple 0x4001 sampleOther 40]

theorem noLostUpdateSample :
    HasTimeout .documented sampleTuple 90 (trace (machine .documented) [] .empty updated).2 ∧
    HasPermission .documented otherTuple samplePeer.ip 45 (trace (machine .documented) [] .empty updated).2 ∧
    HasPermission .documented sampleTuple samplePeer.ip 50 (trace (machine .documented) [] .empty updated).2 ∧
    HasBinding .documented sampleTuple 0x4001 sampleOther 40 (trace (machine .documented) [] .empty updated).2 := by
  have run := traceStart (m := machine .documented) updated (by decide +kernel)
  have cond : Along (Preserving .documented) (trace (machine .documented) [] .empty updated).1 := by
    refine ⟨?_,trivial,rfl,?_,trivial,trivial,?_,trivial,trivial,rfl,trivial,trivial⟩
    · intro a p b found under
      cases Option.some.inj found
      cases under
    all_goals
      intro p n a call port found
      cases Option.some.inj call
      cases Option.some.inj found
      exact ⟨rfl,.inl rfl⟩
  have kept := noLostUpdate run cond
  refine ⟨kept.timeouts [_,_] _ _ _ _ rfl rfl ?_,kept.permissions [_,_,_,_,_] _ _ _ _ _ rfl rfl ?_,
    kept.permissions [_] _ _ _ _ _ rfl rfl ?_,kept.bindings [] _ _ _ _ _ _ rfl rfl (by simp)⟩
  · exact List.forall_mem_cons.mpr ⟨trivial,List.forall_mem_cons.mpr ⟨trivial,by simp⟩⟩
  · refine List.forall_mem_cons.mpr ⟨fun both => absurd both.1 (by decide),?_⟩
    refine List.forall_mem_cons.mpr ⟨fun both => absurd both.1 (by decide),?_⟩
    exact List.forall_mem_cons.mpr ⟨trivial,List.forall_mem_cons.mpr ⟨trivial,List.forall_mem_cons.mpr ⟨trivial,by simp⟩⟩⟩
  · refine List.forall_mem_cons.mpr ⟨?_,by simp⟩
    intro grants
    obtain ⟨_,ip,_⟩ := grants
    cases ip

def overwritten : List Event :=
  [.register 1 sampleTuple 60,.createPermission sampleTuple samplePeer 50,.answer 1 (.ok ⟨sampleRelayed,17,1⟩),
    .install 1]

/- The permission was granted, `New` has returned, and the table has no permission. -/
theorem permissionOverwritten : ∃ h s, Run (machine .documented) h s ∧ s.pending = [] ∧ ¬ NoLostUpdate .documented h s := by
  have allowed : Allowed (machine .documented) .empty overwritten :=
    ⟨rfl,trivial,⟨⟨_,rfl,rfl⟩,by decide,by decide⟩,⟨_,_,rfl,rfl⟩,trivial⟩
  refine ⟨_,_,traceStart (m := machine .documented) overwritten allowed,rfl,?_⟩
  intro kept
  obtain ⟨a,p,found,under,_⟩ := kept.permissions [_,_] _ _ _ _ _ rfl rfl
    (List.forall_mem_cons.mpr ⟨trivial,List.forall_mem_cons.mpr ⟨trivial,by simp⟩⟩)
  cases Option.some.inj found
  cases under

end Gortcd.Updates
