import Gortcd.Interleaving

/-! A permission and the bindings stored in it. `ChannelBind` raises the timeout of the
permission to that of the binding; `CreatePermission` overwrites it with whatever it is
given, so that a binding can be left behind a permission that expires before it. -/
namespace Gortcd.Timeouts
open Keyed Net Ports Sections Records Permissions Calls Runs Interleaving

variable {turn : Turn} {timeout : Time}

def Permission.Outlives (p : Permission) : Prop := ∀ b ∈ p.bindings, b.timeout ≤ p.timeout

def Outlive (allocs : Table) : Prop := ∀ a ∈ allocs, ∀ p ∈ a.permissions, Permission.Outlives p

/- A `Prune` at any time keeps the bindings that are not due, in allocations that stay. -/
def PruneSpares (allocs : Table) : Prop :=
  ∀ x, ∀ a ∈ allocs, x < a.timeout → ∀ p ∈ a.permissions, ∀ b ∈ p.bindings, x < b.timeout →
    ∃ a' ∈ (prune allocs x).1, a'.tuple = a.tuple ∧ ∃ p' ∈ a'.permissions, p'.ip = p.ip ∧ b ∈ p'.bindings

/- A `CreatePermission` that refreshes a permission does not take it back before a timeout
of its bindings. -/
def Covers (turn : Turn) (x : Step State Event) : Prop :=
  match x.event with
  | .createPermission t q timeout => ∀ a p b, find turn x.pre.allocs t = some a → permission a q.ip = some p →
      b ∈ p.bindings → b.timeout ≤ timeout
  | _ => True

theorem raiseOutlives {p : Permission} (held : ∀ b ∈ p.bindings, b.timeout ≤ p.timeout ∨ b.timeout = timeout) :
    Permission.Outlives (p.raise timeout) := by
  intro b mem
  rw [raiseBindings] at mem
  rw [raisedTimeout]
  rcases held b mem with before | same
  · exact Int.le_trans before (Int.le_max_left _ _)
  · rw [same]
    exact Int.le_max_right _ _

theorem bindOutlives {p : Permission} (held : Permission.Outlives p) (n : ChannelNumber) (peer : Addr) :
    Permission.Outlives (p.bind n peer timeout false).1 := by
  unfold Permission.bind
  split
  · refine raiseOutlives ?_
    intro b mem
    rcases memUpdateFirst mem with old | ⟨c,_,_,rfl⟩
    · exact .inl (held b old)
    · exact .inr rfl
  · refine raiseOutlives ?_
    intro b mem
    rcases List.mem_append.mp mem with old | new
    · exact .inl (held b old)
    · rw [List.mem_singleton.mp new]
      exact .inr rfl

theorem outliveStep {s : State} (ok : TableOk turn s.allocs) (held : Outlive s.allocs) {e : Event}
    (covers : Covers turn ⟨s,e⟩) : Outlive (next turn s e).allocs := by
  have after := changeOk (nextChange ok e) ok
  intro a mem p under
  have own := permissionMem (after.allocations a mem) under
  obtain ⟨o,before,step⟩ := stepTo ok (lookupOfMem after.distinct mem (turn.tuples.refl a.tuple))
  have old {c : Allocation} (found : o = some c) {q : Permission} (listed : permission c p.ip = some q) :
      Permission.Outlives q := held c (lookupSome (before.trans found)).1 q (lookupSome listed).1
  cases step with
  | kept => exact old rfl own
  | registered => cases under
  | installed => cases under
  | @pruned x c =>
    rw [prunedPermissions] at under
    obtain ⟨q,listed,rfl⟩ := List.mem_map.mp (List.mem_filter.mp under).1
    intro b bound
    exact held c (lookupSome before).1 q listed b (List.mem_filter.mp bound).1
  | refreshed => exact old rfl own
  | @granted t' q later c same =>
    rw [permissionGrant] at own
    split at own
    · rename_i ips
      cases present : permission c q.ip with
      | none =>
        rw [present] at own
        cases Option.some.inj own
        intro b bound
        cases bound
      | some r =>
        rw [present] at own
        cases Option.some.inj own
        intro b bound
        exact covers c r b (foundUnder same before) present bound
    · exact old rfl own
  | @bound t' n q later c d same success to' =>
    rw [permissionBind to'] at own
    split at own
    · rename_i ips
      cases present : permission c q.ip with
      | none =>
        rw [present] at own
        cases Option.some.inj own
        intro b bound
        cases List.mem_singleton.mp bound
        exact Int.le_refl _
      | some r =>
        rw [present] at own
        cases Option.some.inj own
        exact bindOutlives (old rfl ((lookupCongr ips).symm.trans present)) n q
    · exact old rfl own

theorem outliveSpares {allocs : Table} (held : Outlive allocs) : PruneSpares allocs := by
  intro x a mem alive p under b bound late
  have permissionLate : x < p.timeout := Int.lt_of_lt_of_le late (held a mem p under b bound)
  refine ⟨a.prune x,?_,rfl,p.prune x,?_,rfl,?_⟩
  · rw [pruneTable]
    exact List.mem_filter.mpr ⟨List.mem_map.mpr ⟨a,mem,rfl⟩,decide_eq_true alive⟩
  · rw [prunedPermissions]
    exact List.mem_filter.mpr ⟨List.mem_map.mpr ⟨p,under,rfl⟩,decide_eq_true permissionLate⟩
  · exact List.mem_filter.mpr ⟨bound,decide_eq_true late⟩

theorem coversNeeded {s : State} {e : Event} (after : Outlive (next turn s e).allocs) : Covers turn ⟨s,e⟩ := by
  cases e with
  | createPermission t q timeout =>
    intro a p b found under bound
    have row : find turn (next turn s (.createPermission t q timeout)).allocs t = some (a.grant q timeout) := by
      simp only [next,findGrant,turn.tuples.refl,if_true,found,Option.map_some]
    have granted : permission (a.grant q timeout) q.ip = some { p with timeout := timeout } := by
      simp [permissionGrant,under,ips.refl q.ip,← ipsSame]
    exact after _ (lookupSome row).1 _ (lookupSome granted).1 b bound
  | _ => trivial

def Kept (allocs : Table) : Prop := Outlive allocs ∧ PruneSpares allocs

/- In every run, permissions outlive their bindings and `Prune` takes no binding early in all
states reached if and only if no `CreatePermission` of the run takes a permission back
before a timeout of its bindings. -/
theorem permissionsOutlive {h s} (run : Run (machine turn) h s) :
    ((∀ x ∈ h, Kept x.pre.allocs) ∧ Kept s.allocs) ↔ ∀ x ∈ h, Covers turn x := by
  have kept {allocs : Table} (held : Outlive allocs) : Kept allocs := ⟨held,outliveSpares held⟩
  induction run with
  | start =>
    have empty : Outlive State.empty.allocs := by
      intro a mem
      cases mem
    exact ⟨fun _ => by simp,fun _ => ⟨by simp,kept empty⟩⟩
  | @step h s e run guard ih =>
    constructor
    · intro held
      obtain ⟨states,last⟩ := held
      obtain ⟨now,earlier⟩ := List.forall_mem_cons.mp states
      exact List.forall_mem_cons.mpr ⟨coversNeeded last.1,ih.mp ⟨earlier,now⟩⟩
    · intro covers
      obtain ⟨now,earlier⟩ := List.forall_mem_cons.mp covers
      obtain ⟨states,current⟩ := ih.mpr earlier
      exact ⟨List.forall_mem_cons.mpr ⟨current,states⟩,kept (outliveStep (tableOk run) current.1 now)⟩

def boundEvents : List Event :=
  [.register 1 sampleTuple 90,.answer 1 (.ok ⟨sampleRelayed,17,1⟩),.install 1,
    .channelBind sampleTuple 0x4001 samplePeer 60]

theorem boundAllowed : Allowed (machine .documented) .empty boundEvents := by decide +kernel

/- The permission of the bound peer is refreshed, still to end after the binding. -/
def refreshed : List Event := boundEvents ++ [.createPermission sampleTuple samplePeer 70]

theorem permissionsOutliveSample : Kept (trace (machine .documented) [] .empty refreshed).2.allocs := by
  have run := traceStart (m := machine .documented) refreshed (by decide +kernel)
  refine ((permissionsOutlive run).mpr ?_).2
  refine List.forall_mem_cons.mpr ⟨?_,?_⟩
  · intro a p b found under mem
    cases Option.some.inj found
    cases Option.some.inj under
    cases List.mem_singleton.mp mem
    decide
  · refine List.forall_mem_cons.mpr ⟨trivial,List.forall_mem_cons.mpr ⟨trivial,?_⟩⟩
    exact List.forall_mem_cons.mpr ⟨trivial,List.forall_mem_cons.mpr ⟨trivial,List.forall_mem_nil _⟩⟩

/- The permission of a bound peer is refreshed with a shorter lifetime, and a `Prune` between
the two timeouts takes the binding with it. -/
def shortened : List Event := boundEvents ++ [.createPermission sampleTuple samplePeer 10]

theorem bindingPrunedEarly : ∃ s, Reachable (machine .documented) s ∧ ¬ Outlive s.allocs ∧ ¬ PruneSpares s.allocs := by
  obtain ⟨first,second,third,fourth,_⟩ := boundAllowed
  have run := traceStart (m := machine .documented) shortened ⟨first,second,third,fourth,trivial,trivial⟩
  refine ⟨_,⟨_,run⟩,?_,?_⟩
  · intro held
    have row := held ⟨sampleTuple,[⟨samplePeer.ip,10,[⟨2001,0x4001,60⟩]⟩],sampleRelayed,some 1,90,2048⟩ (by decide)
      ⟨samplePeer.ip,10,[⟨2001,0x4001,60⟩]⟩ (by decide) ⟨2001,0x4001,60⟩ (by decide)
    exact absurd row (by decide)
  · intro spares
    obtain ⟨a,listed,_,p,under,_⟩ := spares 30
      ⟨sampleTuple,[⟨samplePeer.ip,10,[⟨2001,0x4001,60⟩]⟩],sampleRelayed,some 1,90,2048⟩ (by decide) (by decide)
      ⟨samplePeer.ip,10,[⟨2001,0x4001,60⟩]⟩ (by decide) ⟨2001,0x4001,60⟩ (by decide) (by decide)
    have pruned : a = ⟨sampleTuple,[],sampleRelayed,some 1,90,2048⟩ := List.mem_singleton.mp listed
    rw [pruned] at under
    cases under

end Gortcd.Timeouts
