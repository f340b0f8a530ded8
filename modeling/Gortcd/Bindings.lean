import Gortcd.Interleaving

/-! What a successful `ChannelBind` binds. The binding is searched by channel only, so when
the channel is already bound to another port of the same address, that binding is
refreshed and the requested one is not made. -/
namespace Gortcd.Bindings
open Keyed Net Sections Records Relaying Permissions Runs Interleaving

def binding (a : Allocation) (q : Addr) : Option Binding := (permission a q.ip).bind (fun p => portBinding p q.port)

def bindingOf (turn : Turn) (allocs : Table) (t : FiveTuple) (q : Addr) : Option Binding :=
  (find turn allocs t).bind (fun a => binding a q)

/- The port whose binding `ChannelBind` writes. -/
def landing (a : Allocation) (n : ChannelNumber) (peer : Addr) : Port :=
  match (permission a peer.ip).bind (fun p => channelBinding p n) with
  | some c => c.port
  | none => peer.port

variable {turn : Turn} {timeout : Time} {n : ChannelNumber} {peer : Addr}

theorem updateFirstSame {α : Type} {p q : α → Bool} {f : α → α} {l : List α} {c : α} (first : l.find? p = some c)
    (second : l.find? q = some c) : updateFirst p f l = updateFirst q f l := by
  have holds : p c = true ∧ q c = true := ⟨List.find?_some first,List.find?_some second⟩
  induction l with
  | nil => rfl
  | cons a l ih =>
    rw [List.find?_cons] at first second
    rw [updateFirst,updateFirst]
    cases hp : p a with
    | true =>
      simp only [hp,Option.some.injEq] at first
      simp [first,holds]
    | false => cases hq : q a with
      | true =>
        simp only [hq,Option.some.injEq] at second
        rw [second,holds.1] at hp
        cases hp
      | false =>
        simp only [hp,hq] at first second
        simp [ih first second]

theorem portAfterBind {p : Permission} (ok : PermissionOk turn p) (same : IP.equal p.ip peer.ip = true)
    (free : p.conflicts n peer = false) (port : Port) :
    portBinding (p.bind n peer timeout false).1 port =
      match channelBinding p n with
      | some c => if c.port == port then some ⟨c.port,n,timeout⟩ else portBinding p port
      | none => if peer.port == port then some ⟨peer.port,n,timeout⟩ else portBinding p port := by
  unfold portBinding
  rw [bindBindings]
  cases found : channelBinding p n with
  | some c =>
    have source := lookupSome found
    have channel : c.channel = n := beq_iff_eq.mp source.2
    have present : p.bindings.any (fun b => b.channel == n) = true := List.any_eq_true.mpr ⟨c,source⟩
    have at' : portBinding p c.port = some c := lookupOfMem ok.ports source.1 (beq_self_eq_true _)
    have other : updateFirst (fun b => b.channel == n) (fun b : Binding => { b with timeout := timeout }) p.bindings =
        update (equality Port) Binding.port c.port (fun b => { b with timeout := timeout }) p.bindings :=
      updateFirstSame found at'
    have updated : lookup (equality Port) Binding.port port
        (update (equality Port) Binding.port c.port (fun b : Binding => { b with timeout := timeout }) p.bindings) =
        if c.port == port then (portBinding p c.port).map (fun b => { b with timeout := timeout }) else portBinding p port :=
      lookupUpdate (fun _ hit => hit)
    rw [if_pos present,other,updated,at',← channel]
    rfl
  | none =>
    have absent : p.bindings.any (fun b => b.channel == n) = false := by
      rw [List.any_eq_false]
      intro b mem
      exact ne_true_of_eq_false (lookupNone.mp found b mem)
    have unbound : portBinding p peer.port = none := by
      cases hit : portBinding p peer.port with
      | none => rfl
      | some b =>
        have none := lookupNone.mp found b (lookupSome hit).1
        rw [noConflict same free hit,(equality ChannelNumber).refl] at none
        cases none
    rw [if_neg (by simp [absent])]
    exact lookupAppend unbound

theorem bindingAfter {a b : Allocation} (ok : AllocationOk turn a) (bound : Allocation.bindTo n peer timeout a = some b)
    (q : Addr) : binding b q =
      if IP.equal peer.ip q.ip && landing a n peer == q.port then some ⟨landing a n peer,n,timeout⟩ else binding a q := by
  unfold binding landing
  rw [permissionBind bound]
  cases ip : IP.equal peer.ip q.ip with
  | false => rfl
  | true =>
    have moved : permission a q.ip = permission a peer.ip := (lookupCongr ip).symm
    rw [moved]
    cases under : permission a peer.ip with
    | none => cases at' : peer.port == q.port <;> simp [portBinding,lookup,at']
    | some p =>
      have source := lookupSome under
      have after := @portAfterBind turn timeout n peer p (ok.permissions p source.1) source.2 (bindToFree bound under) q.port
      simp only [if_true,Option.map_some,Option.getD_some,Option.bind_some,Bool.true_and,after]
      cases channelBinding p n <;> rfl

structure Binds (turn : Turn) (before after : Table) (t : FiveTuple) (n : ChannelNumber) (peer : Addr) (timeout : Time) :
    Prop where
  bound : bound turn after t peer = .ok n
  binding : bindingOf turn after t peer = some ⟨peer.port,n,timeout⟩
  permitted : ∃ a p, find turn after t = some a ∧ permission a peer.ip = some p ∧ timeout ≤ p.timeout
  others : ∀ q, q.equal peer = false → bindingOf turn after t q = bindingOf turn before t q

def ChannelElsewhere (turn : Turn) (allocs : Table) (t : FiveTuple) (n : ChannelNumber) (peer : Addr) : Prop :=
  ∃ a p b, find turn allocs t = some a ∧ permission a peer.ip = some p ∧ b ∈ p.bindings ∧ b.channel = n ∧
    b.port ≠ peer.port

variable {allocs : Table} {t : FiveTuple}

theorem landsElsewhere {a : Allocation} (ok : AllocationOk turn a) (found : find turn allocs t = some a) :
    landing a n peer ≠ peer.port ↔ ChannelElsewhere turn allocs t n peer := by
  unfold landing ChannelElsewhere
  constructor
  · intro other
    cases under : permission a peer.ip with
    | none => simp [under] at other
    | some p => cases channel : channelBinding p n with
      | none => simp [under,channel] at other
      | some c =>
        simp only [under,channel,Option.bind_some] at other
        have source := lookupSome channel
        exact ⟨a,p,c,found,under,source.1,beq_iff_eq.mp source.2,other⟩
  · intro elsewhere
    obtain ⟨a',p,b,found',under,mem,channel,other⟩ := elsewhere
    cases Option.some.inj (found.symm.trans found')
    have inner := ok.permissions p (lookupSome under).1
    have first : channelBinding p n = some b := lookupOfMem inner.channels mem (beq_iff_eq.mpr channel)
    simp only [under,first,Option.bind_some]
    exact other

theorem boundBinding (ok : TableOk turn allocs) {b : Binding} (at' : bindingOf turn allocs t peer = some b) :
    bound turn allocs t peer = .ok b.channel := by
  obtain ⟨a,found,inside⟩ := Option.bind_eq_some_iff.mp at'
  obtain ⟨p,under,port⟩ := Option.bind_eq_some_iff.mp inside
  rw [boundSpec ok]
  simp only [found,under,port,Option.bind_some,Option.map_some]

theorem bindsLanding (ok : TableOk turn allocs) {a b : Allocation} {after : Table} (okAfter : TableOk turn after)
    (before : find turn allocs t = some a) (bound : Allocation.bindTo n peer timeout a = some b)
    (found : find turn after t = some b) :
    Binds turn allocs after t n peer timeout ↔ landing a n peer = peer.port := by
  have inside := ok.allocations a (lookupSome before).1
  have reads (q : Addr) : bindingOf turn after t q =
      if IP.equal peer.ip q.ip && landing a n peer == q.port then some ⟨landing a n peer,n,timeout⟩
      else bindingOf turn allocs t q := by
    simp only [bindingOf,found,before,Option.bind_some]
    exact bindingAfter inside bound q
  constructor
  · intro binds
    by_contra other
    -- the requested address keeps the binding that it had, so the channel was already there
    have kept := (reads peer).symm.trans binds.binding
    rw [if_neg (by simp [other]),bindingOf,before,Option.bind_some] at kept
    obtain ⟨p,under,port⟩ := Option.bind_eq_some_iff.mp kept
    obtain ⟨a',p',c,found',under',mem,channel,apart⟩ := (landsElsewhere inside before).mp other
    cases Option.some.inj (before.symm.trans found')
    cases Option.some.inj (under.symm.trans under')
    have inner := inside.permissions p (lookupSome under).1
    have one : some c = some ⟨peer.port,n,timeout⟩ :=
      (lookupOfMem inner.channels mem (beq_iff_eq.mpr channel)).symm.trans
        (lookupOfMem inner.channels (lookupSome port).1 (beq_self_eq_true n))
    exact apart (congrArg Binding.port (Option.some.inj one))
  · intro lands
    have self : IP.equal peer.ip peer.ip = true := ips.refl _
    have made : bindingOf turn after t peer = some ⟨peer.port,n,timeout⟩ := by
      rw [reads,lands,self,beq_self_eq_true]
      rfl
    refine ⟨boundBinding okAfter made,made,?_,?_⟩
    · refine ⟨b,_,found,(permissionBind bound peer.ip).trans (if_pos self),?_⟩
      cases permission a peer.ip with
      | none => exact Int.le_refl _
      | some p => exact Int.le_trans (Int.le_max_right _ _) (Int.le_of_eq (boundTimeout p _ _).symm)
    · intro q other
      have apart : (IP.equal peer.ip q.ip && landing a n peer == q.port) = false := by
        refine Bool.eq_false_iff.mpr ?_
        intro both
        rw [lands,Bool.and_eq_true,beq_iff_eq] at both
        have same : q.equal peer = true := (addrEqual q peer).mpr ⟨both.2.symm,ips.symm both.1⟩
        rw [other] at same
        cases same
      rw [reads,apart]
      rfl

theorem channelBindExactly {h s} (run : Run (machine turn) h s) (t : FiveTuple) (n : ChannelNumber) (peer : Addr)
    (timeout : Time) (success : (channelBind turn s.allocs t n peer timeout).2 = none) :
    Binds turn s.allocs (channelBind turn s.allocs t n peer timeout).1 t n peer timeout ↔
      ¬ ChannelElsewhere turn s.allocs t n peer := by
  have ok := tableOk run
  have okAfter := changeOk (@bindChange turn s.allocs t timeout ok.distinct n peer) ok
  rcases @bindCases turn s.allocs t timeout ok.distinct n peer with ⟨failed,_⟩ | ⟨a,b,_,found,bound,eq⟩
  · exact absurd success failed
  · have after : find turn (channelBind turn s.allocs t n peer timeout).1 t = some b := by
      rw [eq]
      simp only [findRebind,turn.tuples.refl,if_true,found,Option.map_some,Allocation.rebind,bound,Option.getD_some]
    rw [bindsLanding ok okAfter found bound after,
      ← landsElsewhere (ok.allocations a (lookupSome found).1) found,not_not]

def boundEvents : List Event :=
  [.register 1 sampleTuple 60,.answer 1 (.ok ⟨sampleRelayed,17,1⟩),.install 1,.channelBind sampleTuple 0x4001 samplePeer 50]

theorem boundRun : Run (machine .documented) (trace (machine .documented) [] .empty boundEvents).1
    (trace (machine .documented) [] .empty boundEvents).2 :=
  traceStart (m := machine .documented) boundEvents
    ⟨rfl,⟨⟨_,rfl,rfl⟩,by decide,by decide⟩,⟨_,_,rfl,rfl⟩,trivial,trivial⟩

theorem channelBindExactlySample :
    Binds .documented (trace (machine .documented) [] .empty boundEvents).2.allocs
      (channelBind .documented (trace (machine .documented) [] .empty boundEvents).2.allocs sampleTuple 0x4002 sampleOther 70).1
      sampleTuple 0x4002 sampleOther 70 := by
  refine (channelBindExactly boundRun sampleTuple 0x4002 sampleOther 70 (by decide)).mpr ?_
  intro elsewhere
  obtain ⟨a,p,b,found,under,_⟩ := elsewhere
  cases Option.some.inj found
  cases under

/- The channel is asked for another port of the same address: success, and no binding. -/
theorem otherPortRefreshed : ∃ h s, Run (machine .documented) h s ∧
    (channelBind .documented s.allocs sampleTuple 0x4001 { samplePeer with port := 2002 } 70).2 = none ∧
    bound .documented (channelBind .documented s.allocs sampleTuple 0x4001 { samplePeer with port := 2002 } 70).1
      sampleTuple { samplePeer with port := 2002 } = .error .allocationMismatch ∧
    bindingOf .documented s.allocs sampleTuple samplePeer = some ⟨2001,0x4001,50⟩ ∧
    bindingOf .documented (channelBind .documented s.allocs sampleTuple 0x4001 { samplePeer with port := 2002 } 70).1
      sampleTuple samplePeer = some ⟨2001,0x4001,70⟩ ∧
    ¬ Binds .documented s.allocs
      (channelBind .documented s.allocs sampleTuple 0x4001 { samplePeer with port := 2002 } 70).1
      sampleTuple 0x4001 { samplePeer with port := 2002 } 70 := by
  have unbound : bound .documented (channelBind .documented (trace (machine .documented) [] .empty boundEvents).2.allocs
      sampleTuple 0x4001 { samplePeer with port := 2002 } 70).1 sampleTuple { samplePeer with port := 2002 } =
      .error .allocationMismatch := by decide
  refine ⟨_,_,boundRun,by decide,unbound,by decide,by decide,?_⟩
  intro binds
  cases unbound.symm.trans binds.bound

end Gortcd.Bindings
