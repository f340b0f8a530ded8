import Gortcd.Lib.Runs
import Gortcd.Calls
import Gortcd.Permissions

/-! Channel numbers within an allocation. `Permission.conflicts` looks at the bindings of
one IP only, so a channel that is bound under another IP can be bound again. A run keeps
channels unambiguous exactly when no effective `ChannelBind` does that. -/
namespace Gortcd.Channels
open Keyed Net Ports Sections Records Relaying Permissions Calls Runs

/- Sequential runs of the allocator: any call, in any state. -/
def machine (turn : Turn) : Machine Allocator Call := ⟨.empty,fun _ _ => True,Allocator.run turn⟩

def Unambiguous (a : Allocation) : Prop :=
  ∀ n, ∀ x ∈ targets a n, ∀ y ∈ targets a n, x.port = y.port ∧ IP.equal x.ip y.ip = true

/- On a live relay socket, `Bound` and `SendBound` are inverse to each other. -/
def Inverse (turn : Turn) (allocs : Table) : Prop :=
  ∀ t a c, find turn allocs t = some a → a.conn = some c → ∀ peer n data,
    bound turn allocs t peer = .ok n ↔
      ∃ w, sendBound turn allocs t n data = .ok w ∧ w.conn = c ∧ w.data = data ∧
        w.addr.port = peer.port ∧ IP.equal w.addr.ip peer.ip = true

structure ChannelsOk (turn : Turn) (allocs : Table) : Prop where
  unambiguous : ∀ a ∈ allocs, Unambiguous a
  inverse : Inverse turn allocs

/- A `ChannelBind` that is not refused finds its channel free under every other IP. -/
def FreeChannel (turn : Turn) (x : Step Allocator Call) : Prop :=
  match x.event with
  | .channelBind t n peer _ =>
      turn.channelValid n = true → ∀ a, find turn x.pre.allocs t = some a →
        (∀ p, permission a peer.ip = some p → p.conflicts n peer = false) →
        ∀ q ∈ a.permissions, IP.equal q.ip peer.ip = false → channelBinding q n = none
  | _ => True

variable {turn : Turn} {allocs : Table} {timeout : Time}

theorem unambiguousBound {a : Allocation} (clear : Unambiguous a) {n : ChannelNumber} {ip ip' : IP} {port port' : Port}
    (left : BoundTo a n ip port) (right : BoundTo a n ip' port') : port = port' ∧ IP.equal ip ip' = true := by
  obtain ⟨x,hx,xip,xport⟩ := targetOfBound left
  obtain ⟨y,hy,yip,yport⟩ := targetOfBound right
  obtain ⟨ports,same⟩ := clear n x hx y hy
  exact ⟨xport.symm.trans (ports.trans yport),ips.trans (ips.symm xip) (ips.trans same yip)⟩

theorem unambiguousOf {a : Allocation} (ok : AllocationOk turn a)
    (clear : ∀ n ip port ip' port', BoundTo a n ip port → BoundTo a n ip' port' → port = port' ∧ IP.equal ip ip' = true) :
    Unambiguous a :=
  fun n _ hx _ hy => clear n _ _ _ _ (boundToTarget ok hx) (boundToTarget ok hy)

theorem inverseOf (ok : TableOk turn allocs) (clear : ∀ a ∈ allocs, Unambiguous a) : Inverse turn allocs := by
  intro t a c found live peer n data
  have mem := (lookupSome found).1
  have inside := ok.allocations a mem
  constructor
  · intro hit
    obtain ⟨a',p,b,found',under,at',channel⟩ := boundSource ok hit
    have same : a' = a := Option.some.inj (found'.symm.trans found)
    subst same
    obtain ⟨x,hx,xip,xport⟩ := targetOfBound ⟨p,b,under,(lookupSome at').1,by simpa using (lookupSome at').2,channel⟩
    -- the scan ends with some binding of the channel, and there is only this one
    cases last : (targets a' n).getLast? with
    | none => rw [List.getLast?_eq_none_iff.mp last] at hx; cases hx
    | some y =>
      obtain ⟨ports,addrs⟩ := clear a' mem n y (List.mem_of_getLast? last) x hx
      refine ⟨⟨c,data,y⟩,?_,rfl,rfl,ports.trans xport,ips.trans addrs xip⟩
      simp [sendBoundSpec ok.distinct,found,last,live]
  · intro written
    obtain ⟨w,sent,_,_,port,ip⟩ := written
    obtain ⟨_,a',found',_,target⟩ := sendBoundSource ok.distinct sent
    have same : a' = a := Option.some.inj (found'.symm.trans found)
    subst same
    obtain ⟨p,b,under,hb,at',channel⟩ := boundToCongr ip (boundToTarget inside target)
    have perm := inside.permissions p (lookupSome under).1
    have byPort : portBinding p peer.port = some b :=
      lookupOfMem perm.ports hb (by simpa using at'.trans port)
    simp [boundSpec ok,found,under,byPort,channel]

theorem channelsOf (ok : TableOk turn allocs) (clear : ∀ a ∈ allocs, Unambiguous a) : ChannelsOk turn allocs :=
  ⟨clear,inverseOf ok clear⟩

theorem emptyUnambiguous {a : Allocation} (none : a.permissions = []) : Unambiguous a := by
  intro n x hx
  simp [targets,none] at hx

theorem bindUnambiguous {a b : Allocation} (okA : AllocationOk turn a) (okB : AllocationOk turn b) (clear : Unambiguous a)
    {n : ChannelNumber} {peer : Addr} (bound : Allocation.bindTo n peer timeout a = some b)
    (free : ∀ q ∈ a.permissions, IP.equal q.ip peer.ip = false → channelBinding q n = none) : Unambiguous b := by
  -- if the channel was new under the peer's IP, then it was new in the whole allocation
  have unbound (new : ∀ p, permission a peer.ip = some p → channelBinding p n = none) (ip : IP) (port : Port) :
      ¬ BoundTo a n ip port := by
    intro used
    obtain ⟨p,c,under,hc,_,channel⟩ := used
    obtain ⟨hp,_⟩ := lookupSome under
    have none : channelBinding p n = none := by
      cases same : IP.equal p.ip peer.ip with
      | false => exact free p hp same
      | true => exact new p (lookupOfMem okA.distinct hp same)
    have other := lookupNone.mp none c hc
    simp [channel] at other
  refine unambiguousOf okB ?_
  intro m ip port ip' port' left right
  rcases boundToBind bound left with oldL | ⟨rfl,rfl,sameL,newL⟩
  · rcases boundToBind bound right with oldR | ⟨rfl,_,_,newR⟩
    · exact unambiguousBound clear oldL oldR
    · exact absurd oldL (unbound newR _ _)
  · rcases boundToBind bound right with oldR | ⟨_,rfl,sameR,_⟩
    · exact absurd oldR (unbound newL _ _)
    · exact ⟨rfl,ips.trans (ips.symm sameL) sameR⟩

theorem pruneUnambiguous {a : Allocation} (ok : AllocationOk turn a) (clear : Unambiguous a) (x : Time) :
    Unambiguous (a.prune x) := by
  refine unambiguousOf (prunedOk ok x) ?_
  intro n ip port ip' port' left right
  obtain ⟨p,b,under,_,hb,_,at',channel⟩ := (boundToPrune ok.distinct).mp left
  obtain ⟨q,c,under',_,hc,_,at'',channel'⟩ := (boundToPrune ok.distinct).mp right
  exact unambiguousBound clear ⟨p,b,under,hb,at',channel⟩ ⟨q,c,under',hc,at'',channel'⟩

theorem grantUnambiguous {a : Allocation} (ok : AllocationOk turn a) (clear : Unambiguous a) (peer : Addr) :
    Unambiguous (a.grant peer timeout) := by
  refine unambiguousOf (grantOk ok peer) ?_
  intro n ip port ip' port' left right
  exact unambiguousBound clear (boundToGrant.mp left) (boundToGrant.mp right)

theorem appendClear {b : Allocation} (clear : ∀ c ∈ allocs, Unambiguous c) (none : b.permissions = []) :
    ∀ c ∈ allocs ++ [b], Unambiguous c := by
  intro c mem
  rcases List.mem_append.mp mem with old | new
  · exact clear c old
  · rw [List.mem_singleton.mp new]
    exact emptyUnambiguous none

theorem runClear {a : Allocator} (ok : a.Ok turn) (clear : ∀ b ∈ a.allocs, Unambiguous b) (c : Call)
    (free : FreeChannel turn ⟨a,c⟩) : ∀ b ∈ (a.run turn c).allocs, Unambiguous b := by
  cases c with
  | new t timeout port =>
    have run : a.run turn (.new t timeout port) = (a.new turn t timeout port).1 := rfl
    rw [run]
    rcases newCases turn a t timeout port with ⟨e,_,eq⟩ | ⟨_,fresh,⟨e,_,eq⟩ | ⟨n,_,eq⟩⟩ <;> rw [eq]
    · exact clear
    · exact appendClear clear rfl
    · exact appendClear clear rfl
  | remove t =>
    have table : (a.run turn (.remove t)).allocs = (remove turn a.allocs t).1 := by
      simp only [Allocator.run,Allocator.remove]
      split <;> rfl
    rw [table,removeTable]
    exact fun b mem => clear b (List.mem_filter.mp mem).1
  | prune x =>
    intro b mem
    have listed : b ∈ (prune a.allocs x).1 := mem
    rw [pruneTable] at listed
    obtain ⟨c,hc,rfl⟩ := List.mem_map.mp (List.mem_filter.mp listed).1
    exact pruneUnambiguous (ok.allocations c hc) (clear c hc) x
  | refresh t timeout =>
    intro b mem
    rcases memUpdateFirst mem with old | ⟨c,hc,_,rfl⟩
    · exact clear b old
    · exact clear c hc
  | createPermission t peer timeout =>
    intro b mem
    have listed : b ∈ (createPermission turn a.allocs t peer timeout).1 := mem
    rw [createdPermission] at listed
    rcases memUpdate listed with old | ⟨c,hc,_,rfl⟩
    · exact clear b old
    · exact grantUnambiguous (ok.allocations c hc) (clear c hc) peer
  | channelBind t n peer timeout =>
    intro b mem
    have listed : b ∈ (channelBind turn a.allocs t n peer timeout).1 := mem
    rcases @bindCases turn a.allocs t timeout ok.distinct n peer with ⟨_,same⟩ | ⟨c,d,valid,found,bound,eq⟩
    · rw [same] at listed
      exact clear b listed
    · rw [eq] at listed
      rcases memUpdate listed with old | ⟨e,he,hit,rfl⟩
      · exact clear b old
      · have one : c = e := Option.some.inj (found.symm.trans (lookupOfMem ok.distinct he hit))
        subst one
        have okC := ok.allocations c he
        simp only [Allocation.rebind,bound,Option.getD_some]
        exact bindUnambiguous okC (bindToOk okC valid bound) (clear c he) bound
          (free valid c found (fun p under => bindToFree bound under))

theorem bindAmbiguous {a : Allocator} (ok : a.Ok turn) (c : Call)
    (clear : ∀ b ∈ (a.run turn c).allocs, Unambiguous b) : FreeChannel turn ⟨a,c⟩ := by
  cases c with
  | channelBind t n peer timeout =>
    intro valid b found free q mem other
    obtain ⟨d,bound⟩ := @bindToSome timeout b n peer free
    cases used : channelBinding q n with
    | none => rfl
    | some e =>
      obtain ⟨he,channel⟩ := lookupSome used
      have inB : b ∈ a.allocs := (lookupSome found).1
      have old : BoundTo b n q.ip e.port :=
        ⟨q,e,permissionMem (ok.allocations b inB) mem,he,rfl,by simpa using channel⟩
      obtain ⟨port,new⟩ := boundAfter bound
      have after := @findRebind turn a.allocs t t timeout n peer
      rw [if_pos (turn.tuples.refl t),found] at after
      have effect := @channelBound turn a.allocs t timeout ok.distinct n peer
      have listed : d ∈ (a.run turn (.channelBind t n peer timeout)).allocs := by
        simp only [Allocator.run,Allocator.channelBind,effect,valid,found,bound,Option.bind_some,Bool.not_true]
        simp only [Option.map_some,Allocation.rebind,bound,Option.getD_some] at after
        exact (lookupSome after).1
      have same := (unambiguousBound (clear d listed) (boundToKept bound old) new).2
      rw [other] at same
      cases same
  | _ => trivial

theorem runTableOk {h s} (run : Run (machine turn) h s) : s.Ok turn :=
  invariant (Q := Allocator.Ok turn) emptyTableOk (fun _ c ok _ => runOk ok c) run

/- In every run, channels are unambiguous in all states reached if and only if every
effective `ChannelBind` finds its channel free under the other IPs of the allocation. -/
theorem channelsUnambiguous {h s} (run : Run (machine turn) h s) :
    ((∀ x ∈ h, ChannelsOk turn x.pre.allocs) ∧ ChannelsOk turn s.allocs) ↔ ∀ x ∈ h, FreeChannel turn x := by
  induction run with
  | start => exact ⟨fun _ => by simp,fun _ => ⟨by simp,channelsOf emptyTableOk (by simp [machine,Allocator.empty])⟩⟩
  | @step h s c run guard ih =>
    have ok := runTableOk run
    constructor
    · intro held x mem
      obtain ⟨states,last⟩ := held
      obtain ⟨now,earlier⟩ := List.forall_mem_cons.mp states
      rcases List.mem_cons.mp mem with rfl | old
      · exact bindAmbiguous ok c last.unambiguous
      · exact ih.mp ⟨earlier,now⟩ x old
    · intro free
      obtain ⟨now,earlier⟩ := List.forall_mem_cons.mp free
      obtain ⟨states,current⟩ := ih.mpr earlier
      have okNext : TableOk turn (s.run turn c).allocs := runOk ok c
      have clear := runClear ok current.unambiguous c now
      exact ⟨List.forall_mem_cons.mpr ⟨current,states⟩,channelsOf okNext clear⟩

def boundOnce : List Call :=
  [.new sampleTuple 60 (.ok ⟨sampleRelayed,17,1⟩),.channelBind sampleTuple 0x4000 samplePeer 60]

theorem channelsUnambiguousSample :
    (∀ x ∈ (trace (machine .documented) [] .empty boundOnce).1, ChannelsOk .documented x.pre.allocs) ∧
      ChannelsOk .documented (trace (machine .documented) [] .empty boundOnce).2.allocs := by
  have run := traceStart (m := machine .documented) boundOnce ⟨trivial,trivial,trivial⟩
  refine (channelsUnambiguous run).mpr ?_
  refine List.forall_mem_cons.mpr ⟨?_,List.forall_mem_cons.mpr ⟨trivial,by simp⟩⟩
  intro _ a found _ q mem
  have only : a = installed sampleTuple 60 sampleRelayed 1 := (Option.some.inj found).symm
  subst only
  cases mem

def boundTwice : List Call := boundOnce ++ [.channelBind sampleTuple 0x4000 sampleOther 60]

/- Both binds succeed; `SendBound` then writes to the second peer only, although `Bound`
still gives the channel for the first. -/
theorem channelBoundToTwoPeers : ∃ s, Reachable (machine .documented) s ∧ ¬ ChannelsOk .documented s.allocs := by
  have run := traceStart (m := machine .documented) boundTwice ⟨trivial,trivial,trivial,trivial⟩
  refine ⟨_,⟨_,run⟩,?_⟩
  intro ok
  have mem : (⟨sampleTuple,[⟨samplePeer.ip,60,[⟨2001,0x4000,60⟩]⟩,⟨sampleOther.ip,60,[⟨2001,0x4000,60⟩]⟩],
      sampleRelayed,some 1,60,2048⟩ : Allocation) ∈ (trace (machine .documented) [] .empty boundTwice).2.allocs := by
    decide
  have same := ok.unambiguous _ mem 0x4000 samplePeer (by decide) sampleOther (by decide)
  exact absurd same.2 (by decide)

end Gortcd.Channels
