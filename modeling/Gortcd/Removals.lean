import Gortcd.Service

/-! Why an allocation disappears from the table. The handler of Refresh takes a missing
LIFETIME for a lifetime of zero, so that a request which should extend the allocation by
the default lifetime removes it. -/
namespace Gortcd.Removals
open Keyed Net Ports Sections Records Calls Runs Interleaving Isolation Messages Filters Auth Handlers Effects Site Service

variable {ν : Type} {turn : Turn} {stun : Stun} {srv : Server ν} {o : Options} {nonces : ν}

/- The step serves an authenticated Refresh request for the tuple, with LIFETIME zero. -/
def Asked (turn : Turn) (stun : Stun) (srv : Server ν) (t : FiveTuple) (x : Step (Service.State ν) Service.Event) :
    Prop :=
  ∃ i now env c ctx d, x.event = .serve i now env ∧ x.pre.queue[i]? = some c ∧ c.arrive turn now = .ok ctx ∧
    (admission stun srv env x.pre.nonces ctx).2 = .pass d ∧
    (∀ auth, srv.auth = some auth → Authorized stun srv env x.pre.nonces ctx auth d.request) ∧
    d.request.type = ⟨.refresh,.request⟩ ∧ turn.tuples.same d.tuple t = true ∧ stun.lifetime d.request = .ok 0

/- An allocation that the step takes out of the table had expired, or its client asked for
it; and a Refresh request without LIFETIME extends the allocation by the default. -/
def OnlyWhenAsked (turn : Turn) (stun : Stun) (srv : Server ν) (x : Step (Service.State ν) Service.Event) : Prop :=
  (∀ t a, find turn x.pre.alloc.allocs t = some a →
    find turn (Service.next turn stun srv x.pre x.event).alloc.allocs t = none →
    (∃ now, x.event = .collect now ∧ a.timeout ≤ now) ∨ Asked turn stun srv t x) ∧
  ∀ d a, RefreshOf turn stun srv d x → stun.lifetime d.request = .error .attributeNotFound →
    find turn x.pre.alloc.allocs d.tuple = some a →
    ∃ b, find turn (Service.next turn stun srv x.pre x.event).alloc.allocs d.tuple = some b ∧
      b.timeout = d.time + d.cfg.defaultLifetime

def BareRefresh (turn : Turn) (stun : Stun) (srv : Server ν) (x : Step (Service.State ν) Service.Event) : Prop :=
  ∃ d, RefreshOf turn stun srv d x ∧ stun.lifetime d.request = .error .attributeNotFound ∧
    (find turn x.pre.alloc.allocs d.tuple).isSome

theorem sectionKeeps {s : Interleaving.State} (ok : TableOk turn s.allocs) {e : Interleaving.Event} {t : FiveTuple}
    {a : Allocation} (found : find turn s.allocs t = some a) (lost : find turn (Interleaving.next turn s e).allocs t = none) :
    (∃ t', e = .remove t') ∨ ∃ now, e = .prune now ∧ a.timeout ≤ now := by
  obtain ⟨o,after,step⟩ := stepFrom ok e found
  rw [lost] at after
  subst after
  cases step with
  | removed => exact .inl ⟨_,rfl⟩
  | expired late => exact .inr ⟨_,rfl,late⟩

theorem effectKeeps {c : Call} {a : Allocation} (lost : effect turn c (some a) = none) : ∃ t, c = .remove t := by
  cases c with
  | remove t => exact ⟨t,rfl⟩
  | new => cases lost
  | prune => cases lost
  | refresh => cases lost
  | createPermission => cases lost
  | channelBind t n peer timeout =>
    simp only [effect] at lost
    split at lost <;> cases lost

theorem callKeeps {a : Allocator} (ok : TableOk turn a.allocs) {c : Call} {t t' : FiveTuple} {b : Allocation}
    (own : c.tuple = some t') (found : find turn a.allocs t = some b)
    (lost : find turn (a.run turn c).allocs t = none) : turn.tuples.same t' t = true ∧ c = .remove t' := by
  rw [runRecord ok own] at lost
  split at lost
  · rename_i same
    rw [foundUnder same found] at lost
    obtain ⟨t'',rfl⟩ := effectKeeps lost
    cases own
    exact ⟨same,rfl⟩
  · cases lost.symm.trans found

theorem removeRequested {port : Except PortErr NetAllocation} {d : Context} {t : FiveTuple}
    (made : callOf stun port d = some (.remove t)) :
    d.request.type = ⟨.refresh,.request⟩ ∧
      (stun.lifetime d.request = .ok 0 ∨ stun.lifetime d.request = .error .attributeNotFound) := by
  cases callMade made with
  | removeZero type zero => exact ⟨type,.inl zero⟩
  | removeMissing type missing => exact ⟨type,.inr missing⟩

theorem refreshChecked {d : Context} (type : d.request.type = ⟨.refresh,.request⟩) {auth : Message → Except AuthErr Bytes}
    (configured : srv.auth = some auth) : needAuth srv d = true := by
  simp [needAuth,configured,type,bindingRequest]

theorem askedOf {s : Service.State ν} {i : Nat} {now : Time} {env : Env} {d : Context} {t : FiveTuple}
    (request : reaches turn stun srv s.toHost i now env = some d) (type : d.request.type = ⟨.refresh,.request⟩)
    (own : turn.tuples.same d.tuple t = true) (zero : stun.lifetime d.request = .ok 0) :
    Asked turn stun srv t ⟨s,.serve i now env⟩ := by
  obtain ⟨c,ctx,queued,arrival,_,admitted⟩ := reached.mp request
  refine ⟨i,now,env,c,ctx,d,rfl,queued,arrival,admitted,?_,type,own,zero⟩
  intro auth configured
  obtain ⟨m,_,carried,gate⟩ := passed admitted
  rw [carried.request]
  exact gate auth configured (refreshChecked type configured)

/- The table after a Refresh request without LIFETIME is that after `Remove`. -/
theorem bareRemoves {s : Service.State ν} {i : Nat} {now : Time} {env : Env} {d : Context}
    (request : reaches turn stun srv s.toHost i now env = some d) (type : d.request.type = ⟨.refresh,.request⟩)
    (missing : stun.lifetime d.request = .error .attributeNotFound) :
    find turn (Service.next turn stun srv s (.serve i now env)).alloc.allocs d.tuple = none := by
  have made : callOf stun env.port d = some (.remove d.tuple) := by simp [callOf,type,missing]
  simp only [Service.next,serveAllocs,request,Option.bind_some,made,Option.elim_some,Allocator.run,removeAllocs]
  rw [findRemove,if_pos (turn.tuples.refl _)]

theorem keptUnlessAsked {s : Service.State ν} (ok : TableOk turn s.alloc.allocs) {e : Service.Event}
    (bare : ¬ BareRefresh turn stun srv ⟨s,e⟩) {t : FiveTuple} {a : Allocation}
    (found : find turn s.alloc.allocs t = some a)
    (lost : find turn (Service.next turn stun srv s e).alloc.allocs t = none) :
    (∃ now, e = .collect now ∧ a.timeout ≤ now) ∨ Asked turn stun srv t ⟨s,e⟩ := by
  have inner {e : Interleaving.Event} (gone : find turn (Interleaving.next turn s.alloc e).allocs t = none) :
      (∃ t', e = .remove t') ∨ ∃ now, e = .prune now ∧ a.timeout ≤ now := sectionKeeps ok found gone
  have stays : find turn s.alloc.allocs t ≠ none := by
    rw [found]
    nofun
  cases e with
  | receive addr packet => exact absurd lost stays
  | reload o => exact absurd lost stays
  | serve i now env =>
    simp only [Service.next,serveAllocs] at lost
    cases request : reaches turn stun srv s.toHost i now env with
    | none =>
      rw [request] at lost
      exact absurd lost stays
    | some d => cases made : callOf stun env.port d with
      | none =>
        simp only [request,made,Option.bind_some] at lost
        exact absurd lost stays
      | some c =>
        simp only [request,made,Option.bind_some,Option.elim_some] at lost
        obtain ⟨own,rfl⟩ := callKeeps ok (callOfTuple made) found lost
        obtain ⟨type,zero | missing⟩ := removeRequested made
        · exact .inr (askedOf request type own zero)
        · refine absurd ⟨d,⟨i,now,env,rfl,request,type⟩,missing,?_⟩ bare
          rw [foundUnder own found]
          rfl
  | allocate k i now env =>
    simp only [Service.next] at lost
    split at lost
    · exact absurd lost stays
    · rcases inner lost with ⟨t',event⟩ | ⟨now,event,_⟩ <;> cases event
  | answer k port => cases port <;> rcases inner lost with ⟨t',event⟩ | ⟨now,event,_⟩ <;> cases event
  | install k => rcases inner lost with ⟨t',event⟩ | ⟨now,event,_⟩ <;> cases event
  | dealloc addr proto => rcases inner lost with ⟨t',event⟩ | ⟨now,event,_⟩ <;> cases event
  | collect now =>
    rcases inner lost with ⟨t',event⟩ | ⟨now,event,late⟩
    · cases event
    · cases event
      exact .inl ⟨now,rfl,late⟩

/- In every run, a step takes allocations out only when asked or after they expired if and
only if it does not serve a Refresh request without LIFETIME for an allocation. -/
theorem removalsAsked {h s} (run : Run (Service.machine turn stun srv o nonces) h s) :
    ∀ x ∈ h, OnlyWhenAsked turn stun srv x ↔ ¬ BareRefresh turn stun srv x := by
  intro x mem
  obtain ⟨before,reach,_⟩ := preReached run mem
  obtain ⟨s,e⟩ := x
  constructor
  · intro only bare
    obtain ⟨d,⟨i,now,env,rfl,request,type⟩,missing,present⟩ := bare
    obtain ⟨a,found⟩ := Option.isSome_iff_exists.mp present
    obtain ⟨b,kept,_⟩ := only.2 d a ⟨i,now,env,rfl,request,type⟩ missing found
    cases (bareRemoves request type missing).symm.trans kept
  · intro bare
    refine ⟨fun t a found lost => keptUnlessAsked (serviceOk reach) bare found lost,?_⟩
    intro d a refresh missing found
    refine absurd ⟨d,refresh,missing,?_⟩ bare
    dsimp only at found ⊢
    rw [found]
    rfl

def zeroPacket : Bytes := Codec.refreshRequest 0x00 0x00

def barePacket : Bytes := Codec.bareRequest 0x04

theorem removalsAskedSample :
    (find .documented (refreshing zeroPacket).pre.alloc.allocs sampleTuple).isSome ∧
      OnlyWhenAsked .documented Codec.wire PeerFilter.openServer (refreshing zeroPacket) := by
  refine ⟨by decide +kernel,(removalsAsked (refreshingRun zeroPacket) _ List.mem_cons_self).mpr ?_⟩
  intro bare
  obtain ⟨d,⟨i,now,env,event,request,_⟩,missing,_⟩ := bare
  cases event
  have read := congrArg (Option.map (fun d => Codec.wire.lifetime d.request)) request
  have zero : (reaches .documented Codec.wire PeerFilter.openServer (refreshing zeroPacket).pre.toHost 0 2
      ⟨[],.error .listen⟩).map (fun d => Codec.wire.lifetime d.request) = some (.ok 0) := by decide +kernel
  rw [zero,Option.map_some,missing] at read
  cases read

theorem bareRefreshRemoves : ∃ h s x, Run sampleService h s ∧ x ∈ h ∧
    ¬ OnlyWhenAsked .documented Codec.wire PeerFilter.openServer x := by
  refine ⟨_,_,_,refreshingRun barePacket,List.mem_cons_self,?_⟩
  intro only
  have read : (reaches .documented Codec.wire PeerFilter.openServer (refreshing barePacket).pre.toHost 0 2
      ⟨[],.error .listen⟩).map (fun d => (d.request.type,Codec.wire.lifetime d.request,d.tuple)) =
      some (⟨.refresh,.request⟩,.error .attributeNotFound,sampleTuple) := by decide +kernel
  obtain ⟨d,request,same⟩ := Option.map_eq_some_iff.mp read
  obtain ⟨type,rest⟩ := Prod.mk.inj same
  obtain ⟨missing,tuple⟩ := Prod.mk.inj rest
  have present : (find .documented (refreshing barePacket).pre.alloc.allocs sampleTuple).isSome := by decide +kernel
  rw [← tuple] at present
  obtain ⟨a,found⟩ := Option.isSome_iff_exists.mp present
  obtain ⟨b,kept,_⟩ := only.2 d a ⟨0,2,_,rfl,request,type⟩ missing found
  cases (bareRemoves request type missing).symm.trans kept

end Gortcd.Removals
