import Gortcd.Views
import Gortcd.Daemon
import Mathlib.Data.List.Find
import Mathlib.Data.List.Nodup

/-! The process as one client meets it, with every section of `New`, every reply and every
datagram of a peer. All that is sent because of him, and all that is kept about him, is what
the same process does on tables that hold his records only, given his packets as they are
taken from the queue, the ports his own calls get, the passes of the collector and what peers
send to him. Other clients can leave him fewer ports, or end the process. -/
namespace Gortcd.Clients
open Keyed Net Ports Sections Records Calls Runs Messages Auth Handlers Nonces Separation Effects Daemon
open Interleaving (Pending Loop)
open Views (View look Agree)

structure Own extends View where
  pending : List Pending
  waiting : List (Nat × Context)

def ownPending (turn : Turn) (t : FiveTuple) (l : List Pending) : List Pending :=
  l.filter (fun p => turn.tuples.same p.tuple t)

def ownWaiting (turn : Turn) (t : FiveTuple) (l : List (Nat × Context)) : List (Nat × Context) :=
  l.filter (fun w => turn.tuples.same w.2.tuple t)

def own (turn : Turn) (t : FiveTuple) (s : Daemon.State NonceAuth) : Own :=
  ⟨look turn t s.nonces s.alloc.allocs,ownPending turn t s.alloc.pending,ownWaiting turn t s.waiting⟩

/- The configuration in force is read with a packet, and a server `alone` reads none: packets
come to it with their own. -/
def unread : Config := newConfig ⟨[],[],false,Filters.allowAll,Filters.allowAll⟩

def Own.state (t : FiveTuple) (v : Own) (queue : List Context) : Daemon.State NonceAuth where
  cfg := unread
  nonces := v.toView.nonces t
  alloc := { v.toView.allocs with pending := v.pending, dealloc := [], loops := [] }
  queue := queue
  waiting := v.waiting
  doomed := false
  alive := true

/- A step about the client, with the packet that it takes. -/
structure Input where
  packet : Option Context
  event : Daemon.Event

def taken (turn : Turn) (t : FiveTuple) (s : Daemon.State NonceAuth) (i : Nat) (now : Time) (e : Daemon.Event) : Option Input :=
  match s.queue[i]? with
  | none => none
  | some c => match c.arrive turn now with
    | .error _ => none
    | .ok ctx => if turn.tuples.same ctx.tuple t then some ⟨some c,e⟩ else none

def called (turn : Turn) (t : FiveTuple) (s : Daemon.State NonceAuth) (k : Nat) (e : Daemon.Event) : Option Input :=
  match s.alloc.call k with
  | none => none
  | some p => if turn.tuples.same p.tuple t then some ⟨none,e⟩ else none

def input (turn : Turn) (t : FiveTuple) (s : Daemon.State NonceAuth) : Daemon.Event → Option Input
  | .service (.serve i now env) => taken turn t s i now (.service (.serve 0 now env))
  | .service (.allocate k i now env) => taken turn t s i now (.service (.allocate k 0 now env))
  | .service (.answer k port) => called turn t s k (.service (.answer k port))
  | .service (.install k) => called turn t s k (.service (.install k))
  | .service (.collect now) => some ⟨none,.service (.collect now)⟩
  | .peerData l data peer id => if turn.tuples.same l.tuple t then some ⟨none,.peerData l data peer id⟩ else none
  | _ => none

def observer (turn : Turn) (stun : Stun) (srv : Server NonceAuth) (t : FiveTuple) :
    Observer (Daemon.State NonceAuth) Daemon.Event Input Output Own :=
  ⟨input turn t,Daemon.output turn stun srv,own turn t⟩

def alone (turn : Turn) (stun : Stun) (srv : Server NonceAuth) (t : FiveTuple) : Alone Input Output Own where
  react v i := own turn t (Daemon.next turn stun srv (v.state t i.packet.toList) i.event)
  answer v i := Daemon.output turn stun srv (v.state t i.packet.toList) i.event

variable {turn : Turn} {stun : Stun} {srv : Server NonceAuth} {t : FiveTuple} {s : Daemon.State NonceAuth} {k : Nat}

/- Calls of `New` have their own numbers, and each keeps a worker waiting. -/
structure Clean (turn : Turn) (s : Daemon.State NonceAuth) : Prop where
  table : TableOk turn s.alloc.allocs
  mirrored : s.waiting.map (fun w => (w.1,w.2.tuple)) = s.alloc.pending.map (fun p => (p.call,p.tuple))
  numbered : (s.alloc.pending.map Pending.call).Nodup

theorem calledOnce (clean : Clean turn s) {p p' : Pending} (call : s.alloc.call k = some p) (mem : p' ∈ s.alloc.pending)
    (own : p'.call = k) : p' = p := by
  have known : p.call = k := by simpa using List.find?_some call
  exact List.inj_on_of_nodup_map clean.numbered mem (List.mem_of_find?_eq_some call) (own.trans known.symm)

theorem waitingCall (clean : Clean turn s) {w : Nat × Context} (mem : w ∈ s.waiting) :
    ∃ p ∈ s.alloc.pending, p.call = w.1 ∧ p.tuple = w.2.tuple := by
  have image : (w.1,w.2.tuple) ∈ s.waiting.map (fun w => (w.1,w.2.tuple)) := List.mem_map_of_mem mem
  rw [clean.mirrored] at image
  obtain ⟨p,held,same⟩ := List.mem_map.mp image
  exact ⟨p,held,congrArg Prod.fst same,congrArg Prod.snd same⟩

theorem ownCall (clean : Clean turn s) {p : Pending} (call : s.alloc.call k = some p)
    (same : turn.tuples.same p.tuple t = true) : (∀ p' ∈ s.alloc.pending, p'.call = k → turn.tuples.same p'.tuple t = true) ∧
      ∀ w ∈ s.waiting, w.1 = k → turn.tuples.same w.2.tuple t = true := by
  have one : ∀ p' ∈ s.alloc.pending, p'.call = k → turn.tuples.same p'.tuple t = true := by
    intro p' mem own
    rw [calledOnce clean call mem own]
    exact same
  refine ⟨one,?_⟩
  intro w mem own
  obtain ⟨p',held,number,tuple⟩ := waitingCall clean mem
  rw [← tuple]
  exact one p' held (number.trans own)

theorem otherCall (clean : Clean turn s) {e : Daemon.Event} (none : called turn t s k e = none) :
    (∀ p ∈ ownPending turn t s.alloc.pending, p.call ≠ k) ∧ ∀ w ∈ ownWaiting turn t s.waiting, w.1 ≠ k := by
  have one : ∀ p ∈ s.alloc.pending, turn.tuples.same p.tuple t = true → p.call ≠ k := by
    intro p mem same own
    unfold called at none
    cases call : s.alloc.call k with
    | none => exact absurd (beq_iff_eq.mpr own) (List.find?_eq_none.mp call p mem)
    | some p' =>
      rw [call,← calledOnce clean call mem own] at none
      simp only [same,if_true,reduceCtorEq] at none
  refine ⟨fun p mem => ?_,fun w mem own => ?_⟩
  · obtain ⟨held,same⟩ := List.mem_filter.mp mem
    exact one p held same
  · obtain ⟨held,same⟩ := List.mem_filter.mp mem
    obtain ⟨p,pending,number,tuple⟩ := waitingCall clean held
    exact one p pending (tuple ▸ same) (number.trans own)

theorem findOwn {α : Type} {l : List α} {p q : α → Bool} (all : ∀ x ∈ l, p x = true → q x = true) :
    (l.filter q).find? p = l.find? p := by
  rw [List.find?_filter]
  refine List.find?_congr ?_
  intro x mem
  cases hit : p x with
  | false => simp
  | true => simp [all x mem hit]

/- What a call that ends takes away. -/
theorem endedMirrored (clean : Clean turn s) : (Service.drop k s.waiting).map (fun w => (w.1,w.2.tuple)) =
    (s.alloc.done k).map (fun p => (p.call,p.tuple)) ∧ ((s.alloc.done k).map Pending.call).Nodup := by
  refine ⟨?_,clean.numbered.sublist (List.filter_sublist.map _)⟩
  have left : (Service.drop k s.waiting).map (fun w => (w.1,w.2.tuple)) =
      (s.waiting.map (fun w => (w.1,w.2.tuple))).filter (fun x => x.1 != k) := by
    rw [List.filter_map]
    rfl
  have right : (s.alloc.done k).map (fun p => (p.call,p.tuple)) =
      (s.alloc.pending.map (fun p => (p.call,p.tuple))).filter (fun x => x.1 != k) := by
    rw [List.filter_map]
    rfl
  rw [left,right,clean.mirrored]

def answered (k : Nat) (n : NetAllocation) (p : Pending) : Pending := if p.call == k then { p with port := some n } else p

theorem answeredKept (n : NetAllocation) (p : Pending) : (answered k n p).call = p.call ∧ (answered k n p).tuple = p.tuple := by
  unfold answered
  split <;> exact ⟨rfl,rfl⟩

theorem cleanStep (clean : Clean turn s) {e : Daemon.Event} (guard : Daemon.enabled turn stun srv s e) :
    Clean turn (Daemon.next turn stun srv s e) := by
  cases e with
  | peerData l data peer id => exact clean
  | crash => exact ⟨clean.table,clean.mirrored,clean.numbered⟩
  | service e =>
    have table : TableOk turn (Service.next turn stun srv s.toState e).alloc.allocs := Service.nextTable clean.table e
    cases e with
    | serve i now env =>
      refine ⟨table,?_,?_⟩
      · exact clean.mirrored.trans (by rw [Daemon.next,Service.next,Site.servePending])
      · rw [Daemon.next,Service.next,Site.servePending]
        exact clean.numbered
    | allocate k i now env =>
      obtain ⟨_,_,fresh,d,reached,_,allocs,registering⟩ := guard
      have opened : (Daemon.next turn stun srv s (.service (.allocate k i now env))).alloc.pending =
          ⟨k,d.tuple,d.time + d.cfg.defaultLifetime,none⟩ :: s.alloc.pending ∧
        (Daemon.next turn stun srv s (.service (.allocate k i now env))).waiting = (k,d) :: s.waiting := by
        simp only [Daemon.next,Service.next,reached,Interleaving.next,registering,and_self]
      refine ⟨table,?_,?_⟩
      · rw [opened.1,opened.2,List.map_cons,List.map_cons,clean.mirrored]
      · rw [opened.1,List.map_cons,List.nodup_cons]
        refine ⟨fun mem => ?_,clean.numbered⟩
        obtain ⟨p,held,number⟩ := List.mem_map.mp mem
        exact List.find?_eq_none.mp fresh p held (beq_iff_eq.mpr number)
    | answer k port => cases port with
      | ok n =>
        have calls : (s.alloc.pending.map (answered k n)).map Pending.call = s.alloc.pending.map Pending.call := by
          rw [List.map_map]
          exact List.map_congr_left (fun p _ => (answeredKept n p).1)
        have both : (s.alloc.pending.map (answered k n)).map (fun p => (p.call,p.tuple)) =
            s.alloc.pending.map (fun p => (p.call,p.tuple)) := by
          rw [List.map_map]
          refine List.map_congr_left (fun p _ => ?_)
          rw [Function.comp_apply,(answeredKept n p).1,(answeredKept n p).2]
        refine ⟨table,clean.mirrored.trans both.symm,?_⟩
        change ((s.alloc.pending.map (answered k n)).map Pending.call).Nodup
        rw [calls]
        exact clean.numbered
      | error e => exact ⟨table,(endedMirrored clean).1,(endedMirrored clean).2⟩
    | install k =>
      obtain ⟨_,p,n,call,port⟩ := guard
      have opened : (Daemon.next turn stun srv s (.service (.install k))).alloc.pending = s.alloc.done k := by
        simp only [Daemon.next,Service.next,Interleaving.installSpec call port]
      refine ⟨table,?_,?_⟩
      · rw [opened]
        exact (endedMirrored clean).1
      · rw [opened]
        exact (endedMirrored clean).2
    | _ => exact ⟨table,clean.mirrored,clean.numbered⟩

theorem cleanRun {o : Options} {nonces : NonceAuth} {h s} (run : Run (Daemon.machine turn stun srv o nonces) h s) :
    Clean turn s := by
  have empty : TableOk turn Interleaving.State.empty.allocs := emptyTableOk
  have apart : (([] : List Pending).map Pending.call).Nodup := List.nodup_nil
  exact invariant (Q := Clean turn) ⟨empty,rfl,apart⟩ (fun _ _ clean guard => cleanStep clean guard) run

theorem ownEqual {s s' : Daemon.State NonceAuth} (view : look turn t s.nonces s.alloc.allocs = look turn t s'.nonces s'.alloc.allocs)
    (pending : ownPending turn t s.alloc.pending = ownPending turn t s'.alloc.pending)
    (waiting : ownWaiting turn t s.waiting = ownWaiting turn t s'.waiting) : own turn t s = own turn t s' := by
  unfold own
  rw [view,pending,waiting]

theorem takenNone {i : Nat} {now : Time} {env : Env} {e : Daemon.Event} (apart : taken turn t s i now e = none) :
    Views.input turn t s.toHost (.serve i now env) = none := by
  unfold taken at apart
  simp only [Views.input,Views.about]
  split
  · rfl
  · rename_i c queued
    rw [queued] at apart
    dsimp only at apart
    split
    · rfl
    · rename_i ctx arrival
      rw [arrival] at apart
      dsimp only at apart
      split at apart
      · cases apart
      · rename_i other
        exact if_neg other

theorem takenSome {i : Nat} {now : Time} {e : Daemon.Event} {j : Input} (given : taken turn t s i now e = some j) :
    ∃ c ctx, s.queue[i]? = some c ∧ c.arrive turn now = .ok ctx ∧ turn.tuples.same ctx.tuple t = true ∧ j = ⟨some c,e⟩ := by
  unfold taken at given
  split at given
  · cases given
  · rename_i c queued
    split at given
    · cases given
    · rename_i ctx arrival
      split at given
      · rename_i same
        cases given
        exact ⟨c,ctx,queued,arrival,same,rfl⟩
      · cases given

theorem calledSome {e : Daemon.Event} {j : Input} (given : called turn t s k e = some j) :
    ∃ p, s.alloc.call k = some p ∧ turn.tuples.same p.tuple t = true ∧ j = ⟨none,e⟩ := by
  unfold called at given
  split at given
  · cases given
  · rename_i p call
    split at given
    · rename_i same
      cases given
      exact ⟨p,call,same,rfl⟩
    · cases given

theorem ownAnswered (n : NetAllocation) (l : List Pending) :
    ownPending turn t (l.map (answered k n)) = (ownPending turn t l).map (answered k n) := by
  unfold ownPending
  rw [List.filter_map]
  refine congrArg (List.map (answered k n)) (List.filter_congr ?_)
  intro p _
  rw [Function.comp_apply,(answeredKept n p).2]

theorem ownDone (l : List Pending) : ownPending turn t (l.filter (fun p => p.call != k)) =
    (ownPending turn t l).filter (fun p => p.call != k) := by
  unfold ownPending
  rw [List.filter_filter,List.filter_filter]
  exact List.filter_congr (fun p _ => Bool.and_comm _ _)

theorem ownDropped (l : List (Nat × Context)) : ownWaiting turn t (Service.drop k l) =
    Service.drop k (ownWaiting turn t l) := by
  unfold ownWaiting Service.drop
  rw [List.filter_filter,List.filter_filter]
  exact List.filter_congr (fun w _ => Bool.and_comm _ _)

theorem otherDone (clean : Clean turn s) {e : Daemon.Event} (none : called turn t s k e = none) :
    ownPending turn t (s.alloc.done k) = ownPending turn t s.alloc.pending ∧
      ownWaiting turn t (Service.drop k s.waiting) = ownWaiting turn t s.waiting := by
  obtain ⟨calls,waiters⟩ := otherCall clean none
  refine ⟨(ownDone _).trans (List.filter_eq_self.mpr ?_),(ownDropped _).trans (List.filter_eq_self.mpr ?_)⟩
  · exact fun p mem => bne_iff_ne.mpr (calls p mem)
  · exact fun w mem => bne_iff_ne.mpr (waiters w mem)

theorem ownTwice (l : List Pending) : ownPending turn t (ownPending turn t l) = ownPending turn t l :=
  List.filter_eq_self.mpr (fun _ mem => (List.mem_filter.mp mem).2)

theorem waitingTwice (l : List (Nat × Context)) : ownWaiting turn t (ownWaiting turn t l) = ownWaiting turn t l :=
  List.filter_eq_self.mpr (fun _ mem => (List.mem_filter.mp mem).2)

theorem ownCons {p : Pending} (same : turn.tuples.same p.tuple t = true) (l : List Pending) :
    ownPending turn t (p :: l) = p :: ownPending turn t l := by
  unfold ownPending
  rw [List.filter_cons,if_pos same]

theorem waitingCons {w : Nat × Context} (same : turn.tuples.same w.2.tuple t = true) (l : List (Nat × Context)) :
    ownWaiting turn t (w :: l) = w :: ownWaiting turn t l := by
  unfold ownWaiting
  rw [List.filter_cons,if_pos same]

/- The response of a `New` that returns depends on the result, not on the allocator. -/
theorem finishReply (a a' : Allocator) (c : Context) (result : Except Err Addr) :
    (finishNew stun a c result).reply = (finishNew stun a' c result).reply := by
  cases result with
  | ok addr => rfl
  | error e => cases e <;> rfl

section Steps
variable (manager : srv.nonce = NonceAuth.manager turn) (clean : Clean turn s)
include manager clean

theorem servedQuiet {i : Nat} {now : Time} {env : Env} {e : Daemon.Event} (apart : taken turn t s i now e = none) :
    look turn t (Site.next turn stun srv s.toHost (.serve i now env)).nonces
      (Site.next turn stun srv s.toHost (.serve i now env)).alloc.allocs = look turn t s.nonces s.alloc.allocs :=
  (@Views.separated turn stun srv manager t).quiet clean.table (takenNone apart)

theorem allocateQuiet {i : Nat} {now : Time} {env : Env} {e : Daemon.Event} (apart : taken turn t s i now e = none) :
    own turn t (Daemon.next turn stun srv s (.service (.allocate k i now env))) = own turn t s := by
  cases reached : Service.reaches turn stun srv s.toHost i now env with
  | none =>
    simp only [Daemon.next,Service.next,reached]
    rfl
  | some d =>
    obtain ⟨c,ctx,queued,arrival,_,pass⟩ := Service.reached.mp reached
    have other : turn.tuples.same d.tuple t = false := by
      have known := apart
      simp only [taken,queued,arrival] at known
      rw [Views.admittedTuple pass]
      by_contra same
      rw [Bool.not_eq_false] at same
      rw [if_pos same] at known
      cases known
    have view := @servedQuiet turn stun srv t s manager clean i now env e apart
    simp only [look,View.mk.injEq] at view
    have record := @Views.innerQuiet turn t s.alloc clean.table (.register k d.tuple (d.time + d.cfg.defaultLifetime))
      (if_neg (Bool.eq_false_iff.mp other))
    refine ownEqual ?_ ?_ ?_
    · simp only [Daemon.next,Service.next,reached,look,View.mk.injEq]
      exact ⟨record,view.2⟩
    · simp only [Daemon.next,Service.next,reached,Interleaving.next]
      split
      · rfl
      · exact List.filter_cons_of_neg (Bool.eq_false_iff.mp other)
    · simp only [Daemon.next,Service.next,reached]
      exact List.filter_cons_of_neg (Bool.eq_false_iff.mp other)

omit manager in
theorem answerQuiet {port : Except PortErr NetAllocation} {e : Daemon.Event} (apart : called turn t s k e = none) :
    own turn t (Daemon.next turn stun srv s (.service (.answer k port))) = own turn t s := by
  cases port with
  | ok n =>
    obtain ⟨calls,_⟩ := otherCall clean apart
    refine ownEqual rfl ((ownAnswered n _).trans ?_) rfl
    refine (List.map_congr_left (fun p mem => ?_)).trans (List.map_id _)
    unfold answered
    rw [if_neg (fun hit => calls p mem (beq_iff_eq.mp hit))]
    rfl
  | error e =>
    obtain ⟨pending,waiting⟩ := otherDone clean apart
    exact ownEqual rfl pending waiting

omit manager in
theorem installQuiet {e : Daemon.Event} (apart : called turn t s k e = none) :
    own turn t (Daemon.next turn stun srv s (.service (.install k))) = own turn t s := by
  obtain ⟨pending,waiting⟩ := otherDone clean apart
  have unseen : Views.inner turn t s.alloc (.install k) = none := by
    unfold Views.inner
    dsimp only
    split
    · rename_i p call
      simp only [called,call] at apart
      refine if_neg (fun same => ?_)
      rw [if_pos same] at apart
      cases apart
    · rfl
  have record := Views.innerQuiet clean.table unseen
  refine ownEqual ?_ ?_ waiting
  · simp only [Daemon.next,Service.next,look,record]
  · simp only [Daemon.next,Service.next,Interleaving.next]
    split
    · exact pending
    · rfl

theorem ownQuiet {e : Daemon.Event} (apart : input turn t s e = none) :
    own turn t (Daemon.next turn stun srv s e) = own turn t s := by
  cases e with
  | peerData l data peer id => rfl
  | crash => rfl
  | service e => cases e with
    | serve i now env =>
      refine ownEqual (servedQuiet manager clean apart) ?_ rfl
      rw [Daemon.next,Service.next,Site.servePending]
    | allocate k i now env => exact allocateQuiet manager clean apart
    | answer k port => exact answerQuiet clean apart
    | install k => exact installQuiet clean apart
    | collect now => cases apart
    | _ => rfl

section Own
omit manager
variable (t) (q : List Context)

theorem stateAgree : Agree turn t s.nonces ((own turn t s).state t q).nonces s.alloc.allocs
    ((own turn t s).state t q).alloc.allocs := Views.lookAgree clean.table

theorem stateLook : look turn t s.nonces s.alloc.allocs =
    look turn t ((own turn t s).state t q).nonces ((own turn t s).state t q).alloc.allocs := Views.agreeLook (stateAgree t clean q)

theorem stateOwn : own turn t s = own turn t ((own turn t s).state t q) :=
  ownEqual (stateLook t clean q) (ownTwice _).symm (waitingTwice _).symm

theorem innerTwice (stun : Stun) (srv : Server NonceAuth) {e : Interleaving.Event} {j : Views.Input}
    (given : Views.inner turn t s.alloc e = some j)
    (given' : Views.inner turn t ((own turn t s).state t q).alloc e = some j) :
    look turn t s.nonces (Interleaving.next turn s.alloc e).allocs = look turn t ((own turn t s).state t q).nonces
      (Interleaving.next turn ((own turn t s).state t q).alloc e).allocs := by
  have table := (stateAgree t clean q).ok'
  rw [@Views.innerOwn turn stun srv t _ _ clean.table _ _ given,@Views.innerOwn turn stun srv t _ _ table _ _ given',
    stateLook t clean q]

theorem stateCall {p : Pending} (call : s.alloc.call k = some p) (same : turn.tuples.same p.tuple t = true) :
    ((own turn t s).state t q).alloc.call k = some p ∧ ∀ result, Daemon.State.returns stun s k result =
      Daemon.State.returns stun ((own turn t s).state t q) k result := by
  obtain ⟨calls,waiters⟩ := ownCall clean call same
  have found : (ownPending turn t s.alloc.pending).find? (fun p => p.call == k) = s.alloc.pending.find? (fun p => p.call == k) :=
    findOwn (fun p mem hit => calls p mem (beq_iff_eq.mp hit))
  have waits : (ownWaiting turn t s.waiting).find? (fun w => w.1 == k) = s.waiting.find? (fun w => w.1 == k) :=
    findOwn (fun w mem hit => waiters w mem (beq_iff_eq.mp hit))
  refine ⟨found.trans call,fun result => ?_⟩
  have same' : ((own turn t s).state t q).waiting = ownWaiting turn t s.waiting := rfl
  unfold Daemon.State.returns
  rw [same',waits]
  cases s.waiting.find? (fun w => w.1 == k) with
  | none => rfl
  | some w =>
    dsimp only
    rw [finishReply]

end Own

theorem packetTwice {env : Env} {c ctx : Context} (same : turn.tuples.same ctx.tuple t = true) :
    (admission stun srv env s.nonces ctx).2 = (admission stun srv env ((own turn t s).state t [c]).nonces ctx).2 ∧
      Views.Same (process turn stun srv env s.nonces s.alloc.toAllocator ctx).2
        (process turn stun srv env ((own turn t s).state t [c]).nonces ((own turn t s).state t [c]).alloc.toAllocator ctx).2 ∧
      look turn t (process turn stun srv env s.nonces s.alloc.toAllocator ctx).1
          (process turn stun srv env s.nonces s.alloc.toAllocator ctx).2.allocs.allocs =
        look turn t (process turn stun srv env ((own turn t s).state t [c]).nonces
            ((own turn t s).state t [c]).alloc.toAllocator ctx).1
          (process turn stun srv env ((own turn t s).state t [c]).nonces
            ((own turn t s).state t [c]).alloc.toAllocator ctx).2.allocs.allocs := by
  have agree := Views.agreeAt (stateAgree t clean [c]) same
  have admitted := @Views.admissionAgree turn stun srv env _ _ manager ctx agree.nonce agree.duration
  obtain ⟨answered,after⟩ := @Views.processAgree turn stun srv env _ _ manager s.alloc.toAllocator
    ((own turn t s).state t [c]).alloc.toAllocator ctx agree
  exact ⟨admitted.1,answered,Views.agreeLook (Views.agreeAt after ((turn.tuples.comm _ _).trans same))⟩

theorem serveTwice {i : Nat} {now : Time} {env : Env} {c ctx : Context} (queued : s.queue[i]? = some c)
    (arrival : c.arrive turn now = .ok ctx) (same : turn.tuples.same ctx.tuple t = true) :
    own turn t (Daemon.next turn stun srv s (.service (.serve i now env))) =
        own turn t (Daemon.next turn stun srv ((own turn t s).state t [c]) (.service (.serve 0 now env))) ∧
      Daemon.output turn stun srv s (.service (.serve i now env)) =
        Daemon.output turn stun srv ((own turn t s).state t [c]) (.service (.serve 0 now env)) := by
  obtain ⟨_,answered,view⟩ := @packetTwice turn stun srv t s manager clean env c ctx same
  have queued' : ((own turn t s).state t [c]).queue[0]? = some c := rfl
  refine ⟨ownEqual ?_ ?_ (waitingTwice _).symm,?_⟩
  · simp only [Daemon.next,Service.next,Site.nextServe queued,Site.nextServe queued',serveConn,arrival]
    exact view
  · simp only [Daemon.next,Service.next,Site.servePending]
    exact (ownTwice _).symm
  · simp only [Daemon.output,queued,queued',serveConn,arrival]
    rw [Views.sameReply answered,answered.sent]

theorem allocateTwice {i : Nat} {now : Time} {env : Env} {c ctx : Context} (queued : s.queue[i]? = some c)
    (arrival : c.arrive turn now = .ok ctx) (same : turn.tuples.same ctx.tuple t = true) :
    own turn t (Daemon.next turn stun srv s (.service (.allocate k i now env))) =
      own turn t (Daemon.next turn stun srv ((own turn t s).state t [c]) (.service (.allocate k 0 now env))) := by
  obtain ⟨admitted,_,view⟩ := @packetTwice turn stun srv t s manager clean env c ctx same
  have queued' : ((own turn t s).state t [c]).queue[0]? = some c := rfl
  have reaching : Service.reaches turn stun srv s.toHost i now env =
      Service.reaches turn stun srv ((own turn t s).state t [c]).toHost 0 now env := by
    simp only [Service.reaches,queued,queued',arrival,admitted]
  cases reached : Service.reaches turn stun srv s.toHost i now env with
  | none =>
    rw [reached] at reaching
    simp only [Daemon.next,Service.next,reached,← reaching]
    exact stateOwn t clean [c]
  | some d =>
    rw [reached] at reaching
    obtain ⟨_,_,queued'',arrival'',_,pass⟩ := Service.reached.mp reached
    cases queued.symm.trans queued''
    cases arrival.symm.trans arrival''
    have same' : turn.tuples.same d.tuple t = true := by
      rw [Views.admittedTuple pass]
      exact same
    have section' := @innerTwice turn t s clean [c] stun srv (.register k d.tuple (d.time + d.cfg.defaultLifetime)) _
      (if_pos same') (if_pos same')
    simp only [look,View.mk.injEq] at section' view
    refine ownEqual ?_ ?_ ?_
    · simp only [Daemon.next,Service.next,reached,← reaching,Site.nextServe queued,Site.nextServe queued',serveConn,arrival,look,
        View.mk.injEq]
      exact ⟨section'.1,view.2⟩
    · simp only [Daemon.next,Service.next,reached,← reaching,Interleaving.next]
      rcases Views.registerAgree (Views.agreeAt (stateAgree t clean [c]) same') (d.time + d.cfg.defaultLifetime) with
        ⟨e,e',failed,failed'⟩ | ⟨_,made,_,made'⟩
      · rw [failed,failed']
        exact (ownTwice _).symm
      · rw [made,made']
        rw [ownCons same',ownCons same']
        exact congrArg (List.cons _) (ownTwice s.alloc.pending).symm
    · simp only [Daemon.next,Service.next,reached,← reaching]
      rw [waitingCons same',waitingCons same']
      exact congrArg (List.cons _) (waitingTwice s.waiting).symm

omit manager in
theorem answerTwice {port : Except PortErr NetAllocation} {p : Pending} (call : s.alloc.call k = some p)
    (same : turn.tuples.same p.tuple t = true) :
    own turn t (Daemon.next turn stun srv s (.service (.answer k port))) =
        own turn t (Daemon.next turn stun srv ((own turn t s).state t []) (.service (.answer k port))) ∧
      Daemon.output turn stun srv s (.service (.answer k port)) =
        Daemon.output turn stun srv ((own turn t s).state t []) (.service (.answer k port)) := by
  obtain ⟨_,returned⟩ := @stateCall turn stun t s k clean [] p call same
  cases port with
  | ok n =>
    refine ⟨ownEqual (stateLook t clean []) ?_ (waitingTwice _).symm,rfl⟩
    exact (ownAnswered n _).trans ((ownAnswered n _).trans (congrArg (List.map _) (ownTwice _))).symm
  | error e =>
    refine ⟨ownEqual (stateLook t clean []) ?_ ?_,returned _⟩
    · exact (ownDone _).trans ((ownDone _).trans (congrArg (List.filter _) (ownTwice _))).symm
    · exact (ownDropped _).trans ((ownDropped _).trans (congrArg (Service.drop k) (waitingTwice _))).symm

omit manager in
theorem installTwice {p : Pending} (call : s.alloc.call k = some p) (same : turn.tuples.same p.tuple t = true) :
    own turn t (Daemon.next turn stun srv s (.service (.install k))) =
        own turn t (Daemon.next turn stun srv ((own turn t s).state t []) (.service (.install k))) ∧
      Daemon.output turn stun srv s (.service (.install k)) =
        Daemon.output turn stun srv ((own turn t s).state t []) (.service (.install k)) := by
  obtain ⟨call',returned⟩ := @stateCall turn stun t s k clean [] p call same
  have waits : ownWaiting turn t (Service.drop k s.waiting) =
      ownWaiting turn t (Service.drop k (ownWaiting turn t s.waiting)) :=
    (ownDropped _).trans ((ownDropped _).trans (congrArg (Service.drop k) (waitingTwice _))).symm
  obtain ⟨l,t',timeout,port⟩ := p
  cases port with
  | none =>
    -- No port yet: the section does nothing.
    have idle {s : Interleaving.State} (call : s.call k = some ⟨l,t',timeout,none⟩) :
        Interleaving.next turn s (.install k) = s := by simp only [Interleaving.next,call]
    refine ⟨ownEqual ?_ ?_ waits,?_⟩
    · simp only [Daemon.next,Service.next,idle call,idle call']
      exact stateLook t clean []
    · simp only [Daemon.next,Service.next,idle call,idle call']
      exact (ownTwice _).symm
    · simp only [Daemon.output,call,call']
  | some n =>
    have unseen {s : Interleaving.State} (call : s.call k = some ⟨l,t',timeout,some n⟩) :
        Views.inner turn t s (.install k) = some (.install t' timeout n) := by
      simp only [Views.inner,call]
      exact if_pos same
    refine ⟨ownEqual ?_ ?_ waits,?_⟩
    · exact innerTwice t clean [] stun srv (unseen call) (unseen call')
    · simp only [Daemon.next,Service.next,Interleaving.installSpec call rfl,Interleaving.installSpec call' rfl]
      exact (ownDone _).trans ((ownDone _).trans (congrArg (List.filter _) (ownTwice _))).symm
    · simp only [Daemon.output,call,call']
      exact returned _

theorem ownStep {e : Daemon.Event} {j : Input} (given : input turn t s e = some j) :
    own turn t (Daemon.next turn stun srv s e) =
        own turn t (Daemon.next turn stun srv ((own turn t s).state t j.packet.toList) j.event) ∧
      Daemon.output turn stun srv s e = Daemon.output turn stun srv ((own turn t s).state t j.packet.toList) j.event := by
  cases e with
  | crash => cases given
  | peerData l data peer id =>
    simp only [input] at given
    split at given
    · rename_i same
      cases given
      refine ⟨stateOwn t clean [],?_⟩
      simp only [Daemon.output]
      rw [Views.relayAgree (stateAgree t clean []) same]
      rfl
    · cases given
  | service e => cases e with
    | receive addr packet => cases given
    | reload o => cases given
    | dealloc addr proto => cases given
    | serve i now env =>
      obtain ⟨c,ctx,queued,arrival,same,rfl⟩ := takenSome given
      exact serveTwice manager clean queued arrival same
    | allocate k i now env =>
      obtain ⟨c,ctx,queued,arrival,same,rfl⟩ := takenSome given
      exact ⟨allocateTwice manager clean queued arrival same,rfl⟩
    | answer k port =>
      obtain ⟨p,call,same,rfl⟩ := calledSome given
      exact answerTwice clean call same
    | install k =>
      obtain ⟨p,call,same,rfl⟩ := calledSome given
      exact installTwice clean call same
    | collect now =>
      cases given
      exact ⟨ownEqual (innerTwice t clean [] stun srv rfl rfl) (ownTwice _).symm (waitingTwice _).symm,rfl⟩

end Steps

theorem separated (manager : srv.nonce = NonceAuth.manager turn) (t : FiveTuple) :
    Separated (observer turn stun srv t) (alone turn stun srv t) (Clean turn) (Daemon.next turn stun srv) :=
  ⟨fun clean none => ownQuiet manager clean none,fun clean given => ownStep manager clean given⟩

/- What a client is sent, and what is kept about him, is the work of a process of his own on
his own packets, ports and peers. So it is the same in every other run in which these are. -/
theorem clientsSeparated (manager : srv.nonce = NonceAuth.manager turn) {o : Options} {d : Duration} {h s}
    (run : Run (Daemon.machine turn stun srv o (newNonceAuth d)) h s) (t : FiveTuple) :
    (observer turn stun srv t).seen h =
      (alone turn stun srv t).answers ⟨⟨none,none,d⟩,[],[]⟩ ((observer turn stun srv t).told h) ∧
    own turn t s = (alone turn stun srv t).after ⟨⟨none,none,d⟩,[],[]⟩ ((observer turn stun srv t).told h) ∧
    ∀ o' h' s', Run (Daemon.machine turn stun srv o' (newNonceAuth d)) h' s' →
      (observer turn stun srv t).told h' = (observer turn stun srv t).told h →
      (observer turn stun srv t).seen h' = (observer turn stun srv t).seen h ∧ own turn t s' = own turn t s := by
  have apart := @separated turn stun srv manager t
  obtain ⟨view,seen⟩ := Separation.alone (m := Daemon.machine turn stun srv o (newNonceAuth d)) apart
    (fun _ _ run => cleanRun run) run
  refine ⟨seen,view,?_⟩
  intro o' h' s' run' told
  obtain ⟨same,answered⟩ := indistinguishable (m := Daemon.machine turn stun srv o' (newNonceAuth d))
    (k := Daemon.machine turn stun srv o (newNonceAuth d)) apart apart (fun _ _ run => cleanRun run)
    (fun _ _ run => cleanRun run) rfl run' run told
  exact ⟨answered,same⟩

/- A client allocates and sends on; then the same between the sections of a `New` of another
one, who gives its record up before it returns. -/
def sampleObserver : Observer (Daemon.State NonceAuth) Daemon.Event Input Output Own :=
  observer .documented Codec.wire PeerFilter.openServer sampleTuple

def drawn (port : Except PortErr NetAllocation) : Env := ⟨List.replicate 12 7,port⟩

def aloneEvents : List Daemon.Event :=
  [.service (.receive PeerFilter.sampleClient PeerFilter.allocatePacket),
    .service (.allocate 1 0 1 (drawn (.ok ⟨sampleRelayed,17,1⟩))),.service (.answer 1 (.ok ⟨sampleRelayed,17,1⟩)),
    .service (.install 1),.service (.receive PeerFilter.sampleClient PeerFilter.permissionPacket),
    .service (.serve 0 2 (drawn (.error .listen))),.service (.receive PeerFilter.sampleClient PeerFilter.sendPacket),
    .service (.serve 0 3 (drawn (.error .listen)))]

def crowdEvents : List Daemon.Event :=
  [.service (.receive PeerFilter.sampleClient PeerFilter.allocatePacket),
    .service (.receive (.udp sampleOther) PeerFilter.allocatePacket),
    .service (.allocate 2 1 1 (drawn (.ok ⟨sampleServer,17,2⟩))),
    .service (.allocate 1 0 1 (drawn (.ok ⟨sampleRelayed,17,1⟩))),.service (.answer 2 (.ok ⟨sampleServer,17,2⟩)),
    .service (.receive (.udp sampleOther) (Codec.refreshRequest 0x00 0x00)),.service (.answer 1 (.ok ⟨sampleRelayed,17,1⟩)),
    .service (.serve 0 1 (drawn (.error .listen))),.service (.install 2),.service (.install 1),
    .service (.receive PeerFilter.sampleClient PeerFilter.permissionPacket),.service (.serve 0 2 (drawn (.error .listen))),
    .service (.receive PeerFilter.sampleClient PeerFilter.sendPacket),
    .service (.reload ⟨[],[],true,Filters.allowAll,Filters.allowAll⟩),.service (.serve 0 3 (drawn (.error .listen))),.crash]

theorem clientsSeparatedSample :
    ((sampleObserver.seen (trace openProcess [] openProcess.start aloneEvents).1).map (fun x => x.2.sent.isSome)) =
      [true,false,false,false,false] ∧
    sampleObserver.seen (trace openProcess [] openProcess.start crowdEvents).1 =
      sampleObserver.seen (trace openProcess [] openProcess.start aloneEvents).1 := by
  have run := traceStart (m := openProcess) aloneEvents (by decide +kernel)
  have crowded := traceStart (m := openProcess) crowdEvents (by decide +kernel)
  refine ⟨by decide +kernel,?_⟩
  exact ((clientsSeparated rfl run sampleTuple).2.2 _ _ _ crowded rfl).1

end Gortcd.Clients
