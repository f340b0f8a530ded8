import Gortcd.Service
import Gortcd.Challenges
import Gortcd.Inbound
import Gortcd.Lib.Separation

/-! The server as one client meets it. All clients share two tables, that of the allocations
and that of the nonces, and the loops over them run from end to end. Still a client has a
server to himself: `alone` is the code of the server run on tables that hold his records and
no others, and every reply, every datagram written for him to a peer and every packet
forwarded to him is the one that this server sends, whatever the other clients do. -/
namespace Gortcd.Views
open Keyed Net Ports Sections Records Relaying Calls Runs Interleaving Isolation Messages Auth Handlers Nonces Challenges
  Separation Effects Service Inbound PeerData

structure View where
  record : Option Allocation
  nonce : Option (Bytes × Time)
  duration : Duration
  deriving DecidableEq, Repr

def look (turn : Turn) (t : FiveTuple) (n : NonceAuth) (allocs : Table) : View :=
  ⟨find turn allocs t,held turn n t,n.duration⟩

/- The tables of a server that has met no other client. -/
def View.allocs (v : View) : Allocator := ⟨v.record.toList,.empty⟩

def View.nonces (t : FiveTuple) (v : View) : NonceAuth := ⟨v.duration,v.nonce.toList.map (fun x => ⟨t,x.1,x.2⟩)⟩

/- The steps that are about one tuple: a packet of the client, a section of a call about
him, a datagram on his relay socket, and every pass of the collector. -/
inductive Input where
  | packet (ctx : Context) (env : Env)
  | register (t : FiveTuple) (timeout : Time)
  | install (t : FiveTuple) (timeout : Time) (n : NetAllocation)
  | remove (t : FiveTuple)
  | collect (now : Time)
  | refresh (t : FiveTuple) (timeout : Time)
  | createPermission (t : FiveTuple) (peer : Addr) (timeout : Time)
  | channelBind (t : FiveTuple) (n : ChannelNumber) (peer : Addr) (timeout : Time)
  | peerData (l : Loop) (data : Bytes) (peer : Addr) (id : Option Bytes)

structure Output where
  response : Option Bytes
  sent : Option Write
  forwarded : Option (Bytes × Addr)
  deriving DecidableEq, Repr

def Output.nothing : Output := ⟨none,none,none⟩

def about (turn : Turn) (t t' : FiveTuple) (i : Input) : Option Input := if turn.tuples.same t' t then some i else none

def inner (turn : Turn) (t : FiveTuple) (s : State) : Interleaving.Event → Option Input
  | .register _ t' timeout => about turn t t' (.register t' timeout)
  | .install k => match s.call k with
    | some ⟨_,t',timeout,some n⟩ => about turn t t' (.install t' timeout n)
    | _ => none
  | .remove t' => about turn t t' (.remove t')
  | .prune now => some (.collect now)
  | .refresh t' timeout => about turn t t' (.refresh t' timeout)
  | .createPermission t' peer timeout => about turn t t' (.createPermission t' peer timeout)
  | .channelBind t' n peer timeout => about turn t t' (.channelBind t' n peer timeout)
  | .peerData l data peer id => about turn t l.tuple (.peerData l data peer id)
  | .answer _ _ => none
  | .dealloc _ _ => none

def input {ν : Type} (turn : Turn) (t : FiveTuple) (s : Site.Host ν) : Site.Event → Option Input
  | .serve i now env => match s.queue[i]? with
    | none => none
    | some c => match c.arrive turn now with
      | .error _ => none
      | .ok ctx => about turn t ctx.tuple (.packet ctx env)
  | .inner e => inner turn t s.alloc e
  | .receive _ _ => none
  | .reload _ => none

def output {ν : Type} (turn : Turn) (stun : Stun) (srv : Server ν) (s : Site.Host ν) : Site.Event → Output
  | .serve i now env => match s.queue[i]? with
    | none => .nothing
    | some c =>
      let out := serveConn turn stun srv env now s.nonces s.alloc.toAllocator c
      ⟨out.2.response,out.2.handled.sent,none⟩
  | .inner (.peerData l data peer id) => ⟨none,none,relay turn stun s.alloc.allocs l data peer id⟩
  | _ => .nothing

def observer (turn : Turn) (stun : Stun) (srv : Server NonceAuth) (t : FiveTuple) :
    Observer (Site.Host NonceAuth) Site.Event Input Output View :=
  ⟨input turn t,output turn stun srv,fun s => look turn t s.nonces s.alloc.allocs⟩

/- The sections and the handlers over the records of one client. -/
def react (turn : Turn) (stun : Stun) (srv : Server NonceAuth) (t : FiveTuple) (v : View) : Input → View
  | .packet ctx env =>
      let out := process turn stun srv env (v.nonces t) v.allocs ctx
      look turn t out.1 out.2.allocs.allocs
  | .register t' timeout => match register turn v.allocs.allocs t' timeout with
    | .error _ => v
    | .ok allocs => { v with record := find turn allocs t }
  | .install t' timeout n => { v with record := find turn (install turn v.allocs.allocs t' timeout n.addr n.conn) t }
  | .remove t' => { v with record := find turn (remove turn v.allocs.allocs t').1 t }
  | .collect now => { v with record := find turn (prune v.allocs.allocs now).1 t }
  | .refresh t' timeout => { v with record := find turn (refresh turn v.allocs.allocs t' timeout).1 t }
  | .createPermission t' peer timeout =>
      { v with record := find turn (createPermission turn v.allocs.allocs t' peer timeout).1 t }
  | .channelBind t' n peer timeout =>
      { v with record := find turn (channelBind turn v.allocs.allocs t' n peer timeout).1 t }
  | .peerData _ _ _ _ => v

def answer (turn : Turn) (stun : Stun) (srv : Server NonceAuth) (t : FiveTuple) (v : View) : Input → Output
  | .packet ctx env =>
      let out := process turn stun srv env (v.nonces t) v.allocs ctx
      ⟨out.2.reply,out.2.sent,none⟩
  | .peerData l data peer id => ⟨none,none,relay turn stun v.allocs.allocs l data peer id⟩
  | _ => .nothing

def alone (turn : Turn) (stun : Stun) (srv : Server NonceAuth) (t : FiveTuple) : Alone Input Output View :=
  ⟨react turn stun srv t,answer turn stun srv t⟩

variable {turn : Turn} {stun : Stun} {srv : Server NonceAuth} {env : Env} {t : FiveTuple} {n n' : NonceAuth}

structure Agree (turn : Turn) (t : FiveTuple) (n n' : NonceAuth) (a a' : Table) : Prop where
  ok : TableOk turn a
  ok' : TableOk turn a'
  record : find turn a t = find turn a' t
  nonce : held turn n t = held turn n' t
  duration : n.duration = n'.duration

theorem agreeLook {a a' : Table} (agree : Agree turn t n n' a a') : look turn t n a = look turn t n' a' := by
  unfold look
  rw [agree.record,agree.nonce,agree.duration]

theorem agreeAt {a a' : Table} {t' : FiveTuple} (agree : Agree turn t n n' a a') (same : turn.tuples.same t' t = true) :
    Agree turn t' n n' a a' := by
  refine ⟨agree.ok,agree.ok',?_,?_,agree.duration⟩
  · rw [find,find,lookupCongr same,lookupCongr same]
    exact agree.record
  · rw [heldCongr same,heldCongr same]
    exact agree.nonce

theorem lookAgree {a : Table} (ok : TableOk turn a) :
    Agree turn t n ((look turn t n a).nonces t) a (look turn t n a).allocs.allocs := by
  refine ⟨ok,?_,?_,?_,rfl⟩
  · refine ⟨?_,?_⟩
    · simp only [View.allocs,look]
      cases find turn a t <;> simp [Distinct]
    · intro b mem
      exact ok.allocations b (lookupSome (Option.mem_toList.mp mem)).1
  · simp only [View.allocs,look]
    cases found : find turn a t with
    | none => rfl
    | some b => simp [find,lookup,(lookupSome found).2]
  · simp only [View.nonces,look]
    cases held turn n t with
    | none => rfl
    | some x => simp [held,lookup,turn.tuples.refl t]

theorem admissionAgree (manager : srv.nonce = NonceAuth.manager turn) {ctx : Context}
    (nonce : held turn n ctx.tuple = held turn n' ctx.tuple) (duration : n.duration = n'.duration) :
    (admission stun srv env n ctx).2 = (admission stun srv env n' ctx).2 ∧
      held turn (admission stun srv env n ctx).1 ctx.tuple = held turn (admission stun srv env n' ctx).1 ctx.tuple ∧
      (admission stun srv env n ctx).1.duration = (admission stun srv env n' ctx).1.duration := by
  rcases @admissionShape stun srv env ctx with ⟨r,eq⟩ | ⟨c,auth,eq,tuple,_,_⟩
  · rw [eq,eq]
    exact ⟨rfl,nonce,duration⟩
  · rw [eq,eq,authenticateDecided manager,authenticateDecided manager]
    simp only [performVerdict,performHeld,performDuration,tuple,turn.tuples.refl,if_true,nonce,duration,and_self]

theorem admissionElsewhere (manager : srv.nonce = NonceAuth.manager turn) {ctx : Context}
    (other : turn.tuples.same ctx.tuple t = false) :
    held turn (admission stun srv env n ctx).1 t = held turn n t ∧
      (admission stun srv env n ctx).1.duration = n.duration := by
  rcases @admissionShape stun srv env ctx with ⟨r,eq⟩ | ⟨c,auth,eq,tuple,_,_⟩
  · rw [eq]
    exact ⟨rfl,rfl⟩
  · rw [eq,authenticateDecided manager]
    simp only [performHeld,performDuration,tuple,other,Bool.false_eq_true,if_false,and_self]

/- All that a handler leaves, apart from the allocator. -/
structure Same (h k : Handled) : Prop where
  ctx : h.ctx = k.ctx
  sent : h.sent = k.sent
  err : h.err = k.err

theorem sameReply {h k : Handled} (same : Same h k) : h.reply = k.reply := by
  unfold Handled.reply
  rw [same.ctx,same.err]

theorem returnedInj {e e' : Option Err} (same : returned e = returned e') : e = e' := by
  cases e <;> cases e' <;> simp_all [returned]

theorem relayedInj {r r' : Except Err Addr} (same : r.map some = r'.map some) : r = r' := by
  cases r <;> cases r' <;> simp_all [Except.map]

/- The response depends on what the call returned, not on the allocator. -/
theorem allocateBuiltSame {c : Context} {out out' : Allocator × Except Err Addr} (l : Duration) :
    out.2 = out'.2 → Same (match out with
      | (allocs,.ok relayedAddr) => c.buildOk stun allocs
          [.xorMappedAddress c.tuple.client,.relayedAddress relayedAddr,.lifetime l]
      | (allocs,.error .allocationMismatch) => c.buildErr stun allocs .allocMismatch
      | (allocs,.error _) => c.buildErr stun allocs .serverError)
    (match out' with
      | (allocs,.ok relayedAddr) => c.buildOk stun allocs
          [.xorMappedAddress c.tuple.client,.relayedAddress relayedAddr,.lifetime l]
      | (allocs,.error .allocationMismatch) => c.buildErr stun allocs .allocMismatch
      | (allocs,.error _) => c.buildErr stun allocs .serverError) := by
  obtain ⟨b,r⟩ := out
  obtain ⟨b',r'⟩ := out'
  intro same
  cases same
  cases r with
  | ok relayed => exact ⟨rfl,rfl,rfl⟩
  | error e => cases e <;> exact ⟨rfl,rfl,rfl⟩

theorem refreshBuiltSame {c : Context} {out out' : Allocator × Option Err} (l : Duration) :
    out.2 = out'.2 → Same (match out.2 with
      | none => c.buildOk stun out.1 [.lifetime l]
      | some .allocationMismatch => c.buildErr stun out.1 .allocMismatch
      | some _ => c.buildErr stun out.1 .serverError)
    (match out'.2 with
      | none => c.buildOk stun out'.1 [.lifetime l]
      | some .allocationMismatch => c.buildErr stun out'.1 .allocMismatch
      | some _ => c.buildErr stun out'.1 .serverError) := by
  obtain ⟨b,e⟩ := out
  obtain ⟨b',e'⟩ := out'
  intro same
  cases same
  cases e with
  | none => exact ⟨rfl,rfl,rfl⟩
  | some e => cases e <;> exact ⟨rfl,rfl,rfl⟩

theorem grantBuiltSame {c : Context} {out out' : Allocator × Option Err} (s : List Setter) :
    out.2 = out'.2 → Same (match out with
      | (allocs,some .allocationMismatch) => c.buildErr stun allocs .allocMismatch
      | (allocs,none) => c.buildOk stun allocs s
      | (allocs,some e) => ⟨allocs,c,none,some (.wrapAlloc "failed to create allocation" e)⟩)
    (match out' with
      | (allocs,some .allocationMismatch) => c.buildErr stun allocs .allocMismatch
      | (allocs,none) => c.buildOk stun allocs s
      | (allocs,some e) => ⟨allocs,c,none,some (.wrapAlloc "failed to create allocation" e)⟩) := by
  obtain ⟨b,e⟩ := out
  obtain ⟨b',e'⟩ := out'
  intro same
  cases same
  cases e with
  | none => exact ⟨rfl,rfl,rfl⟩
  | some e => cases e <;> exact ⟨rfl,rfl,rfl⟩

theorem channelDataAllocs (a : Allocator) (ctx : Context) : (processChannelData turn stun a ctx).allocs = a := by
  unfold processChannelData
  split
  · rfl
  · split <;> rfl

section Handlers
variable {a a' : Allocator} {ctx : Context} (agree : Agree turn ctx.tuple n n' a.allocs a'.allocs)
include agree

theorem outcomeAgree {c : Call} (own : c.tuple = some ctx.tuple) : a.outcome turn c = a'.outcome turn c := by
  rw [runOutcome agree.ok own,runOutcome agree.ok' own,agree.record]

theorem newAgree (timeout : Time) (port : Except PortErr NetAllocation) :
    (a.new turn ctx.tuple timeout port).2 = (a'.new turn ctx.tuple timeout port).2 := by
  have same := outcomeAgree agree (c := .new ctx.tuple timeout port) rfl
  simp only [Allocator.outcome] at same
  exact relayedInj same

theorem removeAgree : (a.remove turn ctx.tuple).2 = (a'.remove turn ctx.tuple).2 :=
  returnedInj (outcomeAgree agree (c := .remove ctx.tuple) rfl)

theorem grantAgree (peer : Addr) (timeout : Time) :
    (a.createPermission turn ctx.tuple peer timeout).2 = (a'.createPermission turn ctx.tuple peer timeout).2 :=
  returnedInj (outcomeAgree agree (c := .createPermission ctx.tuple peer timeout) rfl)

theorem bindAgree (number : ChannelNumber) (peer : Addr) (timeout : Time) :
    (a.channelBind turn ctx.tuple number peer timeout).2 = (a'.channelBind turn ctx.tuple number peer timeout).2 :=
  returnedInj (outcomeAgree agree (c := .channelBind ctx.tuple number peer timeout) rfl)

theorem allocateSame : Same (processAllocateRequest turn stun env a ctx) (processAllocateRequest turn stun env a' ctx) := by
  simp only [processAllocateRequest]
  cases stun.requestedTransport ctx.request with
  | error e => exact ⟨rfl,rfl,rfl⟩
  | ok transport => exact allocateBuiltSame _ (newAgree agree _ _)

theorem refreshSame : Same (processRefreshRequest turn stun a ctx) (processRefreshRequest turn stun a' ctx) := by
  have answered (l : Duration) :
      (if l = 0 then a.remove turn ctx.tuple else a.refresh turn ctx.tuple (ctx.time + l)).2 =
        (if l = 0 then a'.remove turn ctx.tuple else a'.refresh turn ctx.tuple (ctx.time + l)).2 := by
    split
    · exact removeAgree agree
    · rfl
  simp only [processRefreshRequest]
  cases stun.lifetime ctx.request with
  | ok l => exact refreshBuiltSame _ (answered l)
  | error e => cases e with
    | attributeNotFound => exact refreshBuiltSame _ (answered 0)
    | other text => exact ⟨rfl,rfl,rfl⟩

theorem createPermissionSame :
    Same (processCreatePermissionRequest turn stun a ctx) (processCreatePermissionRequest turn stun a' ctx) := by
  simp only [processCreatePermissionRequest]
  cases stun.peerAddress ctx.request with
  | error e => exact ⟨rfl,rfl,rfl⟩
  | ok peer => cases allowed : ctx.allowPeer peer with
    | false =>
      simp only [allowed,Bool.not_false,if_true]
      cases stun.lifetime ctx.request with
      | ok l => exact ⟨rfl,rfl,rfl⟩
      | error e => cases e <;> exact ⟨rfl,rfl,rfl⟩
    | true =>
      simp only [allowed,Bool.not_true,Bool.false_eq_true,if_false]
      cases stun.lifetime ctx.request with
      | ok l => exact grantBuiltSame _ (grantAgree agree _ _)
      | error e => cases e with
        | attributeNotFound => exact grantBuiltSame _ (grantAgree agree _ _)
        | other text => exact ⟨rfl,rfl,rfl⟩

theorem channelBindSame : Same (processChannelBinding turn stun a ctx) (processChannelBinding turn stun a' ctx) := by
  simp only [processChannelBinding]
  cases stun.peerAddress ctx.request with
  | error e => exact ⟨rfl,rfl,rfl⟩
  | ok peer => cases stun.channelNumber ctx.request with
    | error e => exact ⟨rfl,rfl,rfl⟩
    | ok number => cases allowed : ctx.allowPeer peer with
      | false =>
        simp only [allowed,Bool.not_false,if_true]
        exact ⟨rfl,rfl,rfl⟩
      | true =>
        simp only [allowed,Bool.not_true,Bool.false_eq_true,if_false]
        exact grantBuiltSame _ (bindAgree agree _ _ _)

theorem sendSame : Same (processSendIndication turn stun a ctx) (processSendIndication turn stun a' ctx) := by
  simp only [processSendIndication,sendSpec agree.ok.distinct,sendSpec agree.ok'.distinct,agree.record]
  cases stun.data ctx.request with
  | error e => exact ⟨rfl,rfl,rfl⟩
  | ok data => cases stun.peerAddress ctx.request <;> exact ⟨rfl,rfl,rfl⟩

theorem channelDataSame : Same (processChannelData turn stun a ctx) (processChannelData turn stun a' ctx) := by
  simp only [processChannelData,sendBoundSpec agree.ok.distinct,sendBoundSpec agree.ok'.distinct,agree.record]
  generalize stun.decodeChannelData ctx.cdata = out
  obtain ⟨cdata,failed⟩ := out
  cases failed with
  | some e => exact ⟨rfl,rfl,rfl⟩
  | none =>
    dsimp only
    split <;> exact ⟨rfl,rfl,rfl⟩

theorem channelDataAgree : Agree turn ctx.tuple n n' (processChannelData turn stun a ctx).allocs.allocs
    (processChannelData turn stun a' ctx).allocs.allocs := by
  rw [channelDataAllocs,channelDataAllocs]
  exact agree

theorem handleSame : Same (handle turn stun env a ctx) (handle turn stun env a' ctx) := by
  unfold handle
  split
  · exact ⟨rfl,rfl,rfl⟩
  · exact allocateSame agree
  · exact createPermissionSame agree
  · exact refreshSame agree
  · exact sendSame agree
  · exact channelBindSame agree
  · exact ⟨rfl,rfl,rfl⟩

theorem handleAgree :
    Agree turn ctx.tuple n n' (handle turn stun env a ctx).allocs.allocs (handle turn stun env a' ctx).allocs.allocs := by
  rw [handleAllocs,handleAllocs]
  cases made : callOf stun env.port ctx with
  | none => exact agree
  | some c =>
    have own := callOfTuple made
    refine ⟨runOk agree.ok c,runOk agree.ok' c,?_,agree.nonce,agree.duration⟩
    simp only [Option.elim_some]
    rw [runRecord agree.ok own,runRecord agree.ok' own,agree.record]

end Handlers

theorem handleElsewhere {a : Allocator} {ctx : Context} (ok : TableOk turn a.allocs)
    (other : turn.tuples.same ctx.tuple t = false) :
    find turn (handle turn stun env a ctx).allocs.allocs t = find turn a.allocs t := by
  rw [handleAllocs]
  cases made : callOf stun env.port ctx with
  | none => rfl
  | some c =>
    simp only [Option.elim_some]
    rw [runRecord ok (callOfTuple made),other]
    rfl

theorem admittedTuple {ctx d : Context} (pass : (admission stun srv env n ctx).2 = .pass d) : d.tuple = ctx.tuple := by
  obtain ⟨_,_,carried,_⟩ := passed pass
  exact carried.tuple

theorem processAgree (manager : srv.nonce = NonceAuth.manager turn) {a a' : Allocator} {ctx : Context}
    (agree : Agree turn ctx.tuple n n' a.allocs a'.allocs) :
    Same (process turn stun srv env n a ctx).2 (process turn stun srv env n' a' ctx).2 ∧
      Agree turn ctx.tuple (process turn stun srv env n a ctx).1 (process turn stun srv env n' a' ctx).1
        (process turn stun srv env n a ctx).2.allocs.allocs (process turn stun srv env n' a' ctx).2.allocs.allocs := by
  unfold process
  split
  · obtain ⟨same,nonce,duration⟩ := @admissionAgree turn stun srv env n n' manager ctx agree.nonce agree.duration
    have tuple := @admittedTuple stun srv env n ctx
    simp only [processMessage]
    generalize admission stun srv env n ctx = out at same nonce duration tuple ⊢
    generalize admission stun srv env n' ctx = out' at same nonce duration ⊢
    obtain ⟨m,admitted⟩ := out
    obtain ⟨m',admitted'⟩ := out'
    cases same
    have kept : Agree turn ctx.tuple m m' a.allocs a'.allocs := ⟨agree.ok,agree.ok',agree.record,nonce,duration⟩
    cases admitted with
    | silent c => exact ⟨⟨rfl,rfl,rfl⟩,kept⟩
    | refuse c code => exact ⟨⟨rfl,rfl,rfl⟩,kept⟩
    | pass d =>
      rw [← tuple rfl] at kept ⊢
      exact ⟨handleSame kept,handleAgree kept⟩
  · split
    · exact ⟨channelDataSame agree,channelDataAgree agree⟩
    · exact ⟨⟨rfl,rfl,rfl⟩,agree⟩

theorem processElsewhere (manager : srv.nonce = NonceAuth.manager turn) {a : Allocator} {ctx : Context}
    (ok : TableOk turn a.allocs) (other : turn.tuples.same ctx.tuple t = false) :
    look turn t (process turn stun srv env n a ctx).1 (process turn stun srv env n a ctx).2.allocs.allocs =
      look turn t n a.allocs := by
  unfold process
  split
  · obtain ⟨nonce,duration⟩ := @admissionElsewhere turn stun srv env t n manager ctx other
    have tuple := @admittedTuple stun srv env n ctx
    simp only [processMessage]
    generalize admission stun srv env n ctx = out at nonce duration tuple ⊢
    obtain ⟨m,admitted⟩ := out
    have kept : look turn t m a.allocs = look turn t n a.allocs := by
      unfold look
      rw [nonce,duration]
    cases admitted with
    | silent c => exact kept
    | refuse c code => exact kept
    | pass d =>
      rw [← tuple rfl] at other
      rw [← kept]
      unfold look
      rw [handleElsewhere ok other]
  · split
    · rw [channelDataAllocs]
    · rfl

theorem aboutNone {t' : FiveTuple} {i : Input} (none : about turn t t' i = none) : turn.tuples.same t' t = false := by
  unfold about at none
  split at none
  · cases none
  · rename_i other
    exact Bool.eq_false_iff.mpr other

theorem aboutSome {t' : FiveTuple} {i j : Input} (some : about turn t t' i = some j) :
    turn.tuples.same t' t = true ∧ i = j := by
  unfold about at some
  split at some
  · rename_i same
    exact ⟨same,Option.some.inj some⟩
  · cases some

theorem innerQuiet {s : State} (ok : TableOk turn s.allocs) {e : Interleaving.Event} (none : inner turn t s e = none) :
    find turn (Interleaving.next turn s e).allocs t = find turn s.allocs t := by
  cases e with
  | register k t' timeout =>
    simp only [Interleaving.next]
    cases registering : register turn s.allocs t' timeout with
    | error e => rfl
    | ok allocs =>
      obtain ⟨_,fresh,rfl⟩ := registered registering
      dsimp only
      rw [findRegistered fresh,aboutNone none]
      rfl
  | answer k port => cases port <;> rfl
  | install k =>
    cases call : s.call k with
    | none => simp only [Interleaving.next,call]
    | some p =>
      obtain ⟨_,t',timeout,port⟩ := p
      cases port with
      | none => simp only [Interleaving.next,call]
      | some m =>
        simp only [inner,call] at none
        simp only [Interleaving.next,call,findInstall,aboutNone none]
        rfl
  | remove t' =>
    simp only [Interleaving.next,findRemove,aboutNone none]
    rfl
  | prune now => cases none
  | dealloc addr proto => rfl
  | refresh t' timeout =>
    simp only [Interleaving.next,findRefresh,aboutNone none]
    rfl
  | createPermission t' peer timeout =>
    simp only [Interleaving.next,findGrant,aboutNone none]
    rfl
  | channelBind t' number peer timeout =>
    have other := aboutNone none
    have record := @runRecord turn ⟨s.allocs,.empty⟩ ok (.channelBind t' number peer timeout) t' t rfl
    rw [other] at record
    exact record
  | peerData l data peer id => rfl

theorem registerAgree {a a' : Table} (agree : Agree turn t n n' a a') (timeout : Time) :
    (∃ e e', register turn a t timeout = .error e ∧ register turn a' t timeout = .error e') ∨
    (find turn a t = none ∧ register turn a t timeout = .ok (a ++ [placeholder t timeout]) ∧
      find turn a' t = none ∧ register turn a' t timeout = .ok (a' ++ [placeholder t timeout])) := by
  cases registering : register turn a t timeout with
  | error e => cases registering' : register turn a' t timeout with
    | error e' => exact .inl ⟨e,e',rfl,rfl⟩
    | ok out =>
      obtain ⟨udp,fresh,_⟩ := registered registering'
      rw [registerOk udp (agree.record.trans fresh)] at registering
      cases registering
  | ok out =>
    obtain ⟨udp,fresh,rfl⟩ := registered registering
    have fresh' := agree.record.symm.trans fresh
    exact .inr ⟨fresh,rfl,fresh',registerOk udp fresh'⟩

theorem innerOwn {s : State} (ok : TableOk turn s.allocs) {e : Interleaving.Event} {i : Input}
    (some : inner turn t s e = some i) :
    look turn t n (Interleaving.next turn s e).allocs = react turn stun srv t (look turn t n s.allocs) i := by
  have agree := @lookAgree turn t n _ ok
  generalize left : (look turn t n s.allocs).allocs.allocs = b at agree
  have record {a : Table} (same : find turn (Interleaving.next turn s e).allocs t = find turn a t) :
      look turn t n (Interleaving.next turn s e).allocs = { look turn t n s.allocs with record := find turn a t } := by
    unfold look
    rw [same]
  cases e with
  | register k t' timeout =>
    obtain ⟨same,rfl⟩ := aboutSome some
    simp only [react,left,Interleaving.next]
    rcases registerAgree (agreeAt agree same) timeout with ⟨e,e',failed,failed'⟩ | ⟨fresh,made,fresh',made'⟩
    · rw [failed,failed']
    · rw [made']
      refine record ?_
      simp only [Interleaving.next,made]
      rw [findRegistered fresh,findRegistered fresh',same]
      rfl
  | answer k port => cases some
  | install k =>
    cases call : s.call k with
    | none => simp only [inner,call,reduceCtorEq] at some
    | some p =>
      obtain ⟨_,t',timeout,port⟩ := p
      cases port with
      | none => simp only [inner,call,reduceCtorEq] at some
      | some m =>
        simp only [inner,call] at some
        obtain ⟨same,rfl⟩ := aboutSome some
        refine record ?_
        simp only [left,Interleaving.next,call,findInstall,same,if_true,(agreeAt agree same).record]
  | remove t' =>
    obtain ⟨same,rfl⟩ := aboutSome some
    refine record ?_
    simp only [left,Interleaving.next,findRemove,same,if_true]
  | prune now =>
    cases some
    refine record ?_
    simp only [left,Interleaving.next,findPrune agree.ok.distinct,findPrune agree.ok'.distinct,agree.record]
  | dealloc addr proto => cases some
  | refresh t' timeout =>
    obtain ⟨same,rfl⟩ := aboutSome some
    refine record ?_
    simp only [left,Interleaving.next,findRefresh,same,if_true,(agreeAt agree same).record]
  | createPermission t' peer timeout =>
    obtain ⟨same,rfl⟩ := aboutSome some
    refine record ?_
    simp only [left,Interleaving.next,findGrant,same,if_true,(agreeAt agree same).record]
  | channelBind t' number peer timeout =>
    obtain ⟨same,rfl⟩ := aboutSome some
    refine record ?_
    have one := @runRecord turn ⟨s.allocs,.empty⟩ ok (.channelBind t' number peer timeout) t' t rfl
    have two := @runRecord turn ⟨b,.empty⟩ agree.ok' (.channelBind t' number peer timeout) t' t rfl
    rw [same,if_pos rfl] at one two
    rw [left]
    exact one.trans ((congrArg _ (agreeAt agree same).record).trans two.symm)
  | peerData l data peer id =>
    obtain ⟨same,rfl⟩ := aboutSome some
    rfl

theorem relayAgree {a a' : Table} (agree : Agree turn t n n' a a') {l : Loop} (same : turn.tuples.same l.tuple t = true)
    (data : Bytes) (peer : Addr) (id : Option Bytes) :
    relay turn stun a l data peer id = relay turn stun a' l data peer id := by
  have record := (agreeAt agree same).record
  unfold relay handlePeerData
  rw [boundSpec agree.ok,boundSpec agree.ok',record]

theorem innerOutput {s : Site.Host NonceAuth} (ok : TableOk turn s.alloc.allocs) {e : Interleaving.Event} {i : Input}
    (given : inner turn t s.alloc e = some i) :
    output turn stun srv s (.inner e) = answer turn stun srv t (look turn t s.nonces s.alloc.allocs) i := by
  cases e with
  | answer k port => cases given
  | dealloc addr proto => cases given
  | prune now =>
    cases given
    rfl
  | install k =>
    simp only [inner] at given
    split at given
    · obtain ⟨_,rfl⟩ := aboutSome given
      rfl
    · cases given
  | peerData l data peer id =>
    obtain ⟨same,rfl⟩ := aboutSome given
    simp only [output,answer]
    rw [relayAgree (@lookAgree turn t s.nonces _ ok) same]
  | _ =>
    obtain ⟨_,rfl⟩ := aboutSome given
    rfl

theorem separated (manager : srv.nonce = NonceAuth.manager turn) (t : FiveTuple) :
    Separated (observer turn stun srv t) (alone turn stun srv t) (fun s => TableOk turn s.alloc.allocs)
      (Site.next turn stun srv) := by
  refine ⟨?_,?_⟩
  · intro s e ok quiet
    cases e with
    | receive addr packet => rfl
    | reload o => rfl
    | serve i now env =>
      cases queued : s.queue[i]? with
      | none => simp only [observer,Site.next,queued]
      | some c =>
        simp only [observer,input,queued] at quiet
        simp only [observer,Site.nextServe queued,serveConn]
        cases arrival : c.arrive turn now with
        | error ctx => rfl
        | ok ctx =>
          rw [arrival] at quiet
          exact processElsewhere manager ok (aboutNone quiet)
    | inner e =>
      simp only [observer,Site.next,look]
      rw [innerQuiet ok quiet]
  · intro s e i ok given
    cases e with
    | receive addr packet => cases given
    | reload o => cases given
    | serve k now env =>
      cases queued : s.queue[k]? with
      | none => simp only [observer,input,queued,reduceCtorEq] at given
      | some c =>
        simp only [observer,input,queued] at given
        simp only [observer,alone,Site.nextServe queued,output,queued,serveConn]
        cases arrival : c.arrive turn now with
        | error ctx =>
          rw [arrival] at given
          cases given
        | ok ctx =>
          rw [arrival] at given
          obtain ⟨same,rfl⟩ := aboutSome given
          obtain ⟨answered,after⟩ := @processAgree turn stun srv env _ _ manager _ _ ctx
            (agreeAt (@lookAgree turn t s.nonces _ ok) same)
          refine ⟨agreeLook (agreeAt after ((turn.tuples.comm _ _).trans same)),?_⟩
          simp only [answer]
          rw [sameReply answered,answered.sent]
    | inner e =>
      exact ⟨innerOwn ok given,innerOutput ok given⟩

end Gortcd.Views
