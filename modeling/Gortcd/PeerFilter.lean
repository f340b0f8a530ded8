import Gortcd.Codec
import Gortcd.Site

/-! The peer filter over all runs of the server. It is consulted when a permission or a
binding is requested, for the whole address; relaying looks at the IP of the permission
only. The verdict of a parsed filter is the same for both. -/
namespace Gortcd.PeerFilter
open Keyed Net Ports Sections Records Relaying Permissions Calls Runs Interleaving Grants Messages Filters Auth Handlers
open Effects Site

variable {ν : Type} {turn : Turn} {stun : Stun} {srv : Server ν} {texts : Texts} {o : Options} {nonces : ν}

def CallGrants (turn : Turn) (allocs : Table) (t : FiveTuple) (ip : IP) : Call → Prop
  | .createPermission t' q timeout => turn.tuples.same t' t = true ∧ IP.equal q.ip ip = true ∧
      (createPermission turn allocs t' q timeout).2 = none
  | .channelBind t' n q timeout => turn.tuples.same t' t = true ∧ IP.equal q.ip ip = true ∧
      (channelBind turn allocs t' n q timeout).2 = none
  | _ => False

/- The step serves a request, in context `c`, that creates or refreshes the permission. -/
def GrantedBy (turn : Turn) (stun : Stun) (srv : Server ν) (t : FiveTuple) (ip : IP) (c : Context)
    (x : Step (Host ν) Site.Event) : Prop :=
  ∃ i now env ctx d call, x.event = .serve i now env ∧ x.pre.queue[i]? = some c ∧ c.arrive turn now = .ok ctx ∧
    stun.isMessage ctx.request.raw = true ∧ (admission stun srv env x.pre.nonces ctx).2 = .pass d ∧
    Requests stun env.port d call ∧ CallGrants turn x.pre.alloc.allocs t ip call

def Reloads (x : Step (Host ν) Site.Event) : Prop := ∃ o, x.event = .reload o

theorem callPermitted {a : Allocator} (ok : TableOk turn a.allocs) {t : FiveTuple} {ip : IP} {call : Call}
    (after : Permitted turn t ip (a.run turn call).allocs) :
    CallGrants turn a.allocs t ip call ∨ Permitted turn t ip a.allocs := by
  have step {e : Interleaving.Event}
      (same : (a.run turn call).allocs = (Interleaving.next turn ⟨a,[],[],[]⟩ e).allocs) :
      GrantsTo turn t ip ⟨⟨a,[],[],[]⟩,e⟩ ∨ Permitted turn t ip a.allocs := by
    rw [same] at after
    exact (@permittedStep turn ⟨a,[],[],[]⟩ ok e t ip after).imp_right And.right
  cases call with
  | new t' timeout port =>
    refine .inr ?_
    have appended {b : Allocation} (fresh : find turn a.allocs b.tuple = none) (bare : b.permissions = [])
        (held : Permitted turn t ip (a.allocs ++ [b])) : Permitted turn t ip a.allocs := by
      obtain ⟨c,p,found,under⟩ := held
      rw [find,lookupAppend fresh] at found
      split at found
      · cases Option.some.inj found
        rw [noPermission bare] at under
        cases under
      · exact ⟨c,p,found,under⟩
    rw [Allocator.run] at after
    rcases newCases turn a t' timeout port with ⟨e,_,eq⟩ | ⟨_,fresh,⟨e,_,eq⟩ | ⟨n,_,eq⟩⟩ <;> rw [eq] at after
    · exact after
    · exact appended fresh rfl after
    · exact appended fresh rfl after
  | remove t' =>
    have same : (a.run turn (.remove t')).allocs = (Interleaving.next turn ⟨a,[],[],[]⟩ (.remove t')).allocs := by
      simp only [Allocator.run,Allocator.remove]
      split <;> rfl
    exact (step same).imp_left False.elim
  | prune x => exact (@step (.prune x) rfl).imp_left False.elim
  | refresh t' timeout => exact (@step (.refresh t' timeout) rfl).imp_left False.elim
  | createPermission t' q timeout => exact @step (.createPermission t' q timeout) rfl
  | channelBind t' n q timeout => exact @step (.channelBind t' n q timeout) rfl

theorem sitePermitted {s : Host ν} (ok : TableOk turn s.alloc.allocs) {e : Site.Event} (guard : Site.enabled texts s e)
    {t : FiveTuple} {ip : IP} (after : Permitted turn t ip (Site.next turn stun srv s e).alloc.allocs) :
    (∃ c, GrantedBy turn stun srv t ip c ⟨s,e⟩) ∨ Permitted turn t ip s.alloc.allocs := by
  cases e with
  | receive addr packet => exact .inr after
  | reload o => exact .inr after
  | inner e =>
    rcases permittedStep ok after with grants | ⟨_,before⟩
    · cases e with
      | createPermission t' q timeout => exact guard.1.elim
      | channelBind t' n q timeout => exact guard.1.elim
      | _ => exact grants.elim
    · exact .inr before
  | serve i now env =>
    have inside : i < s.queue.length := guard
    have queued : s.queue[i]? = some s.queue[i] := List.getElem?_eq_getElem inside
    rw [nextServe queued] at after
    generalize s.queue[i] = c at queued after
    rcases @serveEffect ν turn stun srv s.nonces env now s.alloc.toAllocator c with ⟨same,_⟩ | ⟨ctx,arrival,effect⟩
    · dsimp only at after
      rw [same] at after
      exact .inr after
    · dsimp only at after
      generalize (serveConn turn stun srv env now s.nonces s.alloc.toAllocator c).2.handled.allocs = b at effect after
      generalize (serveConn turn stun srv env now s.nonces s.alloc.toAllocator c).2.handled.sent = w at effect
      cases effect with
      | quiet => exact .inr after
      | @message d _ _ framed admitted effect => cases effect with
        | quiet => exact .inr after
        | @called call requests =>
          rcases callPermitted ok after with grants | before
          · exact .inl ⟨c,i,now,env,ctx,d,call,rfl,queued,arrival,framed,admitted,requests,grants⟩
          · exact .inr before
        | sent => exact .inr after
      | channelData => exact .inr after

theorem sentPermitted {allocs : Allocator} (ok : TableOk turn allocs.allocs) {env : Env} {now : Time} {c : Context}
    {w : Write} (sent : (serveConn turn stun srv env now nonces allocs c).2.handled.sent = some w) :
    ∃ ctx, c.arrive turn now = .ok ctx ∧ Permitted turn ctx.tuple w.addr.ip allocs.allocs := by
  rcases @serveEffect ν turn stun srv nonces env now allocs c with ⟨_,none⟩ | ⟨ctx,arrival,effect⟩
  · cases none.symm.trans sent
  · refine ⟨ctx,arrival,?_⟩
    rw [sent] at effect
    generalize (serveConn turn stun srv env now nonces allocs c).2.handled.allocs = b at effect
    cases effect with
    | message _ admitted effect =>
      obtain ⟨m,_,carried,_⟩ := passed admitted
      cases effect with
      | sent _ sent =>
        obtain ⟨addr,_,a,p,found,_,under⟩ := sendSource ok.distinct sent
        rw [addr,← carried.tuple]
        exact ⟨a,p,found,under⟩
    | channelData _ sent =>
      obtain ⟨_,a,found,_,target⟩ := sendBoundSource ok.distinct sent
      obtain ⟨p,b,under,_⟩ := boundToTarget (ok.allocations a (lookupSome found).1) target
      exact ⟨a,p,found,under⟩

theorem grantedQueued {x : Step (Host ν) Site.Event} {t : FiveTuple} {ip : IP} {c : Context}
    (granted : GrantedBy turn stun srv t ip c x) : c ∈ x.pre.queue := by
  obtain ⟨i,_,_,_,_,_,_,queued,_⟩ := granted
  exact List.mem_of_getElem? queued

theorem requestAllowed {x : Step (Host ν) Site.Event} {t : FiveTuple} {peer : Addr} {c : Context}
    (byIP : ByIP c.cfg.peerFilter) (granted : GrantedBy turn stun srv t peer.ip c x) : c.cfg.peerFilter peer = .allow := by
  obtain ⟨i,now,env,ctx,d,call,_,_,arrival,_,admitted,requests,grants⟩ := granted
  obtain ⟨m,_,carried,_⟩ := passed admitted
  have snapshot : d.cfg = c.cfg := carried.cfg.trans (arrivedContext arrival).1
  have verdict {q : Addr} (allowed : d.allowPeer q = true) (same : IP.equal q.ip peer.ip = true) :
      c.cfg.peerFilter peer = .allow := by
    rw [Context.allowPeer,snapshot] at allowed
    rw [← byIP q peer same]
    exact of_decide_eq_true allowed
  cases requests with
  | createPermission _ _ allowed => exact verdict allowed grants.2.1
  | channelBind _ _ _ allowed => exact verdict allowed grants.2.1
  | _ => exact grants.elim

theorem configsByIP (parsed : Parsed texts o.peerRule) {h s} (run : Run (machine turn stun srv texts o nonces) h s) :
    Configs (fun cfg => ByIP cfg.peerFilter) s := by
  have byIP {o : Options} (parsed : Parsed texts o.peerRule) : ByIP (newConfig o).peerFilter := by
    obtain ⟨raw,f,ok,rule⟩ := parsed
    have same : (newConfig o).peerFilter = f.act := rule
    rw [same]
    exact parsedByIP ok
  refine invariant (Q := Configs (fun cfg => ByIP cfg.peerFilter)) (startConfigs (byIP parsed)) ?_ run
  intro s e now guard
  refine nextConfigs now e ?_
  intro o event
  subst event
  exact byIP guard

theorem configsFixed {h s} (run : Run (machine turn stun srv texts o nonces) h s) (fixed : ∀ x ∈ h, ¬ Reloads x) :
    Configs (fun cfg => cfg = newConfig o) s := by
  have step : ∀ s e, Configs (fun cfg => cfg = newConfig o) s →
      (machine turn stun srv texts o nonces).enabled s e → ¬ Reloads ⟨s,e⟩ →
      Configs (fun cfg => cfg = newConfig o) ((machine turn stun srv texts o nonces).next s e) := by
    intro s e now _ still
    refine nextConfigs now e ?_
    intro o event
    subst event
    exact absurd ⟨o,rfl⟩ still
  exact invariantUnder (Q := Configs (fun cfg => cfg = newConfig o)) (startConfigs rfl) step run fixed

theorem permittedGranted {h s} (run : Run (machine turn stun srv texts o nonces) h s) {t : FiveTuple} {ip : IP}
    (now : Permitted turn t ip s.alloc.allocs) :
    Since (fun x => ∃ c, GrantedBy turn stun srv t ip c x) (fun x => ¬ ∃ c, GrantedBy turn stun srv t ip c x) h := by
  have empty : ¬ Permitted turn t ip [] := by
    intro initial
    obtain ⟨a,_,found,_⟩ := initial
    cases found
  have ever : Since (fun x => ∃ c, GrantedBy turn stun srv t ip c x) (fun _ => True) h := by
    refine sinceMade (Q := fun s : Host ν => Permitted turn t ip s.alloc.allocs) empty ?_ run now
    intro h s e before guard after
    exact (sitePermitted (siteOk before) guard after).imp_right (fun held => ⟨trivial,held⟩)
  exact sinceLast ever

/- Every datagram written on a relay socket, whatever context is served, goes to an address
that the filter allows, as it was in the configuration of the request that last created or
refreshed the permission. -/
theorem peerFilterKept (parsed : Parsed texts o.peerRule) {h s} (run : Run (machine turn stun srv texts o nonces) h s)
    {now : Time} {env : Env} {c : Context} {w : Write}
    (sent : (serveConn turn stun srv env now s.nonces s.alloc.toAllocator c).2.handled.sent = some w) :
    ∃ ctx, c.arrive turn now = .ok ctx ∧
    ((∀ x ∈ h, ¬ Reloads x) → (newConfig o).peerFilter w.addr = .allow) ∧
    Since (fun x => ∃ d, GrantedBy turn stun srv ctx.tuple w.addr.ip d x ∧ d.cfg.peerFilter w.addr = .allow)
      (fun x => ¬ ∃ d, GrantedBy turn stun srv ctx.tuple w.addr.ip d x) h := by
  obtain ⟨ctx,arrival,permitted⟩ := sentPermitted (siteOk run) sent
  have past := permittedGranted run permitted
  have allowed : ∀ x ∈ h, ∀ d, GrantedBy turn stun srv ctx.tuple w.addr.ip d x → d.cfg.peerFilter w.addr = .allow := by
    intro x mem d granted
    obtain ⟨before,reached,_⟩ := preReached run mem
    exact requestAllowed ((configsByIP parsed reached).2 d (grantedQueued granted)) granted
  refine ⟨ctx,arrival,?_,?_⟩
  · intro fixed
    obtain ⟨later,x,before,rfl,⟨d,granted⟩,_⟩ := sinceSplit.mp past
    have still := configsFixed (earlier run).1 (fun y mem => fixed y (List.mem_append_right _ (List.mem_cons_of_mem _ mem)))
    have verdict := allowed x (List.mem_append_right _ List.mem_cons_self) d granted
    rw [still.2 d (grantedQueued granted)] at verdict
    exact verdict
  · refine sinceMono ?_ (fun _ _ none => none) past
    intro x mem granting
    obtain ⟨d,granted⟩ := granting
    exact ⟨d,granted,allowed x mem d granted⟩

/- A filter that allows 10.0.0.0/8 and denies the rest, and three packets of one client:
Allocate, CreatePermission and Send. -/
def sampleTexts : Texts where
  toLower := id
  parseCIDR text := if text == "10.0.0.0/8" then some ⟨[10,0,0,0],[255,0,0,0]⟩ else none

def sampleRules : RuleList := newFilter .deny [subnetRule .allow ⟨[10,0,0,0],[255,0,0,0]⟩]

def sampleOptions : Options := ⟨[],[],false,sampleRules.act,allowAll⟩

theorem sampleParsed : Parsed sampleTexts sampleOptions.peerRule :=
  ⟨⟨some [⟨"10.0.0.0/8","allow"⟩],"deny"⟩,sampleRules,rfl,rfl⟩

def openServer : Server NonceAuth := ⟨sampleServer,none,NonceAuth.manager .documented⟩

def sampleClient : NetAddr := .udp sampleTuple.client

def allocatePacket : Bytes :=
  [0x00,0x03,0x00,0x08,0x21,0x12,0xa4,0x42,0x01,0x02,0x03,0x04,0x05,0x06,0x07,0x08,0x09,0x0a,0x0b,0x0c,
   0x00,0x19,0x00,0x04,0x11,0x00,0x00,0x00]

def permissionPacket : Bytes :=
  [0x00,0x08,0x00,0x0c,0x21,0x12,0xa4,0x42,0x01,0x02,0x03,0x04,0x05,0x06,0x07,0x08,0x09,0x0a,0x0b,0x0c,
   0x00,0x12,0x00,0x08,0x00,0x01,0x26,0xc3,0x2b,0x12,0xa4,0x41]

def sendPacket : Bytes :=
  [0x00,0x16,0x00,0x14,0x21,0x12,0xa4,0x42,0x01,0x02,0x03,0x04,0x05,0x06,0x07,0x08,0x09,0x0a,0x0b,0x0c,
   0x00,0x12,0x00,0x08,0x00,0x01,0x26,0xc3,0x2b,0x12,0xa4,0x41,0x00,0x13,0x00,0x02,0x01,0x02,0x00,0x00]

def sampleSite : Machine (Host NonceAuth) Site.Event :=
  Site.machine .documented (Codec.documented Codec.noHashes) openServer sampleTexts sampleOptions (newNonceAuth 0)

def relayed : List Site.Event :=
  [.receive sampleClient allocatePacket,.serve 0 1 ⟨[],.ok ⟨sampleRelayed,17,1⟩⟩,
    .receive sampleClient permissionPacket,.serve 0 2 ⟨[],.error .listen⟩,.receive sampleClient sendPacket]

def relayedContext : Context := accept openServer (newConfig sampleOptions) sampleClient sendPacket

theorem peerFilterKeptSample :
    (serveConn .documented (Codec.documented Codec.noHashes) openServer ⟨[],.error .listen⟩ 3
      (trace sampleSite [] sampleSite.start relayed).2.nonces
      (trace sampleSite [] sampleSite.start relayed).2.alloc.toAllocator relayedContext).2.handled.sent =
        some ⟨1,[1,2],samplePeer⟩ ∧ (newConfig sampleOptions).peerFilter samplePeer = .allow := by
  have run := traceStart (m := sampleSite) relayed ⟨trivial,Nat.one_pos,trivial,Nat.one_pos,trivial,trivial⟩
  have sent : (serveConn .documented (Codec.documented Codec.noHashes) openServer ⟨[],.error .listen⟩ 3
      (trace sampleSite [] sampleSite.start relayed).2.nonces
      (trace sampleSite [] sampleSite.start relayed).2.alloc.toAllocator relayedContext).2.handled.sent =
        some ⟨1,[1,2],samplePeer⟩ := by decide +kernel
  obtain ⟨_,_,kept,_⟩ := peerFilterKept sampleParsed run sent
  refine ⟨sent,kept ?_⟩
  intro x mem reloads
  obtain ⟨o,event⟩ := reloads
  rcases traceEvents mem with old | listed
  · cases old
  · rw [event] at listed
    simp [relayed] at listed

end Gortcd.PeerFilter
