import Gortcd.Verified
import Gortcd.Challenges

/-! The long-term credential mechanism between a client and the server, over whole runs. A
request without MESSAGE-INTEGRITY is answered with a challenge; a client with configured
credentials that signs its request with it is served, however many other steps come in
between while the nonce is current. What the server answers verifies under the client's key. -/
namespace Gortcd.Handshake
open Keyed Net Ports Sections Calls Runs Messages Auth Nonces Challenges Handlers Effects Responses Library Daemon Verified

variable {turn : Turn} {stun : Stun} {srv : Server NonceAuth} {env : Env} {n : NonceAuth} {d : Duration}

section Run
variable {o : Options} (manager : srv.nonce = NonceAuth.manager turn)
include manager

theorem serveNonces {allocs : Allocator} {now : Time} {c : Context} : (serveConn turn stun srv env now n allocs c).1 = n ∨
    ∃ tuple value, (serveConn turn stun srv env now n allocs c).1 = (perform turn n ⟨env.random,tuple,value,now⟩).1 := by
  unfold serveConn
  cases arrival : c.arrive turn now with
  | error ctx => exact .inl rfl
  | ok ctx =>
    have processed := @processNonces turn stun srv env n manager allocs ctx
    rw [(Site.arrivedContext arrival).2] at processed
    exact processed.imp_right (fun checked => ⟨ctx.tuple,checked⟩)

def Serves (e : Daemon.Event) (now : Time) (env : Env) : Prop :=
  ∃ i, e = .service (.serve i now env) ∨ ∃ k, e = .service (.allocate k i now env)

theorem noncesStep (s : Daemon.State NonceAuth) (e : Daemon.Event) : (Daemon.next turn stun srv s e).nonces = s.nonces ∨
    ∃ now env tuple value, Serves e now env ∧
      (Daemon.next turn stun srv s e).nonces = (perform turn s.nonces ⟨env.random,tuple,value,now⟩).1 := by
  have served (i : Nat) (now : Time) (env : Env) : (Site.next turn stun srv s.toHost (.serve i now env)).nonces = s.nonces ∨
      ∃ tuple value, (Site.next turn stun srv s.toHost (.serve i now env)).nonces =
        (perform turn s.nonces ⟨env.random,tuple,value,now⟩).1 := by
    cases queued : s.queue[i]? with
    | none => exact .inl (by simp only [Site.next,queued])
    | some c =>
      rw [Site.nextServe queued]
      exact serveNonces manager
  cases e with
  | peerData l data peer id => exact .inl rfl
  | crash => exact .inl rfl
  | service e => cases e with
    | serve i now env =>
      refine (served i now env).imp_right ?_
      intro checked
      obtain ⟨tuple,value,same⟩ := checked
      exact ⟨now,env,tuple,value,⟨i,.inl rfl⟩,same⟩
    | allocate k i now env =>
      simp only [Daemon.next,Service.next]
      split
      · exact .inl rfl
      · refine (served i now env).imp_right ?_
        intro checked
        obtain ⟨tuple,value,same⟩ := checked
        exact ⟨now,env,tuple,value,⟨i,.inr ⟨k,rfl⟩⟩,same⟩
    | answer k port => cases port <;> exact .inl rfl
    | _ => exact .inl rfl

theorem settledRun {h s} (run : Run (Daemon.machine turn stun srv o (newNonceAuth d)) h s) : Settled d s.nonces := by
  refine invariant (Q := fun s : Daemon.State NonceAuth => Settled d s.nonces) ?_ ?_ run
  · exact ⟨rfl,List.forall_mem_nil _,fun _ => List.forall_mem_nil _⟩
  · intro s e settled guard
    rcases @noncesStep turn stun srv manager s e with same | ⟨now,env,tuple,value,⟨i,event⟩,same⟩
    · exact same ▸ settled
    · have random : env.random.length = 12 := by
        rcases event with rfl | ⟨k,rfl⟩
        · exact guard.2.2.1
        · exact guard.2.1
      have kept := (@checkSettled turn s.nonces d settled ⟨env.random,tuple,value,now⟩ random).1
      exact same ▸ kept

/- No packet is served when the nonce has expired. -/
def Before (until' : Time) (e : Daemon.Event) : Prop := ∀ now env, Serves e now env → until' = 0 ∨ now < until'

theorem heldTrace {nonces : NonceAuth} {t : FiveTuple} {v : Bytes} {until' : Time} {es : List Daemon.Event}
    (before : ∀ e ∈ es, Before until' e) {h : List (Step (Daemon.State NonceAuth) Daemon.Event)} {s : Daemon.State NonceAuth}
    (issued : held turn s.nonces t = some (v,until')) :
    held turn (trace (Daemon.machine turn stun srv o nonces) h s es).2.nonces t = some (v,until') := by
  induction es generalizing h s with
  | nil => exact issued
  | cons e es ih =>
    obtain ⟨now,later⟩ := List.forall_mem_cons.mp before
    refine ih later ?_
    change held turn (Daemon.next turn stun srv s e).nonces t = some (v,until')
    rcases @noncesStep turn stun srv manager s e with same | ⟨time,env,tuple,value,serves,same⟩
    · rw [same]
      exact issued
    · rw [same]
      exact heldKept issued (now time env serves)

end Run

def Guarded (cfg : Config) (t : MessageType) : Prop := t.cls ≠ .indication ∧ (t = bindingRequest → cfg.authForSTUN = true)

section Guarded
variable {auth : Message → Except AuthErr Bytes} (configured : srv.auth = some auth)
include configured

theorem guardedNeeds {c : Context} (guarded : Guarded c.cfg c.request.type) : needAuth srv c = true := by
  unfold needAuth
  rw [configured,Option.isNone_some,if_neg Bool.false_ne_true,if_neg guarded.1]
  split
  · rename_i open'
    rw [guarded.2 open'.1] at open'
    exact absurd open'.2 (by decide)
  · rfl

theorem guardedAdmission {ctx : Context} {m : Message} (decode : stun.decode ctx.request = (m,none))
    (print : (stun.contains m .fingerprint && (stun.checkFingerprint m).isSome) = false) (guarded : Guarded ctx.cfg m.type)
    {value : Bytes} (nonce : NonceOf stun ctx m value) : admission stun srv env n ctx =
      authenticate stun srv env n { ctx with request := m, realm := ctx.cfg.realm, nonce := value } auth := by
  have needed := @guardedNeeds srv auth configured { ctx with request := m, realm := ctx.cfg.realm } guarded
  unfold admission
  rw [decode]
  simp only [print,Bool.false_eq_true,if_false,needed,configured]
  rcases nonce with given | ⟨missing,rfl⟩
  · rw [given]
  · rw [missing]

end Guarded

/- A packet that the server reads as a message without a wrong FINGERPRINT, and that needs credentials. -/
structure Asks (stun : Stun) (cfg : Config) (packet : Bytes) (m : Message) : Prop where
  framed : stun.isMessage (packet.take 2048) = true
  decode : stun.decode (received packet) = (m,none)
  print : (stun.contains m .fingerprint && (stun.checkFingerprint m).isSome) = false
  guarded : Guarded cfg m.type

structure Knocks (stun : Stun) (cfg : Config) (packet : Bytes) (m : Message) : Prop extends Asks stun cfg packet m where
  unsigned : stun.get m .messageIntegrity = .error .attributeNotFound

structure Presents (stun : Stun) (cfg : Config) (packet : Bytes) (m : Message) (cred : StaticCredential) (nonce : Bytes) : Prop
    extends Asks stun cfg packet m where
  authentic : Authentic stun cred m
  nonce : stun.nonce m = .ok nonce

/- Configured credentials that no other entry of the same name contradicts. -/
structure Holds (stun : Stun) (l : List StaticCredential) (cred : StaticCredential) : Prop where
  listed : cred ∈ l
  alone : ∀ e ∈ l, e.id = cred.id → e.integrity stun = cred.integrity stun

theorem insertedSome {l : List StaticCredential} {s : Static} {k : StaticKey}
    (known : (s.credentials k).isSome = true ∨ ∃ c ∈ l, c.id = k) :
    ((l.foldl (fun s c => s.insert c.id (c.integrity stun)) s).credentials k).isSome = true := by
  induction l generalizing s with
  | nil =>
    rcases known with held | ⟨c,mem,_⟩
    · exact held
    · cases mem
  | cons c l ih =>
    refine ih ?_
    by_cases same : k = c.id
    · exact .inl (by simp [Static.insert,same])
    · rcases known with held | ⟨e,mem,id⟩
      · exact .inl (by simpa [Static.insert,same] using held)
      · rcases List.mem_cons.mp mem with rfl | later
        · exact absurd id.symm same
        · exact .inr ⟨e,later,id⟩

theorem credentialHeld {l : List StaticCredential} {cred : StaticCredential} (holds : Holds stun l cred) :
    (newStatic stun l).credentials cred.id = some (cred.integrity stun) := by
  have known : ((newStatic stun l).credentials cred.id).isSome = true := insertedSome (.inr ⟨cred,holds.listed,rfl⟩)
  obtain ⟨key,held⟩ := Option.isSome_iff_exists.mp known
  rcases insertedCredential held with none | ⟨e,mem,id,rfl⟩
  · cases none
  · rw [held,holds.alone e mem id]

theorem staticAccepts {l : List StaticCredential} {cred : StaticCredential} (holds : Holds stun l cred) {m : Message}
    (authentic : Authentic stun cred m) : (newStatic stun l).auth stun m = .ok (cred.integrity stun) := by
  have held : (newStatic stun l).credentials ⟨cred.username,cred.realm⟩ = some (cred.integrity stun) := credentialHeld holds
  simp only [Static.auth,authentic.username,authentic.realm,held,authentic.integrity]

section Checks
variable {l : List StaticCredential} {m : Message} {packet : Bytes} (lib : Reading stun)
  (manager : srv.nonce = NonceAuth.manager turn) (configured : srv.auth = some ((newStatic stun l).auth stun))
include lib manager configured

theorem unsignedRefused {ctx : Context} (knocks : Knocks stun ctx.cfg packet m) (request : ctx.request = received packet)
    (settled : Settled d n) (random : env.random.length = 12) : ∃ value, admission stun srv env n ctx =
      ((perform turn n ⟨env.random,ctx.tuple,value,ctx.time⟩).1,
        .refuse { ctx with
          request := m
          realm := ctx.cfg.realm
          nonce := (perform turn n ⟨env.random,ctx.tuple,value,ctx.time⟩).2.1 } .unauthorized) := by
  have read : ∃ value, NonceOf stun ctx m value := by
    cases given : stun.nonce m with
    | ok v => exact ⟨v,.inl given⟩
    | error e =>
      cases lib.nonceMissing given
      exact ⟨ctx.nonce,.inr ⟨given,rfl⟩⟩
  obtain ⟨value,nonce⟩ := read
  refine ⟨value,?_⟩
  have known := (@checkSettled turn n d settled ⟨env.random,ctx.tuple,value,ctx.time⟩ random).2.2
  rw [guardedAdmission configured (request ▸ knocks.decode) knocks.print knocks.guarded nonce,authenticateDecided manager]
  simp only [decided,if_neg known,knocks.unsigned,if_true]

theorem signedPasses {cred : StaticCredential} {nonce : Bytes} {ctx : Context}
    (presents : Presents stun ctx.cfg packet m cred nonce) (holds : Holds stun l cred) (request : ctx.request = received packet)
    {until' : Time} (issued : held turn n ctx.tuple = some (nonce,until')) (current : until' = 0 ∨ ctx.time < until') :
    (admission stun srv env n ctx).2 = .pass { ctx with
      request := m, realm := ctx.cfg.realm, nonce := nonce, integrity := cred.integrity stun } := by
  have answer : (perform turn n ⟨env.random,ctx.tuple,nonce,ctx.time⟩).2 = (nonce,none) := by
    rw [performVerdict,issued]
    exact (if_pos current).trans (by rw [if_pos rfl])
  have accepts := staticAccepts holds presents.authentic
  rw [guardedAdmission configured (request ▸ presents.decode) presents.print presents.guarded (.inl presents.nonce),
    authenticateDecided manager]
  simp only [decided,answer,accepts,if_neg (lib.signed presents.authentic.integrity)]
  rfl

end Checks

/- What serving a request of the client comes to. It reaches its handler in a context with the
client's key, or waits in this context for its `New`, and the client can check every answer. -/
structure Reaches (turn : Turn) (stun : Stun) (srv : Server NonceAuth) (s : Daemon.State NonceAuth) (cfg : Config) (client : Addr)
    (packet : Bytes) (m : Message) (key : Bytes) (i : Nat) (now : Time) (env : Env) (c : Context) : Prop where
  handled : (serveConn turn stun srv env now s.nonces s.alloc.toAllocator (accept srv cfg (.udp client) packet)).2.handled =
    handle turn stun env s.alloc.toAllocator c
  waits : ∀ k, (Daemon.next turn stun srv s (.service (.allocate k i now env))).waiting = (k,c) :: s.waiting
  request : c.request = m
  signed : c.integrity = key
  tuple : c.tuple = ⟨client,srv.addr,turn.protoUDP⟩
  config : c.cfg = cfg
  time : c.time = now
  replies : ∀ a out r, (out = handle turn stun env a c ∨ ∃ result, out = finishNew stun a c result) → out.reply = some r →
    ∃ k, Checkable stun cfg.realm m r k ∧ stun.checkIntegrity key k = none

/- In this state a signed request of the client passes whenever a worker takes it, whatever it
asks for. -/
def Welcomed (turn : Turn) (stun : Stun) (srv : Server NonceAuth) (l : List StaticCredential) (client : Addr) (nonce : Bytes)
    (until' : Time) (s : Daemon.State NonceAuth) : Prop :=
  ∀ cred cfg packet m e i now env, Holds stun l cred → s.queue[i]? = some (accept srv cfg (.udp client) packet) →
    (e = .service (.serve i now env) ∨ ∃ k, e = .service (.allocate k i now env)) → Daemon.enabled turn stun srv s e →
    cfg.clientFilter client = .allow → (until' = 0 ∨ now < until') → Presents stun cfg packet m cred nonce →
    ∃ c, Reaches turn stun srv s cfg client packet m (cred.integrity stun) i now env c

section Exchange
variable {l : List StaticCredential} (lib : Reading stun) (sizes : Sizes stun)
  (manager : srv.nonce = NonceAuth.manager turn) (configured : srv.auth = some ((newStatic stun l).auth stun))
include lib sizes manager configured

theorem signedAccepted {s : Daemon.State NonceAuth} {client : Addr} {nonce : Bytes} {until' : Time}
    (issued : held turn s.nonces ⟨client,srv.addr,turn.protoUDP⟩ = some (nonce,until')) :
    Welcomed turn stun srv l client nonce until' s := by
  intro cred cfg packet m e i now env holds queued _ _ allowed current presents
  have arrival := @arrivedAt NonceAuth turn ⟨srv,cfg,s.nonces,s.alloc.toAllocator,env,now⟩ client allowed packet
  have pass := @signedPasses turn stun srv env s.nonces l m packet lib manager configured cred nonce
    (arrived turn ⟨srv,cfg,s.nonces,s.alloc.toAllocator,env,now⟩ client packet) presents holds rfl until' issued current
  generalize context : { arrived turn ⟨srv,cfg,s.nonces,s.alloc.toAllocator,env,now⟩ client packet with
    request := m, realm := cfg.realm, nonce := nonce, integrity := cred.integrity stun } = c
  have kept : c.request = m ∧ c.realm = cfg.realm ∧ c.response.raw = [] ∧ c.integrity = cred.integrity stun ∧
      c.tuple = ⟨client,srv.addr,turn.protoUDP⟩ ∧ c.cfg = cfg ∧ c.time = now := by
    rw [← context]
    exact ⟨rfl,rfl,rfl,rfl,rfl,rfl,rfl⟩
  obtain ⟨request,realm,empty,key,tuple,config,time⟩ := kept
  have pass' := pass.trans (congrArg Admission.pass context)
  refine ⟨c,?_,?_,request,key,tuple,config,time,?_⟩
  · rw [serveConn,arrival]
    exact passedProcess presents.framed pass'
  · intro k
    have reached := Service.reached.mpr ⟨_,_,queued,arrival,presents.framed,pass'⟩
    simp only [Daemon.next,Service.next,reached]
  · intro a out r answer replied
    have answers : Answers stun c out := by
      rcases answer with rfl | ⟨result,rfl⟩
      · exact handleAnswers
      · exact newAnswers a c result
    obtain ⟨k,checkable,_,signed,_⟩ := answeredChecked lib sizes answers empty ⟨_,request ▸ presents.decode⟩ replied
    rw [realm,request] at checkable
    rw [key] at signed
    exact ⟨k,checkable,signed (longTermKey lib cred)⟩

theorem knocked (nonneg : 0 ≤ d) {s : Daemon.State NonceAuth} (settled : Settled d s.nonces) {cfg : Config} {client : Addr}
    (allowed : cfg.clientFilter client = .allow) (texts : cfg.realm.length ≤ 763 ∧ cfg.software.length ≤ 763)
    {packet : Bytes} {m : Message} (knocks : Knocks stun cfg packet m) {now : Time} (random : env.random.length = 12) :
    ∃ (c : Context) (r nonce : Bytes) (k : Message) (until' : Time),
      (serveConn turn stun srv env now s.nonces s.alloc.toAllocator (accept srv cfg (.udp client) packet)).2 =
        ⟨c.buildErr stun s.alloc.toAllocator .unauthorized,some r⟩ ∧
      Checkable stun cfg.realm m r k ∧ stun.nonce k = .ok nonce ∧ (until' = 0 ∨ now < until') ∧
      held turn (serveConn turn stun srv env now s.nonces s.alloc.toAllocator
        (accept srv cfg (.udp client) packet)).1 ⟨client,srv.addr,turn.protoUDP⟩ = some (nonce,until') := by
  have arrival := @arrivedAt NonceAuth turn ⟨srv,cfg,s.nonces,s.alloc.toAllocator,env,now⟩ client allowed packet
  obtain ⟨value,refused⟩ := @unsignedRefused turn stun srv env s.nonces d l m packet lib manager configured
    (arrived turn ⟨srv,cfg,s.nonces,s.alloc.toAllocator,env,now⟩ client packet) knocks rfl settled random
  obtain ⟨until',issued,current⟩ := @checkIssues turn s.nonces d settled nonneg
    ⟨env.random,⟨client,srv.addr,turn.protoUDP⟩,value,now⟩
  have short := (@checkSettled turn s.nonces d settled ⟨env.random,⟨client,srv.addr,turn.protoUDP⟩,value,now⟩ random).2.1
  generalize context : { arrived turn ⟨srv,cfg,s.nonces,s.alloc.toAllocator,env,now⟩ client packet with
    request := m
    realm := cfg.realm
    nonce := (perform turn s.nonces ⟨env.random,⟨client,srv.addr,turn.protoUDP⟩,value,now⟩).2.1 } = c
  have kept : c.request = m ∧ c.realm = cfg.realm ∧ c.cfg = cfg ∧ c.response.raw = [] ∧
      c.nonce = (perform turn s.nonces ⟨env.random,⟨client,srv.addr,turn.protoUDP⟩,value,now⟩).2.1 := by
    rw [← context]
    exact ⟨rfl,rfl,rfl,rfl,rfl⟩
  obtain ⟨request,realm,config,empty,named⟩ := kept
  have served : process turn stun srv env s.nonces s.alloc.toAllocator
      (arrived turn ⟨srv,cfg,s.nonces,s.alloc.toAllocator,env,now⟩ client packet) =
        ((perform turn s.nonces ⟨env.random,⟨client,srv.addr,turn.protoUDP⟩,value,now⟩).1,
          c.buildErr stun s.alloc.toAllocator .unauthorized) := by
    have framed : stun.isMessage (arrived turn ⟨srv,cfg,s.nonces,s.alloc.toAllocator,env,now⟩ client packet).request.raw =
      true := knocks.framed
    rw [process,if_pos framed,processMessage,refused,← context]
    rfl
  have fits : Texts c := ⟨by rw [named]; omega,by rw [realm]; exact texts.1,by rw [config]; exact texts.2⟩
  obtain ⟨r,replied⟩ := (errReplied lib.toBuilding lib.toAdding s.alloc.toAllocator .unauthorized
    (request ▸ knocks.guarded.1) (request ▸ lib.decodedID knocks.decode)).mpr fits
  obtain ⟨k,checkable,nonce,_⟩ := answeredChecked lib sizes (errAnswers s.alloc.toAllocator .unauthorized) empty
    ⟨_,request ▸ knocks.decode⟩ replied
  rw [realm,request] at checkable
  refine ⟨c,r,_,k,until',?_,checkable,nonce.trans (by rw [named]),current,?_⟩
  · rw [serveConn,arrival]
    simp only [served,replied]
  · rw [serveConn,arrival]
    simp only [served]
    exact issued

/- A client that is asked for its credentials and has them gets through. In every reachable
state a guarded message without MESSAGE-INTEGRITY is refused with 401, a nonce and the realm;
after any further steps, none of which serves a packet after the nonce has expired, a request
that is signed with them reaches its handler, and the answer verifies under the client's key. -/
theorem handshakeCompletes (nonneg : 0 ≤ d) {o : Options} {h s}
    (run : Run (Daemon.machine turn stun srv o (newNonceAuth d)) h s) {i : Nat} {now : Time}
    (guard : Daemon.enabled turn stun srv s (.service (.serve i now env))) {cfg : Config} {client : Addr} {packet : Bytes}
    (queued : s.queue[i]? = some (accept srv cfg (.udp client) packet)) (allowed : cfg.clientFilter client = .allow)
    (texts : cfg.realm.length ≤ 763 ∧ cfg.software.length ≤ 763) {m : Message} (knocks : Knocks stun cfg packet m) :
    ∃ (c : Context) (r nonce : Bytes) (k : Message) (until' : Time),
      (serveConn turn stun srv env now s.nonces s.alloc.toAllocator (accept srv cfg (.udp client) packet)).2.handled =
        c.buildErr stun s.alloc.toAllocator .unauthorized ∧
      (output turn stun srv s (.service (.serve i now env))).response = some (r,.udp client) ∧
      Checkable stun cfg.realm m r k ∧ stun.nonce k = .ok nonce ∧
      held turn (Daemon.next turn stun srv s (.service (.serve i now env))).nonces ⟨client,srv.addr,turn.protoUDP⟩ =
        some (nonce,until') ∧ (until' = 0 ∨ now < until') ∧
      ∀ es, Allowed (Daemon.machine turn stun srv o (newNonceAuth d))
          (Daemon.next turn stun srv s (.service (.serve i now env))) es → (∀ e ∈ es, Before until' e) →
        Welcomed turn stun srv l client nonce until'
          (trace (Daemon.machine turn stun srv o (newNonceAuth d)) (⟨s,.service (.serve i now env)⟩ :: h)
            (Daemon.next turn stun srv s (.service (.serve i now env))) es).2 := by
  have settled := settledRun manager run
  obtain ⟨c,r,nonce,k,until',served,checkable,read,current,issued⟩ :=
    @knocked turn stun srv env d l lib sizes manager configured nonneg s settled cfg client allowed texts packet m knocks now
      guard.2.2.1
  have issued' : held turn (Daemon.next turn stun srv s (.service (.serve i now env))).nonces
      ⟨client,srv.addr,turn.protoUDP⟩ = some (nonce,until') := by
    simp only [Daemon.next,Service.next,Site.nextServe queued]
    exact issued
  refine ⟨c,r,nonce,k,until',by rw [served],?_,checkable,read,issued',current,?_⟩
  · simp only [output,queued,served]
    rfl
  · intro es _ before
    exact signedAccepted lib sizes manager configured (heldTrace manager before issued')

end Exchange

/- Another client asks in between, and the client's second request waits to be served. -/
def sampleBetween : List Daemon.Event :=
  [.service (.receive (.udp sampleOther) PeerFilter.allocatePacket),
    .service (.serve 0 2 ⟨List.replicate 12 7,.error .listen⟩),
    .service (.receive PeerFilter.sampleClient Authentication.samplePacket)]

def sampleBefore : List (Step (Daemon.State NonceAuth) Daemon.Event) × Daemon.State NonceAuth :=
  trace sampleDaemon [] sampleDaemon.start [.service (.receive PeerFilter.sampleClient PeerFilter.allocatePacket)]

def sampleAfter : Daemon.State NonceAuth :=
  (trace sampleDaemon [] sampleDaemon.start
    (.service (.receive PeerFilter.sampleClient PeerFilter.allocatePacket) ::
      .service (.serve 0 1 ⟨sampleRandom,.error .listen⟩) :: sampleBetween)).2

def sampleKnock : Message := (Codec.decode (received PeerFilter.allocatePacket)).1

def sampleSigned : Message := (Codec.decode (received Authentication.samplePacket)).1

theorem sampleKnocks : Knocks sampleStun (newConfig sampleOptions) PeerFilter.allocatePacket sampleKnock := by
  refine ⟨⟨by decide +kernel,Prod.ext rfl (by decide +kernel),by decide +kernel,by decide +kernel,?_⟩,by decide +kernel⟩
  intro binding
  exact absurd binding (by decide +kernel)

theorem samplePresents : Presents sampleStun (newConfig sampleOptions) Authentication.samplePacket sampleSigned
    Authentication.sampleCredential Authentication.sampleNonce := by
  refine ⟨⟨by decide +kernel,Prod.ext rfl (by decide +kernel),by decide +kernel,by decide +kernel,?_⟩,
    ⟨by decide +kernel,by decide +kernel,by decide +kernel⟩,by decide +kernel⟩
  intro binding
  exact absurd binding (by decide +kernel)

theorem handshakeCompletesSample : ∃ c, Reaches .documented sampleStun sampleServer' sampleAfter (newConfig sampleOptions)
    sampleTuple.client Authentication.samplePacket sampleSigned Authentication.sampleKey 0 3
    ⟨sampleRandom,.ok ⟨sampleRelayed,17,1⟩⟩ c := by
  have run : Run sampleDaemon sampleBefore.1 sampleBefore.2 := traceStart _ (by decide +kernel)
  have free : Daemon.enabled .documented sampleStun sampleServer' sampleBefore.2
      (.service (.serve 0 1 ⟨sampleRandom,.error .listen⟩)) := by decide +kernel
  obtain ⟨_,_,nonce,_,until',_,_,_,_,issued,_,welcomed⟩ := handshakeCompletes sampleReading sampleSizes rfl rfl
    (Int.le_refl 0) run free rfl rfl ⟨by decide,by decide⟩ sampleKnocks
  have known : held .documented (sampleDaemon.next sampleBefore.2 (.service (.serve 0 1 ⟨sampleRandom,.error .listen⟩))).nonces
      sampleTuple = some (Authentication.sampleNonce,0) := by decide +kernel
  obtain ⟨rfl,rfl⟩ := Prod.mk.inj (Option.some.inj (issued.symm.trans known))
  have holds : Holds sampleStun [Authentication.sampleCredential] Authentication.sampleCredential := by
    refine ⟨List.mem_singleton_self _,fun e mem _ => ?_⟩
    rw [List.mem_singleton.mp mem]
  have key : Authentication.sampleCredential.integrity sampleStun = Authentication.sampleKey := by decide +kernel
  have accepted := welcomed sampleBetween (by decide +kernel) (fun _ _ _ _ _ => .inl rfl)
    Authentication.sampleCredential (newConfig sampleOptions) Authentication.samplePacket sampleSigned
    (.service (.allocate 1 0 3 ⟨sampleRandom,.ok ⟨sampleRelayed,17,1⟩⟩)) 0 3 ⟨sampleRandom,.ok ⟨sampleRelayed,17,1⟩⟩ holds
    rfl (.inr ⟨1,rfl⟩) (by decide +kernel) rfl (.inl rfl) samplePresents
  rw [key] at accepted
  exact accepted

end Gortcd.Handshake
