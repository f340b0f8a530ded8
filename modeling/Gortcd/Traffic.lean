import Gortcd.Handshake
import Gortcd.Transparency

/-! How much the server sends for what it receives. A packet of a client leads to one
datagram or to none, a reply or the data written to a peer, and so does a datagram of a peer.
The data gets at most a header, an address and a FINGERPRINT on its way to the client and
loses its header on its way to the peer, and a reply is as long as the configuration makes it.
Packets wait in the queue, and calls of `New` to return, so that the totals are balanced over
whole runs. -/
namespace Gortcd.Traffic
open Keyed Net Ports Sections Records Calls Runs Messages Filters Auth Handlers Challenges Effects Responses Library Inbound
  PeerData Signatures Daemon Verified Handshake
open Interleaving (Loop)

variable {turn : Turn} {stun : Stun}

/- A datagram of a peer is at most 59 bytes longer when it goes out to the client. -/
theorem forwardedLength (lib : Adding stun) (sizes : Sizes stun) {allocs : Table} {l : Loop} {d : Bytes} {p : Addr}
    {id : Option Bytes} (drawn : ∀ i, id = some i → i.length = 12) {w : Bytes × Addr}
    (out : relay turn stun allocs l d p id = some w) : w.1.length ≤ d.length + 59 := by
  have cut : (readFrom l d).length ≤ d.length := List.length_take_le' l.bufLen d
  unfold relay handlePeerData at out
  generalize readFrom l d = v at cut out
  split at out
  · rename_i n _
    cases out
    exact Nat.le_trans (sizes.channelData n v) (by omega)
  · have setters : ∀ s ∈ [Setter.transactionID id,.type ⟨.data,.indication⟩,.data v,.peerAddress p,.fingerprint], Drawn s := by
      simpa [Drawn] using drawn
    have blank : Blank (stun.reset emptyMessage) := by
      rw [lib.reset]
      exact ⟨rfl,rfl,rfl,rfl⟩
    split at out
    · cases out
    · rename_i m done
      cases out
      have written := sizes.built ⟨blank,done⟩ setters
      have print : taken 4 = 8 := rfl
      have address : taken 20 = 24 := rfl
      simp only [total,cost,taken] at written print address
      exact Nat.le_trans written (by omega)

section Packet
variable {srv : Server NonceAuth} {env : Env} {n : NonceAuth} {allocs : Allocator} {ctx : Context}

theorem sentSilent (empty : ctx.response.raw = []) {w : Write}
    (sent : (process turn stun srv env n allocs ctx).2.sent = some w) :
    (process turn stun srv env n allocs ctx).2.reply = none := by
  have quiet {h : Handled} (same : h.ctx.response.raw = []) : h.reply = none := by
    rw [Handled.reply,same]
    simp
  unfold process at sent ⊢
  split at sent <;> rename_i framed
  · rw [if_pos framed]
    unfold processMessage at sent ⊢
    cases admitted : admission stun srv env n ctx with
    | mk n' verdict =>
      rw [admitted] at sent
      cases verdict with
      | silent c => cases sent
      | refuse c code => cases sent
      | pass c =>
        obtain ⟨_,_,carried,_⟩ := passed (congrArg Prod.snd admitted)
        have effect := @handleEffect turn stun env allocs c
        dsimp only at sent ⊢
        rw [sent] at effect
        generalize (handle turn stun env allocs c).allocs = after at effect
        cases effect with
        | sent type =>
          refine quiet ?_
          rw [← carried.response] at empty
          simp only [handle,type,processSendIndication]
          split
          · exact empty
          · split <;> exact empty
  · rw [if_neg framed]
    split at sent <;> rename_i channel
    · rw [if_pos channel]
      refine quiet ?_
      dsimp only
      unfold processChannelData
      split
      · exact empty
      · split <;> exact empty
    · cases sent

/- A packet that has been served: at most one datagram goes out, and data goes without its header. -/
structure Paid (c : Context) (out : Served) : Prop where
  once : out.response = none ∨ out.handled.sent = none
  sent : ∀ w, out.handled.sent = some w → w.data.length + 4 ≤ c.buf.length

theorem servedPaid (demux : Transparency.Demux stun) (dist : Distinct turn.tuples Allocation.tuple allocs.allocs) (cfg : Config)
    (addr : NetAddr) (packet : Bytes) (now : Time) :
    Paid (accept srv cfg addr packet) (serveConn turn stun srv env now n allocs (accept srv cfg addr packet)).2 := by
  unfold serveConn
  cases arrival : (accept srv cfg addr packet).arrive turn now with
  | error ctx => exact ⟨.inl rfl,nofun⟩
  | ok ctx =>
    have arrived := acceptArrived arrival
    have whole : ctx.cdata.raw = ctx.request.raw := arrived.cdata.trans (by rw [arrived.request]; rfl)
    refine ⟨?_,?_⟩
    · cases sent : (process turn stun srv env n allocs ctx).2.sent with
      | none => exact .inr rfl
      | some w => exact .inl (sentSilent arrived.response sent)
    · intro w sent
      have inside := Transparency.sentInside demux dist whole sent
      rw [arrived.request] at inside
      exact inside

end Packet

/- The longest reply under a configuration: the header, a nonce, the two texts, three
attributes of the handler and the two digests. -/
def limit (cfg : Config) : Nat := 164 + taken cfg.realm.length + taken cfg.software.length

section Reply
variable {srv : Server NonceAuth} {env : Env} {n : NonceAuth} {d : Duration} (manager : srv.nonce = NonceAuth.manager turn)
  (settled : Settled d n) (random : env.random.length = 12)
include manager settled random

theorem authenticateNonce {ctx c : Context} {auth : Message → Except AuthErr Bytes}
    (admits : Admits (authenticate stun srv env n ctx auth).2 c) : c.nonce.length ≤ 24 := by
  obtain ⟨_,short,known⟩ := @checkSettled turn n d settled ⟨env.random,ctx.tuple,ctx.nonce,ctx.time⟩ random
  rw [authenticateDecided manager,decided,if_neg known] at admits
  dsimp only at admits
  split at admits
  · cases admits
    exact short
  · split at admits
    · cases admits
      exact short
    · split at admits <;> (cases admits; exact short)

theorem admittedNonce {ctx c : Context} (fresh : ctx.nonce = []) (admits : Admits (admission stun srv env n ctx).2 c) :
    c.nonce.length ≤ 24 := by
  have empty : ctx.nonce.length ≤ 24 := by
    rw [fresh]
    exact Nat.zero_le _
  unfold admission at admits
  split at admits
  · cases admits
  · dsimp only at admits
    split at admits
    · cases admits
      exact empty
    · split at admits
      · split at admits
        · exact authenticateNonce manager settled random admits
        · exact authenticateNonce manager settled random admits
        · cases admits
          exact empty
      · cases admits
        exact empty

end Reply

theorem replyLimit (lib : Adding stun) (sizes : Sizes stun) {srv : Server NonceAuth} (manager : srv.nonce = NonceAuth.manager turn)
    {o : Options} {d : Duration} {h s} (run : Run (Daemon.machine turn stun srv o (newNonceAuth d)) h s)
    {x : Step (Daemon.State NonceAuth) Daemon.Event} (mem : x ∈ h) {r : Bytes} {dst : NetAddr}
    (sent : (output turn stun srv x.pre x.event).response = some (r,dst)) :
    ∃ cfg packet, Read h cfg dst packet ∧ r.length ≤ limit cfg ∧ limit cfg ≤ 1700 := by
  obtain ⟨y,past,cfg,packet,ctx,a,c,out,_,takes,read,empty,admits,answers,replied⟩ := (repliedRun run mem sent).source
  obtain ⟨i,now,env,event,queued,arrival,same⟩ := takes.taken
  subst same
  have arrived := acceptArrived arrival
  obtain ⟨m,decode,carried⟩ := admitsDecoded admits
  obtain ⟨cls,s',k,_,_,short,few,applied,rfl⟩ := answeredBuilt answers (by rw [carried.response]; exact empty) replied
  have id : c.request.transactionID.length = 12 := by
    rw [carried.request]
    exact lib.decodedID decode
  have blank : Blank (begun stun c cls c.request.type.method) := begunBlank lib id
  have length := builtLength sizes short few ⟨blank,applied⟩
  have texts : Texts c := by
    have done := (appliedExactly lib (builtNil blank) List.not_mem_nil (settersPrint (c := c) short)).mp (by rw [applied])
    exact (settersAcceptable.mp done).1
  obtain ⟨_,before,guard⟩ := preReached run past
  have random : env.random.length = 12 := by
    obtain ⟨pre,e⟩ := y
    rcases event with rfl | ⟨k,rfl⟩
    · exact guard.2.2.1
    · exact guard.2.1
  have nonce := takenMono (admittedNonce manager (settledRun manager before) random arrived.nonce admits) rfl
  have realm : c.realm = cfg.realm := (admissionProven admits).realm.trans (by rw [arrived.cfg])
  have config : c.cfg = cfg := carried.cfg.trans arrived.cfg
  have zone : taken cfg.realm.length ≤ taken 764 := takenMono (Nat.le_succ_of_le (realm ▸ texts.realm)) rfl
  have software : taken cfg.software.length ≤ taken 764 := takenMono (Nat.le_succ_of_le (config ▸ texts.software)) rfl
  have longest : taken 764 = 768 := rfl
  have digits : taken 24 = 28 := rfl
  rw [realm,config] at length
  refine ⟨cfg,packet,read,?_,?_⟩
  · simp only [limit]
    omega
  · simp only [limit]
    omega

def fromClient : Daemon.Event → Option Bytes
  | .service (.receive _ packet) => some packet
  | _ => none

def fromPeer : Daemon.Event → Option Bytes
  | .peerData _ data _ _ => some data
  | _ => none

def count (b : Option Bytes) : Nat := b.elim 0 (fun _ => 1)

def size (b : Option Bytes) : Nat := b.elim 0 List.length

def toPeer (out : Output) : Option Bytes := out.sent.map Write.data

def toClient (out : Output) : Option Bytes := out.forwarded.map Prod.fst

def replied (out : Output) : Option Bytes := out.response.map Prod.fst

section Queue
variable {srv : Server NonceAuth} {o : Options} {nonces : NonceAuth}

/- The weight of what has been taken from a client and not been paid for yet. -/
def owed (f : Context → Nat) (v : Nat) (s : Daemon.State NonceAuth) : Nat :=
  total f s.queue + total (fun _ => v) s.waiting

section Weights
variable {g : Output → Nat} {f : Context → Nat} {v : Nat} {received : Daemon.Event → Nat} (quiet : ∀ p, g ⟨none,none,p⟩ = 0)
  (returned : ∀ r, g ⟨r,none,none⟩ ≤ v)
include quiet returned

/- A call that returns has waited, and waits no longer. -/
theorem returnOwed (s : Daemon.State NonceAuth) (k : Nat) (result : Except Err Addr) :
    g (s.returns stun k result) + total (fun _ => v) (Service.drop k s.waiting) ≤ total (fun _ => v) s.waiting := by
  unfold Daemon.State.returns
  split
  · rw [Output.nothing,quiet,Nat.zero_add]
    exact totalFilter
  · rename_i w found
    have lost : (w.1 != k) = false := by simpa using List.find?_some found
    have rest := @totalLost _ (fun _ => v) (fun w => w.1 != k) _ w (List.mem_of_find?_eq_some found) lost
    exact Nat.le_trans (Nat.add_le_add_right (returned _) _) rest

variable (moved : ∀ c, v ≤ f c)
  (queued : ∀ cfg addr packet, f (accept srv cfg addr packet) ≤ received (.service (.receive addr packet)))
include moved queued

/- What is sent when a packet is served, or when its `New` returns, is covered by what it weighs
in the queue, and that by what was received. -/
theorem queueStep {s : Daemon.State NonceAuth} {e : Daemon.Event}
    (served : ∀ i now env c, e = .service (.serve i now env) → s.queue[i]? = some c → g (output turn stun srv s e) ≤ f c) :
    g (output turn stun srv s e) + owed f v (Daemon.next turn stun srv s e) ≤ received e + owed f v s := by
  have ended := @returnOwed stun g v quiet returned s
  have nothing : g Output.nothing = 0 := quiet none
  have idle {out : Output} {after : Daemon.State NonceAuth} {k : Nat} (free : g out = 0) (same : owed f v after = owed f v s) :
      g out + owed f v after ≤ k + owed f v s := by omega
  cases e with
  | peerData l data peer id => exact idle (quiet _) rfl
  | crash => exact idle nothing rfl
  | service e => cases e with
    | receive addr packet =>
      have room := queued s.cfg addr packet
      simp only [output,nothing,owed,Daemon.next,Service.next,Site.next,totalAppend,total]
      omega
    | reload o => exact idle nothing rfl
    | serve i now env =>
      cases found : s.queue[i]? with
      | none =>
        simp only [output,found,nothing,owed,Daemon.next,Service.next,Site.next]
        omega
      | some c =>
        have covered := served i now env c rfl found
        have split := @totalErase _ f s.queue i c found
        simp only [owed,Daemon.next,Service.next,Site.nextServe found]
        omega
    | allocate k i now env =>
      simp only [output,nothing,owed,Daemon.next,Service.next]
      cases reached : Service.reaches turn stun srv s.toHost i now env with
      | none =>
        dsimp only
        omega
      | some d =>
        obtain ⟨c,_,found,_⟩ := Service.reached.mp reached
        have split := @totalErase _ f s.queue i c found
        have lighter := moved c
        simp only [Site.nextServe found,total]
        omega
    | answer k port => cases port with
      | ok n => exact idle nothing rfl
      | error e =>
        have end' := ended k (.error (.failedToAllocate e))
        simp only [output,owed,Daemon.next,Service.next]
        omega
    | install k =>
      simp only [output,owed,Daemon.next,Service.next]
      split
      · rename_i n _
        have end' := ended k (.ok n.addr)
        omega
      · have less := @totalFilter _ (fun _ => v) (fun w => w.1 != k) s.waiting
        rw [nothing]
        simp only [Service.drop]
        omega
    | collect now => exact idle nothing rfl
    | dealloc addr proto => exact idle nothing rfl

theorem queueBalance {h s} (run : Run (Daemon.machine turn stun srv o nonces) h s)
    (served : ∀ x ∈ h, ∀ i now env c, x.event = .service (.serve i now env) → x.pre.queue[i]? = some c →
      g (output turn stun srv x.pre x.event) ≤ f c) :
    total (fun x => g (output turn stun srv x.pre x.event)) h ≤ total (fun x => received x.event) h := by
  have balanced := @balance _ _ _ (fun x => g (output turn stun srv x.pre x.event)) (fun x => received x.event)
    (owed f v) _ _ run (fun x mem => queueStep quiet returned moved queued (served x mem))
  have none : owed f v (Daemon.machine turn stun srv o nonces).start = 0 := rfl
  omega

end Weights

end Queue

theorem countOnce {a b : Option Bytes} (once : a = none ∨ b = none) : count a + count b ≤ 1 := by
  rcases once with rfl | rfl
  · cases b <;> exact Nat.le_of_ble_eq_true rfl
  · cases a <;> exact Nat.le_of_ble_eq_true rfl

theorem forwardedAt (lib : Adding stun) (sizes : Sizes stun) {srv : Server NonceAuth} {s : Daemon.State NonceAuth}
    {e : Daemon.Event} (guard : Daemon.enabled turn stun srv s e) :
    count (toClient (output turn stun srv s e)) ≤ count (fromPeer e) ∧
      size (toClient (output turn stun srv s e)) ≤ size (fromPeer e) + 59 * count (fromPeer e) := by
  have quiet {out : Output} (none : out.forwarded = none) {k j : Nat} : count (toClient out) ≤ k ∧ size (toClient out) ≤ j := by
    rw [toClient,none]
    exact ⟨Nat.zero_le _,Nat.zero_le _⟩
  cases e with
  | peerData l data peer id =>
    simp only [output,toClient,fromPeer]
    cases out : relay turn stun s.alloc.allocs l data peer id with
    | none => exact ⟨Nat.zero_le _,Nat.zero_le _⟩
    | some w => exact ⟨Nat.le_refl _,forwardedLength lib sizes guard.2.2.2 out⟩
  | crash => exact quiet rfl
  | service e =>
    refine quiet ?_
    cases e with
    | serve i now env =>
      simp only [output]
      split <;> rfl
    | answer k port => cases port with
      | ok n => rfl
      | error e =>
        simp only [output,Daemon.State.returns]
        split <;> rfl
    | install k =>
      simp only [output,Daemon.State.returns]
      split
      · split <;> rfl
      · rfl
    | _ => rfl

structure Bounded (turn : Turn) (stun : Stun) (srv : Server NonceAuth) (h : List (Step (Daemon.State NonceAuth) Daemon.Event)) :
    Prop where
  datagrams : total (fun x => count (replied (output turn stun srv x.pre x.event)) +
      count (toPeer (output turn stun srv x.pre x.event))) h ≤ total (fun x => count (fromClient x.event)) h
  written : total (fun x => size (toPeer (output turn stun srv x.pre x.event)) +
      4 * count (toPeer (output turn stun srv x.pre x.event))) h ≤ total (fun x => size (fromClient x.event)) h
  forwarded : total (fun x => count (toClient (output turn stun srv x.pre x.event))) h ≤
    total (fun x => count (fromPeer x.event)) h
  wrapped : total (fun x => size (toClient (output turn stun srv x.pre x.event))) h ≤
    total (fun x => size (fromPeer x.event) + 59 * count (fromPeer x.event)) h
  replies : ∀ x ∈ h, ∀ r dst, (output turn stun srv x.pre x.event).response = some (r,dst) →
    ∃ cfg packet, Read h cfg dst packet ∧ r.length ≤ limit cfg ∧ limit cfg ≤ 1700

/- In every run the server sends no more datagrams than it has received, in either direction.
The bytes written to peers are fewer than those that came from clients by four a datagram,
those forwarded to clients more by 59 a datagram at most, and the length of a reply is
bounded by the texts of the configuration that the packet was read with. -/
theorem trafficBounded (lib : Adding stun) (sizes : Sizes stun) (demux : Transparency.Demux stun) {srv : Server NonceAuth}
    (manager : srv.nonce = NonceAuth.manager turn) {d : Duration} {o : Options} {h s}
    (run : Run (Daemon.machine turn stun srv o (newNonceAuth d)) h s) : Bounded turn stun srv h := by
  have peer {x : Step (Daemon.State NonceAuth) Daemon.Event} (mem : x ∈ h) :
      count (toClient (output turn stun srv x.pre x.event)) ≤ count (fromPeer x.event) ∧
        size (toClient (output turn stun srv x.pre x.event)) ≤ size (fromPeer x.event) + 59 * count (fromPeer x.event) := by
    obtain ⟨_,_,guard⟩ := preReached run mem
    exact forwardedAt lib sizes guard
  have paid {x : Step (Daemon.State NonceAuth) Daemon.Event} (mem : x ∈ h) {i : Nat} {c : Context} (now : Time) (env : Env)
      (queued : x.pre.queue[i]? = some c) :
      Paid c (serveConn turn stun srv env now x.pre.nonces x.pre.alloc.toAllocator c).2 := by
    obtain ⟨_,before,_⟩ := preReached run mem
    obtain ⟨cfg,packet,same,_⟩ := readQueued before queued
    rw [same]
    exact servedPaid demux (daemonOk before).distinct cfg _ packet now
  refine ⟨?_,?_,totalMono (fun x mem => (peer mem).1),totalMono (fun x mem => (peer mem).2),?_⟩
  · refine @queueBalance turn stun srv o (newNonceAuth d) (fun out => count (replied out) + count (toPeer out)) (fun _ => 1) 1
      (fun e => count (fromClient e)) (fun _ => rfl) ?_ (fun _ => Nat.le_refl 1) (fun _ _ _ => Nat.le_refl _) h s run ?_
    · intro r
      exact countOnce (.inr rfl)
    · intro x mem i now env c event queued
      have once := (paid mem now env queued).once
      rw [event]
      simp only [output,queued,replied,toPeer]
      refine countOnce ?_
      rcases once with none | none
      · exact .inl (by rw [none]; rfl)
      · exact .inr (by rw [none]; rfl)
  · refine @queueBalance turn stun srv o (newNonceAuth d) (fun out => size (toPeer out) + 4 * count (toPeer out))
      (fun c => c.buf.length) 0 (fun e => size (fromClient e)) (fun _ => rfl) (fun _ => Nat.le_refl 0) (fun _ => Nat.zero_le _)
      (fun _ _ packet => List.length_take_le' 2048 packet) h s run ?_
    intro x mem i now env c event queued
    have inside := (paid mem now env queued).sent
    rw [event]
    simp only [output,queued,toPeer]
    cases sent : (serveConn turn stun srv env now x.pre.nonces x.pre.alloc.toAllocator c).2.handled.sent with
    | none => exact Nat.zero_le _
    | some w => exact inside w sent
  · intro x mem r dst sent
    exact replyLimit lib sizes manager run mem sent

/- A peer writes to a client with an allocation, that is then permitted to answer. -/
def sampleEvents : List Daemon.Event :=
  [.service (.receive PeerFilter.sampleClient PeerFilter.allocatePacket),
    .service (.allocate 1 0 1 ⟨sampleRandom,.ok ⟨sampleRelayed,17,1⟩⟩),
    .service (.answer 1 (.ok ⟨sampleRelayed,17,1⟩)),.service (.install 1),
    .peerData ⟨sampleTuple,1,2048⟩ [1,2] samplePeer (some (List.replicate 12 7)),
    .service (.receive PeerFilter.sampleClient PeerFilter.permissionPacket),.service (.serve 0 1 ⟨sampleRandom,.error .listen⟩),
    .service (.receive PeerFilter.sampleClient PeerFilter.sendPacket),.service (.serve 0 2 ⟨sampleRandom,.error .listen⟩)]

def sampleEnd : List (Step (Daemon.State NonceAuth) Daemon.Event) × Daemon.State NonceAuth :=
  trace openProcess [] openProcess.start sampleEvents

def sampleOutput (x : Step (Daemon.State NonceAuth) Daemon.Event) : Output :=
  output .documented Codec.wire PeerFilter.openServer x.pre x.event

theorem trafficBoundedSample : Bounded .documented Codec.wire PeerFilter.openServer sampleEnd.1 ∧
    total (fun x => count (replied (sampleOutput x)) + count (toPeer (sampleOutput x))) sampleEnd.1 = 3 ∧
    total (fun x => size (toPeer (sampleOutput x))) sampleEnd.1 = 2 ∧
    total (fun x => size (toClient (sampleOutput x))) sampleEnd.1 = 48 := by
  have run : Run openProcess sampleEnd.1 sampleEnd.2 := traceStart (m := openProcess) sampleEvents (by decide +kernel)
  refine ⟨trafficBounded (codecAdding Codec.noHashes) (codecSizes (fun _ _ => Nat.zero_le _)) (Transparency.codecDemux Codec.noHashes)
    rfl run,by decide +kernel,by decide +kernel,by decide +kernel⟩

end Gortcd.Traffic
