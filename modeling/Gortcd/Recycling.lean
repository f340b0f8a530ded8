import Gortcd.Authentication
import Gortcd.Congruence
import Gortcd.Responses

/-! internal/server/context.go: the pool of contexts. A context is reset after its packet and
serves another one, of any client. The library's `Reset` leaves the type and the transaction ID
of a message and the number of a ChannelData as they were, so these must be written before they
are read. Slices are values here: `Nonce.GetFrom` points `ctx.nonce` at the request, and `Check`
keeps none of the bytes it is given. -/
namespace Gortcd.Recycling
open Keyed Net Ports Sections Calls Messages Filters Auth Handlers Congruence

variable {ν : Type} {turn : Turn} {stun : Stun} {srv : Server ν} {env : Env} {nonces : ν} {allocs : Allocator}

/- `config{}`. Its filters are nil; no packet is served before `worker` sets the configuration. -/
def zeroConfig : Config := ⟨[],0,0,false,[],fun _ => .deny,fun _ => .deny⟩

def bufSize : Nat := 2048

/- The `New` of `contextPool`. -/
def newContext : Context := { Context.fresh zeroConfig with buf := List.replicate bufSize 0 }

def reset (stun : Stun) (c : Context) : Context :=
  let c := { c with
    addr := .other ""
    conn := 0
    cfg := zeroConfig
    time := 0
    client := ⟨[],0⟩
    server := ⟨[],0⟩
    request := stun.reset c.request
    response := stun.reset c.response
    cdata := stun.resetChannelData c.cdata
    proto := 0 }
  { c.setTuple with
    nonce := []
    realm := []
    integrity := []
    buf := List.replicate bufSize 0 }

/- What `worker` writes into the context of a packet that it read. -/
def prepare (srv : Server ν) (cfg : Config) (conn : Conn) (addr : NetAddr) (packet : Bytes) (c : Context) : Context :=
  { c with conn := conn, buf := packet.take bufSize, addr := addr, server := srv.addr, cfg := cfg }

/- The contexts that `acquireContext` can return: each cycle serves some packet, of some
server, in some state, with whatever outcome. -/
inductive Recycled (stun : Stun) : Context → Prop where
  | new : Recycled stun newContext
  | cycle {ν : Type} (turn : Turn) (srv : Server ν) (env : Env) (now : Time) (nonces : ν) (allocs : Allocator) (cfg : Config)
      (conn : Conn) (addr : NetAddr) (packet : Bytes) {c : Context} (recycled : Recycled stun c) :
      Recycled stun (reset stun
        (serveConn turn stun srv env now nonces allocs (prepare srv cfg conn addr packet c)).2.handled.ctx)

/- What is left of a packet once its context is back in the pool. -/
structure Observed (ν : Type) where
  nonces : ν
  allocs : Allocator
  sent : Option Write
  response : Option (Conn × NetAddr × Bytes)

def observed (out : ν × Served) : Observed ν :=
  ⟨out.1,out.2.handled.allocs,out.2.handled.sent,
    out.2.response.map (fun raw => (out.2.handled.ctx.conn,out.2.handled.ctx.addr,raw))⟩

/- `Reset` empties a message; `Decode` reads a message or ChannelData from its raw bytes only. -/
structure Rereads (stun : Stun) : Prop where
  reset : ∀ m, stun.reset m = { m with length := 0, attributes := [], raw := [] }
  decode : ∀ m n, m.raw = n.raw → (stun.decode m).2 = (stun.decode n).2 ∧
    ((stun.decode m).2 = none → stun.decode m = stun.decode n)
  decodeChannelData : ∀ c d, c.raw = d.raw → (stun.decodeChannelData c).2 = (stun.decodeChannelData d).2 ∧
    ((stun.decodeChannelData c).2 = none → stun.decodeChannelData c = stun.decodeChannelData d)

/- The context with other leftovers in the response and the ChannelData. -/
def leftover (c : Context) (r : Message) (k : ChannelData) : Context := { c with response := r, cdata := k }

section Leftovers
variable {c : Context} {r : Message} {k : ChannelData}

theorem leftoverAlike (lib : Rereads stun) (empty : c.response.raw = [] ∧ r.raw = []) : Alike stun (leftover c r k) c where
  reads := readsSame c.request
  emptied _ _ := by
    simp only [leftover,lib.reset]
  raw := empty.2.trans empty.1.symm
  conn := rfl
  addr := rfl
  cfg := rfl
  time := rfl
  client := rfl
  tuple := rfl
  nonce := rfl
  realm := rfl
  integrity := rfl

/- The context with another request before the real one is read. -/
def unread (c : Context) (m : Message) (r : Message) (k : ChannelData) : Context :=
  { c with request := m, response := r, cdata := k }

/- Both runs of the checks end alike, with the leftovers where they were. -/
inductive Admitted (c : Context) (r : Message) (k : ChannelData) : Admission → Admission → Prop where
  | silent {m n : Message} : Admitted c r k (.silent (unread c m r k)) (.silent { c with request := n })
  | refuse {d : Context} (same : d.response = c.response) (code : ErrorCode) :
      Admitted c r k (.refuse (leftover d r k) code) (.refuse d code)
  | pass {d : Context} (same : d.response = c.response) : Admitted c r k (.pass (leftover d r k)) (.pass d)

theorem authenticateAdmitted {d : Context} (same : d.response = c.response) {auth : Message → Except AuthErr Bytes} :
    (authenticate stun srv env nonces (leftover d r k) auth).1 = (authenticate stun srv env nonces d auth).1 ∧
    Admitted c r k (authenticate stun srv env nonces (leftover d r k) auth).2
      (authenticate stun srv env nonces d auth).2 := by
  unfold authenticate
  have check : srv.nonce.check nonces env.random (leftover d r k).tuple (leftover d r k).nonce (leftover d r k).time =
    srv.nonce.check nonces env.random d.tuple d.nonce d.time := rfl
  simp only [check]
  generalize srv.nonce.check nonces env.random d.tuple d.nonce d.time = out
  by_cases failed : out.2.2 = some .other
  · rw [if_pos failed,if_pos failed]
    exact ⟨rfl,.refuse same _⟩
  · rw [if_neg failed,if_neg failed]
    by_cases unsigned : stun.get d.request .messageIntegrity = .error .attributeNotFound
    · rw [if_pos unsigned,if_pos (show stun.get (leftover d r k).request _ = _ from unsigned)]
      exact ⟨rfl,@Admitted.refuse c r k { d with nonce := out.2.1 } same .unauthorized⟩
    · rw [if_neg unsigned,if_neg (show ¬ stun.get (leftover d r k).request _ = _ from unsigned)]
      by_cases stale : out.2.2 = some .stale
      · rw [if_pos stale,if_pos stale]
        exact ⟨rfl,@Admitted.refuse c r k { d with nonce := out.2.1 } same .staleNonce⟩
      · rw [if_neg stale,if_neg stale]
        have request : (leftover d r k).request = d.request := rfl
        rw [request]
        cases auth d.request with
        | ok key => exact ⟨rfl,@Admitted.pass c r k { d with nonce := out.2.1, integrity := key } same⟩
        | error e => exact ⟨rfl,@Admitted.refuse c r k { d with nonce := out.2.1 } same .unauthorized⟩

theorem admissionAdmitted (lib : Rereads stun) {m : Message} (raw : m.raw = c.request.raw) :
    (admission stun srv env nonces (unread c m r k)).1 = (admission stun srv env nonces c).1 ∧
    Admitted c r k (admission stun srv env nonces (unread c m r k)).2 (admission stun srv env nonces c).2 := by
  obtain ⟨err,ok⟩ := lib.decode m c.request raw
  unfold admission
  have request : (unread c m r k).request = m := rfl
  rw [request]
  cases decode : stun.decode c.request with
  | mk n e => cases e with
    | some e =>
      rw [decode] at err
      have split : stun.decode m = ((stun.decode m).1,some e) := Prod.ext rfl err
      rw [split]
      exact ⟨rfl,.silent⟩
    | none =>
      rw [decode] at err ok
      rw [ok err]
      dsimp only
      have same : ({ unread c m r k with request := n, realm := (unread c m r k).cfg.realm } : Context) =
        leftover { c with request := n, realm := c.cfg.realm } r k := rfl
      rw [same]
      have needed : needAuth srv (leftover { c with request := n, realm := c.cfg.realm } r k) =
        needAuth srv { c with request := n, realm := c.cfg.realm } := rfl
      rw [needed]
      have authenticated (value : Bytes) (auth : Message → Except AuthErr Bytes) :=
        @authenticateAdmitted ν stun srv env nonces c r k { c with request := n, realm := c.cfg.realm, nonce := value } rfl auth
      split
      · exact ⟨rfl,@Admitted.refuse c r k { c with request := n, realm := c.cfg.realm } rfl .badRequest⟩
      · split
        · cases stun.nonce n with
          | ok value => exact authenticated value _
          | error e => cases e with
            | attributeNotFound => exact authenticated c.nonce _
            | other text => exact ⟨rfl,@Admitted.refuse c r k { c with request := n, realm := c.cfg.realm } rfl .badRequest⟩
        · exact ⟨rfl,@Admitted.pass c r k { c with request := n, realm := c.cfg.realm } rfl⟩

theorem messageEqual (lib : Rereads stun) {m : Message} (raw : m.raw = c.request.raw)
    (empty : c.response.raw = [] ∧ r.raw = []) :
    (processMessage turn stun srv env nonces allocs (unread c m r k)).1 =
      (processMessage turn stun srv env nonces allocs c).1 ∧
    Equal (processMessage turn stun srv env nonces allocs (unread c m r k)).2
      (processMessage turn stun srv env nonces allocs c).2 := by
  have admitted := @admissionAdmitted ν stun srv env nonces c r k lib m raw
  unfold processMessage
  generalize admission stun srv env nonces (unread c m r k) = x at admitted
  generalize admission stun srv env nonces c = y at admitted
  obtain ⟨left,x⟩ := x
  obtain ⟨right,y⟩ := y
  obtain ⟨table,ends⟩ := admitted
  dsimp only at table ends
  subst table
  cases ends with
  | silent => exact ⟨rfl,rfl,rfl,rfl,empty.2.trans empty.1.symm,rfl,rfl⟩
  | refuse same code => exact ⟨rfl,errEqual (leftoverAlike lib ⟨same ▸ empty.1,empty.2⟩) allocs code⟩
  | pass same => exact ⟨rfl,handleEqual (leftoverAlike lib ⟨same ▸ empty.1,empty.2⟩)⟩

theorem processEqual (lib : Rereads stun) {m : Message} (raw : m.raw = c.request.raw) (data : k.raw = c.cdata.raw)
    (empty : c.response.raw = [] ∧ r.raw = []) :
    (process turn stun srv env nonces allocs (unread c m r k)).1 = (process turn stun srv env nonces allocs c).1 ∧
    Equal (process turn stun srv env nonces allocs (unread c m r k)).2 (process turn stun srv env nonces allocs c).2 := by
  have blank : r.raw = c.response.raw := empty.2.trans empty.1.symm
  have bytes : (unread c m r k).request.raw = c.request.raw := raw
  unfold process
  rw [bytes]
  split
  · exact messageEqual lib raw empty
  · split
    · refine ⟨rfl,?_⟩
      obtain ⟨err,ok⟩ := lib.decodeChannelData k c.cdata data
      have own : (unread c m r k).cdata = k := rfl
      simp only [processChannelData,own]
      cases decode : stun.decodeChannelData c.cdata with
      | mk d e => cases e with
        | some e =>
          rw [decode] at err
          have split : stun.decodeChannelData k = ((stun.decodeChannelData k).1,some e) := Prod.ext rfl err
          rw [split]
          exact ⟨rfl,rfl,rfl,blank,rfl,rfl⟩
        | none =>
          rw [decode] at err ok
          rw [ok err]
          have tuple : (unread c m r k).tuple = c.tuple := rfl
          simp only [tuple]
          cases sendBound turn allocs.allocs c.tuple d.number d.data with
          | ok w => exact ⟨rfl,rfl,rfl,blank,rfl,rfl⟩
          | error e => exact ⟨rfl,rfl,rfl,blank,rfl,rfl⟩
    · exact ⟨rfl,rfl,rfl,rfl,blank,rfl,rfl⟩

theorem equalObserved {h k : Handled} (equal : Equal h k) (nonces : ν) :
    observed (nonces,⟨h,h.reply⟩) = observed (nonces,⟨k,k.reply⟩) := by
  simp only [observed,equalReply equal,equal.allocs,equal.sent,equal.conn,equal.addr]

/- `serveConn` writes the raw bytes of the request and of the ChannelData before it reads them. -/
theorem arriveUnread {now : Time} {m : Message} :
    (∃ d e, (unread c m r k).arrive turn now = .error d ∧ c.arrive turn now = .error e) ∨
    ∃ n l e, (unread c m r k).arrive turn now = .ok (unread e n r l) ∧ c.arrive turn now = .ok e ∧
      n.raw = e.request.raw ∧ l.raw = e.cdata.raw ∧ e.response = c.response := by
  unfold Context.arrive
  have addr : (unread c m r k).addr = c.addr := rfl
  simp only [addr]
  cases c.addr with
  | other text => exact .inl ⟨_,_,rfl,rfl⟩
  | udp client =>
    dsimp only
    cases denied : !c.allowClient client with
    | true => exact .inl ⟨_,_,if_pos denied,if_pos denied⟩
    | false =>
      have allowed : ¬ (!c.allowClient client) = true := by
        rw [denied]
        exact Bool.false_ne_true
      refine .inr ⟨{ m with raw := c.buf },{ k with raw := c.buf },_,?_,if_neg allowed,rfl,rfl,rfl⟩
      exact if_neg allowed

theorem serveEqual (lib : Rereads stun) {now : Time} (m : Message) (empty : c.response.raw = [] ∧ r.raw = []) :
    observed (serveConn turn stun srv env now nonces allocs (unread c m r k)) =
      observed (serveConn turn stun srv env now nonces allocs c) := by
  unfold serveConn
  rcases @arriveUnread turn c r k now m with ⟨d,e,left,right⟩ | ⟨n,l,e,left,right,raw,data,response⟩
  · rw [left,right]
    rfl
  · rw [left,right]
    obtain ⟨table,equal⟩ := @processEqual ν turn stun srv env nonces allocs e r l lib n raw data ⟨response ▸ empty.1,empty.2⟩
    simp only [table]
    exact equalObserved equal _

end Leftovers

structure Blank (c : Context) : Prop where
  fields : c = unread newContext c.request c.response c.cdata
  response : c.response.raw = []

theorem resetBlank (lib : Rereads stun) (c : Context) : Blank (reset stun c) := by
  refine ⟨rfl,?_⟩
  have emptied : (reset stun c).response = stun.reset c.response := rfl
  rw [emptied,lib.reset]

theorem recycledBlank (lib : Rereads stun) {c : Context} (recycled : Recycled stun c) : Blank c := by
  cases recycled with
  | new => exact ⟨rfl,rfl⟩
  | cycle => exact resetBlank lib _

theorem blankServes (lib : Rereads stun) {c : Context} (blank : Blank c) {now : Time} {cfg : Config} {conn : Conn}
    {addr : NetAddr} {packet : Bytes} :
    observed (serveConn turn stun srv env now nonces allocs (prepare srv cfg conn addr packet c)) =
      observed (serveConn turn stun srv env now nonces allocs (prepare srv cfg conn addr packet newContext)) := by
  have prepared : prepare srv cfg conn addr packet c =
      unread (prepare srv cfg conn addr packet newContext) c.request c.response c.cdata := by
    rw [blank.fields]
    rfl
  rw [prepared]
  exact serveEqual lib c.request ⟨rfl,blank.response⟩

/- The contexts of the queue in the other modules are new ones; recycled ones do the same. -/
theorem acceptServes (lib : Rereads stun) {c : Context} (recycled : Recycled stun c) {now : Time} {cfg : Config}
    {addr : NetAddr} {packet : Bytes} :
    observed (serveConn turn stun srv env now nonces allocs (prepare srv cfg 0 addr packet c)) =
      observed (serveConn turn stun srv env now nonces allocs (accept srv cfg addr packet)) := by
  have new : prepare srv cfg 0 addr packet newContext = accept srv cfg addr packet := rfl
  rw [← new]
  exact blankServes lib (recycledBlank lib recycled)

/- A recycled context serves a packet as a new one does. -/
theorem recycledServes (lib : Rereads stun) {c : Context} (recycled : Recycled stun c) (turn : Turn) (srv : Server ν)
    (env : Env) (now : Time) (nonces : ν) (allocs : Allocator) (cfg : Config) (conn : Conn) (addr : NetAddr)
    (packet : Bytes) :
    observed (serveConn turn stun srv env now nonces allocs (prepare srv cfg conn addr packet c)) =
      observed (serveConn turn stun srv env now nonces allocs (prepare srv cfg conn addr packet newContext)) :=
  blankServes lib (recycledBlank lib recycled)

theorem codecRereads (hashes : Codec.Hashes) : Rereads (Codec.documented hashes) := by
  refine ⟨fun _ => rfl,?_,?_⟩
  · intro m n raw
    change (Codec.decode m).2 = (Codec.decode n).2 ∧ ((Codec.decode m).2 = none → Codec.decode m = Codec.decode n)
    simp only [Codec.decode,raw]
    split
    · exact ⟨rfl,nofun⟩
    · split
      · exact ⟨rfl,nofun⟩
      · split
        · exact ⟨rfl,nofun⟩
        · exact ⟨rfl,fun _ => rfl⟩
  · intro c d raw
    change (Codec.decodeChannelData c).2 = (Codec.decodeChannelData d).2 ∧
      ((Codec.decodeChannelData c).2 = none → Codec.decodeChannelData c = Codec.decodeChannelData d)
    simp only [Codec.decodeChannelData,raw]
    split
    · exact ⟨rfl,nofun⟩
    · exact ⟨rfl,fun _ => rfl⟩

def usedContext : Context :=
  reset Authentication.sampleStun (serveConn .documented Authentication.sampleStun Authentication.sampleAuthServer
    ⟨[],.ok ⟨sampleRelayed,17,1⟩⟩ 5 ⟨0,[⟨sampleTuple,Authentication.sampleNonce,0⟩]⟩ .empty
    (prepare Authentication.sampleAuthServer Authentication.sampleConfig 0 (.udp sampleTuple.client)
      Authentication.samplePacket newContext)).2.handled.ctx

def rebound (c : Context) : Observed NonceAuth :=
  let s := Responses.plain sampleServer
  observed (serveConn .documented Authentication.sampleStun s.srv s.env 7 s.nonces s.allocs
    (prepare s.srv s.cfg 1 (.udp samplePeer) Responses.sampleBinding c))

/- The transaction ID of the other client is still there, and is not in the answer. -/
theorem recycledServesSample : usedContext.request.transactionID ≠ newContext.request.transactionID ∧
    rebound usedContext = rebound newContext ∧
    (rebound newContext).response = some (1,.udp samplePeer,Responses.sampleAnswer) := by
  refine ⟨by decide +kernel,?_,by decide +kernel⟩
  exact recycledServes (codecRereads Authentication.sampleHashes)
    (.cycle .documented Authentication.sampleAuthServer _ 5 _ .empty Authentication.sampleConfig 0 (.udp sampleTuple.client)
      Authentication.samplePacket .new) _ _ _ _ _ _ _ _ _ _

end Gortcd.Recycling
