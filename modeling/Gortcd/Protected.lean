import Gortcd.Authentication
import Gortcd.Congruence

/-! Attributes after MESSAGE-INTEGRITY. A request is read through `Get`, which returns the
first attribute of a type wherever it stands, so an attribute that is appended after the
signed part takes effect exactly when the signed part has none of its type. -/
namespace Gortcd.Protected
open Keyed Net Ports Sections Calls Messages Filters Auth Handlers Effects Congruence

def first (type : UInt16) (m : Message) : Option RawAttribute := m.attributes.find? (fun a => a.type == type)

-- USERNAME, REALM and NONCE, which the checks before a handler read.
def credentialTypes : List UInt16 := [0x0006,0x0014,0x0015]

/- REQUESTED-TRANSPORT, LIFETIME, XOR-PEER-ADDRESS and CHANNEL-NUMBER, where a handler reads them. -/
def handlerTypes : Method → List UInt16
  | .allocate => [0x0019]
  | .refresh => [0x000d]
  | .createPermission => [0x0012,0x000d]
  | .channelBind => [0x0012,0x000c]
  | _ => []

def readTypes (m : Message) : List UInt16 := credentialTypes ++ handlerTypes m.type.method

/- The getters of the library look at the first attribute of their type; an address is
masked with the transaction ID. -/
structure FirstOnly (stun : Stun) : Prop where
  username : ∀ m n, first 0x0006 m = first 0x0006 n → stun.get m .username = stun.get n .username
  realm : ∀ m n, first 0x0014 m = first 0x0014 n → stun.get m .realm = stun.get n .realm
  nonce : ∀ m n, first 0x0015 m = first 0x0015 n → stun.nonce m = stun.nonce n
  requestedTransport : ∀ m n, first 0x0019 m = first 0x0019 n → stun.requestedTransport m = stun.requestedTransport n
  lifetime : ∀ m n, first 0x000d m = first 0x000d n → stun.lifetime m = stun.lifetime n
  peerAddress : ∀ m n, m.transactionID = n.transactionID → first 0x0012 m = first 0x0012 n →
    stun.peerAddress m = stun.peerAddress n
  channelNumber : ∀ m n, first 0x000c m = first 0x000c n → stun.channelNumber m = stun.channelNumber n

/- The same message up to and including MESSAGE-INTEGRITY. -/
structure SameSigned (m n : Message) (signed later others : List RawAttribute) : Prop where
  type : m.type = n.type
  transactionID : m.transactionID = n.transactionID
  integrity : ∃ before mac, signed = before ++ [⟨0x0008,mac⟩] ∧ ∀ a ∈ before, a.type ≠ 0x0008
  left : m.attributes = signed ++ later
  right : n.attributes = signed ++ others

/- No appended attribute is the first of a type that is read from the message. -/
def Shadowed (m : Message) (signed later : List RawAttribute) : Prop :=
  ∀ a ∈ later, a.type ∈ readTypes m → ∃ b ∈ signed, b.type = a.type

variable {ν : Type} {turn : Turn} {stun : Stun} {srv : Server ν} {env : Env} {nonces : ν} {allocs : Allocator}
  {m n : Message} {signed later others : List RawAttribute}

theorem shadowedFirst {type : UInt16} (shadowed : Shadowed m signed later) (read : type ∈ readTypes m) :
    (signed ++ later).find? (fun a => a.type == type) = signed.find? (fun a => a.type == type) := by
  rw [List.find?_append]
  cases found : signed.find? (fun a => a.type == type) with
  | some a => rfl
  | none =>
    rw [Option.none_or,List.find?_eq_none]
    intro a mem same
    have own : a.type = type := by simpa using same
    obtain ⟨b,inside,typed⟩ := shadowed a mem (own ▸ read)
    exact List.find?_eq_none.mp found b inside (by simp [typed,own])

theorem sameFirst (same : SameSigned m n signed later others) (left : Shadowed m signed later)
    (right : Shadowed n signed others) {type : UInt16} (read : type ∈ readTypes m) : first type m = first type n := by
  have alike : readTypes n = readTypes m := by
    unfold readTypes
    rw [same.type]
  unfold first
  rw [same.left,same.right,shadowedFirst left read,shadowedFirst right (alike ▸ read)]

theorem signedAlike (lib : FirstOnly stun) (same : SameSigned m n signed later others) (request : m.type.cls = .request)
    (left : Shadowed m signed later) (right : Shadowed n signed others) : ReadsAlike stun m n := by
  have handled {type : UInt16} {t : MessageType} (own : n.type = t) (listed : type ∈ handlerTypes t.method) :
      first type m = first type n := by
    refine sameFirst same left right (List.mem_append_right _ ?_)
    rw [same.type,own]
    exact listed
  have noIndication (own : n.type = ⟨.send,.indication⟩) : False := by
    rw [same.type,own] at request
    cases request
  refine ⟨same.type,same.transactionID,?_,?_,?_,?_,?_⟩
  · intro own
    exact lib.requestedTransport m n (handled own (by decide))
  · intro own
    rcases own with own | own
    · exact lib.lifetime m n (handled own (by decide))
    · exact lib.lifetime m n (handled own (by decide))
  · intro own
    rcases own with own | own | own
    · exact lib.peerAddress m n same.transactionID (handled own (by decide))
    · exact lib.peerAddress m n same.transactionID (handled own (by decide))
    · exact (noIndication own).elim
  · intro own
    exact lib.channelNumber m n (handled own (by decide))
  · intro own
    exact (noIndication own).elim

def Admission.passes : Admission → Bool
  | .pass _ => true
  | _ => false

/- The context of a message that has passed the checks before its handler. -/
inductive Admits (stun : Stun) (srv : Server ν) (env : Env) (nonces : ν) (ctx : Context) (m : Message) : Context → Prop where
  | free (free : needAuth srv { ctx with request := m, realm := ctx.cfg.realm } = false ∨ srv.auth = none) :
      Admits stun srv env nonces ctx m { ctx with request := m, realm := ctx.cfg.realm }
  | signed {auth value integrity} (need : needAuth srv { ctx with request := m, realm := ctx.cfg.realm } = true)
      (configured : srv.auth = some auth) (nonce : NonceOf stun ctx m value) (verified : auth m = .ok integrity) :
      Admits stun srv env nonces ctx m { ctx with
        request := m, realm := ctx.cfg.realm, integrity := integrity,
        nonce := (srv.nonce.check nonces env.random ctx.tuple value ctx.time).2.1 }

theorem authenticatePasses {c d : Context} {auth : Message → Except AuthErr Bytes}
    (pass : (authenticate stun srv env nonces c auth).2 = .pass d) :
    ∃ integrity, auth c.request = .ok integrity ∧ d = { c with
      integrity := integrity, nonce := (srv.nonce.check nonces env.random c.tuple c.nonce c.time).2.1 } := by
  unfold authenticate at pass
  dsimp only at pass
  split at pass <;> try contradiction
  split at pass <;> try contradiction
  split at pass <;> try contradiction
  split at pass <;> try contradiction
  rename_i integrity verified
  cases pass
  exact ⟨integrity,verified,rfl⟩

theorem admits {ctx c : Context} (decode : stun.decode ctx.request = (m,none))
    (pass : (admission stun srv env nonces ctx).2 = .pass c) : Admits stun srv env nonces ctx m c := by
  unfold admission at pass
  rw [decode] at pass
  dsimp only at pass
  split at pass <;> try contradiction
  split at pass
  · rename_i auth need configured
    split at pass <;> try contradiction
    · rename_i value read
      obtain ⟨integrity,verified,rfl⟩ := authenticatePasses pass
      exact .signed need configured (.inl read) verified
    · rename_i missing
      obtain ⟨integrity,verified,rfl⟩ := authenticatePasses pass
      exact .signed need configured (.inr ⟨missing,rfl⟩) verified
  · rename_i free
    cases pass
    refine .free ?_
    cases need : needAuth srv { ctx with request := m, realm := ctx.cfg.realm } with
    | false => exact .inl rfl
    | true => cases configured : srv.auth with
      | none => exact .inr rfl
      | some auth => exact (free auth need configured).elim

theorem verifiedSame {s : Static} {i j : Bytes} (username : stun.get m .username = stun.get n .username)
    (realm : stun.get m .realm = stun.get n .realm) (left : s.auth stun m = .ok i) (right : s.auth stun n = .ok j) :
    i = j := by
  unfold Static.auth at left right
  rw [username,realm] at left
  cases user : stun.get n .username with
  | error e => simp [user] at right
  | ok u => cases domain : stun.get n .realm with
    | error e => simp [user,domain] at right
    | ok r => cases held : s.credentials ⟨u,r⟩ with
      | none => simp [user,domain,held] at right
      | some key =>
        simp only [user,domain,held] at left right
        split at left <;> try contradiction
        split at right <;> try contradiction
        exact (Except.ok.inj left).symm.trans (Except.ok.inj right)

theorem nonceSame {ctx d : Context} {v w : Bytes} (nonce : stun.nonce m = stun.nonce n) (held : ctx.nonce = d.nonce)
    (left : NonceOf stun ctx m v) (right : NonceOf stun d n w) : v = w := by
  unfold NonceOf at left
  rw [nonce,held] at left
  rcases left with read | ⟨none,rfl⟩ <;> rcases right with read' | ⟨none',rfl⟩
  · exact Except.ok.inj (read.symm.trans read')
  · cases read.symm.trans none'
  · cases none.symm.trans read'
  · rfl

/- Another packet in the same context: the same client, time and configuration. -/
def arrived (ctx : Context) (r : Message) (k : ChannelData) (b : Bytes) : Context :=
  { ctx with request := r, cdata := k, buf := b }

section Twins
variable {ctx c d : Context} {r r' : Message} {k k' : ChannelData} {b b' : Bytes} {credentials : List StaticCredential}

theorem admitsAlike (lib : FirstOnly stun) (configured : srv.auth = some ((newStatic stun credentials).auth stun))
    (same : SameSigned m n signed later others) (request : m.type.cls = .request) (left : Shadowed m signed later)
    (right : Shadowed n signed others) (one : Admits stun srv env nonces (arrived ctx r k b) m c)
    (two : Admits stun srv env nonces (arrived ctx r' k' b') n d) : Alike stun c d := by
  have reads := signedAlike lib same request left right
  have credential {type : UInt16} (listed : type ∈ credentialTypes) : first type m = first type n :=
    sameFirst same left right (List.mem_append_left _ listed)
  have needed : needAuth srv { arrived ctx r k b with request := m, realm := ctx.cfg.realm } =
      needAuth srv { arrived ctx r' k' b' with request := n, realm := ctx.cfg.realm } := by
    unfold needAuth
    dsimp only [arrived]
    rw [same.type]
    rfl
  have spared (free : needAuth srv { arrived ctx r k b with request := m, realm := ctx.cfg.realm } = false ∨ srv.auth = none)
      (need : needAuth srv { arrived ctx r' k' b' with request := n, realm := ctx.cfg.realm } = true) : False := by
    rcases free with free | none
    · cases free.symm.trans (needed.trans need)
    · cases none.symm.trans configured
  have alike (v i : Bytes) : Alike stun
      { arrived ctx r k b with request := m, realm := ctx.cfg.realm, integrity := i, nonce := v }
      { arrived ctx r' k' b' with request := n, realm := ctx.cfg.realm, integrity := i, nonce := v } :=
    ⟨reads,fun _ _ => rfl,rfl,rfl,rfl,rfl,rfl,rfl,rfl,rfl,rfl,rfl⟩
  cases one with
  | free free => cases two with
    | free => exact alike ctx.nonce ctx.integrity
    | signed need => exact (spared free need).elim
  | signed need own nonce verified => cases two with
    | free free =>
      rcases free with free | none
      · cases free.symm.trans (needed.symm.trans need)
      · cases none.symm.trans configured
    | signed _ own' nonce' verified' =>
      cases configured.symm.trans own
      cases configured.symm.trans own'
      have value := nonceSame (lib.nonce m n (credential (by decide))) rfl nonce nonce'
      have key := verifiedSame (lib.username m n (credential (by decide))) (lib.realm m n (credential (by decide)))
        verified verified'
      subst value key
      exact alike _ _

theorem passesCase {a : Admission} (pass : Admission.passes a = true) : ∃ c, a = .pass c := by
  cases a with
  | pass c => exact ⟨c,rfl⟩
  | silent c => cases pass
  | refuse c code => cases pass

/- Two requests that differ only after their MESSAGE-INTEGRITY, in attributes that are
not the first of a type that is read. -/
theorem shadowedIgnored (lib : FirstOnly stun) (configured : srv.auth = some ((newStatic stun credentials).auth stun))
    (framed : stun.isMessage r.raw = true) (framed' : stun.isMessage r'.raw = true) (decode : stun.decode r = (m,none))
    (decode' : stun.decode r' = (n,none)) (request : m.type.cls = .request)
    (passes : Admission.passes (admission stun srv env nonces (arrived ctx r k b)).2 = true)
    (passes' : Admission.passes (admission stun srv env nonces (arrived ctx r' k' b')).2 = true)
    (same : SameSigned m n signed later others) (left : Shadowed m signed later) (right : Shadowed n signed others) :
    (process turn stun srv env nonces allocs (arrived ctx r k b)).2.allocs =
      (process turn stun srv env nonces allocs (arrived ctx r' k' b')).2.allocs ∧
    (process turn stun srv env nonces allocs (arrived ctx r k b)).2.reply =
      (process turn stun srv env nonces allocs (arrived ctx r' k' b')).2.reply := by
  obtain ⟨c,pass⟩ := passesCase passes
  obtain ⟨d,pass'⟩ := passesCase passes'
  have alike := admitsAlike lib configured same request left right (admits decode pass) (admits decode' pass')
  have equal := @handleEqual turn stun env allocs c d alike
  rw [passedProcess framed pass,passedProcess framed' pass']
  exact ⟨equal.allocs,equalReply equal⟩

end Twins
theorem codecFirstOnly (hashes : Codec.Hashes) : FirstOnly (Codec.documented hashes) := by
  have got {type : UInt16} {m n : Message} (same : first type m = first type n) : Codec.get m type = Codec.get n type := by
    unfold Codec.get
    unfold first at same
    rw [same]
  have read {α : Type} {type : UInt16} {m n : Message} (f : Bytes → Except LibErr α) (same : first type m = first type n) :
      Codec.reading m type f = Codec.reading n type f := by
    unfold Codec.reading
    rw [got same]
  refine ⟨?_,?_,?_,?_,?_,?_,?_⟩
  · intro m n same
    exact got same
  · intro m n same
    exact got same
  · intro m n same
    exact got same
  · intro m n same
    exact read _ same
  · intro m n same
    exact read _ same
  · intro m n id same
    have address : (fun v => Codec.readXorAddress v m) = fun v => Codec.readXorAddress v n := by
      unfold Codec.readXorAddress
      rw [id]
    exact (read _ same).trans (congrArg (Codec.reading n 0x0012) address)
  · intro m n same
    exact read _ same

/- A Refresh request without LIFETIME, signed by the sample credential. -/
def refreshSigned : Bytes :=
  [0x00,0x04,0x00,0x48,0x21,0x12,0xa4,0x42,0x01,0x02,0x03,0x04,0x05,0x06,0x07,0x08,0x09,0x0a,0x0b,0x0c,
   0x00,0x06,0x00,0x04,0x75,0x73,0x65,0x72,0x00,0x14,0x00,0x05,0x72,0x65,0x61,0x6c,0x6d,0x00,0x00,0x00,
   0x00,0x15,0x00,0x18,0x30,0x30,0x30,0x31,0x30,0x32,0x30,0x33,0x30,0x34,0x30,0x35,0x30,0x36,0x30,0x37,
   0x30,0x38,0x30,0x39,0x30,0x61,0x30,0x62]

def refreshDigest : Bytes :=
  [0x80,0x2d,0xee,0x91,0x0b,0xdb,0xd1,0x78,0xca,0x28,0xc1,0x4b,0xe0,0xe8,0x30,0xb8,0x61,0xbf,0x4b,0x81]

def refreshHashes : Codec.Hashes :=
  { Authentication.sampleHashes with
    hmac := fun key input => if key = Authentication.sampleKey ∧ input = refreshSigned then refreshDigest else [] }

def refreshStun : Stun := Codec.documented refreshHashes

def refreshServer : Server NonceAuth :=
  ⟨sampleServer,some ((newStatic refreshStun [Authentication.sampleCredential]).auth refreshStun),NonceAuth.manager .documented⟩

/- The signed request with attributes appended; the length field counts them. -/
def refreshPacket (later : Bytes) : Message :=
  { emptyMessage with
    raw := [0x00,0x04] ++ Codec.word (72 + later.length) ++ refreshSigned.drop 4 ++ [0x00,0x08,0x00,0x14] ++ refreshDigest ++
      later }

-- LIFETIME with 600 s, and SOFTWARE with one byte.
def laterLifetime : Bytes := [0x00,0x0d,0x00,0x04,0x00,0x00,0x02,0x58]
def laterSoftware : Bytes := [0x80,0x22,0x00,0x01,0x61,0x00,0x00,0x00]

def refreshContext (r : Message) : Context :=
  arrived { Context.fresh Authentication.sampleConfig with tuple := sampleTuple, time := 5 } r emptyChannelData []

def refreshAllocs : Allocator := (Allocator.empty.new .documented sampleTuple 60 (.ok ⟨sampleRelayed,17,1⟩)).1

def refreshNonces : NonceAuth := ⟨0,[⟨sampleTuple,Authentication.sampleNonce,0⟩]⟩

def refreshEnv : Env := ⟨[],.error .listen⟩

def refreshProcess (later : Bytes) : NonceAuth × Handled :=
  process .documented refreshStun refreshServer refreshEnv refreshNonces refreshAllocs (refreshContext (refreshPacket later))

def refreshMessage (later : Bytes) : Message := (refreshStun.decode (refreshPacket later)).1

def refreshPasses (later : Bytes) : Bool :=
  Admission.passes (admission refreshStun refreshServer refreshEnv refreshNonces (refreshContext (refreshPacket later))).2

theorem refreshSameSigned {later : Bytes} {others : List RawAttribute}
    (type : (refreshMessage []).type = (refreshMessage later).type)
    (id : (refreshMessage []).transactionID = (refreshMessage later).transactionID)
    (right : (refreshMessage later).attributes = (refreshMessage []).attributes ++ others) :
    SameSigned (refreshMessage []) (refreshMessage later) (refreshMessage []).attributes [] others := by
  refine ⟨type,id,⟨(refreshMessage []).attributes.dropLast,refreshDigest,?_,?_⟩,(List.append_nil _).symm,right⟩
  · decide +kernel
  · decide +kernel

theorem shadowedIgnoredSample : refreshPasses [] = true ∧ refreshPasses laterSoftware = true ∧
    (refreshProcess []).2.allocs = (refreshProcess laterSoftware).2.allocs ∧
    (refreshProcess []).2.reply = (refreshProcess laterSoftware).2.reply := by
  have passes : refreshPasses [] = true := by decide +kernel
  have passes' : refreshPasses laterSoftware = true := by decide +kernel
  have same : SameSigned (refreshMessage []) (refreshMessage laterSoftware) (refreshMessage []).attributes []
      [⟨0x8022,[0x61]⟩] := refreshSameSigned (by decide +kernel) (by decide +kernel) (by decide +kernel)
  have unread : Shadowed (refreshMessage laterSoftware) (refreshMessage []).attributes [⟨0x8022,[0x61]⟩] := by
    intro a mem read
    cases List.mem_singleton.mp mem
    revert read
    decide +kernel
  refine ⟨passes,passes',?_⟩
  exact shadowedIgnored (codecFirstOnly refreshHashes) rfl (by decide +kernel) (by decide +kernel)
    (Prod.ext rfl (by decide +kernel)) (Prod.ext rfl (by decide +kernel)) (by decide +kernel) passes passes' same
    (List.forall_mem_nil _) unread

/- The appended LIFETIME turns a removal into a refresh. -/
theorem appendedLifetimeHonoured :
    SameSigned (refreshMessage []) (refreshMessage laterLifetime) (refreshMessage []).attributes []
      [⟨0x000d,[0x00,0x00,0x02,0x58]⟩] ∧
    refreshStun.decode (refreshPacket []) = (refreshMessage [],none) ∧
    refreshStun.decode (refreshPacket laterLifetime) = (refreshMessage laterLifetime,none) ∧
    (refreshMessage []).type.cls = .request ∧ refreshPasses [] = true ∧ refreshPasses laterLifetime = true ∧
    (refreshProcess []).2.allocs.allocs = [] ∧
    (refreshProcess laterLifetime).2.allocs.allocs.map Allocation.timeout = [5 + 600 * second] ∧
    (refreshProcess []).2.allocs ≠ (refreshProcess laterLifetime).2.allocs := by
  refine ⟨refreshSameSigned (by decide +kernel) (by decide +kernel) (by decide +kernel),Prod.ext rfl (by decide +kernel),
    Prod.ext rfl (by decide +kernel),by decide +kernel,by decide +kernel,by decide +kernel,by decide +kernel,
    by decide +kernel,by decide +kernel⟩

end Gortcd.Protected
