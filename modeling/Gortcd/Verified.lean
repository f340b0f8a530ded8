import Gortcd.Daemon
import Gortcd.Signatures
import Gortcd.Authentication

/-! What the process writes back to its clients, over whole runs. A reply decodes as a response
to the message it answers, with the realm of the configuration the packet was read under and the
right FINGERPRINT. If the message was authenticated, the reply is signed with the key of the
credentials it was signed with, and otherwise with none. -/
namespace Gortcd.Verified
open Keyed Net Ports Sections Calls Runs Messages Filters Auth Handlers Effects Responses Library Signatures Daemon

variable {ν : Type} {turn : Turn} {stun : Stun} {srv : Server ν} {env : Env} {nonces : ν}

def Authenticated (srv : Server ν) : Admission → Prop
  | .pass c => needAuth srv c = true
  | _ => False

structure Proven (srv : Server ν) (ctx : Context) (a : Admission) (c : Context) : Prop where
  realm : c.realm = ctx.cfg.realm
  checked : Authenticated srv a → ∃ auth, srv.auth = some auth ∧ auth c.request = .ok c.integrity
  unchecked : ¬ Authenticated srv a → c.integrity = ctx.integrity

theorem authenticateProven {ctx c₀ c : Context} {auth : Message → Except AuthErr Bytes} (configured : srv.auth = some auth)
    (needed : needAuth srv c₀ = true) (realm : c₀.realm = ctx.cfg.realm) (unsigned : c₀.integrity = ctx.integrity)
    (admits : Admits (authenticate stun srv env nonces c₀ auth).2 c) :
    Proven srv ctx (authenticate stun srv env nonces c₀ auth).2 c := by
  have refused {code : ErrorCode} {d : Context} (same : d.realm = ctx.cfg.realm ∧ d.integrity = ctx.integrity)
      (admits : Admits (.refuse d code) c) : Proven srv ctx (.refuse d code) c := by
    cases admits
    exact ⟨same.1,False.elim,fun _ => same.2⟩
  revert admits
  unfold authenticate
  dsimp only
  split
  · exact refused ⟨realm,unsigned⟩
  · split
    · exact refused ⟨realm,unsigned⟩
    · split
      · exact refused ⟨realm,unsigned⟩
      · split
        · rename_i integrity ok
          intro admits
          cases admits
          exact ⟨realm,fun _ => ⟨auth,configured,ok⟩,fun free => absurd needed free⟩
        · exact refused ⟨realm,unsigned⟩

theorem admissionProven {ctx c : Context} (admits : Admits (admission stun srv env nonces ctx).2 c) :
    Proven srv ctx (admission stun srv env nonces ctx).2 c := by
  have refused {code : ErrorCode} {d : Context} (same : d.realm = ctx.cfg.realm ∧ d.integrity = ctx.integrity)
      (admits : Admits (.refuse d code) c) : Proven srv ctx (.refuse d code) c := by
    cases admits
    exact ⟨same.1,False.elim,fun _ => same.2⟩
  revert admits
  unfold admission
  split
  · intro admits
    cases admits
  · dsimp only
    split
    · exact refused ⟨rfl,rfl⟩
    · split
      · rename_i auth needed configured
        split
        · exact authenticateProven configured needed rfl rfl
        · exact authenticateProven configured needed rfl rfl
        · exact refused ⟨rfl,rfl⟩
      · rename_i free
        intro admits
        cases admits
        refine ⟨rfl,fun needed => ?_,fun _ => rfl⟩
        cases configured : srv.auth with
        | none =>
          simp only [Authenticated,needAuth,configured,Option.isNone_none,if_true] at needed
          cases needed
        | some auth => exact (free auth needed configured).elim

structure Checkable (stun : Stun) (realm : Bytes) (m : Message) (r : Bytes) (k : Message) : Prop where
  decodes : stun.decode { emptyMessage with raw := r } = (k,none)
  cls : Response k.type.cls
  method : k.type.method = m.type.method
  transactionID : k.transactionID = m.transactionID
  realm : stun.get k .realm = .ok realm
  fingerprint : stun.checkFingerprint k = none

section Length

theorem shortCost {s : Setter} (short : Short s) : cost s ≤ 28 := by
  cases s <;> first | exact short.elim | exact Nat.le_of_ble_eq_true rfl

theorem fewCost {l : List Setter} (short : ∀ s ∈ l, Short s) : total cost l ≤ l.length * 28 := by
  induction l with
  | nil => exact Nat.le_refl _
  | cons s l ih =>
    obtain ⟨head,tail⟩ := List.forall_mem_cons.mp short
    have one := shortCost head
    have rest := ih tail
    simp only [total,List.length_cons]
    omega

theorem optionalCost (p : Prop) [Decidable p] (s : Setter) : total cost (if p then [s] else []) ≤ cost s := by
  split
  · exact Nat.le_refl _
  · exact Nat.zero_le _

theorem attributeDrawn {s : Setter} (adds : Attribute s) : Drawn s := by
  cases s <;> trivial

/- The length of a response: the header, the three texts, three attributes of the handler and
the two digests. -/
theorem builtLength (sizes : Sizes stun) {c : Context} {b n : Message} {s : List Setter} (short : ∀ x ∈ s, Short x)
    (few : s.length ≤ 3) (built : Built stun b (setters c s ++ [.fingerprint]) n) :
    n.raw.length ≤ 136 + taken c.nonce.length + taken c.realm.length + taken c.cfg.software.length := by
  have written := sizes.built built (fun x mem => attributeDrawn (settersAttributes short x mem))
  have software := optionalCost (c.cfg.software.length > 0) (.software c.cfg.software)
  have integrity := optionalCost (c.integrity.length > 0) (.integrity c.integrity)
  have handler := fewCost short
  have print : taken 4 = 8 := rfl
  have digest : taken 20 = 24 := rfl
  simp only [setters,totalAppend,total,cost] at written software integrity
  omega

end Length

theorem answeredChecked (lib : Reading stun) (sizes : Sizes stun) {c : Context} {h : Handled} (answers : Answers stun c h)
    (empty : c.response.raw = []) (decode : ∃ p, stun.decode p = (c.request,none)) {r : Bytes} (replied : h.reply = some r) :
    ∃ k, Checkable stun c.realm c.request r k ∧ stun.nonce k = .ok c.nonce ∧
      (c.integrity.length > 0 → stun.checkIntegrity c.integrity k = none) ∧
      (c.integrity = [] → stun.get k .messageIntegrity = .error .attributeNotFound) := by
  obtain ⟨p,decode⟩ := decode
  obtain ⟨cls,s,n,_,response,short,few,applied,rfl⟩ := answeredBuilt answers empty replied
  have attributes := settersAttributes (c := c) short
  have built : Built stun (begun stun c cls c.request.type.method) (setters c s ++ [.fingerprint]) n :=
    ⟨begunBlank lib.toAdding (lib.decodedID decode),applied⟩
  have texts : Texts c := by
    have done := (appliedExactly lib.toAdding (builtNil built.blank) List.not_mem_nil (settersPrint (c := c) short)).mp
      (by rw [applied])
    exact (settersAcceptable.mp done).1
  have fits : n.raw.length < 65536 := by
    have length := builtLength sizes short few built
    have nonce : taken c.nonce.length ≤ taken 764 := takenMono (Nat.le_succ_of_le texts.nonce) rfl
    have realm : taken c.realm.length ≤ taken 764 := takenMono (Nat.le_succ_of_le texts.realm) rfl
    have software : taken c.cfg.software.length ≤ taken 764 := takenMono (Nat.le_succ_of_le texts.software) rfl
    have longest : taken 764 = 768 := rfl
    omega
  have kept := builtKept lib.toBuilding built attributes
  have type : n.type = ⟨c.request.type.method,cls⟩ := kept.1
  have unsigned (rest : ∀ x ∈ s, Short x) : ∀ j, Setter.integrity j ∉ s := fun j mem => rest _ mem
  refine ⟨n,⟨lib.decodes built attributes fits ⟨p,_,decode,rfl⟩,by rw [type]; exact response,
    by rw [type],kept.2,?_,?_⟩,?_,?_,?_⟩
  · exact @Reading.realm stun lib _ [.nonce c.nonce] _ n c.realm built (by simp)
  · exact lib.fingerprint built (fun x mem => attributes x (List.mem_append_left _ mem)) (settersPrint short) fits
  · exact @Reading.nonce stun lib _ [] _ n c.nonce built nofun
  · intro signed
    have split' : setters c s ++ [.fingerprint] = ([.nonce c.nonce,.realm c.realm] ++
        (if c.cfg.software.length > 0 then [.software c.cfg.software] else []) ++ s) ++ [.integrity c.integrity,.fingerprint] := by
      simp only [setters,if_pos signed,List.append_assoc,List.cons_append,List.nil_append]
    rw [split'] at built attributes
    refine lib.integrity built (fun x mem => attributes x (List.mem_append_left _ mem)) ?_ fits
    intro j
    have other := unsigned short j
    split <;> simp [other]
  · intro bare
    refine lib.unsigned built (fun j mem => ?_)
    have other := unsigned short j
    rw [setters,bare] at mem
    split at mem <;> simp [other] at mem

theorem longTermKey (lib : Reading stun) (cred : StaticCredential) : (cred.integrity stun).length > 0 := by
  unfold StaticCredential.integrity
  split
  · assumption
  · exact List.length_pos_iff.mpr (lib.longTerm _ _ _)

/- How a reply stands to the message it answers: signed with the credentials that the message
was signed with, or not signed. -/
structure Signs (stun : Stun) (srv : Server ν) (l : List StaticCredential) (a : Admission) (m k : Message) : Prop where
  authenticated : Authenticated srv a → ∃ cred ∈ l, Authentic stun cred m ∧ stun.checkIntegrity (cred.integrity stun) k = none
  unauthenticated : ¬ Authenticated srv a → stun.get k .messageIntegrity = .error .attributeNotFound

/- In every run: each reply answers a packet that was read from the address it goes to. -/
theorem repliesVerify (lib : Reading stun) (sizes : Sizes stun) {l : List StaticCredential}
    (configured : ∀ auth, srv.auth = some auth → auth = (newStatic stun l).auth stun) {o : Options} {h s}
    (run : Run (Daemon.machine turn stun srv o nonces) h s) {x : Step (Daemon.State ν) Daemon.Event} (mem : x ∈ h) {r : Bytes}
    {dst : NetAddr} (sent : (output turn stun srv x.pre x.event).response = some (r,dst)) :
    ∃ y ∈ h, ∃ cfg packet ctx a m k, Ends x y ∧ Takes turn stun srv y cfg dst packet ctx a ∧ Read h cfg dst packet ∧
      stun.decode (received packet) = (m,none) ∧ Checkable stun cfg.realm m r k ∧ Signs stun srv l a m k := by
  obtain ⟨y,past,cfg,packet,ctx,a,c,out,ends,takes,read,empty,admits,answers,replied⟩ := (repliedRun run mem sent).source
  obtain ⟨i,now,env,event,queued,arrival,same⟩ := takes.taken
  have arrived := acceptArrived arrival
  subst same
  obtain ⟨m,decode,carried⟩ := admitsDecoded admits
  have proven := admissionProven admits
  obtain ⟨k,checkable,_,signed,unsigned⟩ := answeredChecked lib sizes answers (by rw [carried.response]; exact empty)
    ⟨ctx.request,by rw [carried.request]; exact decode⟩ replied
  rw [proven.realm,arrived.cfg,carried.request] at checkable
  refine ⟨y,past,cfg,packet,ctx,_,m,k,ends,takes,read,arrived.request ▸ decode,checkable,?_,?_⟩
  · intro authenticated
    obtain ⟨auth,given,ok⟩ := proven.checked authenticated
    rw [configured auth given] at ok
    obtain ⟨cred,listed,key,authentic⟩ := staticAuth ok
    rw [key] at signed
    exact ⟨cred,listed,carried.request ▸ authentic,signed (longTermKey lib cred)⟩
  · intro free
    exact unsigned ((proven.unchecked free).trans arrived.integrity)

/- A client asks for an allocation, is challenged, and asks again with its credentials. -/
def successSigned : Bytes :=
  [0x01,0x03,0x00,0x60,0x21,0x12,0xa4,0x42,0x01,0x02,0x03,0x04,0x05,0x06,0x07,0x08,0x09,0x0a,0x0b,0x0c,
   0x00,0x15,0x00,0x18,0x30,0x30,0x30,0x31,0x30,0x32,0x30,0x33,0x30,0x34,0x30,0x35,0x30,0x36,0x30,0x37,
   0x30,0x38,0x30,0x39,0x30,0x61,0x30,0x62,0x00,0x14,0x00,0x05,0x72,0x65,0x61,0x6c,0x6d,0x00,0x00,0x00,
   0x00,0x20,0x00,0x08,0x00,0x01,0x22,0xfb,0x2b,0x12,0xa4,0x40,0x00,0x16,0x00,0x08,0x00,0x01,0x32,0x9b,
   0x2b,0x12,0xa4,0x43,0x00,0x0d,0x00,0x04,0x00,0x00,0x00,0x3c]

def successDigest : Bytes :=
  [0x8d,0x60,0xab,0x54,0x3a,0xfd,0xe5,0xfb,0x34,0x92,0xde,0xa5,0x5e,0xbb,0xd0,0xd3,0xca,0xf5,0xf3,0x8a]

def sampleHashes : Codec.Hashes where
  hmac key input :=
    if key = Authentication.sampleKey ∧ input = Authentication.sampleSigned then Authentication.sampleDigest
    else if key = Authentication.sampleKey ∧ input = successSigned then successDigest
    else List.replicate 20 0
  md5 input :=
    if Authentication.sampleHashes.md5 input = [] then List.replicate 16 0 else Authentication.sampleHashes.md5 input

def sampleStun : Stun := Codec.documented sampleHashes

theorem sampleReading : Reading sampleStun := by
  refine codecReading (fun x => ?_)
  simp only [sampleHashes]
  split
  · simp
  · rename_i known
    exact known

theorem sampleSizes : Sizes sampleStun := by
  refine codecSizes (fun key input => ?_)
  simp only [sampleHashes]
  split
  · exact Nat.le_refl _
  · split <;> simp [successDigest]

def sampleRandom : Bytes := [0,1,2,3,4,5,6,7,8,9,10,11]

def sampleOptions : Options := ⟨[],Authentication.sampleCredential.realm,false,PeerFilter.sampleOptions.peerRule,allowAll⟩

def sampleServer' : Server NonceAuth :=
  ⟨sampleServer,some ((newStatic sampleStun [Authentication.sampleCredential]).auth sampleStun),NonceAuth.manager .documented⟩

abbrev sampleDaemon : Machine (Daemon.State NonceAuth) Daemon.Event :=
  Daemon.machine .documented sampleStun sampleServer' sampleOptions (newNonceAuth 0)

def challenging : List Daemon.Event :=
  [.service (.receive PeerFilter.sampleClient PeerFilter.allocatePacket),.service (.serve 0 1 ⟨sampleRandom,.error .listen⟩)]

def sampleSigning : List Daemon.Event := challenging ++
  [.service (.receive PeerFilter.sampleClient Authentication.samplePacket),
    .service (.allocate 1 0 2 ⟨sampleRandom,.ok ⟨sampleRelayed,17,1⟩⟩),
    .service (.answer 1 (.ok ⟨sampleRelayed,17,1⟩)),.service (.install 1)]

def signing : List (Step (Daemon.State NonceAuth) Daemon.Event) × Daemon.State NonceAuth :=
  trace sampleDaemon [] sampleDaemon.start sampleSigning

def installing : Step (Daemon.State NonceAuth) Daemon.Event :=
  ⟨(trace sampleDaemon [] sampleDaemon.start sampleSigning.dropLast).2,.service (.install 1)⟩

theorem repliesVerifySample : ∃ r k,
    (output .documented sampleStun sampleServer' installing.pre installing.event).response = some (r,PeerFilter.sampleClient) ∧
    sampleStun.decode { emptyMessage with raw := r } = (k,none) ∧
    sampleStun.checkIntegrity Authentication.sampleKey k = none ∧ sampleStun.checkFingerprint k = none := by
  have run := traceStart (m := sampleDaemon) sampleSigning (by decide +kernel)
  have listed : installing ∈ signing.1 := List.mem_cons_self
  obtain ⟨⟨r,dst⟩,sent,client⟩ := Option.map_eq_some_iff.mp (show
    (output .documented sampleStun sampleServer' installing.pre installing.event).response.map Prod.snd =
      some PeerFilter.sampleClient by decide +kernel)
  obtain ⟨y,_,cfg,packet,ctx,a,m,k,_,_,_,_,checkable,signs⟩ := repliesVerify sampleReading sampleSizes
    (fun auth given => (Option.some.inj given).symm) run listed sent
  have dst' : dst = PeerFilter.sampleClient := client
  subst dst'
  refine ⟨r,k,sent,checkable.decodes,?_,checkable.fingerprint⟩
  have attached : (output .documented sampleStun sampleServer' installing.pre installing.event).response.map (fun w =>
      (sampleStun.get (sampleStun.decode { emptyMessage with raw := w.1 }).1 .messageIntegrity).isOk) = some true := by
    decide +kernel
  rw [sent,Option.map_some,checkable.decodes] at attached
  have signed : Authenticated sampleServer' a := by
    by_contra free
    rw [signs.unauthenticated free] at attached
    cases attached
  obtain ⟨cred,held,_,integrity⟩ := signs.authenticated signed
  cases List.mem_singleton.mp held
  have key : Authentication.sampleCredential.integrity sampleStun = Authentication.sampleKey := by decide +kernel
  rw [← key]
  exact integrity

end Gortcd.Verified
