import Gortcd.Protected
import Gortcd.Replies
import Gortcd.Interleaving

/-! CreatePermission requests that list several peers. The handler reads one
XOR-PEER-ADDRESS, the first, so its success response also speaks for peers that were
neither put to the filter nor given a permission. -/
namespace Gortcd.Coverage
open Keyed Net Ports Sections Records Relaying Permissions Calls Runs Interleaving Messages Filters Auth Handlers Effects
  Replies Protected
open Library (Attribute Acceptable Building Adding codecBuilding codecAdding)
open Responses (Short Refusable buildExactly)

variable {ν : Type} {turn : Turn} {stun : Stun} {srv : Server ν} {env : Env} {nonces : ν} {allocs : Allocator}
  {ctx c : Context} {m : Message} {o : Options}

def peers (stun : Stun) (m : Message) : List (Except LibErr Addr) :=
  (m.attributes.filter (fun a => a.type == 0x0012)).map (fun a => stun.peerAddress { m with attributes := [a] })

-- A setter of a response other than LIFETIME.
def Beside (s : Setter) : Prop := Attribute s ∧ ∀ d, s ≠ .lifetime d

def seconds (n : Nat) : Duration := (n : Int) * second

/- The getter of the peer address takes the first attribute. LIFETIME counts seconds in 32
bits, and is read from a response as it was written. -/
structure Reading (stun : Stun) : Prop where
  firstPeer : ∀ m x rest, peers stun m = x :: rest → stun.peerAddress m = x
  lifetimeSize : ∀ m d, stun.lifetime m = .ok d → ∃ n, n < 4294967296 ∧ d = seconds n
  lifetimeRead : ∀ m r type id before after n, n < 4294967296 → (∀ s ∈ before, Beside s) → (∀ s ∈ after, Beside s) →
    apply stun (stun.writeHeader { stun.reset m with type := type, transactionID := id })
      (before ++ .lifetime (seconds n) :: after) = (r,none) → stun.lifetime r = .ok (seconds n)

def Live (turn : Turn) (s : State) (t : FiveTuple) : Prop :=
  ∃ a conn, find turn s.allocs t = some a ∧ a.conn = some conn ∧ s.raddr.isOpen conn = true

def Sent (h : Handled) (cls : MessageClass) : Prop := h.reply.isSome = true ∧ h.ctx.response.type.cls = cls

def PermittedUntil (turn : Turn) (allocs : Table) (t : FiveTuple) (q : Addr) (timeout : Time) : Prop :=
  ∃ a p, find turn allocs t = some a ∧ permission a q.ip = some p ∧ p.timeout = timeout

/- A success response holds for every listed address, with the LIFETIME it reports; an
error response, 403 among them, leaves the allocator as it was. -/
def Covered (turn : Turn) (stun : Stun) (allocs : Allocator) (ctx : Context) (m : Message) (h : Handled) : Prop :=
  (Sent h .successResponse → ∃ l, stun.lifetime h.ctx.response = .ok l ∧ ∀ q, .ok q ∈ peers stun m →
    ctx.allowPeer q = true ∧ PermittedUntil turn h.allocs.allocs ctx.tuple q (ctx.time + l) ∧
    ∀ data, ∃ w, send turn h.allocs.allocs ctx.tuple q data = .ok w) ∧
  (Sent h .errorResponse → h.allocs = allocs)

/- The lifetime that a request asks for, within the limits of the configuration. -/
def asked (stun : Stun) (cfg : Config) (m : Message) : Option Duration :=
  match stun.lifetime m with
  | .ok l => some (if l > cfg.maxLifetime then cfg.maxLifetime else l)
  | .error .attributeNotFound => some cfg.defaultLifetime
  | .error _ => none

/- If the first address can be granted, every other one is allowed and has its IP, or has a
permission that runs out at the same time already. -/
def Coverable (turn : Turn) (stun : Stun) (allocs : Table) (ctx : Context) (m : Message) : Prop :=
  ∀ p rest d, peers stun m = .ok p :: rest → ctx.allowPeer p = true → asked stun ctx.cfg m = some d →
    ∀ q, .ok q ∈ rest → ctx.allowPeer q = true ∧
      (IP.equal p.ip q.ip = true ∨ PermittedUntil turn allocs ctx.tuple q (ctx.time + d))

inductive Ends (turn : Turn) (stun : Stun) (allocs : Allocator) (c : Context) : Handled → Prop where
  | dropped {e} (unreadable : ∀ p d, stun.peerAddress c.request = .ok p → asked stun c.cfg c.request ≠ some d) :
      Ends turn stun allocs c ⟨allocs,c,none,some e⟩
  | refused {p} (addr : stun.peerAddress c.request = .ok p) (denied : c.allowPeer p = false) :
      Ends turn stun allocs c (c.buildErr stun allocs .forbidden)
  | granted {p d} (addr : stun.peerAddress c.request = .ok p) (allowed : c.allowPeer p = true)
      (lifetime : asked stun c.cfg c.request = some d) :
      Ends turn stun allocs c
        (c.buildOk stun (allocs.createPermission turn c.tuple p (c.time + d)).1 [.lifetime d])

theorem createdEnds {a : Allocation} (found : find turn allocs.allocs c.tuple = some a) {p : Addr} {d : Duration}
    (addr : stun.peerAddress c.request = .ok p) (lifetime : asked stun c.cfg c.request = some d) :
    Ends turn stun allocs c (if !c.allowPeer p then c.buildErr stun allocs .forbidden
      else match allocs.createPermission turn c.tuple p (c.time + d) with
        | (allocs,some .allocationMismatch) => c.buildErr stun allocs .allocMismatch
        | (allocs,none) => c.buildOk stun allocs [.lifetime d]
        | (allocs,some e) => ⟨allocs,c,none,some (.wrapAlloc "failed to create allocation" e)⟩) := by
  cases allowed : c.allowPeer p with
  | false => exact .refused addr allowed
  | true =>
    have granted := @Ends.granted turn stun allocs c p d addr allowed lifetime
    have succeeds : (allocs.createPermission turn c.tuple p (c.time + d)).2 = none := by
      simp [Allocator.createPermission,createdPermission,found]
    simp only [Bool.not_true,Bool.false_eq_true,if_false]
    generalize allocs.createPermission turn c.tuple p (c.time + d) = out at granted succeeds
    obtain ⟨after,err⟩ := out
    dsimp only at succeeds
    subst succeeds
    exact granted

theorem handlerEnds {a : Allocation} (found : find turn allocs.allocs c.tuple = some a) :
    Ends turn stun allocs c (processCreatePermissionRequest turn stun allocs c) := by
  unfold processCreatePermissionRequest
  split
  · rename_i e failed
    refine .dropped ?_
    intro p d addr
    cases failed.symm.trans addr
  · rename_i p addr
    dsimp only
    split
    · rename_i l lifetime
      exact createdEnds found addr (by simp [asked,lifetime])
    · rename_i missing
      exact createdEnds found addr (by simp [asked,missing])
    · rename_i e other failed
      refine .dropped ?_
      intro p d addr
      cases e with
      | attributeNotFound => exact absurd rfl other
      | other text => simp [asked,failed]

theorem finishedSent {h : Handled} {cls : MessageClass} (finished : Finished m cls h) : Sent h cls := by
  refine ⟨?_,by rw [finished.type]⟩
  simp [Handled.reply,finished.err,finished.nonempty]

theorem sentClass {h : Handled} {cls cls' : MessageClass} (finished : Finished m cls h) (sent : Sent h cls') :
    cls' = cls := by
  rw [← sent.2,finished.type]

theorem askedSeconds (reading : Reading stun) {d : Duration} (lifetime : asked stun (newConfig o) m = some d) :
    ∃ n, n < 4294967296 ∧ d = seconds n := by
  unfold asked at lifetime
  split at lifetime
  · rename_i l given
    cases Option.some.inj lifetime
    split
    · exact ⟨3600,by decide,rfl⟩
    · exact reading.lifetimeSize m l given
  · cases Option.some.inj lifetime
    exact ⟨60,by decide,rfl⟩
  · cases lifetime

theorem lifetimeReported (reading : Reading stun) (request : c.request.type.cls = .request) (a : Allocator) {d : Duration}
    (size : ∃ n, n < 4294967296 ∧ d = seconds n) (err : (c.buildOk stun a [.lifetime d]).err = none) :
    stun.lifetime (c.buildOk stun a [.lifetime d]).ctx.response = .ok d := by
  obtain ⟨n,small,rfl⟩ := size
  have loud : c.request.type.cls ≠ .indication := by
    rw [request]
    nofun
  have beside {s : Setter} (adds : Attribute s) (other : ∀ d, s ≠ .lifetime d) : Beside s := ⟨adds,other⟩
  have optional {p : Prop} [Decidable p] {s : Setter} (one : Beside s) : ∀ x ∈ (if p then [s] else []), Beside x := by
    split <;> simp [one]
  have opening : ∀ x ∈ [.nonce c.nonce,.realm c.realm] ++
      (if c.cfg.software.length > 0 then [.software c.cfg.software] else []), Beside x := by
    refine List.forall_mem_append.mpr ⟨?_,optional (beside trivial nofun)⟩
    exact List.forall_mem_cons.mpr ⟨beside trivial nofun,List.forall_mem_singleton.mpr (beside trivial nofun)⟩
  have closing : ∀ x ∈ (if c.integrity.length > 0 then [Setter.integrity c.integrity] else []) ++ [.fingerprint],
      Beside x := List.forall_mem_append.mpr
    ⟨optional (beside trivial nofun),List.forall_mem_singleton.mpr (beside trivial nofun)⟩
  have order : Responses.setters c [.lifetime (seconds n)] ++ [.fingerprint] = [.nonce c.nonce,.realm c.realm] ++
      (if c.cfg.software.length > 0 then [.software c.cfg.software] else []) ++ .lifetime (seconds n) ::
        ((if c.integrity.length > 0 then [.integrity c.integrity] else []) ++ [.fingerprint]) := by
    simp only [Responses.setters,List.append_assoc,List.cons_append,List.nil_append]
  simp only [Context.buildOk,Context.finish,Responses.buildLoud loud,order] at err ⊢
  exact reading.lifetimeRead _ _ _ _ _ _ n small opening closing (Prod.ext rfl (Option.map_eq_none_iff.mp err))

section Granted
variable {s : State} {a : Allocation} {conn : Conn} {p q : Addr} {timeout : Time}

theorem grantedRow (found : find turn s.allocs c.tuple = some a) :
    find turn (s.createPermission turn c.tuple p timeout).1.allocs c.tuple = some (a.grant p timeout) := by
  have row := @findGrant turn s.allocs c.tuple c.tuple timeout p
  rw [turn.tuples.refl,if_pos rfl,found] at row
  exact row

theorem grantedUntil (found : find turn s.allocs c.tuple = some a) :
    PermittedUntil turn (s.createPermission turn c.tuple p timeout).1.allocs c.tuple q timeout ↔
      IP.equal p.ip q.ip = true ∨ PermittedUntil turn s.allocs c.tuple q timeout := by
  have row := @grantedRow turn c s a p timeout found
  have under := @permissionGrant timeout a p q.ip
  constructor
  · intro until'
    obtain ⟨b,r,found',held,same⟩ := until'
    cases row.symm.trans found'
    rw [under] at held
    split at held
    · rename_i ip
      exact .inl ip
    · exact .inr ⟨a,r,found,held,same⟩
  · intro before
    by_cases ip : IP.equal p.ip q.ip = true
    · rw [if_pos ip] at under
      refine ⟨_,_,row,under,?_⟩
      cases permission a p.ip <;> rfl
    · obtain ⟨b,r,found',held,same⟩ := before.resolve_left ip
      cases found.symm.trans found'
      rw [if_neg ip] at under
      exact ⟨_,r,row,under.trans held,same⟩

theorem permittedSends (ok : TableOk turn s.allocs) (found : find turn s.allocs c.tuple = some a)
    (connected : a.conn = some conn)
    (until' : PermittedUntil turn (s.createPermission turn c.tuple p timeout).1.allocs c.tuple q timeout) (data : Bytes) :
    ∃ w, send turn (s.createPermission turn c.tuple p timeout).1.allocs c.tuple q data = .ok w := by
  obtain ⟨b,r,row,held,_⟩ := until'
  cases (@grantedRow turn c s a p timeout found).symm.trans row
  have after : TableOk turn (s.createPermission turn c.tuple p timeout).1.allocs := changeOk (grantChange p) ok
  rw [sendSpec after.distinct,row]
  exact ⟨_,by simp [held,grantConn p a,connected]; rfl⟩

end Granted

theorem grantedCovered (lib : Building stun) (reading : Reading stun) {s : State} (ok : TableOk turn s.allocs)
    {a : Allocation} (found : find turn s.allocs c.tuple = some a) {conn : Conn} (connected : a.conn = some conn)
    (configured : c.cfg = newConfig o) (request : c.request.type.cls = .request) {p : Addr} (allowed : c.allowPeer p = true)
    {d : Duration} (lifetime : asked stun c.cfg c.request = some d) {rest : List (Except LibErr Addr)}
    (listed : peers stun c.request = .ok p :: rest)
    (builds : ∀ e, (c.buildOk stun (s.createPermission turn c.tuple p (c.time + d)).1 [.lifetime d]).err ≠ some (.build e)) :
    Covered turn stun s.toAllocator c c.request
        (c.buildOk stun (s.createPermission turn c.tuple p (c.time + d)).1 [.lifetime d]) ↔
      Coverable turn stun s.allocs c c.request := by
  have short : ∀ x ∈ [Setter.lifetime d], Short x := List.forall_mem_singleton.mpr trivial
  have finished : Finished c.request .successResponse _ := responseFinished lib request short builds
  have reported := lifetimeReported reading request (s.createPermission turn c.tuple p (c.time + d)).1
    (askedSeconds reading (configured ▸ lifetime)) finished.err
  constructor
  · intro covered p' rest' d' listed' _ lifetime' q mem
    cases listed.symm.trans listed'
    cases lifetime.symm.trans lifetime'
    obtain ⟨l,same,all⟩ := covered.1 (finishedSent finished)
    cases reported.symm.trans same
    obtain ⟨free,until',_⟩ := all q (listed ▸ List.mem_cons_of_mem _ mem)
    exact ⟨free,(grantedUntil found).mp until'⟩
  · intro coverable
    refine ⟨fun _ => ⟨d,reported,?_⟩,?_⟩
    · intro q mem
      have met : c.allowPeer q = true ∧
          (IP.equal p.ip q.ip = true ∨ PermittedUntil turn s.allocs c.tuple q (c.time + d)) := by
        rw [listed] at mem
        rcases List.mem_cons.mp mem with same | later
        · cases same
          exact ⟨allowed,.inl (ips.refl p.ip)⟩
        · exact coverable p rest d listed allowed lifetime q later
      have until' := (@grantedUntil turn c s a p q (c.time + d) found).mpr met.2
      exact ⟨met.1,until',permittedSends ok found connected until'⟩
    · intro sent
      cases sentClass finished sent

/- The response is sent if its texts fit, and nothing is sent otherwise. -/
theorem textsDecide (adding : Adding stun) (request : c.request.type.cls = .request)
    (id : c.request.transactionID.length = 12) {x : Setter} (kind : Short x ∧ Acceptable x) (a : Allocator) (cls : MessageClass) :
    (Responses.Texts c → ∀ e, (Context.finish a (c.build stun cls c.request.type.method [x])).err ≠ some (.build e)) ∧
      (¬ Responses.Texts c → ∀ cls', ¬ Sent (Context.finish a (c.build stun cls c.request.type.method [x])) cls') := by
  have loud : c.request.type.cls ≠ .indication := by
    rw [request]
    nofun
  have short : ∀ y ∈ [x], Short y := List.forall_mem_singleton.mpr kind.1
  have exact' := @buildExactly stun c cls c.request.type.method [x] adding loud id short
  constructor
  · intro texts e
    have done := exact'.mpr ⟨texts,List.forall_mem_singleton.mpr kind.2⟩
    simp [Context.finish,done]
  · intro long cls' sent
    cases failed : (c.build stun cls c.request.type.method [x]).2 with
    | none => exact long (exact'.mp failed).1
    | some e =>
      have some' := sent.1
      simp [Context.finish,Handled.reply,failed] at some'

theorem handlerCovered (adding : Adding stun) (lib : Building stun) (reading : Reading stun) {s : State}
    (ok : TableOk turn s.allocs) (live : Live turn s c.tuple) (configured : c.cfg = newConfig o)
    (type : c.request.type = ⟨.createPermission,.request⟩) (id : c.request.transactionID.length = 12)
    (listing : peers stun c.request ≠ []) :
    Covered turn stun s.toAllocator c c.request (processCreatePermissionRequest turn stun s.toAllocator c) ↔
      (Responses.Texts c → Coverable turn stun s.allocs c c.request) := by
  obtain ⟨a,conn,found,connected,_⟩ := live
  obtain ⟨x,others,listed⟩ := List.exists_cons_of_ne_nil listing
  have first := reading.firstPeer _ x others listed
  have request : c.request.type.cls = .request := by rw [type]
  have ends := @handlerEnds turn stun s.toAllocator c a found
  generalize processCreatePermissionRequest turn stun s.toAllocator c = h at ends
  cases ends with
  | @dropped e unreadable =>
    have silent (cls : MessageClass) : ¬ Sent ⟨s.toAllocator,c,none,some e⟩ cls := fun sent => by cases sent.1
    constructor
    · intro _ _ p rest d read _ lifetime
      exact absurd lifetime (unreadable p d (reading.firstPeer _ _ _ read))
    · intro _
      exact ⟨fun sent => absurd sent (silent _),fun sent => absurd sent (silent _)⟩
  | @refused p addr denied =>
    obtain ⟨builds,silent⟩ := @textsDecide stun c adding request id (.errorCode .forbidden) ⟨trivial,trivial⟩ s.toAllocator
      .errorResponse
    constructor
    · intro _ _ p' rest d read allowed
      cases addr.symm.trans (reading.firstPeer _ _ _ read)
      cases denied.symm.trans allowed
    · intro _
      refine ⟨?_,fun _ => rfl⟩
      intro sent
      by_cases texts : Responses.Texts c
      · have short : ∀ x ∈ [Setter.errorCode .forbidden], Short x := List.forall_mem_singleton.mpr trivial
        have finished : Finished c.request .errorResponse _ := responseFinished lib request short (builds texts)
        cases sentClass finished sent
      · exact absurd sent (silent texts _)
  | @granted p d addr allowed lifetime =>
    cases first.symm.trans addr
    obtain ⟨builds,silent⟩ := @textsDecide stun c adding request id (.lifetime d) ⟨trivial,trivial⟩
      (s.createPermission turn c.tuple p (c.time + d)).1 .successResponse
    by_cases texts : Responses.Texts c
    · refine (grantedCovered lib reading ok found connected configured request allowed lifetime listed (builds texts)).trans ?_
      exact ⟨fun coverable _ => coverable,fun coverable => coverable texts⟩
    · exact ⟨fun _ fits => absurd fits texts,
        fun _ => ⟨fun sent => absurd sent (silent texts _),fun sent => absurd sent (silent texts _)⟩⟩

/- In every reachable state with a live allocation of the client, a CreatePermission request
that passes the checks is answered for all the addresses it lists if and only if those after
the first need nothing of their own, or its texts are too long for a response. -/
theorem coveredExactly (adding : Adding stun) (lib : Building stun) (reading : Reading stun) {h s} (run : Run (machine turn) h s)
    (live : Live turn s ctx.tuple) (configured : ctx.cfg = newConfig o) (framed : stun.isMessage ctx.request.raw = true)
    (decode : stun.decode ctx.request = (m,none)) (type : m.type = ⟨.createPermission,.request⟩)
    (passes : Admission.passes (admission stun srv env nonces ctx).2 = true) (listing : peers stun m ≠ []) :
    Covered turn stun s.toAllocator ctx m (process turn stun srv env nonces s.toAllocator ctx).2 ↔
      (Refusable (admission stun srv env nonces ctx).2 → Coverable turn stun s.allocs ctx m) := by
  obtain ⟨c,pass⟩ := passesCase passes
  obtain ⟨m',decode',carried,_⟩ := passed pass
  cases decode.symm.trans decode'
  have own := carried.request
  subst own
  have handled : handle turn stun env s.toAllocator c = processCreatePermissionRequest turn stun s.toAllocator c := by
    simp only [handle,type]
  rw [passedProcess framed pass,handled,pass]
  have exact' := @handlerCovered turn stun c o adding lib reading s (tableOk run) (carried.tuple ▸ live)
    (carried.cfg.trans configured) type (adding.decodedID decode) listing
  simp only [Covered,Coverable,Context.allowPeer,carried.tuple,carried.time,carried.cfg] at exact' ⊢
  exact exact'

section Library
variable {hashes : Codec.Hashes}

theorem numberBound (v : Bytes) (acc : Nat) :
    v.foldl (fun acc b => acc * 256 + b.toNat) acc < (acc + 1) * Nat.pow 256 v.length := by
  induction v generalizing acc with
  | nil => simp
  | cons b v ih =>
    have digit : acc * 256 + b.toNat + 1 ≤ (acc + 1) * 256 := by
      have byte := b.toNat_lt
      omega
    calc v.foldl (fun acc b => acc * 256 + b.toNat) (acc * 256 + b.toNat)
        < (acc * 256 + b.toNat + 1) * Nat.pow 256 v.length := ih _
      _ ≤ (acc + 1) * 256 * Nat.pow 256 v.length := Nat.mul_le_mul_right _ digit
      _ = (acc + 1) * (Nat.pow 256 v.length * 256) := by rw [Nat.mul_assoc,Nat.mul_comm 256]

theorem numberSeconds {n : Nat} (small : n < 4294967296) :
    Codec.number (Codec.word (n / 65536) ++ Codec.word n) = n := by
  simp only [Codec.number,Codec.word,List.cons_append,List.nil_append,List.foldl_cons,List.foldl_nil,UInt8.toNat_ofNat']
  omega

/- No other setter writes a LIFETIME attribute. -/
theorem besideKind {s : Setter} (beside : Beside s) : Codec.kind s ≠ 0x000d := by
  obtain ⟨adds,other⟩ := beside
  cases s with
  | lifetime d => exact absurd rfl (other d)
  | _ => simp [Codec.kind]

theorem besideFirst {l : List Setter} (others : ∀ s ∈ l, Beside s) (m : Message) :
    first 0x000d (apply (Codec.documented hashes) m l).1 = first 0x000d m := by
  induction l generalizing m with
  | nil => rfl
  | cons s l ih =>
    obtain ⟨head,tail⟩ := List.forall_mem_cons.mp others
    have kind := besideKind head
    have header : (∀ id, s ≠ .transactionID id) ∧ ∀ t, s ≠ .type t :=
      ⟨fun id same => by rw [same] at head; exact head.1,fun t same => by rw [same] at head; exact head.1⟩
    have known : (Codec.documented hashes).addTo s m = Codec.addTo hashes s m := rfl
    rw [apply,known]
    rcases Codec.addCases hashes s m header with ⟨e,_,same⟩ | ⟨v,_,same⟩ <;> rw [same]
    have kept : first 0x000d (Codec.add (Codec.kind s) v m) = first 0x000d m := by
      have skipped : [(⟨Codec.kind s,v⟩ : RawAttribute)].find? (fun a => a.type == 0x000d) = none := by simp [kind]
      simp only [first,Codec.add,Codec.writeHeader,List.find?_append,skipped,Option.or_none]
    exact (ih tail _).trans kept

theorem lifetimeAdded (absent : first 0x000d m = none) {n : Nat} (small : n < 4294967296) :
    (Codec.documented hashes).lifetime ((Codec.documented hashes).addTo (.lifetime (seconds n)) m).1 = .ok (seconds n) := by
  have value : (seconds n / 1000000000).toNat = n := by
    unfold seconds second
    rw [Int.mul_ediv_cancel _ (by decide)]
    rfl
  have own : Codec.get ((Codec.documented hashes).addTo (.lifetime (seconds n)) m).1 0x000d =
      .ok (Codec.word (n / 65536) ++ Codec.word n) := by
    have found : first 0x000d ((Codec.documented hashes).addTo (.lifetime (seconds n)) m).1 =
        some ⟨0x000d,Codec.word (n / 65536) ++ Codec.word n⟩ := by
      refine List.find?_append.trans ?_
      unfold first at absent
      rw [absent,value]
      rfl
    unfold first at found
    simp only [Codec.get,found]
  have size : (Codec.word (n / 65536) ++ Codec.word n).length = 4 := rfl
  have read := numberSeconds small
  generalize Codec.word (n / 65536) ++ Codec.word n = v at own size read
  simp only [Codec.documented,Codec.reading,bind,Except.bind] at own ⊢
  rw [own]
  simp only [size,if_true,read]
  rfl

theorem codecReading (hashes : Codec.Hashes) : Reading (Codec.documented hashes) := by
  refine ⟨?_,?_,?_⟩
  · intro m x rest listed
    obtain ⟨a,others,attributes,rfl,_⟩ := List.map_eq_cons_iff.mp listed
    have found : m.attributes.find? (fun a => a.type == 0x0012) = some a := by
      rw [← List.head?_filter,attributes]
      rfl
    have own : a.type = 0x0012 := by simpa using List.find?_some found
    have alone : first 0x0012 { m with attributes := [a] } = some a := by
      simp [first,own]
    exact (codecFirstOnly hashes).peerAddress m _ rfl (found.trans alone.symm)
  · intro m d read
    simp only [Codec.documented,Codec.reading,bind,Except.bind] at read
    split at read <;> try contradiction
    split at read <;> try contradiction
    rename_i v _ size
    cases Except.ok.inj read
    have bound := numberBound v 0
    rw [size] at bound
    exact ⟨Codec.number v,bound,rfl⟩
  · intro m r type id before after n small earlier later built
    generalize written : (Codec.documented hashes).writeHeader { (Codec.documented hashes).reset m with
      type := type, transactionID := id } = base at built
    have bare : first 0x000d base = none := by
      rw [← written]
      rfl
    have absent : first 0x000d (apply (Codec.documented hashes) base before).1 = none :=
      (besideFirst earlier base).trans bare
    have kept := (codecFirstOnly hashes).lifetime _ _ (@besideFirst hashes after later
      ((Codec.documented hashes).addTo (.lifetime (seconds n)) (apply (Codec.documented hashes) base before).1).1)
    have step : (Codec.documented hashes).addTo (.lifetime (seconds n)) (apply (Codec.documented hashes) base before).1 =
        (((Codec.documented hashes).addTo (.lifetime (seconds n)) (apply (Codec.documented hashes) base before).1).1,none) :=
      rfl
    rw [applyAfter (applyBegan (by rw [built])),apply,step] at built
    have same : (apply (Codec.documented hashes) ((Codec.documented hashes).addTo (.lifetime (seconds n))
        (apply (Codec.documented hashes) base before).1).1 after).1 = r := congrArg Prod.fst built
    rw [← same]
    exact kept.trans (lifetimeAdded absent small)

end Library

/- CreatePermission requests for 10.0.0.3:2001 and a second peer, signed by the sample
credential, with the digests they take and that of the response to both. -/
def listedSigned (second : Bytes) : Bytes :=
  [0x00,0x08,0x00,0x60,0x21,0x12,0xa4,0x42,0x01,0x02,0x03,0x04,0x05,0x06,0x07,0x08,0x09,0x0a,0x0b,0x0c,
   0x00,0x12,0x00,0x08,0x00,0x01,0x26,0xc3,0x2b,0x12,0xa4,0x41] ++ second ++
  [0x00,0x06,0x00,0x04,0x75,0x73,0x65,0x72,0x00,0x14,0x00,0x05,0x72,0x65,0x61,0x6c,0x6d,0x00,0x00,0x00,
   0x00,0x15,0x00,0x18,0x30,0x30,0x30,0x31,0x30,0x32,0x30,0x33,0x30,0x34,0x30,0x35,0x30,0x36,0x30,0x37,
   0x30,0x38,0x30,0x39,0x30,0x61,0x30,0x62]

-- 10.0.0.3:2002 and 10.0.0.4:2001
def sameHost : Bytes := [0x00,0x12,0x00,0x08,0x00,0x01,0x26,0xc0,0x2b,0x12,0xa4,0x41]
def otherHost : Bytes := [0x00,0x12,0x00,0x08,0x00,0x01,0x26,0xc3,0x2b,0x12,0xa4,0x46]

def sameDigest : Bytes :=
  [0xe5,0xef,0xf6,0xfc,0x19,0xfd,0x6d,0x7b,0xb3,0x5f,0xdb,0x69,0x85,0x6a,0x0d,0x37,0x34,0xe6,0x44,0x3c]
def otherDigest : Bytes :=
  [0x89,0x23,0xc2,0x81,0xad,0x82,0xa9,0x3f,0x0a,0xa9,0xcc,0x97,0x54,0x16,0xd9,0xe9,0xf8,0x9e,0xd0,0xc7]
def successSigned : Bytes :=
  [0x01,0x08,0x00,0x48,0x21,0x12,0xa4,0x42,0x01,0x02,0x03,0x04,0x05,0x06,0x07,0x08,0x09,0x0a,0x0b,0x0c,
   0x00,0x15,0x00,0x18,0x30,0x30,0x30,0x31,0x30,0x32,0x30,0x33,0x30,0x34,0x30,0x35,0x30,0x36,0x30,0x37,
   0x30,0x38,0x30,0x39,0x30,0x61,0x30,0x62,0x00,0x14,0x00,0x05,0x72,0x65,0x61,0x6c,0x6d,0x00,0x00,0x00,
   0x00,0x0d,0x00,0x04,0x00,0x00,0x00,0x3c]
def successDigest : Bytes :=
  [0x64,0x80,0x17,0xfa,0xb9,0x53,0x52,0x3d,0xa7,0x5f,0xfe,0xa4,0xbd,0xac,0x2c,0x82,0xdc,0x57,0x74,0xaa]

def listedHashes : Codec.Hashes :=
  { Authentication.sampleHashes with
    hmac := fun key input =>
      if key ≠ Authentication.sampleKey then []
      else if input = listedSigned sameHost then sameDigest
      else if input = listedSigned otherHost then otherDigest
      else if input = successSigned then successDigest
      else [] }

def listedStun : Stun := Codec.documented listedHashes

def listedServer : Server NonceAuth :=
  ⟨sampleServer,some ((newStatic listedStun [Authentication.sampleCredential]).auth listedStun),
    NonceAuth.manager .documented⟩

def listedContext (second digest : Bytes) : Context :=
  { Context.fresh Authentication.sampleConfig with
    request := { emptyMessage with raw := listedSigned second ++ [0x00,0x08,0x00,0x14] ++ digest },
    tuple := sampleTuple, time := 5 }

def listedMessage (second digest : Bytes) : Message := (listedStun.decode (listedContext second digest).request).1

def allocated : List Interleaving.Event := [.register 1 sampleTuple 60,.answer 1 (.ok ⟨sampleRelayed,17,1⟩),.install 1]

def allocatedState : State := (trace (machine .documented) [] .empty allocated).2

def listedProcess (second digest : Bytes) : Handled :=
  (process .documented listedStun listedServer Protected.refreshEnv Protected.refreshNonces allocatedState.toAllocator
    (listedContext second digest)).2

theorem decodedPair (clean : (stun.decode m).2 = none) : stun.decode m = ((stun.decode m).1,none) := Prod.ext rfl clean

theorem allocatedRun : Run (machine .documented) (trace (machine .documented) [] .empty allocated).1 allocatedState :=
  traceStart (m := machine .documented) allocated ⟨rfl,⟨⟨_,rfl,rfl⟩,by decide,by decide⟩,⟨_,_,rfl,rfl⟩,trivial⟩

theorem allocatedLive : Live .documented allocatedState sampleTuple := ⟨_,1,rfl,rfl,rfl⟩

theorem coveredExactlySample : Sent (listedProcess sameHost sameDigest) .successResponse ∧
    Covered .documented listedStun allocatedState.toAllocator (listedContext sameHost sameDigest)
      (listedMessage sameHost sameDigest) (listedProcess sameHost sameDigest) := by
  have listed : peers listedStun (listedMessage sameHost sameDigest) =
      [.ok samplePeer,.ok { samplePeer with port := 2002 }] := by decide +kernel
  have listing : peers listedStun (listedMessage sameHost sameDigest) ≠ [] := by
    rw [listed]
    nofun
  have lib : Building listedStun := codecBuilding listedHashes
  have reading : Reading listedStun := codecReading listedHashes
  have coverable : Coverable .documented listedStun allocatedState.allocs (listedContext sameHost sameDigest)
      (listedMessage sameHost sameDigest) := by
    intro p rest d read _ _ q mem
    cases listed.symm.trans read
    cases List.mem_singleton.mp mem
    exact ⟨by decide,.inl (by decide)⟩
  refine ⟨⟨by decide +kernel,by decide +kernel⟩,?_⟩
  exact (coveredExactly (codecAdding listedHashes) lib reading allocatedRun allocatedLive rfl
    (by decide +kernel) (decodedPair (by decide +kernel)) (by decide +kernel) (by decide +kernel) listing).mpr (fun _ => coverable)

/- The request for two hosts succeeds, and the second host cannot be reached. -/
theorem secondPeerUncovered : Reachable (machine .documented) allocatedState ∧ Live .documented allocatedState sampleTuple ∧
    peers listedStun (listedMessage otherHost otherDigest) = [.ok samplePeer,.ok sampleOther] ∧
    Admission.passes (admission listedStun listedServer Protected.refreshEnv Protected.refreshNonces
      (listedContext otherHost otherDigest)).2 = true ∧
    Sent (listedProcess otherHost otherDigest) .successResponse ∧
    send .documented (listedProcess otherHost otherDigest).allocs.allocs sampleTuple sampleOther [1] =
      .error .permissionNotFound ∧
    ¬ Covered .documented listedStun allocatedState.toAllocator (listedContext otherHost otherDigest)
      (listedMessage otherHost otherDigest) (listedProcess otherHost otherDigest) := by
  have listed : peers listedStun (listedMessage otherHost otherDigest) = [.ok samplePeer,.ok sampleOther] := by
    decide +kernel
  have sent : Sent (listedProcess otherHost otherDigest) .successResponse := ⟨by decide +kernel,by decide +kernel⟩
  have refused : send .documented (listedProcess otherHost otherDigest).allocs.allocs sampleTuple sampleOther [1] =
      .error .permissionNotFound := by decide +kernel
  refine ⟨⟨_,allocatedRun⟩,allocatedLive,listed,by decide +kernel,sent,refused,?_⟩
  intro covered
  obtain ⟨l,_,all⟩ := covered.1 sent
  obtain ⟨_,_,sends⟩ := all sampleOther (by rw [listed]; simp)
  obtain ⟨w,ok⟩ := sends [1]
  cases refused.symm.trans ok

end Gortcd.Coverage
