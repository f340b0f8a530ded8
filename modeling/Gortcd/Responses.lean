import Gortcd.Effects
import Gortcd.Library

/-! Which packets are answered. `build` keeps quiet for indications only, so a server also
answers success and error responses, with an error response of its own. -/
namespace Gortcd.Responses
open Keyed Net Ports Sections Calls Messages Filters Auth Handlers Effects Library

variable {ν : Type} {turn : Turn} {stun : Stun} {srv : Server ν} {env : Env} {nonces : ν} {allocs : Allocator}

structure Running (ν : Type) where
  srv : Server ν
  cfg : Config
  nonces : ν
  allocs : Allocator
  env : Env
  now : Time

structure Hop where
  {ν : Type}
  server : Running ν
  addr : NetAddr
  packet : Bytes

def answer (turn : Turn) (stun : Stun) (a : Hop) : Option Bytes :=
  (serveConn turn stun a.server.srv a.server.env a.server.now a.server.nonces a.server.allocs
    (accept a.server.srv a.server.cfg a.addr a.packet)).2.response

def received (packet : Bytes) : Message := { emptyMessage with raw := packet.take 2048 }

def Response (c : MessageClass) : Prop := c = .successResponse ∨ c = .errorResponse

def arrived (turn : Turn) (s : Running ν) (client : Addr) (packet : Bytes) : Context :=
  { Context.fresh s.cfg with
    addr := .udp client
    buf := packet.take 2048
    time := s.now
    client := client
    server := s.srv.addr
    proto := turn.protoUDP
    tuple := ⟨client,s.srv.addr,turn.protoUDP⟩
    request := received packet
    cdata := { emptyChannelData with raw := packet.take 2048 } }

/- The texts that go into every response, none of which is too long for an attribute. -/
structure Texts (c : Context) : Prop where
  nonce : c.nonce.length ≤ 763
  realm : c.realm.length ≤ 763
  software : c.cfg.software.length ≤ 763

/- An error response can be built: the checks call for one, or there is no handler. -/
def Refusable : Admission → Prop
  | .silent _ => False
  | .refuse c _ => Texts c
  | .pass c => Texts c

def OnlyRequests (turn : Turn) (stun : Stun) (a : Hop) : Prop :=
  ∀ r, answer turn stun a = some r → ∃ m, stun.decode (received a.packet) = (m,none) ∧ m.type.cls = .request

/- The packet is a response that passes the client filter and can be refused. -/
def Bounces (turn : Turn) (stun : Stun) (a : Hop) : Prop :=
  ∃ client m, a.addr = .udp client ∧ a.server.cfg.clientFilter client = .allow ∧
    stun.isMessage (a.packet.take 2048) = true ∧ stun.decode (received a.packet) = (m,none) ∧ Response m.type.cls ∧
    Refusable (admission stun a.server.srv a.server.env a.server.nonces (arrived turn a.server client a.packet)).2

/- Every packet after the first is the answer to the one before it. The servers may have
changed in between. -/
def Exchange (turn : Turn) (stun : Stun) : List Hop → Prop
  | a :: b :: rest => answer turn stun a = some b.packet ∧ Exchange turn stun (b :: rest)
  | _ => True

/- A built message decodes, if at all, with the class in its header. -/
structure Answering (stun : Stun) : Prop extends Building stun, Adding stun where
  classRead : ∀ m l d, (∀ s ∈ l, Attribute s) →
    stun.decode (received (apply stun (stun.writeHeader m) l).1.raw) = (d,none) → d.type.cls = m.type.cls

def Short : Setter → Prop
  | .xorMappedAddress _ => True
  | .relayedAddress _ => True
  | .lifetime _ => True
  | .channelNumber _ => True
  | .errorCode _ => True
  | _ => False

/- How a handler, or a refusal, leaves the response: as it was, or as `build` makes it. -/
inductive Answers (stun : Stun) (c : Context) : Handled → Prop where
  | silent {h : Handled} (same : h.ctx.response = c.response) : Answers stun c h
  | built {a : Allocator} {cls : MessageClass} {s : List Setter} (response : Response cls) (short : ∀ x ∈ s, Short x)
      (few : s.length ≤ 3) : Answers stun c (Context.finish a (c.build stun cls c.request.type.method s))

theorem errAnswers {c : Context} (a : Allocator) (code : ErrorCode) : Answers stun c (c.buildErr stun a code) :=
  .built (.inr rfl) (List.forall_mem_singleton.mpr trivial) (Nat.le_of_ble_eq_true rfl)

theorem okAnswers {c : Context} (a : Allocator) {s : List Setter} (short : ∀ x ∈ s, Short x) (few : s.length ≤ 3) :
    Answers stun c (c.buildOk stun a s) := .built (.inl rfl) short few

theorem lifetimeAnswers {c : Context} (a : Allocator) (d : Duration) : Answers stun c (c.buildOk stun a [.lifetime d]) :=
  okAnswers a (List.forall_mem_singleton.mpr trivial) (Nat.le_of_ble_eq_true rfl)

theorem allocateAnswers {c : Context} : Answers stun c (processAllocateRequest turn stun env allocs c) := by
  unfold processAllocateRequest
  split
  · exact errAnswers allocs .badRequest
  · dsimp only
    split
    · exact okAnswers _ (by simp [Short]) (Nat.le_refl 3)
    · exact errAnswers _ .allocMismatch
    · exact errAnswers _ .serverError

theorem refreshedAnswers {c : Context} (d : Duration) (out : Allocator × Option Err) :
    Answers stun c (match out.2 with
      | none => c.buildOk stun out.1 [.lifetime d]
      | some .allocationMismatch => c.buildErr stun out.1 .allocMismatch
      | some _ => c.buildErr stun out.1 .serverError) := by
  split
  · exact lifetimeAnswers _ d
  · exact errAnswers _ .allocMismatch
  · exact errAnswers _ .serverError

theorem refreshAnswers {c : Context} : Answers stun c (processRefreshRequest turn stun allocs c) := by
  unfold processRefreshRequest
  dsimp only
  split
  · exact refreshedAnswers _ _
  · exact refreshedAnswers _ _
  · exact .silent rfl

theorem createdAnswers {c : Context} (peer : Addr) (d : Duration) :
    Answers stun c (if !c.allowPeer peer then c.buildErr stun allocs .forbidden
      else match allocs.createPermission turn c.tuple peer (c.time + d) with
        | (allocs,some .allocationMismatch) => c.buildErr stun allocs .allocMismatch
        | (allocs,none) => c.buildOk stun allocs [.lifetime d]
        | (allocs,some e) => ⟨allocs,c,none,some (.wrapAlloc "failed to create allocation" e)⟩) := by
  split
  · exact errAnswers allocs .forbidden
  · split
    · exact errAnswers _ .allocMismatch
    · exact lifetimeAnswers _ d
    · exact .silent rfl

theorem createPermissionAnswers {c : Context} : Answers stun c (processCreatePermissionRequest turn stun allocs c) := by
  unfold processCreatePermissionRequest
  split
  · exact .silent rfl
  · dsimp only
    split
    · exact createdAnswers _ _
    · exact createdAnswers _ _
    · exact .silent rfl

theorem channelBindAnswers {c : Context} : Answers stun c (processChannelBinding turn stun allocs c) := by
  unfold processChannelBinding
  split
  · exact errAnswers allocs .badRequest
  · split
    · exact errAnswers allocs .badRequest
    · dsimp only
      split
      · exact errAnswers allocs .forbidden
      · split
        · exact errAnswers _ .allocMismatch
        · exact okAnswers _ (by simp [Short]) (Nat.le_of_ble_eq_true rfl)
        · exact .silent rfl

theorem sendAnswers {c : Context} : Answers stun c (processSendIndication turn stun allocs c) := by
  unfold processSendIndication
  split
  · exact .silent rfl
  · split <;> exact .silent rfl

theorem handleAnswers {c : Context} : Answers stun c (handle turn stun env allocs c) := by
  unfold handle
  split
  · exact okAnswers allocs (List.forall_mem_singleton.mpr trivial) (Nat.le_of_ble_eq_true rfl)
  · exact allocateAnswers
  · exact createPermissionAnswers
  · exact refreshAnswers
  · exact sendAnswers
  · exact channelBindAnswers
  · exact errAnswers allocs .badRequest

inductive Admits : Admission → Context → Prop where
  | refuse (c : Context) (code : ErrorCode) : Admits (.refuse c code) c
  | pass (c : Context) : Admits (.pass c) c

theorem admitsDecoded {ctx c : Context} (admits : Admits (admission stun srv env nonces ctx).2 c) :
    ∃ m, stun.decode ctx.request = (m,none) ∧ Carried ctx m c := by
  have checked := @admissionChecked ν stun srv env nonces ctx
  generalize (admission stun srv env nonces ctx).2 = admitted at admits checked
  cases admits with
  | refuse _ code => cases checked with
    | refuse decode carried => exact ⟨_,decode,carried⟩
  | pass => cases checked with
    | pass decode carried => exact ⟨_,decode,carried⟩

theorem processAnswers {ctx : Context} :
    (process turn stun srv env nonces allocs ctx).2.ctx.response = ctx.response ∨
    (stun.isMessage ctx.request.raw = true ∧ ∃ c, Admits (admission stun srv env nonces ctx).2 c ∧
      Answers stun c (process turn stun srv env nonces allocs ctx).2) := by
  unfold process
  split
  · rename_i framed
    unfold processMessage
    cases admitted : admission stun srv env nonces ctx with
    | mk after verdict => cases verdict with
      | silent c =>
        have checked := @admissionChecked ν stun srv env nonces ctx
        rw [admitted] at checked
        cases checked
        exact .inl rfl
      | refuse c code => exact .inr ⟨framed,c,.refuse c code,errAnswers allocs _⟩
      | pass c => exact .inr ⟨framed,c,.pass c,handleAnswers⟩
  · split
    · unfold processChannelData
      split
      · exact .inl rfl
      · split <;> exact .inl rfl
    · exact .inl rfl

def setters (c : Context) (s : List Setter) : List Setter :=
  [.nonce c.nonce,.realm c.realm] ++ (if c.cfg.software.length > 0 then [.software c.cfg.software] else []) ++ s ++
    (if c.integrity.length > 0 then [.integrity c.integrity] else [])

def begun (stun : Stun) (c : Context) (cls : MessageClass) (method : Method) : Message :=
  { stun.reset c.response with type := ⟨method,cls⟩, transactionID := c.request.transactionID }

section Built
variable {c : Context} {cls : MessageClass} {method : Method} {s : List Setter}

theorem buildLoud (loud : c.request.type.cls ≠ .indication) : c.build stun cls method s =
    ({ c with response := (apply stun (stun.writeHeader (begun stun c cls method)) (setters c s ++ [.fingerprint])).1 },
      (apply stun (stun.writeHeader (begun stun c cls method)) (setters c s ++ [.fingerprint])).2) := if_neg loud

theorem allSetters {P : Setter → Prop} : (∀ x ∈ setters c s, P x) ↔ P (.nonce c.nonce) ∧ P (.realm c.realm) ∧
    (c.cfg.software.length > 0 → P (.software c.cfg.software)) ∧ (∀ x ∈ s, P x) ∧
    (c.integrity.length > 0 → P (.integrity c.integrity)) := by
  have optional {p : Prop} [Decidable p] {x : Setter} : (∀ y ∈ (if p then [x] else []), P y) ↔ (p → P x) := by
    split <;> simp [*]
  simp only [setters,List.forall_mem_append,List.forall_mem_cons,optional,and_assoc]
  simp

theorem settersAttributes (short : ∀ x ∈ s, Short x) : ∀ x ∈ setters c s ++ [.fingerprint], Attribute x := by
  have given : ∀ x ∈ s, Attribute x := by
    intro x mem
    have known := short x mem
    cases x <;> trivial
  refine List.forall_mem_append.mpr ⟨?_,List.forall_mem_singleton.mpr trivial⟩
  exact allSetters.mpr ⟨trivial,trivial,fun _ => trivial,given,fun _ => trivial⟩

theorem settersPrint (short : ∀ x ∈ s, Short x) : Setter.fingerprint ∉ setters c s := by
  have other : ∀ x ∈ setters c s, x ≠ .fingerprint := by
    refine allSetters.mpr ⟨nofun,nofun,fun _ => nofun,fun x mem same => ?_,fun _ => nofun⟩
    have known := short x mem
    rw [same] at known
    exact known
  exact fun mem => other _ mem rfl

theorem settersAcceptable : (∀ x ∈ setters c s, Acceptable x) ↔ Texts c ∧ ∀ x ∈ s, Acceptable x := by
  rw [allSetters]
  constructor
  · intro all
    obtain ⟨nonce,realm,software,given,_⟩ := all
    refine ⟨⟨nonce,realm,?_⟩,given⟩
    by_cases named : c.cfg.software.length > 0
    · exact software named
    · omega
  · intro all
    exact ⟨all.1.nonce,all.1.realm,fun _ => all.1.software,all.2,fun _ => trivial⟩

theorem begunBlank (lib : Adding stun) (id : c.request.transactionID.length = 12) : Blank (begun stun c cls method) := by
  unfold begun
  rw [lib.reset]
  exact ⟨rfl,rfl,rfl,id⟩

theorem buildExactly (lib : Adding stun) (loud : c.request.type.cls ≠ .indication)
    (id : c.request.transactionID.length = 12) (short : ∀ x ∈ s, Short x) :
    (c.build stun cls method s).2 = none ↔ Texts c ∧ ∀ x ∈ s, Acceptable x := by
  rw [buildLoud loud,← settersAcceptable]
  exact appliedExactly lib (builtNil (begunBlank lib id)) List.not_mem_nil (settersPrint short)

end Built

theorem replyRaw {h : Handled} {r : Bytes} (replied : h.reply = some r) :
    h.err = none ∧ h.ctx.response.raw ≠ [] ∧ r = h.ctx.response.raw := by
  unfold Handled.reply at replied
  split at replied <;> try contradiction
  rename_i sent
  rw [Bool.or_eq_true,not_or] at sent
  cases Option.some.inj replied
  exact ⟨by simpa using sent.1,by simpa using sent.2,rfl⟩

theorem answeredBuilt {c : Context} {h : Handled} (answers : Answers stun c h) (empty : c.response.raw = []) {r : Bytes}
    (replied : h.reply = some r) : ∃ cls s n, c.request.type.cls ≠ .indication ∧ Response cls ∧ (∀ x ∈ s, Short x) ∧
      s.length ≤ 3 ∧ apply stun (stun.writeHeader (begun stun c cls c.request.type.method)) (setters c s ++ [.fingerprint]) =
        (n,none) ∧ n.raw = r := by
  obtain ⟨err,raw,rfl⟩ := replyRaw replied
  cases answers with
  | silent same =>
    rw [same] at raw
    exact absurd empty raw
  | @built a cls s response short few =>
    by_cases quiet : c.request.type.cls = .indication
    · simp only [Context.finish,Context.build,if_pos quiet] at raw
      exact absurd empty raw
    · refine ⟨cls,s,_,quiet,response,short,few,Prod.ext rfl ?_,?_⟩
      · rw [Context.finish,buildLoud quiet] at err
        exact Option.map_eq_none_iff.mp err
      · rw [Context.finish,buildLoud quiet]

theorem replyBuilt (lib : Answering stun) {ctx : Context} (empty : ctx.response.raw = []) {r : Bytes}
    (replied : (process turn stun srv env nonces allocs ctx).2.reply = some r) :
    (stun.isMessage ctx.request.raw = true ∧ ∃ m, stun.decode ctx.request = (m,none) ∧ m.type.cls ≠ .indication) ∧
      ∀ d, stun.decode (received r) = (d,none) → Response d.type.cls := by
  rcases @processAnswers ν turn stun srv env nonces allocs ctx with same | ⟨framed,c,admits,answers⟩
  · have raw := (replyRaw replied).2.1
    rw [same] at raw
    exact absurd empty raw
  · obtain ⟨m,decode,carried⟩ := admitsDecoded admits
    obtain ⟨cls,s,n,loud,response,short,_,built,rfl⟩ :=
      answeredBuilt answers (by rw [carried.response]; exact empty) replied
    refine ⟨⟨framed,m,decode,carried.request ▸ loud⟩,?_⟩
    intro d ok
    have same := lib.classRead (begun stun c cls c.request.type.method) (setters c s ++ [.fingerprint]) d
      (settersAttributes short)
    rw [built] at same
    rw [same ok]
    exact response

theorem responseRefused {c : Context} (cls : Response c.request.type.cls) :
    handle turn stun env allocs c = c.buildErr stun allocs .badRequest := by
  unfold handle
  split <;> rename_i type <;> try rfl
  all_goals rw [type] at cls; rcases cls with h | h <;> cases h

theorem builtNonempty (lib : Building stun) {c : Context} {cls : MessageClass} {method : Method} {s : List Setter}
    (loud : c.request.type.cls ≠ .indication) (ok : (c.build stun cls method s).2 = none) :
    (c.build stun cls method s).1.response.raw ≠ [] := by
  rw [buildLoud loud] at ok ⊢
  rw [applyAppend] at ok ⊢
  split at ok
  · cases ok
  · rename_i m _
    have last := lib.finished m
    simp only [apply] at ok ⊢
    split at ok
    · cases ok
    · rename_i out added
      rw [added] at last
      exact last

theorem errReplied (building : Building stun) (adding : Adding stun) {c : Context} (a : Allocator) (code : ErrorCode)
    (loud : c.request.type.cls ≠ .indication) (id : c.request.transactionID.length = 12) :
    (∃ r, (c.buildErr stun a code).reply = some r) ↔ Texts c := by
  have only : ∀ x ∈ [Setter.errorCode code], Short x ∧ Acceptable x := List.forall_mem_singleton.mpr ⟨trivial,trivial⟩
  have exact' := @buildExactly stun c .errorResponse c.request.type.method [.errorCode code] adding loud id
    (fun x mem => (only x mem).1)
  constructor
  · intro answered
    obtain ⟨r,replied⟩ := answered
    cases err : (c.build stun .errorResponse c.request.type.method [.errorCode code]).2 with
    | none => exact (exact'.mp err).1
    | some e => simp [Context.buildErr,Context.finish,Handled.reply,err] at replied
  · intro texts
    have ok := exact'.mpr ⟨texts,fun x mem => (only x mem).2⟩
    have raw := builtNonempty building loud ok
    exact ⟨_,by simp [Context.buildErr,Context.finish,Handled.reply,ok,raw]; rfl⟩

theorem responseReplied (lib : Answering stun) {ctx : Context} {m : Message}
    (framed : stun.isMessage ctx.request.raw = true) (decode : stun.decode ctx.request = (m,none))
    (cls : Response m.type.cls) : (∃ r, (process turn stun srv env nonces allocs ctx).2.reply = some r) ↔
      Refusable (admission stun srv env nonces ctx).2 := by
  have loud : m.type.cls ≠ .indication := by rcases cls with h | h <;> rw [h] <;> nofun
  have id := lib.decodedID decode
  have checked := @admissionChecked ν stun srv env nonces ctx
  unfold process processMessage
  rw [if_pos framed]
  split <;> rename_i admitted <;> rw [admitted] at checked ⊢
  · cases checked with
    | silent failed => cases failed.symm.trans decode
  · cases checked with
    | refuse decode' carried =>
      cases decode'.symm.trans decode
      exact errReplied lib.toBuilding lib.toAdding allocs _ (carried.request ▸ loud) (carried.request ▸ id)
  · cases checked with
    | pass decode' carried =>
      cases decode'.symm.trans decode
      dsimp only
      rw [responseRefused (carried.request ▸ cls)]
      exact errReplied lib.toBuilding lib.toAdding allocs .badRequest (carried.request ▸ loud) (carried.request ▸ id)

theorem arrivedAt {s : Running ν} {client : Addr} (allowed : s.cfg.clientFilter client = .allow) (packet : Bytes) :
    (accept s.srv s.cfg (.udp client) packet).arrive turn s.now = .ok (arrived turn s client packet) := by
  have pass : (accept s.srv s.cfg (.udp client) packet).allowClient client = true := decide_eq_true allowed
  simp only [Context.arrive,accept,Context.allowClient,Context.fresh] at pass ⊢
  simp only [pass,Bool.not_true,Bool.false_eq_true,if_false]
  rfl

theorem answerAdmitted {a : Hop} {client : Addr} (addr : a.addr = .udp client)
    (allowed : a.server.cfg.clientFilter client = .allow) :
    answer turn stun a = (process turn stun a.server.srv a.server.env a.server.nonces a.server.allocs
      (arrived turn a.server client a.packet)).2.reply := by
  simp only [answer,serveConn,addr,arrivedAt allowed a.packet]

theorem answerDenied {a : Hop} {r : Bytes} (answered : answer turn stun a = some r) :
    ∃ client, a.addr = .udp client ∧ a.server.cfg.clientFilter client = .allow := by
  cases addr : a.addr with
  | other text => simp [answer,serveConn,Context.arrive,accept,addr] at answered
  | udp client =>
    refine ⟨client,rfl,?_⟩
    by_cases allowed : a.server.cfg.clientFilter client = .allow
    · exact allowed
    · simp [answer,serveConn,Context.arrive,accept,Context.allowClient,Context.fresh,addr,allowed] at answered

theorem bouncesAnswered (lib : Answering stun) {a : Hop} (bounces : Bounces turn stun a) :
    ∃ r, answer turn stun a = some r := by
  obtain ⟨client,m,addr,allowed,framed,decode,cls,refusable⟩ := bounces
  rw [answerAdmitted addr allowed]
  exact (responseReplied lib framed decode cls).mpr refusable

theorem answeredClass (lib : Answering stun) {a : Hop} {r : Bytes} (answered : answer turn stun a = some r) :
    Bounces turn stun a ∨ ∃ m, stun.decode (received a.packet) = (m,none) ∧ m.type.cls = .request := by
  obtain ⟨client,addr,allowed⟩ := answerDenied answered
  rw [answerAdmitted addr allowed] at answered
  obtain ⟨⟨framed,m,decode,loud⟩,_⟩ := replyBuilt lib rfl answered
  have refused (cls : Response m.type.cls) : Bounces turn stun a :=
    ⟨client,m,addr,allowed,framed,decode,cls,(responseReplied lib framed decode cls).mp ⟨r,answered⟩⟩
  cases cls : m.type.cls with
  | request => exact .inr ⟨m,decode,cls⟩
  | indication => exact absurd cls loud
  | successResponse => exact .inl (refused (.inl cls))
  | errorResponse => exact .inl (refused (.inr cls))

theorem answerIsResponse (lib : Answering stun) {a : Hop} {r : Bytes} (answered : answer turn stun a = some r)
    {d : Message} (decode : stun.decode (received r) = (d,none)) : Response d.type.cls := by
  obtain ⟨client,addr,allowed⟩ := answerDenied answered
  rw [answerAdmitted addr allowed] at answered
  exact (replyBuilt lib rfl answered).2 d decode

theorem onlyRequestsUnlessBounces (lib : Answering stun) (a : Hop) :
    OnlyRequests turn stun a ↔ ¬ Bounces turn stun a := by
  constructor
  · intro only bounces
    obtain ⟨r,answered⟩ := bouncesAnswered lib bounces
    obtain ⟨m,decode,request⟩ := only r answered
    obtain ⟨_,m',_,_,_,decode',cls,_⟩ := bounces
    cases decode.symm.trans decode'
    rcases cls with h | h <;> cases request.symm.trans h
  · intro other r answered
    exact (answeredClass lib answered).resolve_left other

theorem answerOfAnswer (lib : Answering stun) {a b : Hop} (hop : answer turn stun a = some b.packet) :
    answer turn stun b = none ↔ ¬ Bounces turn stun b := by
  constructor
  · intro silent bounces
    obtain ⟨r,answered⟩ := bouncesAnswered lib bounces
    cases silent.symm.trans answered
  · intro other
    cases again : answer turn stun b with
    | none => rfl
    | some r =>
      obtain ⟨m,decode,request⟩ := (answeredClass lib again).resolve_left other
      rcases answerIsResponse lib hop decode with h | h <;> cases request.symm.trans h

/- A server answers something other than a request exactly when the packet is a response
that it admits. The second of two servers keeps quiet exactly when the answer of the first
is none, and an exchange without such a packet ends after one answer. -/
theorem responsesUnanswered (lib : Answering stun) :
    (∀ a, OnlyRequests turn stun a ↔ ¬ Bounces turn stun a) ∧
    (∀ a b, answer turn stun a = some b.packet → (answer turn stun b = none ↔ ¬ Bounces turn stun b)) ∧
    ∀ a b rest, Exchange turn stun (a :: b :: rest) → (∀ c ∈ a :: b :: rest, ¬ Bounces turn stun c) →
      rest = [] ∧ answer turn stun b = none := by
  refine ⟨onlyRequestsUnlessBounces lib,fun a b => answerOfAnswer lib,?_⟩
  intro a b rest exchange met
  have silent := (answerOfAnswer lib exchange.1).mpr (met b (by simp))
  cases rest with
  | nil => exact ⟨rfl,silent⟩
  | cons c rest => cases silent.symm.trans exchange.2.1

theorem codecAnswering (hashes : Codec.Hashes) : Answering (Codec.documented hashes) := by
  refine ⟨codecBuilding hashes,codecAdding hashes,?_⟩
  intro m l d attributes decode
  have other : ∀ s ∈ l, ∀ t, s ≠ .type t := by
    rintro s mem t rfl
    exact attributes _ mem
  have headed := @Codec.appliedHeaded hashes l _ (Codec.writeHeaded m) other
  have type := Codec.decodedType decode
  have start : (received (apply (Codec.documented hashes) (Codec.writeHeader m) l).1.raw).raw.take 2 =
      (apply (Codec.documented hashes) (Codec.writeHeader m) l).1.raw.take 2 := by
    simp [received,List.take_take]
  have same : (Codec.documented hashes).writeHeader m = Codec.writeHeader m := rfl
  rw [type,same,start,headed.1,Codec.classRead,headed.2]
  rfl

def plain (addr : Addr) : Running NonceAuth :=
  { srv := ⟨addr,none,NonceAuth.manager .documented⟩
    cfg := newConfig ⟨[],[],false,allowAll,allowAll⟩
    nonces := newNonceAuth 0
    allocs := .empty
    env := ⟨[],.error .listen⟩
    now := 0 }

def sampleBinding : Bytes := [0,1,0,0,0x21,0x12,0xa4,0x42,1,2,3,4,5,6,7,8,9,10,11,12]

def sampleAnswer : Bytes :=
  [0x01,0x01,0x00,0x1c,0x21,0x12,0xa4,0x42,0x01,0x02,0x03,0x04,0x05,0x06,0x07,0x08,0x09,0x0a,0x0b,0x0c,
   0x00,0x15,0x00,0x00,0x00,0x14,0x00,0x00,0x00,0x20,0x00,0x08,0x00,0x01,0x26,0xc3,0x2b,0x12,0xa4,0x41,
   0x80,0x28,0x00,0x04,0x82,0x9d,0x9b,0xd8]

def sampleError : Bytes :=
  [0x01,0x11,0x00,0x24,0x21,0x12,0xa4,0x42,0x01,0x02,0x03,0x04,0x05,0x06,0x07,0x08,0x09,0x0a,0x0b,0x0c,
   0x00,0x15,0x00,0x00,0x00,0x14,0x00,0x00,0x00,0x09,0x00,0x0f,0x00,0x00,0x04,0x00,0x42,0x61,0x64,0x20,
   0x52,0x65,0x71,0x75,0x65,0x73,0x74,0x00,0x80,0x28,0x00,0x04,0x94,0x97,0x4d,0xda]

def injected : Hop := ⟨plain sampleServer,.udp samplePeer,sampleBinding⟩
def forwarded : Hop := ⟨plain samplePeer,.udp sampleServer,sampleAnswer⟩
def returned : Hop := ⟨plain sampleServer,.udp samplePeer,sampleError⟩
def again : Hop := ⟨plain samplePeer,.udp sampleServer,sampleError⟩

theorem responsesUnansweredSample : OnlyRequests .documented Codec.wire injected ∧
    (answer .documented Codec.wire forwarded = none ↔ ¬ Bounces .documented Codec.wire forwarded) := by
  obtain ⟨only,pair,_⟩ := @responsesUnanswered .documented Codec.wire (codecAnswering Codec.noHashes)
  refine ⟨(only injected).mpr ?_,pair injected forwarded (by decide +kernel)⟩
  intro bounces
  obtain ⟨_,m,_,_,_,decode,cls,_⟩ := bounces
  have read : (Codec.wire.decode (received sampleBinding)).1.type.cls = .request := by decide +kernel
  have same : (Codec.wire.decode (received sampleBinding)).1 = m := congrArg Prod.fst decode
  rw [same] at read
  rcases cls with h | h <;> cases read.symm.trans h

/- The second server answers the answer with an error response, the first answers that with
the same packet, and so on for ever. -/
theorem responsesBounce : Exchange .documented Codec.wire [injected,forwarded,returned,again] ∧
    answer .documented Codec.wire again = some returned.packet ∧ answer .documented Codec.wire forwarded ≠ none ∧
    ¬ OnlyRequests .documented Codec.wire forwarded := by
  have first : answer .documented Codec.wire forwarded = some sampleError := by decide +kernel
  refine ⟨⟨by decide +kernel,first,by decide +kernel,trivial⟩,by decide +kernel,by rw [first]; nofun,?_⟩
  intro only
  obtain ⟨m,decode,request⟩ := only _ first
  have same : (Codec.wire.decode (received sampleAnswer)).1 = m := congrArg Prod.fst decode
  have read : (Codec.wire.decode (received sampleAnswer)).1.type.cls = .successResponse := by decide +kernel
  rw [same] at read
  cases read.symm.trans request

end Gortcd.Responses
