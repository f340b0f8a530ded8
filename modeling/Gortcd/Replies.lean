import Gortcd.Responses

/-! Whether every request gets a reply. The checks and most exits of the handlers end in
`build`; a few parse errors and the refusal of a channel number are returned as bare
errors, after which `serveConn` sends nothing. -/
namespace Gortcd.Replies
open Keyed Net Ports Sections Calls Messages Auth Handlers Effects Library Responses

variable {ν : Type} {turn : Turn} {stun : Stun} {srv : Server ν} {env : Env} {nonces : ν} {allocs : Allocator}
  {ctx : Context}

/- A response to the message, success or error, and no error of the handler. -/
structure Replied (m : Message) (h : Handled) : Prop where
  err : h.err = none
  nonempty : h.ctx.response.raw ≠ []
  cls : Response h.ctx.response.type.cls
  method : h.ctx.response.type.method = m.type.method
  transactionID : h.ctx.response.transactionID = m.transactionID

def BadLifetime (stun : Stun) (m : Message) : Prop := ∃ e, stun.lifetime m = .error e ∧ e ≠ .attributeNotFound

/- A required attribute is missing, one that is read cannot be parsed, or the channel number
is out of range. -/
def Malformed (turn : Turn) (stun : Stun) (m : Message) : Prop :=
  match m.type with
  | ⟨.allocate,.request⟩ => ∃ e, stun.requestedTransport m = .error e
  | ⟨.refresh,.request⟩ => BadLifetime stun m
  | ⟨.createPermission,.request⟩ => (∃ e, stun.peerAddress m = .error e) ∨ BadLifetime stun m
  | ⟨.channelBind,.request⟩ => (∃ e, stun.peerAddress m = .error e) ∨ (∃ e, stun.channelNumber m = .error e) ∨
      ∃ n, stun.channelNumber m = .ok n ∧ turn.channelValid n = false
  | _ => False

/- The request is answered; if it is malformed and gets past the checks, then with 400, or
with 403 when the peer filter denies its peer. -/
def Answered (turn : Turn) (stun : Stun) (srv : Server ν) (env : Env) (nonces : ν) (allocs : Allocator) (ctx : Context)
    (m : Message) : Prop :=
  Replied m (process turn stun srv env nonces allocs ctx).2 ∧
  ∀ c, (admission stun srv env nonces ctx).2 = .pass c → Malformed turn stun m →
    (process turn stun srv env nonces allocs ctx).2 = c.buildErr stun allocs .badRequest ∨
    ∃ peer, stun.peerAddress m = .ok peer ∧ c.allowPeer peer = false ∧
      (process turn stun srv env nonces allocs ctx).2 = c.buildErr stun allocs .forbidden

/- A Refresh or CreatePermission with a LIFETIME that cannot be parsed, a CreatePermission
without a readable peer address, and a ChannelBind of an invalid number to an allowed peer. -/
def Dropped (turn : Turn) (stun : Stun) (c : Context) : Prop :=
  match c.request.type with
  | ⟨.refresh,.request⟩ => BadLifetime stun c.request
  | ⟨.createPermission,.request⟩ => (∃ e, stun.peerAddress c.request = .error e) ∨ BadLifetime stun c.request
  | ⟨.channelBind,.request⟩ => ∃ peer n, stun.peerAddress c.request = .ok peer ∧ stun.channelNumber c.request = .ok n ∧
      turn.channelValid n = false ∧ c.allowPeer peer = true
  | _ => False

/- The message is answered, unless `build` has failed. -/
def Closed (m : Message) (h : Handled) : Prop := (∀ e, h.err ≠ some (.build e)) → Replied m h

/- What `build` leaves of a request when it succeeds. -/
structure Finished (m : Message) (cls : MessageClass) (h : Handled) : Prop where
  err : h.err = none
  nonempty : h.ctx.response.raw ≠ []
  type : h.ctx.response.type = ⟨m.type.method,cls⟩
  transactionID : h.ctx.response.transactionID = m.transactionID

theorem responseFinished (lib : Building stun) {c : Context} (request : c.request.type.cls = .request) {a : Allocator}
    {cls : MessageClass} {s : List Setter} (short : ∀ x ∈ s, Short x)
    (builds : ∀ e, (Context.finish a (c.build stun cls c.request.type.method s)).err ≠ some (.build e)) :
    Finished c.request cls (Context.finish a (c.build stun cls c.request.type.method s)) := by
  have loud : c.request.type.cls ≠ .indication := by
    rw [request]
    nofun
  cases err : (c.build stun cls c.request.type.method s).2 with
  | some e => exact absurd (by simp [Context.finish,err]) (builds e)
  | none =>
    have raw := builtNonempty lib loud err
    obtain ⟨type,id⟩ := appliedKept lib (settersAttributes (c := c) short)
      (stun.writeHeader (begun stun c cls c.request.type.method))
    obtain ⟨type',id'⟩ := lib.header (begun stun c cls c.request.type.method)
    refine ⟨by rw [Context.finish,err]; rfl,raw,?_,?_⟩ <;> rw [Context.finish,buildLoud loud]
    · exact type.trans type'
    · exact id.trans id'

theorem builtClosed (lib : Building stun) {c : Context} (request : c.request.type.cls = .request) (a : Allocator)
    {cls : MessageClass} (response : Response cls) {s : List Setter} (short : ∀ x ∈ s, Short x) :
    Closed c.request (Context.finish a (c.build stun cls c.request.type.method s)) := by
  intro builds
  have finished := responseFinished lib request short builds
  refine ⟨finished.err,finished.nonempty,?_,?_,finished.transactionID⟩
  · rw [finished.type]
    exact response
  · rw [finished.type]

theorem errClosed (lib : Building stun) {c : Context} (request : c.request.type.cls = .request) (a : Allocator)
    (code : ErrorCode) : Closed c.request (c.buildErr stun a code) :=
  builtClosed lib request a (.inr rfl) (List.forall_mem_singleton.mpr trivial)

theorem okClosed (lib : Building stun) {c : Context} (request : c.request.type.cls = .request) (a : Allocator)
    {s : List Setter} (short : ∀ x ∈ s, Short x) : Closed c.request (c.buildOk stun a s) :=
  builtClosed lib request a (.inl rfl) short

section Handlers
variable (lib : Building stun) {c : Context} (request : c.request.type.cls = .request)
include lib request

theorem allocateClosed : Closed c.request (processAllocateRequest turn stun env allocs c) := by
  unfold processAllocateRequest
  split
  · exact errClosed lib request _ .badRequest
  · dsimp only
    split
    · exact okClosed lib request _ (by simp [Short])
    · exact errClosed lib request _ .allocMismatch
    · exact errClosed lib request _ .serverError

theorem refreshedClosed (l : Duration) (out : Allocator × Option Err) : Closed c.request
    (match out.2 with
      | none => c.buildOk stun out.1 [.lifetime l]
      | some .allocationMismatch => c.buildErr stun out.1 .allocMismatch
      | some _ => c.buildErr stun out.1 .serverError) := by
  split
  · exact okClosed lib request _ (by simp [Short])
  · exact errClosed lib request _ .allocMismatch
  · exact errClosed lib request _ .serverError

theorem refreshClosed (good : ¬ BadLifetime stun c.request) :
    Closed c.request (processRefreshRequest turn stun allocs c) := by
  unfold processRefreshRequest
  dsimp only
  split
  · exact refreshedClosed lib request _ _
  · exact refreshedClosed lib request _ _
  · rename_i e bad given
    exact absurd ⟨e,given,bad⟩ good

theorem createdClosed (peer : Addr) (l : Duration) : Closed c.request
    (if !c.allowPeer peer then c.buildErr stun allocs .forbidden
    else match allocs.createPermission turn c.tuple peer (c.time + l) with
      | (allocs,some .allocationMismatch) => c.buildErr stun allocs .allocMismatch
      | (allocs,none) => c.buildOk stun allocs [.lifetime l]
      | (allocs,some e) => ⟨allocs,c,none,some (.wrapAlloc "failed to create allocation" e)⟩) := by
  split
  · exact errClosed lib request _ .forbidden
  · split
    · exact errClosed lib request _ .allocMismatch
    · exact okClosed lib request _ (by simp [Short])
    · rename_i e other failed
      -- the section reports nothing but a mismatch
      simp only [Allocator.createPermission,createPermission] at failed
      split at failed <;> cases failed
      exact absurd rfl other

theorem createPermissionClosed (addressed : ¬ ∃ e, stun.peerAddress c.request = .error e)
    (good : ¬ BadLifetime stun c.request) : Closed c.request (processCreatePermissionRequest turn stun allocs c) := by
  unfold processCreatePermissionRequest
  split
  · rename_i e given
    exact absurd ⟨e,given⟩ addressed
  · dsimp only
    split
    · exact createdClosed lib request _ _
    · exact createdClosed lib request _ _
    · rename_i e bad given
      exact absurd ⟨e,given,bad⟩ good

theorem channelBindClosed (valid : ¬ ∃ peer n, stun.peerAddress c.request = .ok peer ∧
    stun.channelNumber c.request = .ok n ∧ turn.channelValid n = false ∧ c.allowPeer peer = true) :
    Closed c.request (processChannelBinding turn stun allocs c) := by
  unfold processChannelBinding
  split
  · exact errClosed lib request _ .badRequest
  · rename_i peer addr
    split
    · exact errClosed lib request _ .badRequest
    · rename_i n number
      dsimp only
      split
      · exact errClosed lib request _ .forbidden
      · rename_i allowed
        split
        · exact errClosed lib request _ .allocMismatch
        · exact okClosed lib request _ (by simp [Short])
        · rename_i e other failed
          simp only [Allocator.channelBind,channelBind] at failed
          split at failed
          · rename_i refused
            exact absurd ⟨peer,n,addr,number,by simpa using refused,by simpa using allowed⟩ valid
          · split at failed
            · cases failed
              exact absurd rfl other
            · split at failed
              · cases failed
              · cases failed
                exact absurd rfl other

theorem handleClosed (kept : ¬ Dropped turn stun c) : Closed c.request (handle turn stun env allocs c) := by
  unfold handle
  split
  · exact okClosed lib request _ (by simp [Short])
  · exact allocateClosed lib request
  · rename_i type
    simp only [Dropped,type,not_or] at kept
    exact createPermissionClosed lib request kept.1 kept.2
  · rename_i type
    simp only [Dropped,type] at kept
    exact refreshClosed lib request kept
  · rename_i type
    rw [type] at request
    cases request
  · rename_i type
    simp only [Dropped,type] at kept
    exact channelBindClosed lib request kept
  · exact errClosed lib request _ .badRequest

end Handlers

theorem droppedErr {c : Context} (dropped : Dropped turn stun c) : (handle turn stun env allocs c).err ≠ none := by
  unfold Dropped at dropped
  split at dropped
  · rename_i type
    obtain ⟨e,given,bad⟩ := dropped
    simp only [handle,type,processRefreshRequest,given]
    cases e with
    | attributeNotFound => exact absurd rfl bad
    | other text => nofun
  · rename_i type
    simp only [handle,type,processCreatePermissionRequest]
    rcases dropped with ⟨e,none⟩ | ⟨e,given,bad⟩
    · simp [none]
    · cases stun.peerAddress c.request with
      | error e => nofun
      | ok peer =>
        simp only [given]
        cases e with
        | attributeNotFound => exact absurd rfl bad
        | other text => nofun
  · rename_i type
    obtain ⟨peer,n,addr,number,invalid,allowed⟩ := dropped
    simp [handle,type,processChannelBinding,addr,number,allowed,Allocator.channelBind,channelBind,invalid]
  · exact dropped.elim

theorem malformedRefused {c : Context} (malformed : Malformed turn stun c.request) (kept : ¬ Dropped turn stun c) :
    handle turn stun env allocs c = c.buildErr stun allocs .badRequest ∨
    ∃ peer, stun.peerAddress c.request = .ok peer ∧ c.allowPeer peer = false ∧
      handle turn stun env allocs c = c.buildErr stun allocs .forbidden := by
  unfold Malformed at malformed
  split at malformed
  · rename_i type
    obtain ⟨e,missing⟩ := malformed
    exact .inl (by simp [handle,type,processAllocateRequest,missing])
  · rename_i type
    simp only [Dropped,type] at kept
    exact absurd malformed kept
  · rename_i type
    simp only [Dropped,type] at kept
    exact absurd malformed kept
  · rename_i type
    simp only [Dropped,type] at kept
    simp only [handle,type,processChannelBinding]
    cases addr : stun.peerAddress c.request with
    | error e => exact .inl rfl
    | ok peer => cases number : stun.channelNumber c.request with
      | error e => exact .inl rfl
      | ok n =>
        have invalid : turn.channelValid n = false := by
          rcases malformed with ⟨e,none⟩ | ⟨e,none⟩ | ⟨n',given,invalid⟩
          · cases addr.symm.trans none
          · cases number.symm.trans none
          · cases number.symm.trans given
            exact invalid
        cases allowed : c.allowPeer peer with
        | true => exact absurd ⟨peer,n,addr,number,invalid,allowed⟩ kept
        | false => exact .inr ⟨peer,rfl,allowed,by simp [allowed]⟩
  · exact malformed.elim

/- Every request that decodes is answered if and only if no handler drops it. -/
theorem requestsAnswered (lib : Building stun) {m : Message} (framed : stun.isMessage ctx.request.raw = true)
    (decode : stun.decode ctx.request = (m,none)) (request : m.type.cls = .request)
    (builds : ∀ e, (process turn stun srv env nonces allocs ctx).2.err ≠ some (.build e)) :
    Answered turn stun srv env nonces allocs ctx m ↔
      ¬ ∃ c, (admission stun srv env nonces ctx).2 = .pass c ∧ Dropped turn stun c := by
  have checked := @admissionChecked ν stun srv env nonces ctx
  unfold Answered
  cases admitted : (admission stun srv env nonces ctx).2 with
  | silent c =>
    rw [admitted] at checked
    cases checked with
    | silent failed => cases failed.symm.trans decode
  | refuse c code =>
    rw [admitted] at checked
    cases checked with
    | refuse decode' carried =>
      cases decode'.symm.trans decode
      have own := carried.request
      subst own
      rw [refusedProcess framed admitted] at builds ⊢
      have replied := errClosed lib request allocs code builds
      constructor
      · intro _ dropped
        obtain ⟨d,same,_⟩ := dropped
        cases same
      · intro _
        refine ⟨replied,?_⟩
        intro d same
        cases same
  | pass c =>
    rw [admitted] at checked
    cases checked with
    | pass decode' carried =>
      cases decode'.symm.trans decode
      have own := carried.request
      subst own
      rw [passedProcess framed admitted] at builds ⊢
      constructor
      · intro answered dropped
        obtain ⟨d,same,dropped⟩ := dropped
        cases same
        exact droppedErr dropped answered.1.err
      · intro kept
        have here : ¬ Dropped turn stun c := fun dropped => kept ⟨c,rfl,dropped⟩
        refine ⟨handleClosed lib request here builds,?_⟩
        intro d same malformed
        cases same
        exact malformedRefused malformed here

def sampleArrived (packet : Bytes) : Context := arrived .documented (plain sampleServer) sampleTuple.client packet

def AnsweredSample (packet : Bytes) : Prop :=
  Answered .documented Codec.wire (plain sampleServer).srv (plain sampleServer).env (plain sampleServer).nonces .empty
    (sampleArrived packet) (Codec.wire.decode (sampleArrived packet).request).1

def sampleProcess (packet : Bytes) : Handled :=
  (process .documented Codec.wire (plain sampleServer).srv (plain sampleServer).env (plain sampleServer).nonces .empty
    (sampleArrived packet)).2

theorem requestsAnsweredSample : AnsweredSample sampleBinding ∧ AnsweredSample (Codec.bareRequest 4) ∧
    AnsweredSample (Codec.bareRequest 9) := by
  have answered {packet : Bytes} (framed : Codec.wire.isMessage (sampleArrived packet).request.raw = true)
      (clean : (Codec.wire.decode (sampleArrived packet).request).2 = none) (done : (sampleProcess packet).err = none)
      (request : (Codec.wire.decode (sampleArrived packet).request).1.type.cls = .request)
      (kept : ∀ c : Context, c.request = (Codec.wire.decode (sampleArrived packet).request).1 → ¬ Dropped .documented Codec.wire c) :
      AnsweredSample packet := by
    have builds (e : LibErr) : (sampleProcess packet).err ≠ some (.build e) := by
      rw [done]
      nofun
    refine (requestsAnswered (codecBuilding Codec.noHashes) framed (Prod.ext rfl clean) request builds).mpr ?_
    intro dropped
    obtain ⟨c,pass,dropped⟩ := dropped
    obtain ⟨m,decode,carried,_⟩ := passed pass
    have same : (Codec.wire.decode (sampleArrived packet).request).1 = m := congrArg Prod.fst decode
    exact kept c (carried.request.trans same.symm) dropped
  refine ⟨answered ?_ ?_ ?_ ?_ ?_,answered ?_ ?_ ?_ ?_ ?_,answered ?_ ?_ ?_ ?_ ?_⟩
  any_goals decide +kernel
  · intro c request dropped
    have type : c.request.type = ⟨.binding,.request⟩ := by
      rw [request]
      decide +kernel
    simp only [Dropped,type] at dropped
  · intro c request dropped
    have type : c.request.type = ⟨.refresh,.request⟩ := by
      rw [request]
      decide +kernel
    have missing : Codec.wire.lifetime c.request = .error .attributeNotFound := by
      rw [request]
      decide +kernel
    simp only [Dropped,type,BadLifetime,missing] at dropped
    obtain ⟨e,same,other⟩ := dropped
    cases same
    exact other rfl
  · intro c request dropped
    have type : c.request.type = ⟨.channelBind,.request⟩ := by
      rw [request]
      decide +kernel
    have missing : Codec.wire.peerAddress c.request = .error .attributeNotFound := by
      rw [request]
      decide +kernel
    simp only [Dropped,type,missing] at dropped
    obtain ⟨_,_,read,_⟩ := dropped
    cases read

/- The server says nothing to a CreatePermission request without XOR-PEER-ADDRESS, while a
ChannelBind request without the attribute gets 400. -/
theorem requestUnanswered : ¬ AnsweredSample (Codec.bareRequest 8) ∧
    (Codec.wire.decode (sampleArrived (Codec.bareRequest 8)).request).1.type = ⟨.createPermission,.request⟩ ∧
    answer .documented Codec.wire ⟨plain sampleServer,.udp sampleTuple.client,Codec.bareRequest 8⟩ = none := by
  refine ⟨?_,by decide +kernel,by decide +kernel⟩
  intro answered
  have failed : (sampleProcess (Codec.bareRequest 8)).err.isSome := by decide +kernel
  have done : (sampleProcess (Codec.bareRequest 8)).err = none := answered.1.err
  rw [done] at failed
  cases failed

end Gortcd.Replies
