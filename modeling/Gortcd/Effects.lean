import Gortcd.Handlers

/-! What processing a packet can do: `Checked` says what the checks before the handler
establish, `Requests` which call of the allocator a handler makes, and `PacketEffect` what
the packet does to the allocator and to a relay socket. Later modules use these and do not
unfold the handlers. -/
namespace Gortcd.Effects
open Keyed Net Ports Sections Calls Messages Filters Auth Handlers

variable {ν : Type} {turn : Turn} {stun : Stun} {srv : Server ν} {env : Env} {nonces : ν} {allocs : Allocator}
  {ctx : Context}

structure Carried (ctx : Context) (m : Message) (c : Context) : Prop where
  addr : c.addr = ctx.addr
  request : c.request = m
  response : c.response = ctx.response
  tuple : c.tuple = ctx.tuple
  time : c.time = ctx.time
  cfg : c.cfg = ctx.cfg

/- The nonce handed to the nonce manager: that of the message, or else what the context holds. -/
def NonceOf (stun : Stun) (ctx : Context) (m : Message) (value : Bytes) : Prop :=
  stun.nonce m = .ok value ∨ (stun.nonce m = .error .attributeNotFound ∧ value = ctx.nonce)

/- In this processing the nonce manager and the authenticator returned no error. -/
def Authorized (stun : Stun) (srv : Server ν) (env : Env) (nonces : ν) (ctx : Context)
    (auth : Message → Except AuthErr Bytes) (m : Message) : Prop :=
  ∃ value integrity, NonceOf stun ctx m value ∧
    (srv.nonce.check nonces env.random ctx.tuple value ctx.time).2.2 = none ∧ auth m = .ok integrity

inductive Checked (stun : Stun) (srv : Server ν) (env : Env) (nonces : ν) (ctx : Context) : Admission → Prop where
  | silent {m e} (decode : stun.decode ctx.request = (m,some e)) :
      Checked stun srv env nonces ctx (.silent { ctx with request := m })
  | refuse {m c} (decode : stun.decode ctx.request = (m,none)) (carried : Carried ctx m c) (code : ErrorCode) :
      Checked stun srv env nonces ctx (.refuse c code)
  | pass {m c} (decode : stun.decode ctx.request = (m,none)) (carried : Carried ctx m c)
      (gate : ∀ auth, srv.auth = some auth → needAuth srv c = true → Authorized stun srv env nonces ctx auth m) :
      Checked stun srv env nonces ctx (.pass c)

theorem authenticateChecked {m : Message} {c : Context} {auth : Message → Except AuthErr Bytes}
    (decode : stun.decode ctx.request = (m,none)) (carried : Carried ctx m c) (configured : srv.auth = some auth)
    (nonce : NonceOf stun ctx m c.nonce) :
    Checked stun srv env nonces ctx (authenticate stun srv env nonces c auth).2 := by
  have moved (value integrity : Bytes) : Carried ctx m { c with nonce := value, integrity := integrity } :=
    ⟨carried.addr,carried.request,carried.response,carried.tuple,carried.time,carried.cfg⟩
  unfold authenticate
  dsimp only
  split
  · exact .refuse decode carried .serverError
  · rename_i noError
    split
    · exact .refuse decode (moved _ c.integrity) .unauthorized
    · split
      · exact .refuse decode (moved _ c.integrity) .staleNonce
      · rename_i fresh
        split
        · rename_i integrity ok
          refine .pass decode (moved _ integrity) ?_
          intro auth' again _
          cases configured.symm.trans again
          refine ⟨c.nonce,integrity,nonce,?_,carried.request ▸ ok⟩
          rw [← carried.tuple,← carried.time]
          cases err : (srv.nonce.check nonces env.random c.tuple c.nonce c.time).2.2 with
          | none => rfl
          | some e => cases e with
            | stale => exact absurd err fresh
            | other => exact absurd err noError
        · exact .refuse decode (moved _ c.integrity) .unauthorized

theorem admissionChecked : Checked stun srv env nonces ctx (admission stun srv env nonces ctx).2 := by
  unfold admission
  split
  · rename_i m e decode
    exact .silent decode
  · rename_i m decode
    have carried (value : Bytes) : Carried ctx m { ctx with request := m, realm := ctx.cfg.realm, nonce := value } :=
      ⟨rfl,rfl,rfl,rfl,rfl,rfl⟩
    dsimp only
    split
    · exact .refuse decode (carried ctx.nonce) .badRequest
    · split
      · rename_i auth _ configured
        split
        · rename_i value read
          exact authenticateChecked decode (carried value) configured (.inl read)
        · rename_i missing
          exact authenticateChecked decode (carried ctx.nonce) configured (.inr ⟨missing,rfl⟩)
        · exact .refuse decode (carried ctx.nonce) .badRequest
      · rename_i free
        refine .pass decode (carried ctx.nonce) ?_
        intro auth configured need
        exact (free auth need configured).elim

/- The call of the allocator that the handler of a request makes. -/
inductive Requests (stun : Stun) (port : Except PortErr NetAllocation) (c : Context) : Call → Prop where
  | new (type : c.request.type = ⟨.allocate,.request⟩) :
      Requests stun port c (.new c.tuple (c.time + c.cfg.defaultLifetime) port)
  | remove (type : c.request.type = ⟨.refresh,.request⟩)
      (zero : stun.lifetime c.request = .ok 0 ∨ stun.lifetime c.request = .error .attributeNotFound) :
      Requests stun port c (.remove c.tuple)
  | refresh {d} (type : c.request.type = ⟨.refresh,.request⟩) (lifetime : stun.lifetime c.request = .ok d)
      (nonzero : d ≠ 0) : Requests stun port c (.refresh c.tuple (c.time + d))
  | createPermission {peer d} (type : c.request.type = ⟨.createPermission,.request⟩)
      (addr : stun.peerAddress c.request = .ok peer) (allowed : c.allowPeer peer = true)
      (lifetime : (stun.lifetime c.request = .error .attributeNotFound ∧ d = c.cfg.defaultLifetime) ∨
        ∃ l, stun.lifetime c.request = .ok l ∧ d = if l > c.cfg.maxLifetime then c.cfg.maxLifetime else l) :
      Requests stun port c (.createPermission c.tuple peer (c.time + d))
  | channelBind {n peer} (type : c.request.type = ⟨.channelBind,.request⟩)
      (addr : stun.peerAddress c.request = .ok peer) (number : stun.channelNumber c.request = .ok n)
      (allowed : c.allowPeer peer = true) :
      Requests stun port c (.channelBind c.tuple n peer (c.time + c.cfg.defaultLifetime))

inductive Effect (turn : Turn) (stun : Stun) (port : Except PortErr NetAllocation) (a : Allocator) (c : Context) :
    Allocator → Option Write → Prop where
  | quiet : Effect turn stun port a c a none
  | called {call} (requests : Requests stun port c call) : Effect turn stun port a c (a.run turn call) none
  | sent {peer data w} (type : c.request.type = ⟨.send,.indication⟩)
      (sent : send turn a.allocs c.tuple peer data = .ok w) : Effect turn stun port a c a (some w)

theorem allocateEffect (type : ctx.request.type = ⟨.allocate,.request⟩) :
    Effect turn stun env.port allocs ctx (processAllocateRequest turn stun env allocs ctx).allocs
      (processAllocateRequest turn stun env allocs ctx).sent := by
  have effect := @Effect.called turn stun env.port allocs ctx _ (.new type)
  rw [Allocator.run] at effect
  unfold processAllocateRequest
  split
  · exact .quiet
  · dsimp only
    split <;> (rename_i new; rw [new] at effect; exact effect)

theorem refreshEffect {port : Except PortErr NetAllocation} (type : ctx.request.type = ⟨.refresh,.request⟩) :
    Effect turn stun port allocs ctx (processRefreshRequest turn stun allocs ctx).allocs
      (processRefreshRequest turn stun allocs ctx).sent := by
  unfold processRefreshRequest
  dsimp only
  split
  · rename_i d lifetime
    by_cases zero : d = 0
    · subst zero
      have effect := @Effect.called turn stun port allocs ctx _ (.remove type (.inl lifetime))
      simp only [if_true]
      split <;> exact effect
    · have effect := @Effect.called turn stun port allocs ctx _ (.refresh type lifetime zero)
      simp only [if_neg zero]
      split <;> exact effect
  · rename_i missing
    have effect := @Effect.called turn stun port allocs ctx _ (.remove type (.inr missing))
    simp only [if_true]
    split <;> exact effect
  · exact .quiet

theorem createPermissionEffect {port : Except PortErr NetAllocation}
    (type : ctx.request.type = ⟨.createPermission,.request⟩) :
    Effect turn stun port allocs ctx (processCreatePermissionRequest turn stun allocs ctx).allocs
      (processCreatePermissionRequest turn stun allocs ctx).sent := by
  unfold processCreatePermissionRequest
  split
  · exact .quiet
  · rename_i peer addr
    cases allowed : ctx.allowPeer peer with
    | false =>
      simp only [Bool.not_false,if_true]
      split <;> exact .quiet
    | true =>
      simp only [Bool.not_true,Bool.false_eq_true,if_false]
      split
      · rename_i l lifetime
        have effect := @Effect.called turn stun port allocs ctx _
          (.createPermission type addr allowed (.inr ⟨l,lifetime,rfl⟩))
        rw [Allocator.run] at effect
        split <;> (rename_i made; rw [made] at effect; exact effect)
      · rename_i missing
        have effect := @Effect.called turn stun port allocs ctx _
          (.createPermission type addr allowed (.inl ⟨missing,rfl⟩))
        rw [Allocator.run] at effect
        split <;> (rename_i made; rw [made] at effect; exact effect)
      · exact .quiet

theorem channelBindEffect {port : Except PortErr NetAllocation} (type : ctx.request.type = ⟨.channelBind,.request⟩) :
    Effect turn stun port allocs ctx (processChannelBinding turn stun allocs ctx).allocs
      (processChannelBinding turn stun allocs ctx).sent := by
  unfold processChannelBinding
  split
  · exact .quiet
  · rename_i peer addr
    split
    · exact .quiet
    · rename_i n number
      cases allowed : ctx.allowPeer peer with
      | false => exact .quiet
      | true =>
        have effect := @Effect.called turn stun port allocs ctx _ (.channelBind type addr number allowed)
        rw [Allocator.run] at effect
        simp only [Bool.not_true,Bool.false_eq_true,if_false]
        split <;> (rename_i made; rw [made] at effect; exact effect)

theorem sendEffect {port : Except PortErr NetAllocation} (type : ctx.request.type = ⟨.send,.indication⟩) :
    Effect turn stun port allocs ctx (processSendIndication turn stun allocs ctx).allocs
      (processSendIndication turn stun allocs ctx).sent := by
  unfold processSendIndication
  split
  · exact .quiet
  · rename_i data _
    split
    · exact .quiet
    · rename_i peer _
      cases sent : send turn allocs.allocs ctx.tuple peer data with
      | error e => exact .quiet
      | ok w => exact .sent type sent

theorem handleEffect : Effect turn stun env.port allocs ctx (handle turn stun env allocs ctx).allocs
    (handle turn stun env allocs ctx).sent := by
  unfold handle
  split
  · exact .quiet
  · rename_i type
    exact allocateEffect type
  · rename_i type
    exact createPermissionEffect type
  · rename_i type
    exact refreshEffect type
  · rename_i type
    exact sendEffect type
  · rename_i type
    exact channelBindEffect type
  · exact .quiet

/- The effect of a whole packet: that of a handler, or a ChannelData message passed on. -/
inductive PacketEffect (turn : Turn) (stun : Stun) (srv : Server ν) (env : Env) (nonces : ν) (a : Allocator)
    (ctx : Context) : Allocator → Option Write → Prop where
  | quiet : PacketEffect turn stun srv env nonces a ctx a none
  | message {c b w} (framed : stun.isMessage ctx.request.raw = true)
      (passed : (admission stun srv env nonces ctx).2 = .pass c) (effect : Effect turn stun env.port a c b w) :
      PacketEffect turn stun srv env nonces a ctx b w
  | channelData {cdata w} (decode : stun.decodeChannelData ctx.cdata = (cdata,none))
      (sent : sendBound turn a.allocs ctx.tuple cdata.number cdata.data = .ok w) :
      PacketEffect turn stun srv env nonces a ctx a (some w)

theorem processEffect : PacketEffect turn stun srv env nonces allocs ctx
    (process turn stun srv env nonces allocs ctx).2.allocs (process turn stun srv env nonces allocs ctx).2.sent := by
  unfold process
  split
  · rename_i framed
    unfold processMessage
    split
    · exact .quiet
    · exact .quiet
    · rename_i c admitted
      exact .message framed (congrArg Prod.snd admitted) handleEffect
  · split
    · unfold processChannelData
      split
      · exact .quiet
      · rename_i cdata decode
        cases sent : sendBound turn allocs.allocs ctx.tuple cdata.number cdata.data with
        | error e => exact .quiet
        | ok w => exact .channelData decode sent
    · exact .quiet

theorem passed {c : Context} (passed : (admission stun srv env nonces ctx).2 = .pass c) :
    ∃ m, stun.decode ctx.request = (m,none) ∧ Carried ctx m c ∧
      ∀ auth, srv.auth = some auth → needAuth srv c = true → Authorized stun srv env nonces ctx auth m := by
  have checked := @admissionChecked ν stun srv env nonces ctx
  rw [passed] at checked
  cases checked with
  | pass decode carried gate => exact ⟨_,decode,carried,gate⟩

theorem passedProcess {c : Context} (framed : stun.isMessage ctx.request.raw = true)
    (pass : (admission stun srv env nonces ctx).2 = .pass c) :
    (process turn stun srv env nonces allocs ctx).2 = handle turn stun env allocs c := by
  rw [process,if_pos framed,processMessage]
  generalize admission stun srv env nonces ctx = out at pass
  obtain ⟨after,admitted⟩ := out
  dsimp only at pass
  subst pass
  rfl

theorem refusedProcess {c : Context} {code : ErrorCode} (framed : stun.isMessage ctx.request.raw = true)
    (refused : (admission stun srv env nonces ctx).2 = .refuse c code) :
    (process turn stun srv env nonces allocs ctx).2 = c.buildErr stun allocs code := by
  rw [process,if_pos framed,processMessage]
  generalize admission stun srv env nonces ctx = out at refused
  obtain ⟨after,admitted⟩ := out
  dsimp only at refused
  subst refused
  rfl

end Gortcd.Effects
