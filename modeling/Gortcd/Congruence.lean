import Gortcd.Handlers

/-! Contexts that the handlers cannot tell apart: a request is read through its type, its
transaction ID and the getters of its own handler, and a response is built from an emptied
message. One lemma for each handler, for two contexts that agree in these. -/
namespace Gortcd.Congruence
open Net Sections Calls Messages Filters Auth Handlers

/- The two requests give the handler of their type the same values. -/
structure ReadsAlike (stun : Stun) (m n : Message) : Prop where
  type : m.type = n.type
  transactionID : m.transactionID = n.transactionID
  requestedTransport : n.type = ⟨.allocate,.request⟩ → stun.requestedTransport m = stun.requestedTransport n
  lifetime : n.type = ⟨.refresh,.request⟩ ∨ n.type = ⟨.createPermission,.request⟩ → stun.lifetime m = stun.lifetime n
  peerAddress : n.type = ⟨.createPermission,.request⟩ ∨ n.type = ⟨.channelBind,.request⟩ ∨ n.type = ⟨.send,.indication⟩ →
    stun.peerAddress m = stun.peerAddress n
  channelNumber : n.type = ⟨.channelBind,.request⟩ → stun.channelNumber m = stun.channelNumber n
  data : n.type = ⟨.send,.indication⟩ → stun.data m = stun.data n

theorem readsSame {stun : Stun} (m : Message) : ReadsAlike stun m m :=
  ⟨rfl,rfl,fun _ => rfl,fun _ => rfl,fun _ => rfl,fun _ => rfl,fun _ => rfl⟩

structure Alike (stun : Stun) (c d : Context) : Prop where
  reads : ReadsAlike stun c.request d.request
  emptied : ∀ t i, ({ stun.reset c.response with type := t, transactionID := i } : Message) =
    { stun.reset d.response with type := t, transactionID := i }
  raw : c.response.raw = d.response.raw
  conn : c.conn = d.conn
  addr : c.addr = d.addr
  cfg : c.cfg = d.cfg
  time : c.time = d.time
  client : c.client = d.client
  tuple : c.tuple = d.tuple
  nonce : c.nonce = d.nonce
  realm : c.realm = d.realm
  integrity : c.integrity = d.integrity

/- The same outcome of a packet, as far as `serveConn` looks at it. -/
structure Equal (h k : Handled) : Prop where
  allocs : h.allocs = k.allocs
  sent : h.sent = k.sent
  err : h.err = k.err
  raw : h.ctx.response.raw = k.ctx.response.raw
  conn : h.ctx.conn = k.ctx.conn
  addr : h.ctx.addr = k.ctx.addr

theorem equalReply {h k : Handled} (equal : Equal h k) : h.reply = k.reply := by
  unfold Handled.reply
  rw [equal.err,equal.raw]

variable {turn : Turn} {stun : Stun} {env : Env} {allocs : Allocator} {c d : Context}

section Handlers
variable (alike : Alike stun c d)
include alike

theorem alikeAllowPeer (peer : Addr) : c.allowPeer peer = d.allowPeer peer := by
  unfold Context.allowPeer
  rw [alike.cfg]

theorem bareEqual (a : Allocator) (sent : Option Write) (err : Option ProcessErr) : Equal ⟨a,c,sent,err⟩ ⟨a,d,sent,err⟩ :=
  ⟨rfl,rfl,rfl,alike.raw,alike.conn,alike.addr⟩

/- A response starts from an emptied message with its own type and transaction ID. -/
theorem builtEqual (a : Allocator) (cls : MessageClass) (method : Method) (s : List Setter) :
    Equal (Context.finish a (c.build stun cls method s)) (Context.finish a (d.build stun cls method s)) := by
  unfold Context.build
  rw [alike.reads.type]
  by_cases quiet : d.request.type.cls = .indication
  · rw [if_pos quiet,if_pos quiet]
    exact bareEqual alike a none none
  · rw [if_neg quiet,if_neg quiet]
    simp only [alike.reads.transactionID,alike.emptied,alike.nonce,alike.realm,alike.cfg,alike.integrity]
    exact ⟨rfl,rfl,rfl,rfl,alike.conn,alike.addr⟩

theorem errEqual (a : Allocator) (code : ErrorCode) : Equal (c.buildErr stun a code) (d.buildErr stun a code) := by
  unfold Context.buildErr
  rw [alike.reads.type]
  exact builtEqual alike a .errorResponse d.request.type.method [.errorCode code]

theorem okEqual (a : Allocator) (s : List Setter) : Equal (c.buildOk stun a s) (d.buildOk stun a s) := by
  unfold Context.buildOk
  rw [alike.reads.type]
  exact builtEqual alike a .successResponse d.request.type.method s

theorem bindingEqual : Equal (processBindingRequest stun allocs c) (processBindingRequest stun allocs d) := by
  unfold processBindingRequest
  rw [alike.client]
  exact okEqual alike allocs _

theorem allocateEqual (type : d.request.type = ⟨.allocate,.request⟩) :
    Equal (processAllocateRequest turn stun env allocs c) (processAllocateRequest turn stun env allocs d) := by
  simp only [processAllocateRequest,alike.reads.requestedTransport type,alike.tuple,alike.time,alike.cfg]
  cases stun.requestedTransport d.request with
  | error e => exact errEqual alike allocs .badRequest
  | ok transport =>
    dsimp only
    generalize allocs.new turn d.tuple (d.time + d.cfg.defaultLifetime) env.port = out
    obtain ⟨a,result⟩ := out
    cases result with
    | ok relayed => exact okEqual alike a _
    | error e => cases e <;> exact errEqual alike a _

theorem refreshedEqual (l : Duration) (out : Allocator × Option Err) :
    Equal (match out.2 with
      | none => c.buildOk stun out.1 [.lifetime l]
      | some .allocationMismatch => c.buildErr stun out.1 .allocMismatch
      | some _ => c.buildErr stun out.1 .serverError)
    (match out.2 with
      | none => d.buildOk stun out.1 [.lifetime l]
      | some .allocationMismatch => d.buildErr stun out.1 .allocMismatch
      | some _ => d.buildErr stun out.1 .serverError) := by
  obtain ⟨a,err⟩ := out
  cases err with
  | none => exact okEqual alike a _
  | some e => cases e <;> exact errEqual alike a _

theorem refreshEqual (type : d.request.type = ⟨.refresh,.request⟩) :
    Equal (processRefreshRequest turn stun allocs c) (processRefreshRequest turn stun allocs d) := by
  simp only [processRefreshRequest,alike.reads.lifetime (.inl type),alike.tuple,alike.time]
  cases stun.lifetime d.request with
  | ok l => exact refreshedEqual alike l _
  | error e => cases e with
    | attributeNotFound => exact refreshedEqual alike 0 _
    | other text => exact bareEqual alike allocs none _

theorem createdEqual (peer : Addr) (l : Duration) :
    Equal (if !d.allowPeer peer then c.buildErr stun allocs .forbidden
      else match allocs.createPermission turn d.tuple peer (d.time + l) with
        | (a,some .allocationMismatch) => c.buildErr stun a .allocMismatch
        | (a,none) => c.buildOk stun a [.lifetime l]
        | (a,some e) => ⟨a,c,none,some (.wrapAlloc "failed to create allocation" e)⟩)
    (if !d.allowPeer peer then d.buildErr stun allocs .forbidden
      else match allocs.createPermission turn d.tuple peer (d.time + l) with
        | (a,some .allocationMismatch) => d.buildErr stun a .allocMismatch
        | (a,none) => d.buildOk stun a [.lifetime l]
        | (a,some e) => ⟨a,d,none,some (.wrapAlloc "failed to create allocation" e)⟩) := by
  cases d.allowPeer peer with
  | false => exact errEqual alike allocs .forbidden
  | true =>
    generalize allocs.createPermission turn d.tuple peer (d.time + l) = out
    obtain ⟨a,err⟩ := out
    cases err with
    | none => exact okEqual alike a _
    | some e => cases e <;> first
      | exact errEqual alike a .allocMismatch
      | exact bareEqual alike a none _

theorem createPermissionEqual (type : d.request.type = ⟨.createPermission,.request⟩) :
    Equal (processCreatePermissionRequest turn stun allocs c) (processCreatePermissionRequest turn stun allocs d) := by
  simp only [processCreatePermissionRequest,alike.reads.peerAddress (.inl type),alike.reads.lifetime (.inr type),
    alike.tuple,alike.time,alike.cfg,alikeAllowPeer alike]
  cases stun.peerAddress d.request with
  | error e => exact bareEqual alike allocs none _
  | ok peer =>
    cases stun.lifetime d.request with
    | ok l => exact createdEqual alike peer _
    | error e => cases e with
      | attributeNotFound => exact createdEqual alike peer _
      | other text => exact bareEqual alike allocs none _

theorem sendEqual (type : d.request.type = ⟨.send,.indication⟩) :
    Equal (processSendIndication turn stun allocs c) (processSendIndication turn stun allocs d) := by
  simp only [processSendIndication,alike.reads.data type,alike.reads.peerAddress (.inr (.inr type)),alike.tuple]
  cases stun.data d.request with
  | error e => exact bareEqual alike allocs none _
  | ok data => cases stun.peerAddress d.request with
    | error e => exact bareEqual alike allocs none _
    | ok peer => exact bareEqual alike allocs _ none

theorem channelBindEqual (type : d.request.type = ⟨.channelBind,.request⟩) :
    Equal (processChannelBinding turn stun allocs c) (processChannelBinding turn stun allocs d) := by
  simp only [processChannelBinding,alike.reads.peerAddress (.inr (.inl type)),alike.reads.channelNumber type,
    alike.tuple,alike.time,alike.cfg,alikeAllowPeer alike]
  cases stun.peerAddress d.request with
  | error e => exact errEqual alike allocs .badRequest
  | ok peer => cases stun.channelNumber d.request with
    | error e => exact errEqual alike allocs .badRequest
    | ok n =>
      cases allowed : d.allowPeer peer with
      | false =>
        simp only [allowed,Bool.not_false,if_true]
        exact errEqual alike allocs .forbidden
      | true =>
        simp only [allowed,Bool.not_true,Bool.false_eq_true,if_false]
        generalize allocs.channelBind turn d.tuple n peer (d.time + d.cfg.defaultLifetime) = out
        obtain ⟨a,err⟩ := out
        cases err with
        | none => exact okEqual alike a _
        | some e => cases e <;> first
          | exact errEqual alike a .allocMismatch
          | exact bareEqual alike a none _

theorem handleEqual : Equal (handle turn stun env allocs c) (handle turn stun env allocs d) := by
  unfold handle
  rw [alike.reads.type]
  split
  · exact bindingEqual alike
  · rename_i type
    exact allocateEqual alike type
  · rename_i type
    exact createPermissionEqual alike type
  · rename_i type
    exact refreshEqual alike type
  · rename_i type
    exact sendEqual alike type
  · rename_i type
    exact channelBindEqual alike type
  · exact errEqual alike allocs .badRequest

end Handlers
end Gortcd.Congruence
