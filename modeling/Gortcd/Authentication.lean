import Gortcd.Effects
import Gortcd.Codec

/-! No state change without authentication, for a server with an authenticator: whatever
the packet is, the allocator changes only after the nonce and the credentials of a STUN
request were accepted while it was processed. -/
namespace Gortcd.Authentication
open Keyed Net Ports Sections Calls Messages Filters Auth Handlers Effects

variable {ν : Type} {turn : Turn} {stun : Stun} {srv : Server ν} {env : Env} {nonces : ν} {allocs : Allocator}
  {ctx : Context}

theorem callingRequest {port : Except PortErr NetAllocation} {c : Context} {call : Call}
    (requests : Requests stun port c call) : c.request.type.cls = .request ∧ c.request.type ≠ bindingRequest := by
  have named {method : Method} (type : c.request.type = ⟨method,.request⟩) (other : method ≠ .binding) :
      c.request.type.cls = .request ∧ c.request.type ≠ bindingRequest := by
    refine ⟨by rw [type],?_⟩
    intro binding
    exact other (congrArg MessageType.method (type.symm.trans binding))
  cases requests with
  | new type => exact named type nofun
  | remove type => exact named type nofun
  | refresh type => exact named type nofun
  | createPermission type => exact named type nofun
  | channelBind type => exact named type nofun

theorem authNeeded {c : Context} {auth : Message → Except AuthErr Bytes} (configured : srv.auth = some auth)
    (request : c.request.type.cls = .request) (other : c.request.type ≠ bindingRequest) : needAuth srv c = true := by
  simp [needAuth,configured,request,other]

theorem changeAuthorized {auth : Message → Except AuthErr Bytes} (configured : srv.auth = some auth)
    (changed : (process turn stun srv env nonces allocs ctx).2.allocs ≠ allocs) :
    stun.isMessage ctx.request.raw = true ∧ ∃ m, stun.decode ctx.request = (m,none) ∧ m.type.cls = .request ∧
      Authorized stun srv env nonces ctx auth m := by
  generalize out : (process turn stun srv env nonces allocs ctx).2.allocs = after at changed
  have effect := @processEffect ν turn stun srv env nonces allocs ctx
  rw [out] at effect
  generalize (process turn stun srv env nonces allocs ctx).2.sent = w at effect
  cases effect with
  | quiet => exact absurd rfl changed
  | @message c _ _ framed admitted effect =>
    obtain ⟨m,decode,carried,gate⟩ := passed admitted
    cases effect with
    | quiet => exact absurd rfl changed
    | called requests =>
      obtain ⟨request,other⟩ := callingRequest requests
      exact ⟨framed,m,decode,carried.request ▸ request,gate auth configured (authNeeded configured request other)⟩
    | sent => exact absurd rfl changed
  | channelData => exact absurd rfl changed

/- With the configured credentials as authenticator, one of them signed the message. -/
theorem unauthenticatedUnchanged {auth : Message → Except AuthErr Bytes} (configured : srv.auth = some auth)
    (changed : (process turn stun srv env nonces allocs ctx).2.allocs ≠ allocs) :
    stun.isMessage ctx.request.raw = true ∧ ∃ m, stun.decode ctx.request = (m,none) ∧ m.type.cls = .request ∧
      Authorized stun srv env nonces ctx auth m ∧
      ∀ credentials, auth = (newStatic stun credentials).auth stun → ∃ c ∈ credentials, Authentic stun c m := by
  obtain ⟨framed,m,decode,request,authorized⟩ :=
    @changeAuthorized ν turn stun srv env nonces allocs ctx auth configured changed
  refine ⟨framed,m,decode,request,authorized,?_⟩
  intro credentials static
  obtain ⟨_,_,_,_,ok⟩ := authorized
  rw [static] at ok
  obtain ⟨c,mem,_,authentic⟩ := staticAuth ok
  exact ⟨c,mem,authentic⟩

/- An Allocate request of user `user` in realm `realm` with password `secret`, and the
digests it takes. -/
def sampleCredential : StaticCredential := ⟨[0x75,0x73,0x65,0x72],[0x73,0x65,0x63,0x72,0x65,0x74],[0x72,0x65,0x61,0x6c,0x6d],[]⟩

def sampleKey : Bytes :=
  [0xfb,0x6c,0xb9,0xe1,0x66,0xc6,0xc7,0x64,0xff,0x2b,0xde,0xa1,0x21,0x75,0xa8,0xaa]

def sampleNonce : Bytes := newNonce [0,1,2,3,4,5,6,7,8,9,10,11]

def sampleSigned : Bytes :=
  [0x00,0x03,0x00,0x50,0x21,0x12,0xa4,0x42,0x01,0x02,0x03,0x04,0x05,0x06,0x07,0x08,0x09,0x0a,0x0b,0x0c,
   0x00,0x19,0x00,0x04,0x11,0x00,0x00,0x00,0x00,0x06,0x00,0x04,0x75,0x73,0x65,0x72,0x00,0x14,0x00,0x05,
   0x72,0x65,0x61,0x6c,0x6d,0x00,0x00,0x00,0x00,0x15,0x00,0x18,0x30,0x30,0x30,0x31,0x30,0x32,0x30,0x33,
   0x30,0x34,0x30,0x35,0x30,0x36,0x30,0x37,0x30,0x38,0x30,0x39,0x30,0x61,0x30,0x62]

def sampleDigest : Bytes :=
  [0x61,0x28,0x84,0x4d,0x52,0x71,0x45,0x65,0xad,0xca,0xbe,0x95,0x54,0x5b,0x2c,0x3d,0x17,0xc1,0x50,0x7b]

def sampleHashes : Codec.Hashes where
  hmac key input := if key = sampleKey ∧ input = sampleSigned then sampleDigest else []
  md5 input := if input = [0x75,0x73,0x65,0x72,0x3a,0x72,0x65,0x61,0x6c,0x6d,0x3a,0x73,0x65,0x63,0x72,0x65,0x74] then sampleKey else []

def samplePacket : Bytes := sampleSigned ++ [0x00,0x08,0x00,0x14] ++ sampleDigest

def sampleStun : Stun := Codec.documented sampleHashes

def sampleConfig : Config := newConfig ⟨[],[0x72,0x65,0x61,0x6c,0x6d],false,allowAll,allowAll⟩

def sampleAuthServer : Server NonceAuth :=
  ⟨sampleServer,some ((newStatic sampleStun [sampleCredential]).auth sampleStun),NonceAuth.manager .documented⟩

def sampleContext : Context :=
  { Context.fresh sampleConfig with
    request := { emptyMessage with raw := samplePacket }, tuple := sampleTuple, time := 5 }

theorem unauthenticatedUnchangedSample : ∃ c ∈ [sampleCredential],
    Authentic sampleStun c (sampleStun.decode sampleContext.request).1 := by
  have changed : (process .documented sampleStun sampleAuthServer ⟨[],.ok ⟨sampleRelayed,17,1⟩⟩
      ⟨0,[⟨sampleTuple,sampleNonce,0⟩]⟩ .empty sampleContext).2.allocs ≠ .empty := by decide +kernel
  obtain ⟨_,m,decode,_,_,static⟩ := unauthenticatedUnchanged rfl changed
  rw [decode]
  exact static [sampleCredential] rfl

end Gortcd.Authentication
