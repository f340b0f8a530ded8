import Gortcd.Net

/-! What the server calls of gortc.io/stun and gortc.io/turn: messages, the setters that
write attributes into a response, the getters that read them from a request, and
ChannelData. The packages are outside the development, so their functions are the fields
of `Stun`. A setter that fails may leave the message half written. -/
namespace Gortcd.Messages
open Net

inductive MessageClass where
  | request
  | indication
  | successResponse
  | errorResponse
  deriving DecidableEq, Repr

inductive Method where
  | binding
  | allocate
  | refresh
  | send
  | data
  | createPermission
  | channelBind
  | other (code : UInt16)
  deriving DecidableEq, Repr

structure MessageType where
  method : Method
  cls : MessageClass
  deriving DecidableEq, Repr

-- The attribute types that the server asks for by name.
inductive AttrType where
  | username
  | realm
  | messageIntegrity
  | fingerprint
  deriving DecidableEq, Repr

structure RawAttribute where
  type : UInt16
  value : Bytes
  deriving DecidableEq, Repr

structure Message where
  type : MessageType
  length : Nat
  transactionID : Bytes
  attributes : List RawAttribute
  raw : Bytes
  deriving DecidableEq, Repr

structure ChannelData where
  raw : Bytes
  number : ChannelNumber
  length : Nat
  data : Bytes
  deriving DecidableEq, Repr

inductive ErrorCode where
  | badRequest
  | unauthorized
  | forbidden
  | allocMismatch
  | staleNonce
  | serverError
  deriving DecidableEq, Repr

inductive Setter where
  | transactionID (random : Option Bytes)
  | type (t : MessageType)
  | nonce (v : Bytes)
  | realm (v : Bytes)
  | software (v : Bytes)
  | xorMappedAddress (a : Addr)
  | relayedAddress (a : Addr)
  | lifetime (d : Duration)
  | channelNumber (n : ChannelNumber)
  | errorCode (c : ErrorCode)
  | data (d : Bytes)
  | peerAddress (a : Addr)
  | integrity (key : Bytes)
  | fingerprint
  deriving DecidableEq, Repr

inductive LibErr where
  | attributeNotFound
  | other (text : String)
  deriving DecidableEq, Repr

structure Stun where
  isMessage : Bytes → Bool
  decode : Message → Message × Option LibErr
  reset : Message → Message
  writeHeader : Message → Message
  addTo : Setter → Message → Message × Option LibErr
  contains : Message → AttrType → Bool
  get : Message → AttrType → Except LibErr Bytes
  checkFingerprint : Message → Option LibErr
  checkIntegrity : Bytes → Message → Option LibErr
  newLongTermIntegrity : Bytes → Bytes → Bytes → Bytes
  nonce : Message → Except LibErr Bytes
  requestedTransport : Message → Except LibErr Protocol
  lifetime : Message → Except LibErr Duration
  peerAddress : Message → Except LibErr Addr
  channelNumber : Message → Except LibErr ChannelNumber
  data : Message → Except LibErr Bytes
  isChannelData : Bytes → Bool
  decodeChannelData : ChannelData → ChannelData × Option LibErr
  resetChannelData : ChannelData → ChannelData
  encodeChannelData : ChannelData → ChannelData

def emptyMessage : Message := ⟨⟨.other 0,.request⟩,0,List.replicate 12 0,[],[]⟩

def emptyChannelData : ChannelData := ⟨[],0,0,[]⟩

variable (stun : Stun)

/- `Setter.AddTo` one after the other, stopping at the first error. -/
def apply (m : Message) : List Setter → Message × Option LibErr
  | [] => (m,none)
  | s :: rest => match stun.addTo s m with
    | (m,some e) => (m,some e)
    | (m,none) => apply m rest

/- `Message.Build` on `stun.New()`. -/
def build (setters : List Setter) : Message × Option LibErr :=
  apply stun (stun.writeHeader (stun.reset emptyMessage)) setters

variable {stun}

theorem applyAppend {m : Message} {first second : List Setter} :
    apply stun m (first ++ second) = match apply stun m first with
      | (m,some e) => (m,some e)
      | (m,none) => apply stun m second := by
  induction first generalizing m with
  | nil => rfl
  | cons s rest ih =>
    simp only [List.cons_append,apply]
    cases stun.addTo s m with
    | mk m' err => cases err with
      | some e => rfl
      | none => exact ih

theorem applyAfter {m : Message} {first second : List Setter} (done : (apply stun m first).2 = none) :
    apply stun m (first ++ second) = apply stun (apply stun m first).1 second := by
  rw [applyAppend]
  generalize apply stun m first = out at done
  obtain ⟨m',err⟩ := out
  dsimp only at done
  subst done
  rfl

theorem applyBegan {m : Message} {first second : List Setter} (done : (apply stun m (first ++ second)).2 = none) :
    (apply stun m first).2 = none := by
  rw [applyAppend] at done
  split at done
  · cases done
  · rename_i eq
    rw [eq]

end Gortcd.Messages
