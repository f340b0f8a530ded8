import Gortcd.Messages

/-! internal/auth: long-term credentials and the nonce manager. Go strings are byte
strings; the credential map is a function to an optional key. -/
namespace Gortcd.Auth
open Keyed Net Messages

structure StaticCredential where
  username : Bytes
  password : Bytes
  realm : Bytes
  key : Bytes
  deriving DecidableEq, Repr

structure StaticKey where
  username : Bytes
  realm : Bytes
  deriving DecidableEq, Repr

structure Static where
  credentials : StaticKey → Option Bytes

def StaticCredential.id (c : StaticCredential) : StaticKey := ⟨c.username,c.realm⟩

def StaticCredential.integrity (stun : Stun) (c : StaticCredential) : Bytes :=
  if c.key.length > 0 then c.key else stun.newLongTermIntegrity c.username c.realm c.password

def Static.insert (s : Static) (k : StaticKey) (v : Bytes) : Static :=
  ⟨fun k' => if k' = k then some v else s.credentials k'⟩

def newStatic (stun : Stun) (credentials : List StaticCredential) : Static :=
  credentials.foldl (fun s c => s.insert c.id (c.integrity stun)) ⟨fun _ => none⟩

inductive AuthErr where
  | userNotFound
  | lib (e : LibErr)
  deriving DecidableEq, Repr

/- `Auth` returns the key also with a failed check; its caller drops it then. -/
def Static.auth (stun : Stun) (s : Static) (m : Message) : Except AuthErr Bytes :=
  match stun.get m .username with
  | .error e => .error (.lib e)
  | .ok username => match stun.get m .realm with
    | .error e => .error (.lib e)
    | .ok realm => match s.credentials ⟨username,realm⟩ with
      | none => .error .userNotFound
      | some i => match stun.checkIntegrity i m with
        | some e => .error (.lib e)
        | none => .ok i

inductive NonceErr where
  | stale
  | other
  deriving DecidableEq, Repr

/- The `NonceManager` interface; the second argument is what the random source gives. -/
structure NonceManager (ν : Type) where
  check : ν → Bytes → FiveTuple → Bytes → Time → ν × Bytes × Option NonceErr

structure Nonce where
  tuple : FiveTuple
  value : Bytes
  validUntil : Time
  deriving DecidableEq, Repr

structure NonceAuth where
  duration : Duration
  nonces : List Nonce
  deriving DecidableEq, Repr

def newNonceAuth (duration : Duration) : NonceAuth := ⟨duration,[]⟩

def hexDigit (n : UInt8) : UInt8 := if n < 10 then 0x30 + n else 0x57 + n

def newNonce (random : Bytes) : Bytes := random.flatMap (fun b => [hexDigit (b / 16),hexDigit (b % 16)])

def Nonce.valid (n : Nonce) (t : Time) : Bool := n.validUntil == 0 || decide (t < n.validUntil)

def NonceAuth.check (turn : Turn) (n : NonceAuth) (random : Bytes) (tuple : FiveTuple) (value : Bytes) (at' : Time) :
    NonceAuth × Bytes × Option NonceErr :=
  match n.nonces.find? (fun c => turn.tuples.same c.tuple tuple) with
  | some current =>
    if current.valid at' then
      if current.value != value then (n,current.value,some .stale) else (n,current.value,none)
    else
      let rotated := { current with value := newNonce random, validUntil := at' + n.duration }
      ({ n with nonces := updateFirst (fun c => turn.tuples.same c.tuple tuple) (fun _ => rotated) n.nonces },
        rotated.value,some .stale)
  | none =>
    let current : Nonce := ⟨tuple,newNonce random,if n.duration ≠ 0 then at' + n.duration else 0⟩
    ({ n with nonces := n.nonces ++ [current] },current.value,some .stale)

def NonceAuth.manager (turn : Turn) : NonceManager NonceAuth := ⟨NonceAuth.check turn⟩

variable {stun : Stun}

theorem insertedCredential {l : List StaticCredential} {s : Static} {k : StaticKey} {v : Bytes}
    (found : (l.foldl (fun s c => s.insert c.id (c.integrity stun)) s).credentials k = some v) :
    s.credentials k = some v ∨ ∃ c ∈ l, c.id = k ∧ c.integrity stun = v := by
  induction l generalizing s with
  | nil => exact .inl found
  | cons c l ih =>
    rcases ih found with here | ⟨d,mem,id,key⟩
    · simp only [Static.insert] at here
      split at here
      · rename_i same
        exact .inr ⟨c,List.mem_cons_self,same.symm,Option.some.inj here⟩
      · exact .inl here
    · exact .inr ⟨d,List.mem_cons_of_mem _ mem,id,key⟩

/- What a successful `Auth` says about the message and the configured credentials. -/
structure Authentic (stun : Stun) (c : StaticCredential) (m : Message) : Prop where
  username : stun.get m .username = .ok c.username
  realm : stun.get m .realm = .ok c.realm
  integrity : stun.checkIntegrity (c.integrity stun) m = none

theorem staticAuth {l : List StaticCredential} {m : Message} {i : Bytes}
    (ok : (newStatic stun l).auth stun m = .ok i) : ∃ c ∈ l, i = c.integrity stun ∧ Authentic stun c m := by
  unfold Static.auth at ok
  cases username : stun.get m .username with
  | error e => simp [username] at ok
  | ok u => cases realm : stun.get m .realm with
    | error e => simp [username,realm] at ok
    | ok r => cases held : (newStatic stun l).credentials ⟨u,r⟩ with
      | none => simp [username,realm,held] at ok
      | some key => cases check : stun.checkIntegrity key m with
        | some e => simp [username,realm,held,check] at ok
        | none =>
          simp only [username,realm,held,check,Except.ok.injEq] at ok
          rcases insertedCredential held with none | ⟨c,mem,id,same⟩
          · cases none
          · cases id
            subst same
            exact ⟨c,mem,ok.symm,username,realm,check⟩

end Gortcd.Auth
