import Gortcd.Messages

/-! The wire format of RFC 5389 and RFC 5766, for running the model on real packets. The
hash functions behind MESSAGE-INTEGRITY stay parameters. -/
namespace Gortcd.Codec
open Net Messages

def word (n : Nat) : Bytes := [UInt8.ofNat (n / 256),UInt8.ofNat n]

def number : Bytes → Nat := List.foldl (fun acc b => acc * 256 + b.toNat) 0

def cookie : Bytes := [0x21,0x12,0xa4,0x42]

def Method.code : Method → Nat
  | .binding => 1
  | .allocate => 3
  | .refresh => 4
  | .send => 6
  | .data => 7
  | .createPermission => 8
  | .channelBind => 9
  | .other code => code.toNat

def Method.read : Nat → Method
  | 1 => .binding
  | 3 => .allocate
  | 4 => .refresh
  | 6 => .send
  | 7 => .data
  | 8 => .createPermission
  | 9 => .channelBind
  | code => .other (UInt16.ofNat code)

def MessageClass.code : MessageClass → Nat
  | .request => 0
  | .indication => 1
  | .successResponse => 2
  | .errorResponse => 3

def MessageClass.read : Nat → MessageClass
  | 0 => .request
  | 1 => .indication
  | 2 => .successResponse
  | _ => .errorResponse

/- The two class bits lie between the method bits 11 to 7, 6 to 4 and 3 to 0. -/
def typeValue (t : MessageType) : Nat :=
  let m := Method.code t.method
  let c := MessageClass.code t.cls
  m % 16 + c % 2 * 16 + m / 16 % 8 * 32 + c / 2 * 256 + m / 128 * 512

def readType (v : Nat) : MessageType :=
  ⟨Method.read (v % 16 + v / 32 % 8 * 16 + v / 512 % 32 * 128),MessageClass.read (v / 16 % 2 + v / 256 % 2 * 2)⟩

def header (m : Message) : Bytes := word (typeValue m.type) ++ word m.length ++ cookie ++ m.transactionID

def writeHeader (m : Message) : Message := { m with raw := header m ++ m.raw.drop 20 }

def padding (n : Nat) : Bytes := List.replicate ((4 - n % 4) % 4) 0

def add (type : UInt16) (v : Bytes) (m : Message) : Message :=
  let body := word type.toNat ++ word v.length ++ v ++ padding v.length
  writeHeader { m with
    length := m.length + body.length
    attributes := m.attributes ++ [⟨type,v⟩]
    raw := m.raw ++ body }

/- The attributes of a body of the announced length; `none` when one is cut short. -/
def attributes : Nat → Bytes → Option (List RawAttribute)
  | _,[] => some []
  | 0,_ => none
  | fuel + 1,b => do
    let size := number (b.take 4 |>.drop 2)
    let padded := size + (padding size).length
    if b.length < 4 + padded then none
    else
      let rest ← attributes fuel (b.drop (4 + padded))
      some (⟨UInt16.ofNat (number (b.take 2)),b.drop 4 |>.take size⟩ :: rest)

def isMessage (b : Bytes) : Bool := decide (20 ≤ b.length) && (b.drop 4).take 4 == cookie

def decode (m : Message) : Message × Option LibErr :=
  let size := number (m.raw.take 4 |>.drop 2)
  if !isMessage m.raw then (m,some (.other "header"))
  else if m.raw.length < 20 + size then (m,some (.other "length"))
  else
    let read := { m with type := readType (number (m.raw.take 2)), length := size,
                         transactionID := (m.raw.drop 8).take 12, attributes := [] }
    match attributes size ((m.raw.drop 20).take size) with
    | none => (read,some (.other "attribute"))
    | some attrs => ({ read with attributes := attrs },none)

def AttrType.code : AttrType → UInt16
  | .username => 0x0006
  | .realm => 0x0014
  | .messageIntegrity => 0x0008
  | .fingerprint => 0x8028

def get (m : Message) (type : UInt16) : Except LibErr Bytes :=
  match m.attributes.find? (fun a => a.type == type) with
  | some a => .ok a.value
  | none => .error .attributeNotFound

def ErrorCode.code : ErrorCode → Nat
  | .badRequest => 400
  | .unauthorized => 401
  | .forbidden => 403
  | .allocMismatch => 437
  | .staleNonce => 438
  | .serverError => 500

def ascii (text : List Char) : Bytes := text.map (fun c => UInt8.ofNat c.toNat)

def ErrorCode.reason : ErrorCode → Bytes
  | .badRequest => ascii ['B','a','d',' ','R','e','q','u','e','s','t']
  | .unauthorized => ascii ['U','n','a','u','t','h','o','r','i','z','e','d']
  | .forbidden => ascii ['F','o','r','b','i','d','d','e','n']
  | .allocMismatch => ascii ['A','l','l','o','c','a','t','i','o','n',' ','M','i','s','m','a','t','c','h']
  | .staleNonce => ascii ['S','t','a','l','e',' ','N','o','n','c','e']
  | .serverError => ascii ['S','e','r','v','e','r',' ','E','r','r','o','r']

def xor (a b : Bytes) : Bytes := List.zipWith (· ^^^ ·) a b

/- XOR-MAPPED-ADDRESS and its kind: family, port and address, masked. -/
def xorAddress (a : Addr) (m : Message) : Bytes :=
  let ip := (IP.to4 a.ip).getD a.ip
  [0,if ip.length = 4 then 1 else 2] ++ xor (word a.port.toNat) cookie ++ xor ip (cookie ++ m.transactionID)

def readXorAddress (v : Bytes) (m : Message) : Except LibErr Addr :=
  if v.length = 8 ∧ v.take 2 = [0,1] ∨ v.length = 20 ∧ v.take 2 = [0,2] then
    .ok ⟨xor (v.drop 4) (cookie ++ m.transactionID),number (xor ((v.drop 2).take 2) cookie)⟩
  else .error (.other "address")

def crcBit (c : UInt32) : UInt32 := if c &&& 1 = 1 then (c >>> 1) ^^^ 0xedb88320 else c >>> 1

def crc32 (b : Bytes) : UInt32 :=
  (b.foldl (fun c x => crcBit (crcBit (crcBit (crcBit (crcBit (crcBit (crcBit (crcBit (c ^^^ x.toUInt32)))))))))
    0xffffffff) ^^^ 0xffffffff

/- The value over a message whose length already counts the attribute. -/
def fingerprint (m : Message) : Bytes :=
  let v := crc32 (writeHeader { m with length := m.length + 8 }).raw ^^^ 0x5354554e
  [UInt8.ofNat (v.toNat / 16777216),UInt8.ofNat (v.toNat / 65536),UInt8.ofNat (v.toNat / 256),UInt8.ofNat v.toNat]

/- The message before its last attribute, which has `size` bytes in all. -/
def without (size : Nat) (m : Message) : Message :=
  { m with length := m.length - size, attributes := m.attributes.dropLast, raw := m.raw.take (m.raw.length - size) }

def checkFingerprint (m : Message) : Option LibErr :=
  match get m 0x8028 with
  | .error e => some e
  | .ok v => if v = fingerprint (without 8 m) then none else some (.other "fingerprint")

/- The bytes before MESSAGE-INTEGRITY, with a length field that counts it. -/
def integrityInput (m : Message) : Bytes := (writeHeader { m with length := m.length + 24 }).raw

def beforeIntegrity (m : Message) : Message :=
  let kept := m.attributes.takeWhile (fun a => a.type != 0x0008)
  let size := kept.foldl (fun n a => n + (4 + a.value.length + (padding a.value.length).length)) 0
  { m with length := size, attributes := kept, raw := m.raw.take (20 + size) }

structure Hashes where
  hmac : Bytes → Bytes → Bytes
  md5 : Bytes → Bytes

-- For packets that carry no MESSAGE-INTEGRITY.
def noHashes : Hashes := ⟨fun _ _ => [],fun _ => []⟩

def colon : Bytes := [0x3a]

/- NONCE, REALM and SOFTWARE have at most 763 bytes. -/
def text (v : Bytes) : Except LibErr Bytes := if v.length ≤ 763 then .ok v else .error (.other "overflow")

def address (a : Addr) (m : Message) : Except LibErr Bytes :=
  if a.ip.length = 4 ∨ a.ip.length = 16 then .ok (xorAddress a m) else .error (.other "bad IP length")

def kind : Setter → UInt16
  | .nonce _ => 0x0015
  | .realm _ => 0x0014
  | .software _ => 0x8022
  | .xorMappedAddress _ => 0x0020
  | .relayedAddress _ => 0x0016
  | .lifetime _ => 0x000d
  | .channelNumber _ => 0x000c
  | .errorCode _ => 0x0009
  | .data _ => 0x0013
  | .peerAddress _ => 0x0012
  | .integrity _ => 0x0008
  | .fingerprint => 0x8028
  | .transactionID _ => 0
  | .type _ => 0

def value (hashes : Hashes) (m : Message) : Setter → Except LibErr Bytes
  | .nonce v => text v
  | .realm v => text v
  | .software v => text v
  | .xorMappedAddress a => address a m
  | .relayedAddress a => address a m
  | .lifetime d => .ok (word ((d / 1000000000).toNat / 65536) ++ word (d / 1000000000).toNat)
  | .channelNumber n => .ok (word n.toNat ++ [0,0])
  | .errorCode c =>
      .ok ([0,0,UInt8.ofNat (ErrorCode.code c / 100),UInt8.ofNat (ErrorCode.code c % 100)] ++ ErrorCode.reason c)
  | .data d => .ok d
  | .peerAddress a => address a m
  | .integrity key =>
      if m.attributes.any (fun a => a.type == 0x8028) then .error (.other "fingerprint before integrity")
      else .ok (hashes.hmac key (integrityInput m))
  | .fingerprint => .ok (fingerprint m)
  | .transactionID _ => .error (.other "header")
  | .type _ => .error (.other "header")

def addTo (hashes : Hashes) (s : Setter) (m : Message) : Message × Option LibErr :=
  match s with
  | .transactionID none => (m,some (.other "random"))
  | .transactionID (some id) => (writeHeader { m with transactionID := id },none)
  | .type t => (writeHeader { m with type := t },none)
  | s => match value hashes m s with
    | .ok v => (add (kind s) v m,none)
    | .error e => (m,some e)

def reading {α : Type} (m : Message) (type : UInt16) (f : Bytes → Except LibErr α) : Except LibErr α := do
  f (← get m type)

def isChannelData (b : Bytes) : Bool :=
  decide (4 ≤ b.length) && decide (0x4000 ≤ number (b.take 2) ∧ number (b.take 2) ≤ 0x7fff) &&
    decide (number ((b.drop 2).take 2) ≤ b.length - 4)

def decodeChannelData (c : ChannelData) : ChannelData × Option LibErr :=
  if !isChannelData c.raw then (c,some (.other "channel data"))
  else
    let size := number ((c.raw.drop 2).take 2)
    (⟨c.raw,UInt16.ofNat (number (c.raw.take 2)),size,(c.raw.drop 4).take size⟩,none)

def encodeChannelData (c : ChannelData) : ChannelData :=
  { c with raw := word c.number.toNat ++ word c.data.length ++ c.data ++ padding c.data.length, length := c.data.length }

def documented (hashes : Hashes) : Stun where
  isMessage := isMessage
  decode := decode
  reset m := { m with length := 0, attributes := [], raw := [] }
  writeHeader := writeHeader
  addTo := addTo hashes
  contains m type := (get m (AttrType.code type)).isOk
  get m type := get m (AttrType.code type)
  checkFingerprint := checkFingerprint
  checkIntegrity key m := match get m 0x0008 with
    | .error e => some e
    | .ok v =>
      if v = hashes.hmac key (integrityInput (beforeIntegrity m)) then none else some (.other "integrity")
  newLongTermIntegrity username realm password := hashes.md5 (username ++ colon ++ realm ++ colon ++ password)
  nonce m := get m 0x0015
  requestedTransport m := reading m 0x0019 (fun v => if v.length = 4 then .ok (v.headD 0) else .error (.other "size"))
  lifetime m := reading m 0x000d (fun v =>
    if v.length = 4 then .ok (number v * 1000000000) else .error (.other "size"))
  peerAddress m := reading m 0x0012 (fun v => readXorAddress v m)
  channelNumber m := reading m 0x000c (fun v =>
    if v.length = 4 then .ok (UInt16.ofNat (number (v.take 2))) else .error (.other "size"))
  data m := get m 0x0013
  isChannelData := isChannelData
  decodeChannelData := decodeChannelData
  resetChannelData c := { c with raw := [], length := 0, data := [] }
  encodeChannelData := encodeChannelData

def wire : Stun := documented noHashes

/- Requests for running the model: one without attributes, and a Refresh with a LIFETIME. -/
def bareRequest (type : UInt8) : Bytes :=
  [0x00,type,0x00,0x00,0x21,0x12,0xa4,0x42,0x01,0x02,0x03,0x04,0x05,0x06,0x07,0x08,0x09,0x0a,0x0b,0x0c]

def refreshRequest (high low : UInt8) : Bytes :=
  [0x00,0x04,0x00,0x08,0x21,0x12,0xa4,0x42,0x01,0x02,0x03,0x04,0x05,0x06,0x07,0x08,0x09,0x0a,0x0b,0x0c,
   0x00,0x0d,0x00,0x04,0x00,0x00,high,low]

theorem numberWord (n : Nat) : number (word n) = n % 65536 := by
  simp only [number,word,List.foldl_cons,List.foldl_nil,UInt8.toNat_ofNat']
  omega

/- The two class bits survive the encoding, whatever the method is. -/
theorem classRead (t : MessageType) : (readType (number (word (typeValue t)))).cls = t.cls := by
  rw [numberWord]
  obtain ⟨method,cls⟩ := t
  simp only [readType,typeValue]
  generalize Method.code method = m
  have low (c : Nat) : (m % 16 + c % 2 * 16 + m / 16 % 8 * 32 + c / 2 * 256 + m / 128 * 512) % 65536 / 16 % 2 = c % 2 := by
    omega
  have high (c : Nat) :
      (m % 16 + c % 2 * 16 + m / 16 % 8 * 32 + c / 2 * 256 + m / 128 * 512) % 65536 / 256 % 2 = c / 2 % 2 := by
    omega
  rw [low,high]
  cases cls <;> rfl

def Headed (m : Message) : Prop := m.raw.take 2 = word (typeValue m.type)

theorem writeHeaded (m : Message) : Headed (writeHeader m) := rfl

/- What a setter that does not write the header can do. -/
theorem addCases (hashes : Hashes) (s : Setter) (m : Message) (header : (∀ id, s ≠ .transactionID id) ∧ ∀ t, s ≠ .type t) :
    (∃ e, value hashes m s = .error e ∧ addTo hashes s m = (m,some e)) ∨
      ∃ v, value hashes m s = .ok v ∧ addTo hashes s m = (add (kind s) v m,none) := by
  have shape : addTo hashes s m = match value hashes m s with
      | .ok v => (add (kind s) v m,none)
      | .error e => (m,some e) := by
    cases s with
    | transactionID id => exact absurd rfl (header.1 id)
    | type t => exact absurd rfl (header.2 t)
    | _ => rfl
  rw [shape]
  cases value hashes m s with
  | error e => exact .inl ⟨e,rfl,rfl⟩
  | ok v => exact .inr ⟨v,rfl,rfl⟩

theorem addedHeaded {hashes : Hashes} {s : Setter} {m : Message} (headed : Headed m) (other : ∀ t, s ≠ .type t) :
    Headed (addTo hashes s m).1 ∧ (addTo hashes s m).1.type = m.type := by
  by_cases named : ∃ id, s = .transactionID id
  · obtain ⟨id,rfl⟩ := named
    cases id with
    | none => exact ⟨headed,rfl⟩
    | some id => exact ⟨writeHeaded _,rfl⟩
  · rcases addCases hashes s m ⟨fun id same => named ⟨id,same⟩,other⟩ with ⟨e,_,same⟩ | ⟨v,_,same⟩ <;> rw [same]
    · exact ⟨headed,rfl⟩
    · exact ⟨writeHeaded _,rfl⟩

theorem appliedHeaded {hashes : Hashes} {l : List Setter} {m : Message} (headed : Headed m)
    (other : ∀ s ∈ l, ∀ t, s ≠ .type t) :
    Headed (apply (documented hashes) m l).1 ∧ (apply (documented hashes) m l).1.type = m.type := by
  induction l generalizing m with
  | nil => exact ⟨headed,rfl⟩
  | cons s l ih =>
    obtain ⟨head,tail⟩ := List.forall_mem_cons.mp other
    have added := @addedHeaded hashes s m headed head
    have step : (documented hashes).addTo s m = addTo hashes s m := rfl
    simp only [apply,step]
    generalize addTo hashes s m = out at added
    obtain ⟨m',err⟩ := out
    cases err with
    | some e => exact added
    | none =>
      have rest := ih added.1 tail
      exact ⟨rest.1,rest.2.trans added.2⟩

theorem decodedType {m d : Message} (ok : decode m = (d,none)) : d.type = readType (number (m.raw.take 2)) := by
  unfold decode at ok
  dsimp only at ok
  split at ok
  · cases ok
  · split at ok
    · cases ok
    · split at ok
      · cases ok
      · cases ok
        rfl

end Gortcd.Codec
