import Gortcd.Library
import Gortcd.RoundTrip

/-! What a client can check of a response: FINGERPRINT over the whole message, and over what
comes before it MESSAGE-INTEGRITY under the key of its own request. Both are computed while
the message is written, with a length field that counts them already, and checked on the
message that is read. So the wire format keeps what `Library` says of gortc.io/stun. -/
namespace Gortcd.Signatures
open Net Messages Codec RoundTrip Library Runs

variable {hashes : Hashes} {b m n : Message} {type : UInt16} {v : Bytes} {l k : List Setter} {s : Setter}

theorem getLacks (lacks : Lacks type m) : Codec.get m type = .error .attributeNotFound := by
  have scan : m.attributes.find? (fun a => a.type == type) = none :=
    List.find?_eq_none.mpr (fun a mem hit => lacks a mem (beq_iff_eq.mp hit))
  rw [Codec.get,scan]

/- The first attribute of a type is the one that is read. -/
theorem getFirst {before rest : List RawAttribute} (attributes : m.attributes = before ++ ⟨type,v⟩ :: rest)
    (lacks : ∀ a ∈ before, a.type ≠ type) : Codec.get m type = .ok v := by
  have scan : before.find? (fun a => a.type == type) = none :=
    List.find?_eq_none.mpr (fun a mem hit => lacks a mem (beq_iff_eq.mp hit))
  simp [Codec.get,attributes,List.find?_append,scan]

theorem getAdded (lacks : Lacks type m) : Codec.get (add type v m) type = .ok v := @getFirst _ _ _ m.attributes [] rfl lacks

/- Both digests are taken over the header with a longer length and what follows it. -/
theorem rewritten (kind : m.type = n.type) (id : m.transactionID = n.transactionID) (length : m.length = n.length)
    (rest : m.raw.drop 20 = n.raw.drop 20) (k : Nat) :
    (writeHeader { m with length := m.length + k }).raw = (writeHeader { n with length := n.length + k }).raw := by
  simp only [writeHeader,header,kind,id,length,rest]

theorem addedRest (encoded : Encoded m) :
    (add type v m).raw.drop 20 = body m.attributes ++ field ⟨type,v⟩ := by
  rw [(addEncoded encoded v type).raw]
  simp [add,writeHeader,body]

theorem addedSize (encoded : Encoded m) :
    (add type v m).raw.length = 20 + ((body m.attributes).length + (field ⟨type,v⟩).length) := by
  have added := addEncoded encoded v type
  rw [encodedRaw added,List.length_append,headerLength added.id]
  simp [add,writeHeader,body]

theorem withoutLast (encoded : Encoded m) (four : v.length = 4) :
    (without 8 (add type v m)).length = m.length ∧ (without 8 (add type v m)).raw.drop 20 = m.raw.drop 20 := by
  have eight : (field ⟨type,v⟩).length = 8 := by
    rw [fieldLength,four]
    rfl
  have size := @addedSize m type v encoded
  have grown : (add type v m).length = m.length + (field ⟨type,v⟩).length := rfl
  refine ⟨?_,?_⟩
  · simp only [without,grown,eight,Nat.add_sub_cancel]
  · simp only [without,List.drop_take,addedRest encoded,size,eight,encoded.raw]
    exact List.take_left' (by omega)

theorem fingerprintSame (kind : m.type = n.type) (id : m.transactionID = n.transactionID) (length : m.length = n.length)
    (rest : m.raw.drop 20 = n.raw.drop 20) : fingerprint m = fingerprint n := by
  simp only [fingerprint,rewritten kind id length rest 8]

theorem fingerprintLength (m : Message) : (fingerprint m).length = 4 := rfl

theorem fingerprintChecks (encoded : Encoded m) (lacks : Lacks 0x8028 m) :
    checkFingerprint (add 0x8028 (fingerprint m) m) = none := by
  have four := fingerprintLength m
  generalize written : fingerprint m = v at four
  obtain ⟨length,cut⟩ := @withoutLast m 0x8028 v encoded four
  have held : Codec.get (add 0x8028 v m) 0x8028 = .ok v := getAdded lacks
  have same : fingerprint m = fingerprint (without 8 (add 0x8028 v m)) :=
    @fingerprintSame m (without 8 (add 0x8028 v m)) rfl rfl length.symm cut.symm
  rw [checkFingerprint,held]
  exact if_pos (written.symm.trans same)

theorem sizeFold (l : List RawAttribute) (k : Nat) :
    l.foldl (fun n a => n + (4 + a.value.length + (padding a.value.length).length)) k = k + (body l).length := by
  induction l generalizing k with
  | nil => rfl
  | cons a l ih =>
    have split : body (a :: l) = field a ++ body l := List.flatMap_cons
    rw [List.foldl_cons,ih,split,List.length_append,fieldLength]
    omega

theorem keptBefore {before rest : List RawAttribute} (lacks : ∀ a ∈ before, a.type ≠ type) :
    (before ++ ⟨type,v⟩ :: rest).takeWhile (fun a => a.type != type) = before := by
  have all : ∀ a ∈ before, (a.type != type) = true := fun a mem => bne_iff_ne.mpr (lacks a mem)
  rw [List.takeWhile_append_of_pos all]
  simp

theorem integrityChecks {key : Bytes} (encoded : Encoded m) (lacks : Lacks 0x0008 m) (later : Encoded n)
    {rest : List RawAttribute} (attributes : n.attributes = m.attributes ++ ⟨0x0008,hashes.hmac key (integrityInput m)⟩ :: rest)
    (kind : n.type = m.type) (id : n.transactionID = m.transactionID) :
    (documented hashes).checkIntegrity key n = none := by
  have held : Codec.get n 0x0008 = .ok (hashes.hmac key (integrityInput m)) := getFirst attributes lacks
  have kept : n.attributes.takeWhile (fun a => a.type != 0x0008) = m.attributes := by
    rw [attributes]
    exact keptBefore lacks
  have length : (beforeIntegrity n).length = m.length := by
    simp only [beforeIntegrity,kept,sizeFold,encoded.length,Nat.zero_add]
  have cut : (beforeIntegrity n).raw.drop 20 = m.raw.drop 20 := by
    have size : m.attributes.foldl (fun n a => n + (4 + a.value.length + (padding a.value.length).length)) 0 =
        (body m.attributes).length := by rw [sizeFold,Nat.zero_add]
    have split : body n.attributes = body m.attributes ++ body (⟨0x0008,hashes.hmac key (integrityInput m)⟩ :: rest) := by
      rw [attributes,body,List.flatMap_append]
      rfl
    simp only [beforeIntegrity,kept,size,List.drop_take,Nat.add_sub_cancel_left,later.raw,encoded.raw,split,List.take_left]
  have same : integrityInput (beforeIntegrity n) = integrityInput m :=
    rewritten (m := beforeIntegrity n) kind id length cut 24
  simp only [documented,held,same,if_true]

theorem addressLength (a : Addr) (id : m.transactionID.length = 12) : (xorAddress a m).length ≤ 20 := by
  simp only [xorAddress,Codec.xor,cookie,List.length_append,List.length_zipWith,List.length_cons,List.length_nil,id,wordLength]
  omega

theorem reasonLength (c : ErrorCode) : (ErrorCode.reason c).length ≤ 19 := by cases c <;> decide

theorem codeRead {k : Nat} (small : k < 4096) : Method.code (Method.read k) = k := by
  unfold Method.read
  split <;> try rfl
  simp only [Method.code,UInt16.toNat_ofNat']
  omega

theorem bitsRead {a b c d e : Nat} (a16 : a < 16) (b2 : b < 2) (c8 : c < 8) (d2 : d < 2) (e32 : e < 32) :
    (a + b * 16 + c * 32 + d * 256 + e * 512) % 65536 % 16 + (a + b * 16 + c * 32 + d * 256 + e * 512) % 65536 / 32 % 8 * 16 +
      (a + b * 16 + c * 32 + d * 256 + e * 512) % 65536 / 512 % 32 * 128 = a + c * 16 + e * 128 := by
  omega

theorem typeRead (v : Nat) (cls : MessageClass) :
    readType (number (word (typeValue ⟨(readType v).method,cls⟩))) = ⟨(readType v).method,cls⟩ := by
  have same := classRead ⟨(readType v).method,cls⟩
  generalize written : number (word (typeValue ⟨(readType v).method,cls⟩)) = w at same ⊢
  have small : v % 16 + v / 32 % 8 * 16 + v / 512 % 32 * 128 < 4096 := by omega
  have index : w % 16 + w / 32 % 8 * 16 + w / 512 % 32 * 128 = v % 16 + v / 32 % 8 * 16 + v / 512 % 32 * 128 := by
    have code : Method.code (readType v).method = v % 16 + v / 32 % 8 * 16 + v / 512 % 32 * 128 := codeRead small
    have bits : MessageClass.code cls < 4 := by cases cls <;> decide
    rw [← written,numberWord,typeValue,code]
    generalize v % 16 + v / 32 % 8 * 16 + v / 512 % 32 * 128 = k at small
    have read := @bitsRead (k % 16) (MessageClass.code cls % 2) (k / 16 % 8) (MessageClass.code cls / 2) (k / 128) (by omega)
      (by omega) (by omega) (by omega) (by omega)
    dsimp only at read ⊢
    rw [read]
    omega
  have method : (readType w).method = (readType v).method := congrArg Method.read index
  rw [← method] at same ⊢
  exact congrArg (fun c => MessageType.mk (readType w).method c) same

section Applied
variable (attributes : ∀ s ∈ l, Attribute s)

theorem addedCases (adds : Attribute s) (m : Message) :
    (∃ e, value hashes m s = .error e ∧ (documented hashes).addTo s m = (m,some e)) ∨
      ∃ v, value hashes m s = .ok v ∧ (documented hashes).addTo s m = (add (kind s) v m,none) := by
  refine addCases hashes s m ⟨?_,?_⟩
  · rintro id rfl
    exact adds
  · rintro t rfl
    exact adds

theorem appliedGrows (m : Message) : ∃ rest, (apply (documented hashes) m l).1.attributes = m.attributes ++ rest := by
  induction l generalizing m with
  | nil => exact ⟨[],(List.append_nil _).symm⟩
  | cons s l ih =>
    have step : ∃ rest, ((documented hashes).addTo s m).1.attributes = m.attributes ++ rest := by
      by_cases adds : Attribute s
      · rcases addedCases adds m with ⟨e,_,same⟩ | ⟨v,_,same⟩ <;> rw [same]
        · exact ⟨[],(List.append_nil _).symm⟩
        · exact ⟨[⟨kind s,v⟩],rfl⟩
      · refine ⟨[],?_⟩
        rw [List.append_nil]
        cases s with
        | transactionID id => cases id <;> rfl
        | type t => rfl
        | _ => exact absurd trivial adds
    rw [apply]
    generalize (documented hashes).addTo s m = out at step
    obtain ⟨n,err⟩ := out
    cases err with
    | some e => exact step
    | none =>
      obtain ⟨one,first⟩ := step
      obtain ⟨two,second⟩ := ih n
      dsimp only at first ⊢
      exact ⟨one ++ two,by rw [second,first,List.append_assoc]⟩

include attributes

theorem appliedEncoded (encoded : Encoded m) : Encoded (apply (documented hashes) m l).1 := by
  induction l generalizing m with
  | nil => exact encoded
  | cons s l ih =>
    obtain ⟨head,tail⟩ := List.forall_mem_cons.mp attributes
    rw [apply]
    rcases addedCases head m with ⟨e,_,same⟩ | ⟨v,_,same⟩ <;> rw [same]
    · exact encoded
    · exact ih tail (addEncoded encoded v _)

theorem builtEncoded (built : Built (documented hashes) b l m) : Encoded m := by
  have start : Encoded (writeHeader b) := by
    refine writeEncoded ⟨?_,?_,built.blank.id⟩
    · rw [built.blank.raw,built.blank.attributes]
      rfl
    · rw [built.blank.length,built.blank.attributes]
      rfl
  have applied : apply (documented hashes) (writeHeader b) l = (m,none) := built.applied
  have encoded := @appliedEncoded hashes (writeHeader b) l attributes start
  rw [applied] at encoded
  exact encoded

end Applied

theorem builtLacks (built : Built (documented hashes) b l m) (differ : ∀ s ∈ l, kind s ≠ type) : Lacks type m := by
  have start : Lacks type (writeHeader b) := by
    intro a mem
    change a ∈ b.attributes at mem
    rw [built.blank.attributes] at mem
    cases mem
  have lacks := @appliedLacks (writeHeader b) l hashes type differ start
  have applied : apply (documented hashes) (writeHeader b) l = (m,none) := built.applied
  rw [applied] at lacks
  exact lacks

theorem builtFirst (built : Built (documented hashes) b (l ++ s :: k) m) (adds : Attribute s) :
    ∃ n v rest, Built (documented hashes) b l n ∧ value hashes n s = .ok v ∧
      apply (documented hashes) (add (kind s) v n) k = (m,none) ∧ m.attributes = n.attributes ++ ⟨kind s,v⟩ :: rest := by
  obtain ⟨n,n',before,added,after⟩ := builtSplit built
  rcases @addedCases hashes s adds n with ⟨e,_,same⟩ | ⟨v,held,same⟩
  · cases added.symm.trans same
  · cases added.symm.trans same
    obtain ⟨rest,grown⟩ := @appliedGrows hashes k (add (kind s) v n)
    rw [after] at grown
    refine ⟨n,v,rest,before,held,after,grown.trans ?_⟩
    have own : (add (kind s) v n).attributes = n.attributes ++ [⟨kind s,v⟩] := rfl
    rw [own,List.append_assoc]
    rfl

theorem textRead {w : Bytes} (read : text v = .ok w) : w = v := by
  unfold text at read
  split at read
  · exact (Except.ok.inj read).symm
  · cases read

theorem kindNonce (other : ∀ w, s ≠ .nonce w) : kind s ≠ 0x0015 := by
  cases s with
  | nonce w => exact absurd rfl (other w)
  | _ => simp [kind]

theorem kindRealm (other : ∀ w, s ≠ .realm w) : kind s ≠ 0x0014 := by
  cases s with
  | realm w => exact absurd rfl (other w)
  | _ => simp [kind]

theorem kindIntegrity (other : ∀ w, s ≠ .integrity w) : kind s ≠ 0x0008 := by
  cases s with
  | integrity w => exact absurd rfl (other w)
  | _ => simp [kind]

/- A message that was built is read as itself. -/
theorem builtRead (built : Built (documented hashes) b l m) (attributes : ∀ s ∈ l, Attribute s) (fits : m.raw.length < 65536)
    {p q : Message} (wire : decode p = (q,none)) (method : q.type.method = b.type.method) :
    decode { emptyMessage with raw := m.raw } = (m,none) := by
  have encoded := builtEncoded attributes built
  obtain ⟨type,_⟩ := builtKept (codecBuilding hashes) built attributes
  have total : m.raw.length = 20 + m.length := by
    rw [encodedRaw encoded,List.length_append,headerLength encoded.id,encoded.length]
  have written : m.type = ⟨(readType (number (p.raw.take 2))).method,m.type.cls⟩ := by
    rw [← decodedType wire,method,← type]
  refine decodeEncoded encoded (by omega) ?_
  rw [written]
  exact typeRead _ _

theorem codecReading (md5 : ∀ x, hashes.md5 x ≠ []) : Reading (documented hashes) where
  toBuilding := codecBuilding hashes
  toAdding := codecAdding hashes
  decodes built attributes fits wire := by
    obtain ⟨p,q,decoded,method⟩ := wire
    exact builtRead built attributes fits decoded method
  nonce built other := by
    obtain ⟨n,w,_,before,held,_,grown⟩ := builtFirst built trivial
    cases textRead held
    exact getFirst grown (builtLacks before (fun s mem => kindNonce (fun w same => other w (same ▸ mem))))
  realm built other := by
    obtain ⟨n,w,_,before,held,_,grown⟩ := builtFirst built trivial
    cases textRead held
    exact getFirst grown (builtLacks before (fun s mem => kindRealm (fun w same => other w (same ▸ mem))))
  unsigned built other := getLacks (builtLacks built (fun s mem => kindIntegrity (fun w same => other w (same ▸ mem))))
  integrity {b l m key} built attributes other _ := by
    obtain ⟨n,v,rest,before,held,_,grown⟩ := builtFirst built trivial
    have all : ∀ s ∈ l ++ [.integrity key,.fingerprint], Attribute s :=
      List.forall_mem_append.mpr ⟨attributes,by simp [Attribute]⟩
    obtain ⟨type,id⟩ := builtKept (codecBuilding hashes) before attributes
    obtain ⟨type',id'⟩ := builtKept (codecBuilding hashes) built all
    have digest : v = hashes.hmac key (integrityInput n) := by
      simp only [value] at held
      split at held
      · cases held
      · exact (Except.ok.inj held).symm
    subst digest
    exact integrityChecks (builtEncoded attributes before)
      (builtLacks before (fun s mem => kindIntegrity (fun w same => other w (same ▸ mem)))) (builtEncoded all built) grown
      (type'.trans type.symm) (id'.trans id.symm)
  fingerprint {b l m} built attributes other _ := by
    obtain ⟨n,v,_,before,held,after,_⟩ := builtFirst built trivial
    cases after
    cases held
    exact fingerprintChecks (builtEncoded attributes before)
      (builtLacks before (fun s mem => kindPrint (fun same => other (same ▸ mem))))
  nonceMissing missing := by
    simp only [documented,Codec.get] at missing
    split at missing <;> cases missing
    rfl
  signed checks missing := by
    have none : Codec.get _ 0x0008 = .error .attributeNotFound := missing
    simp only [documented,none] at checks
    cases checks
  longTerm u r p := md5 _

section Length

def Begun (m : Message) : Prop := 20 ≤ m.raw.length ∧ m.transactionID.length = 12

theorem writtenLength {n : Nat} (id : m.transactionID.length = 12) (length : m.raw.length = 20 + n) :
    (writeHeader m).raw.length = 20 + n := by
  simp only [writeHeader,List.length_append,List.length_drop,headerLength id,length]
  omega

theorem addedBegun (begun : Begun m) (type : UInt16) (v : Bytes) :
    Begun (add type v m) ∧ (add type v m).raw.length = m.raw.length + taken v.length := by
  obtain ⟨n,length⟩ := Nat.exists_eq_add_of_le begun.1
  have grown : (add type v m).raw.length = 20 + (n + taken v.length) := by
    refine writtenLength begun.2 ?_
    simp only [List.length_append,wordLength,taken,padding,List.length_replicate,length]
    omega
  exact ⟨⟨by omega,begun.2⟩,by omega⟩

theorem valueCost (mac : ∀ key input, (hashes.hmac key input).length ≤ 20) (id : m.transactionID.length = 12)
    (held : value hashes m s = .ok v) : taken v.length ≤ cost s := by
  have address {a : Addr} (read : address a m = .ok v) : taken v.length ≤ taken 20 := by
    unfold address at read
    by_cases known : a.ip.length = 4 ∨ a.ip.length = 16
    · rw [if_pos known] at read
      cases read
      exact takenMono (addressLength a id) rfl
    · rw [if_neg known] at read
      cases read
  have words {w : Bytes} (read : text w = .ok v) : taken v.length ≤ taken w.length :=
    Nat.le_of_eq (by rw [textRead read])
  cases s with
  | nonce w => exact words held
  | realm w => exact words held
  | software w => exact words held
  | xorMappedAddress a => exact address held
  | relayedAddress a => exact address held
  | peerAddress a => exact address held
  | integrity key =>
    simp only [value] at held
    split at held <;> cases held
    exact takenMono (mac _ _) rfl
  | errorCode c =>
    have short := reasonLength c
    cases held
    exact takenMono (by simp only [List.length_append,List.length_cons,List.length_nil]; omega) rfl
  | transactionID i => cases held
  | type t => cases held
  | _ =>
    cases held
    exact Nat.le_refl _

variable (mac : ∀ key input, (hashes.hmac key input).length ≤ 20)
include mac

theorem addToBegun (begun : Begun m) (drawn : Drawn s) :
    Begun ((documented hashes).addTo s m).1 ∧ ((documented hashes).addTo s m).1.raw.length ≤ m.raw.length + cost s := by
  obtain ⟨n,length⟩ := Nat.exists_eq_add_of_le begun.1
  by_cases adds : Attribute s
  · rcases addedCases adds m with ⟨e,_,same⟩ | ⟨v,held,same⟩ <;> rw [same]
    · exact ⟨begun,Nat.le_add_right _ _⟩
    · obtain ⟨still,grown⟩ := addedBegun begun (kind s) v
      have size := valueCost mac begun.2 held
      exact ⟨still,by dsimp only; omega⟩
  · cases s with
    | transactionID id => cases id with
      | none => exact ⟨begun,Nat.le_add_right _ _⟩
      | some i =>
        have written := @writtenLength { m with transactionID := i } n (drawn i rfl) length
        exact ⟨⟨by simp only [documented,addTo]; omega,drawn i rfl⟩,by simp only [documented,addTo]; omega⟩
    | type t =>
      have written := @writtenLength { m with type := t } n begun.2 length
      exact ⟨⟨by simp only [documented,addTo]; omega,begun.2⟩,by simp only [documented,addTo]; omega⟩
    | _ => exact absurd trivial adds

theorem appliedBegun (drawn : ∀ s ∈ l, Drawn s) (begun : Begun m) :
    (apply (documented hashes) m l).1.raw.length ≤ m.raw.length + total cost l := by
  induction l generalizing m with
  | nil => exact Nat.le_refl _
  | cons s l ih =>
    obtain ⟨head,tail⟩ := List.forall_mem_cons.mp drawn
    have added := addToBegun mac begun head
    simp only [apply,total]
    generalize (documented hashes).addTo s m = out at added
    obtain ⟨n,err⟩ := out
    obtain ⟨begun',first⟩ := added
    dsimp only at begun' first
    cases err with
    | some e =>
      dsimp only
      omega
    | none =>
      have rest := ih tail begun'
      dsimp only
      omega

theorem codecSizes : Sizes (documented hashes) := by
  refine ⟨?_,?_⟩
  · intro b l m built drawn
    have size : (writeHeader b).raw.length = 20 := by
      simp only [writeHeader,built.blank.raw,List.drop_nil,List.append_nil]
      exact headerLength built.blank.id
    have written := appliedBegun mac drawn (m := writeHeader b) ⟨Nat.le_of_eq size.symm,built.blank.id⟩
    have applied : apply (documented hashes) (writeHeader b) l = (m,none) := built.applied
    rw [applied,size] at written
    exact written
  · intro n d
    have pad := paddingLength d.length
    simp only [documented,encodeChannelData,List.length_append,wordLength]
    omega

end Length

end Gortcd.Signatures
