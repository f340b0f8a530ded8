import Gortcd.Codec

/-! Reading back what was written: an attribute list, a message whose bytes follow its
fields, an address under the mask and ChannelData. -/
namespace Gortcd.RoundTrip
open Net Messages Codec

def field (a : RawAttribute) : Bytes :=
  word a.type.toNat ++ word a.value.length ++ a.value ++ padding a.value.length

def body (l : List RawAttribute) : Bytes := l.flatMap field

/- The attributes follow the header of 20 bytes, and the length field counts them. -/
structure Bodied (m : Message) : Prop where
  raw : m.raw.drop 20 = body m.attributes
  length : m.length = (body m.attributes).length
  id : m.transactionID.length = 12

structure Encoded (m : Message) : Prop extends Bodied m where
  header : m.raw.take 20 = header m

theorem wordLength (n : Nat) : (word n).length = 2 := rfl

theorem paddingLength (n : Nat) : (padding n).length ≤ 3 := by
  rw [padding,List.length_replicate]
  omega

theorem headerLength {m : Message} (id : m.transactionID.length = 12) : (header m).length = 20 := by
  simp [header,word,cookie,id]

theorem writeEncoded {m : Message} (bodied : Bodied m) : Encoded (writeHeader m) := by
  have size : (header (writeHeader m)).length = 20 := headerLength bodied.id
  refine ⟨⟨?_,bodied.length,bodied.id⟩,List.take_left' size⟩
  exact (List.drop_left' size).trans bodied.raw

theorem encodedRaw {m : Message} (encoded : Encoded m) : m.raw = header m ++ body m.attributes := by
  rw [← encoded.header,← encoded.raw,List.take_append_drop]

theorem addEncoded {m : Message} (encoded : Encoded m) (v : Bytes) (type : UInt16) : Encoded (add type v m) := by
  have size := headerLength encoded.id
  have long : 20 ≤ m.raw.length := by
    rw [encodedRaw encoded,List.length_append,size]
    omega
  have joined : body (m.attributes ++ [⟨type,v⟩]) = body m.attributes ++ field ⟨type,v⟩ := by
    simp [body]
  refine writeEncoded ⟨?_,?_,encoded.id⟩
  · dsimp only
    rw [joined,List.drop_append_of_le_length long,encoded.raw]
    rfl
  · dsimp only
    rw [joined,encoded.length]
    exact List.length_append.symm

theorem fieldLength (a : RawAttribute) : (field a).length = 4 + (a.value.length + (padding a.value.length).length) := by
  simp only [field,List.length_append,wordLength]
  omega

theorem attributesCons {fuel : Nat} {a : RawAttribute} (small : a.value.length < 65536) (rest : Bytes) :
    attributes (fuel + 1) (field a ++ rest) = (attributes fuel rest).map (fun l => a :: l) := by
  have shape : field a ++ rest =
      word a.type.toNat ++ (word a.value.length ++ (a.value ++ (padding a.value.length ++ rest))) := by
    simp [field]
  have size : number (((field a ++ rest).take 4).drop 2) = a.value.length := by
    rw [shape]
    exact (numberWord _).trans (Nat.mod_eq_of_lt small)
  have type : UInt16.ofNat (number ((field a ++ rest).take 2)) = a.type := by
    rw [shape]
    exact (congrArg UInt16.ofNat ((numberWord _).trans (Nat.mod_eq_of_lt a.type.toNat_lt))).trans UInt16.ofNat_toNat
  have value : ((field a ++ rest).drop 4).take a.value.length = a.value := by
    rw [shape]
    exact List.take_left
  have length := fieldLength a
  have reaches : ¬ (field a ++ rest).length < 4 + (a.value.length + (padding a.value.length).length) := by
    rw [List.length_append,length]
    omega
  have tail : (field a ++ rest).drop (4 + (a.value.length + (padding a.value.length).length)) = rest :=
    List.drop_left' length
  have some' : field a ++ rest ≠ [] := by
    rw [shape]
    nofun
  rw [attributes.eq_3 _ _ some',size,if_neg reaches,tail,type,value]
  cases attributes fuel rest <;> rfl

theorem attributesBody {l : List RawAttribute} (values : ∀ a ∈ l, a.value.length < 65536) {fuel : Nat}
    (enough : l.length ≤ fuel) : attributes fuel (body l) = some l := by
  induction l generalizing fuel with
  | nil => cases fuel <;> rfl
  | cons a l ih =>
    obtain ⟨head,tail⟩ := List.forall_mem_cons.mp values
    cases fuel with
    | zero => cases enough
    | succ fuel =>
      have rest := ih tail (Nat.le_of_succ_le_succ enough)
      have split : body (a :: l) = field a ++ body l := List.flatMap_cons
      rw [split,attributesCons head,rest]
      rfl

theorem bodyLength (l : List RawAttribute) : l.length ≤ (body l).length := by
  induction l with
  | nil => exact Nat.le_refl _
  | cons a l ih =>
    have split : body (a :: l) = field a ++ body l := List.flatMap_cons
    rw [split,List.length_append,List.length_cons,fieldLength]
    omega

theorem valueLength {l : List RawAttribute} {a : RawAttribute} (mem : a ∈ l) : a.value.length ≤ (body l).length := by
  induction l with
  | nil => cases mem
  | cons b l ih =>
    have split : body (b :: l) = field b ++ body l := List.flatMap_cons
    rw [split,List.length_append]
    rcases List.mem_cons.mp mem with rfl | later
    · rw [fieldLength]
      omega
    · have rest := ih later
      omega

theorem decodeEncoded {m : Message} (encoded : Encoded m) (fits : m.length < 65536)
    (type : readType (number (word (typeValue m.type))) = m.type) :
    decode { emptyMessage with raw := m.raw } = (m,none) := by
  have raw := encodedRaw encoded
  have shape : m.raw =
      word (typeValue m.type) ++ (word m.length ++ (cookie ++ (m.transactionID ++ body m.attributes))) := by
    rw [raw]
    simp [header]
  have size : number ((m.raw.take 4).drop 2) = m.length := by
    rw [shape]
    exact (numberWord _).trans (Nat.mod_eq_of_lt fits)
  have total : m.raw.length = 20 + m.length := by
    rw [raw,List.length_append,headerLength encoded.id,encoded.length]
  have framed : isMessage m.raw = true := by
    have long : 20 ≤ m.raw.length := by omega
    have magic : (m.raw.drop 4).take 4 = cookie := by
      rw [shape]
      have size : cookie.length = 4 := rfl
      exact List.take_left' size
    simp [isMessage,long,magic]
  have kind : readType (number (m.raw.take 2)) = m.type := by
    rw [shape]
    exact type
  have id : (m.raw.drop 8).take 12 = m.transactionID := by
    rw [shape]
    exact List.take_left' encoded.id
  have attrs : attributes m.length ((m.raw.drop 20).take m.length) = some m.attributes := by
    have values : ∀ a ∈ m.attributes, a.value.length < 65536 := by
      intro a mem
      have inside := valueLength mem
      have length := encoded.length
      omega
    rw [encoded.raw,encoded.length,List.take_length]
    exact attributesBody values (bodyLength m.attributes)
  have short : ¬ m.raw.length < 20 + m.length := by omega
  simp only [decode,framed,size,short,kind,id,attrs]
  rfl

theorem xorXor {a key : Bytes} (fits : a.length ≤ key.length) : Codec.xor (Codec.xor a key) key = a := by
  induction a generalizing key with
  | nil => rfl
  | cons x a ih =>
    cases key with
    | nil => cases fits
    | cons k key =>
      have rest := ih (Nat.le_of_succ_le_succ fits)
      simp only [Codec.xor,List.zipWith_cons_cons] at rest ⊢
      rw [rest,UInt8.xor_assoc,UInt8.xor_self,UInt8.xor_zero]

structure UDPAddr (a : Addr) : Prop where
  ip : a.ip.length = 4 ∨ a.ip.length = 16
  port : 0 ≤ a.port ∧ a.port < 65536

theorem canonLength {ip : IP} (size : ip.length = 4 ∨ ip.length = 16) :
    (IP.canon ip).length = 4 ∨ (IP.canon ip).length = 16 := by
  rcases canonCases ip with ⟨long,_,mapped⟩ | ⟨_,same⟩
  · rw [mapped,List.length_drop,long]
    exact .inl rfl
  · rw [same]
    exact size

theorem canonEqual (ip : IP) : IP.equal (IP.canon ip) ip = true := by
  rw [equalCanon]
  rcases canonCases ip with ⟨long,_,mapped⟩ | ⟨_,same⟩
  · have short : (ip.drop 12).length = 4 := by rw [List.length_drop,long]
    rw [mapped,IP.canon,IP.to4,if_pos short]
    rfl
  · rw [same,same]

section Address
variable {a : Addr} {m : Message} (udp : UDPAddr a) (id : m.transactionID.length = 12)
include udp id

theorem maskLonger : (IP.canon a.ip).length ≤ (cookie ++ m.transactionID).length := by
  have size := canonLength udp.ip
  have mask : (cookie ++ m.transactionID).length = 16 := by
    rw [List.length_append,id]
    rfl
  omega

theorem xorAddressLength : (xorAddress a m).length = 4 + (IP.canon a.ip).length := by
  have fits := maskLonger udp id
  have masked : (Codec.xor (IP.canon a.ip) (cookie ++ m.transactionID)).length = (IP.canon a.ip).length := by
    rw [Codec.xor,List.length_zipWith]
    omega
  have shape : xorAddress a m = [0,if (IP.canon a.ip).length = 4 then 1 else 2] ++
      (Codec.xor (word a.port.toNat) cookie ++ Codec.xor (IP.canon a.ip) (cookie ++ m.transactionID)) := rfl
  rw [shape,List.length_append,List.length_append,masked]
  exact (Nat.add_assoc 2 2 _).symm

theorem readXor {n : Message} (same : n.transactionID = m.transactionID) :
    readXorAddress (xorAddress a m) n = .ok ⟨IP.canon a.ip,a.port⟩ := by
  have length := xorAddressLength udp id
  have shape : xorAddress a m = [0,if (IP.canon a.ip).length = 4 then 1 else 2] ++
      (Codec.xor (word a.port.toNat) cookie ++ Codec.xor (IP.canon a.ip) (cookie ++ m.transactionID)) := rfl
  have family : (xorAddress a m).length = 8 ∧ (xorAddress a m).take 2 = [0,1] ∨
      (xorAddress a m).length = 20 ∧ (xorAddress a m).take 2 = [0,2] := by
    rcases canonLength udp.ip with four | sixteen
    · exact .inl ⟨by omega,by simp [shape,four]⟩
    · exact .inr ⟨by omega,by simp [shape,sixteen]⟩
  have ip : Codec.xor ((xorAddress a m).drop 4) (cookie ++ n.transactionID) = IP.canon a.ip := by
    rw [same]
    exact xorXor (maskLonger udp id)
  have port : (number (Codec.xor (((xorAddress a m).drop 2).take 2) cookie) : Int) = a.port := by
    have word' : Codec.xor (((xorAddress a m).drop 2).take 2) cookie = word a.port.toNat := by
      have short : (word a.port.toNat).length ≤ cookie.length := Nat.le_add_right 2 2
      exact xorXor short
    obtain ⟨low,high⟩ := udp.port
    rw [word',numberWord,Nat.mod_eq_of_lt ((Int.toNat_lt low).mpr high)]
    exact Int.toNat_of_nonneg low
  rw [readXorAddress,if_pos family,ip,port]

end Address

theorem channelDataRead {n : ChannelNumber} (valid : 0x4000 ≤ n ∧ n ≤ 0x7fff) {d : Bytes} (small : d.length < 65536) :
    ∃ c, decodeChannelData { emptyChannelData with
        raw := (encodeChannelData { emptyChannelData with number := n, data := d }).raw } = (c,none) ∧
      c.number = n ∧ c.data = d := by
  have shape : (encodeChannelData { emptyChannelData with number := n, data := d }).raw =
      word n.toNat ++ (word d.length ++ (d ++ padding d.length)) := by
    simp [encodeChannelData]
  have tag : number ((word n.toNat ++ (word d.length ++ (d ++ padding d.length))).take 2) = n.toNat :=
    (numberWord _).trans (Nat.mod_eq_of_lt n.toNat_lt)
  have size : number (((word n.toNat ++ (word d.length ++ (d ++ padding d.length))).drop 2).take 2) = d.length :=
    (numberWord _).trans (Nat.mod_eq_of_lt small)
  have data : ((word n.toNat ++ (word d.length ++ (d ++ padding d.length))).drop 4).take d.length = d := List.take_left
  have total : (word n.toNat ++ (word d.length ++ (d ++ padding d.length))).length =
      4 + d.length + (padding d.length).length := by
    simp only [List.length_append,wordLength]
    omega
  rw [shape]
  generalize word n.toNat ++ (word d.length ++ (d ++ padding d.length)) = raw at tag size data total
  have read : isChannelData raw = true := by
    have low : 0x4000 ≤ n.toNat := valid.1
    have high : n.toNat ≤ 0x7fff := valid.2
    simp only [isChannelData,tag,size,Bool.and_eq_true,decide_eq_true_eq]
    omega
  exact ⟨_,by simp only [decodeChannelData,read,tag,size,data]; rfl,UInt16.ofNat_toNat,rfl⟩

end Gortcd.RoundTrip
