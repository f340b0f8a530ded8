import Gortcd.Lib.Keyed

/-! Addresses as the server sees them: `net.IP` with Go's equality, and the values of
gortc.io/turn that the allocator compares. Only what the sources call is kept of that
package; its comparisons are a parameter, known to be equivalence relations. -/
namespace Gortcd.Net
open Keyed

abbrev Bytes := List UInt8
abbrev IP := List UInt8
abbrev Port := Int
abbrev Protocol := UInt8
abbrev ChannelNumber := UInt16
/- Nanoseconds after Go's zero time. -/
abbrev Time := Int
abbrev Duration := Int
/- The identity of a `net.PacketConn`. -/
abbrev Conn := Nat

structure Addr where
  ip : IP
  port : Port
  deriving DecidableEq, Repr

structure FiveTuple where
  client : Addr
  server : Addr
  proto : Protocol
  deriving DecidableEq, Repr

def v4InV6 : Bytes := [0,0,0,0,0,0,0,0,0,0,0xff,0xff]

/- `net.IP.Equal`: a 4-byte address equals its IPv4-in-IPv6 form. -/
def IP.equal (ip x : IP) : Bool :=
  if ip.length = x.length then ip == x
  else if ip.length = 4 ∧ x.length = 16 then x.take 12 == v4InV6 && ip == x.drop 12
  else if ip.length = 16 ∧ x.length = 4 then ip.take 12 == v4InV6 && ip.drop 12 == x
  else false

/- `net.IP.To4`. -/
def IP.to4 (ip : IP) : Option IP :=
  if ip.length = 4 then some ip
  else if ip.length = 16 ∧ ip.take 12 = v4InV6 then some (ip.drop 12)
  else none

/- The form in which `net.IPNet.Contains` compares an address. -/
def IP.canon (ip : IP) : IP := (IP.to4 ip).getD ip

theorem canonCases (ip : IP) :
    (ip.length = 16 ∧ ip.take 12 = v4InV6 ∧ IP.canon ip = ip.drop 12) ∨
    (¬ (ip.length = 16 ∧ ip.take 12 = v4InV6) ∧ IP.canon ip = ip) := by
  unfold IP.canon IP.to4
  by_cases four : ip.length = 4
  · exact .inr ⟨by simp [four],by simp [four]⟩
  · by_cases mapped : ip.length = 16 ∧ ip.take 12 = v4InV6
    · exact .inl ⟨mapped.1,mapped.2,by simp [mapped]⟩
    · exact .inr ⟨mapped,by simp [four,mapped]⟩

theorem equalSameLength {a b : IP} (len : a.length = b.length) : IP.equal a b = true ↔ a = b := by
  simp [IP.equal,len]

theorem equalFourSixteen {a b : IP} (ha : a.length = 4) (hb : b.length = 16) :
    IP.equal a b = true ↔ b.take 12 = v4InV6 ∧ a = b.drop 12 := by
  simp [IP.equal,ha,hb]

theorem equalSixteenFour {a b : IP} (ha : a.length = 16) (hb : b.length = 4) :
    IP.equal a b = true ↔ a.take 12 = v4InV6 ∧ a.drop 12 = b := by
  simp [IP.equal,ha,hb]

theorem equalOther {a b : IP} (len : a.length ≠ b.length) (left : ¬ (a.length = 4 ∧ b.length = 16))
    (right : ¬ (a.length = 16 ∧ b.length = 4)) : IP.equal a b = false := by
  simp [IP.equal,len,left,right]

theorem equalCanon (a b : IP) : IP.equal a b = true ↔ IP.canon a = IP.canon b := by
  have split (x : IP) : x = x.take 12 ++ x.drop 12 := (List.take_append_drop 12 x).symm
  rcases canonCases a with ⟨la,ma,ca⟩ | ⟨na,ca⟩ <;> rcases canonCases b with ⟨lb,mb,cb⟩ | ⟨nb,cb⟩
  · rw [equalSameLength (la.trans lb.symm),ca,cb]
    constructor
    · intro same; rw [same]
    · intro tails; rw [split a,split b,ma,mb,tails]
  · by_cases four : b.length = 4
    · rw [equalSixteenFour la four,ca,cb]; simp [ma]
    · have long : (a.drop 12).length = 4 := by rw [List.length_drop,la]
      rw [ca,cb]
      constructor
      · intro same
        by_cases len : b.length = 16
        · rw [equalSameLength (la.trans len.symm)] at same
          exact absurd ⟨len,same ▸ ma⟩ nb
        · rw [equalOther (by omega) (by omega) (by omega)] at same; cases same
      · intro same; rw [same] at long; exact absurd long four
  · by_cases four : a.length = 4
    · rw [equalFourSixteen four lb,ca,cb]; simp [mb]
    · have long : (b.drop 12).length = 4 := by rw [List.length_drop,lb]
      rw [ca,cb]
      constructor
      · intro same
        by_cases len : a.length = 16
        · rw [equalSameLength (len.trans lb.symm)] at same
          exact absurd ⟨len,same ▸ mb⟩ na
        · rw [equalOther (by omega) (by omega) (by omega)] at same; cases same
      · intro same; rw [← same] at long; exact absurd long four
  · rw [ca,cb]
    by_cases len : a.length = b.length
    · exact equalSameLength len
    · constructor
      · intro same
        by_cases fs : a.length = 4 ∧ b.length = 16
        · exact absurd ⟨fs.2,((equalFourSixteen fs.1 fs.2).mp same).1⟩ nb
        · by_cases sf : a.length = 16 ∧ b.length = 4
          · exact absurd ⟨sf.1,((equalSixteenFour sf.1 sf.2).mp same).1⟩ na
          · rw [equalOther len fs sf] at same; cases same
      · intro same; rw [same] at len; exact absurd rfl len

def ips : Equality IP where
  same := IP.equal
  refl a := (equalCanon a a).mpr rfl
  symm h := (equalCanon _ _).mpr ((equalCanon _ _).mp h).symm
  trans h k := (equalCanon _ _).mpr (((equalCanon _ _).mp h).trans ((equalCanon _ _).mp k))

@[simp] theorem ipsSame (a b : IP) : ips.same a b = IP.equal a b := rfl

/- What the sources use of gortc.io/turn to compare addresses, tuples and channel numbers.
`Addr.Equal` and `FiveTuple.Equal` are equivalences; a number is valid in RFC 5766's range. -/
structure Turn where
  protoUDP : Protocol
  addrs : Equality Addr
  tuples : Equality FiveTuple
  channelValid : ChannelNumber → Bool
  channelRange : ∀ n, channelValid n = true ↔ 0x4000 ≤ n ∧ n ≤ 0x7fff

def Addr.equal (a b : Addr) : Bool := a.port == b.port && IP.equal a.ip b.ip

def FiveTuple.equal (a b : FiveTuple) : Bool :=
  a.proto == b.proto && a.client.equal b.client && a.server.equal b.server

theorem addrEqual (a b : Addr) : a.equal b = true ↔ a.port = b.port ∧ IP.equal a.ip b.ip = true := by
  simp [Addr.equal]

theorem tupleEqual (a b : FiveTuple) : a.equal b = true ↔
    a.proto = b.proto ∧ a.client.equal b.client = true ∧ a.server.equal b.server = true := by
  simp [FiveTuple.equal,and_assoc]

def addrEquality : Equality Addr where
  same := Addr.equal
  refl a := (addrEqual a a).mpr ⟨rfl,ips.refl _⟩
  symm h := by
    rw [addrEqual] at h ⊢
    exact ⟨h.1.symm,ips.symm h.2⟩
  trans h k := by
    rw [addrEqual] at h k ⊢
    exact ⟨h.1.trans k.1,ips.trans h.2 k.2⟩

/- The comparisons as the package documents them, for running the model. -/
def Turn.documented : Turn where
  protoUDP := 17
  addrs := addrEquality
  tuples :=
    { same := FiveTuple.equal
      refl := fun a => (tupleEqual a a).mpr ⟨rfl,addrEquality.refl _,addrEquality.refl _⟩
      symm := fun h => by
        rw [tupleEqual] at h ⊢
        exact ⟨h.1.symm,addrEquality.symm h.2.1,addrEquality.symm h.2.2⟩
      trans := fun h k => by
        rw [tupleEqual] at h k ⊢
        exact ⟨h.1.trans k.1,addrEquality.trans h.2.1 k.2.1,addrEquality.trans h.2.2 k.2.2⟩ }
  channelValid n := 0x4000 ≤ n && n ≤ 0x7fff
  channelRange n := by simp

/- Addresses for running the model: a client, the listening address and two peers. -/
def sampleServer : Addr := ⟨[10,0,0,1],3478⟩
def sampleTuple : FiveTuple := ⟨⟨[10,0,0,2],1001⟩,sampleServer,17⟩
def samplePeer : Addr := ⟨[10,0,0,3],2001⟩
def sampleOther : Addr := ⟨[10,0,0,4],2001⟩
def sampleRelayed : Addr := ⟨[10,0,0,1],5001⟩
def otherTuple : FiveTuple := { sampleTuple with client := sampleOther }

end Gortcd.Net
