import Gortcd.PeerFilter
import Gortcd.Responses
import Gortcd.RoundTrip

/-! ChannelData on its way to the peer. `process` asks first whether a packet is a STUN
message and only then whether it is ChannelData, and the test for STUN looks at the length
and at bytes 4 to 7 only, which in a ChannelData packet are the start of the payload. -/
namespace Gortcd.Transparency
open Keyed Net Ports Sections Records Relaying Calls Runs Messages Filters Auth Handlers Effects Site Responses

variable {ν : Type} {turn : Turn} {stun : Stun} {srv : Server ν} {texts : Texts} {o : Options} {nonces : ν}

/- How the libraries tell packets apart, and where a DATA attribute lies: behind the header
of the message and its own. -/
structure Demux (stun : Stun) : Prop where
  isMessage : stun.isMessage = Codec.isMessage
  isChannelData : stun.isChannelData = Codec.isChannelData
  decodeChannelData : ∀ c, Codec.isChannelData c.raw = true → stun.decodeChannelData c = Codec.decodeChannelData c
  refused : ∀ c, Codec.isChannelData c.raw = false → (stun.decodeChannelData c).2 ≠ none
  data : ∀ m d v, stun.decode m = (d,none) → stun.data d = .ok v → v.length + 24 ≤ m.raw.length

def channelPacket (n : ChannelNumber) (d pad : Bytes) : Bytes := Codec.word n.toNat ++ Codec.word d.length ++ d ++ pad

def Padding (d pad : Bytes) : Prop := pad = [] ∨ (pad.length < 4 ∧ (d.length + pad.length) % 4 = 0)

/- The payload passes for the transaction part of a STUN header. -/
def LooksLikeMessage (d pad : Bytes) : Prop := 16 ≤ d.length + pad.length ∧ d.take 4 = Codec.cookie

theorem packetLength (n : ChannelNumber) (d pad : Bytes) : (channelPacket n d pad).length = 4 + d.length + pad.length := by
  simp only [channelPacket,List.length_append,RoundTrip.wordLength]

theorem paddingShort {d pad : Bytes} (padding : Padding d pad) : pad.length < 4 := by
  rcases padding with none | ⟨short,_⟩
  · simp [none]
  · exact short

theorem packetMessage {n : ChannelNumber} {d pad : Bytes} (padding : Padding d pad) :
    Codec.isMessage (channelPacket n d pad) = true ↔ LooksLikeMessage d pad := by
  have short := paddingShort padding
  have start : (channelPacket n d pad).drop 4 = d ++ pad := rfl
  simp only [Codec.isMessage,start,packetLength,Bool.and_eq_true,decide_eq_true_eq,beq_iff_eq,LooksLikeMessage]
  constructor
  · intro looks
    obtain ⟨long,cookie⟩ := looks
    refine ⟨by omega,?_⟩
    rw [← cookie,List.take_append_of_le_length (by omega)]
  · intro looks
    obtain ⟨long,cookie⟩ := looks
    refine ⟨by omega,?_⟩
    rw [← cookie,List.take_append_of_le_length (by omega)]

theorem packetNumber (n : ChannelNumber) (d pad : Bytes) : Codec.number ((channelPacket n d pad).take 2) = n.toNat := by
  have first : (channelPacket n d pad).take 2 = Codec.word n.toNat := rfl
  rw [first,Codec.numberWord,Nat.mod_eq_of_lt n.toNat_lt]

theorem packetSize {n : ChannelNumber} {d pad : Bytes} (fits : (channelPacket n d pad).length ≤ 2048) :
    Codec.number (((channelPacket n d pad).drop 2).take 2) = d.length := by
  have second : ((channelPacket n d pad).drop 2).take 2 = Codec.word d.length := rfl
  rw [packetLength] at fits
  rw [second,Codec.numberWord,Nat.mod_eq_of_lt (by omega)]

theorem packetRecognised {n : ChannelNumber} {d pad : Bytes} (range : 0x4000 ≤ n ∧ n ≤ 0x7fff)
    (fits : (channelPacket n d pad).length ≤ 2048) : Codec.isChannelData (channelPacket n d pad) = true := by
  have low : 0x4000 ≤ n.toNat := UInt16.le_iff_toNat_le.mp range.1
  have high : n.toNat ≤ 0x7fff := UInt16.le_iff_toNat_le.mp range.2
  simp only [Codec.isChannelData,packetNumber,packetSize fits,packetLength,Bool.and_eq_true,decide_eq_true_eq]
  omega

theorem packetDecoded {n : ChannelNumber} {d pad : Bytes} (range : 0x4000 ≤ n ∧ n ≤ 0x7fff)
    (fits : (channelPacket n d pad).length ≤ 2048) (c : ChannelData) (raw : c.raw = channelPacket n d pad) :
    Codec.decodeChannelData c = (⟨channelPacket n d pad,n,d.length,d⟩,none) := by
  have payload : (channelPacket n d pad).drop 4 = d ++ pad := rfl
  simp only [Codec.decodeChannelData,raw,packetRecognised range fits,Bool.not_true,Bool.false_eq_true,if_false,
    packetNumber,packetSize fits,payload,List.take_left,UInt16.ofNat_toNat]

theorem boundRange {a : Allocation} (ok : AllocationOk turn a) {n : ChannelNumber} {p : Addr} (bound : p ∈ targets a n) :
    0x4000 ≤ n ∧ n ≤ 0x7fff := by
  obtain ⟨q,under,b,held,rfl,_⟩ := memTargets.mp bound
  exact (turn.channelRange b.channel).mp ((ok.permissions q under).valid b held)

theorem handleSent {allocs : Allocator} (dist : Distinct turn.tuples Allocation.tuple allocs.allocs) {c : Context}
    {env : Env} {w : Write} (sent : (handle turn stun env allocs c).sent = some w) : stun.data c.request = .ok w.data := by
  have effect := @handleEffect turn stun env allocs c
  rw [sent] at effect
  generalize (handle turn stun env allocs c).allocs = b at effect
  cases effect with
  | sent type =>
    simp only [handle,type,processSendIndication] at sent
    cases data : stun.data c.request with
    | error e => simp [data] at sent
    | ok v => cases addr : stun.peerAddress c.request with
      | error e => simp [data,addr] at sent
      | ok peer =>
        simp only [data,addr] at sent
        cases made : send turn allocs.allocs c.tuple peer v with
        | error e => simp [made,Except.toOption] at sent
        | ok w' =>
          simp only [made,Except.toOption,Option.some.injEq] at sent
          rw [← sent,(sendSource dist made).2.1]

/- A message cannot carry a payload as long as its own packet. -/
theorem messageSent (lib : Demux stun) {allocs : Allocator}
    (dist : Distinct turn.tuples Allocation.tuple allocs.allocs) {env : Env} {ctx : Context} {w : Write}
    (framed : stun.isMessage ctx.request.raw = true) (sent : (process turn stun srv env nonces allocs ctx).2.sent = some w) :
    w.data.length + 24 ≤ ctx.request.raw.length := by
  unfold process processMessage at sent
  rw [if_pos framed] at sent
  split at sent
  · cases sent
  · cases sent
  · rename_i c admitted
    obtain ⟨m,decode,carried,_⟩ := passed (congrArg Prod.snd admitted)
    have data := handleSent dist sent
    rw [carried.request] at data
    exact lib.data ctx.request m w.data decode data

theorem sentInside (lib : Demux stun) {allocs : Allocator} (dist : Distinct turn.tuples Allocation.tuple allocs.allocs)
    {env : Env} {ctx : Context} (whole : ctx.cdata.raw = ctx.request.raw) {w : Write}
    (sent : (process turn stun srv env nonces allocs ctx).2.sent = some w) :
    w.data.length + 4 ≤ ctx.request.raw.length := by
  have effect := @processEffect _ turn stun srv env nonces allocs ctx
  rw [sent] at effect
  generalize (process turn stun srv env nonces allocs ctx).2.allocs = after at effect
  cases effect with
  | message framed =>
    have room := messageSent lib dist framed sent
    omega
  | channelData decode made =>
    have data := (sendBoundSource dist made).1
    cases framed : Codec.isChannelData ctx.cdata.raw with
    | false => exact absurd (by rw [decode]) (lib.refused ctx.cdata framed)
    | true =>
      rw [lib.decodeChannelData ctx.cdata framed,Codec.decodeChannelData,framed,whole] at decode
      cases decode
      have long : 4 ≤ ctx.request.raw.length := by
        simp only [Codec.isChannelData,whole,Bool.and_eq_true,decide_eq_true_eq] at framed
        exact framed.1.1
      rw [data,List.length_take,List.length_drop]
      omega

/- In every reachable state the payload of a ChannelData packet reaches the peer unchanged if
and only if the packet does not look like a STUN message. -/
theorem channelDataTransparent (lib : Demux stun) {h s} (run : Run (Site.machine turn stun srv texts o nonces) h s)
    (cfg : Config) (env : Env) (now : Time) {client p : Addr} {n : ChannelNumber} {a : Allocation} {c : Conn}
    (found : find turn s.alloc.allocs ⟨client,srv.addr,turn.protoUDP⟩ = some a) (live : a.conn = some c)
    (bound : targets a n = [p]) {d pad : Bytes} (padding : Padding d pad)
    (fits : (channelPacket n d pad).length ≤ 2048) :
    (process turn stun srv env s.nonces s.alloc.toAllocator
      (arrived turn ⟨srv,cfg,s.nonces,s.alloc.toAllocator,env,now⟩ client (channelPacket n d pad))).2.sent =
        some ⟨c,d,p⟩ ↔ ¬ LooksLikeMessage d pad := by
  have ok := siteOk run
  have range := boundRange (ok.allocations a (lookupSome found).1) (bound ▸ List.mem_cons_self)
  have whole : (channelPacket n d pad).take 2048 = channelPacket n d pad := List.take_of_length_le fits
  have raw : (arrived turn ⟨srv,cfg,s.nonces,s.alloc.toAllocator,env,now⟩ client (channelPacket n d pad)).request.raw =
      channelPacket n d pad := whole
  constructor
  · intro sent looks
    have framed : stun.isMessage (channelPacket n d pad) = true := by
      rw [lib.isMessage]
      exact (packetMessage padding).mpr looks
    have room := messageSent lib ok.distinct (by rw [raw]; exact framed) sent
    rw [raw,packetLength] at room
    have short := paddingShort padding
    dsimp only at room
    omega
  · intro other
    have unframed : stun.isMessage (channelPacket n d pad) = false := by
      rw [lib.isMessage,Bool.eq_false_iff]
      exact fun framed => other ((packetMessage padding).mp framed)
    have recognised : stun.isChannelData (channelPacket n d pad) = true := by
      rw [lib.isChannelData]
      exact packetRecognised range fits
    have decoded := (lib.decodeChannelData (arrived turn ⟨srv,cfg,s.nonces,s.alloc.toAllocator,env,now⟩ client
      (channelPacket n d pad)).cdata (by rw [← packetRecognised range fits]; exact congrArg _ whole)).trans
        (packetDecoded range fits _ whole)
    have written : sendBound turn s.alloc.allocs ⟨client,srv.addr,turn.protoUDP⟩ n d = .ok ⟨c,d,p⟩ := by
      rw [sendBoundSpec ok.distinct,found]
      simp [bound,live]
    have tuple : (arrived turn ⟨srv,cfg,s.nonces,s.alloc.toAllocator,env,now⟩ client (channelPacket n d pad)).tuple =
        ⟨client,srv.addr,turn.protoUDP⟩ := rfl
    rw [process,raw,unframed,recognised]
    simp only [Bool.false_eq_true,if_false,if_true,processChannelData,decoded,tuple,written]

theorem attributeLength {fuel : Nat} {b : Bytes} {attrs : List RawAttribute} (read : Codec.attributes fuel b = some attrs) :
    ∀ a ∈ attrs, a.value.length + 4 ≤ b.length := by
  induction fuel generalizing b attrs with
  | zero =>
    cases b with
    | nil =>
      cases Option.some.inj read
      nofun
    | cons x b => cases read
  | succ fuel ih =>
    cases b with
    | nil =>
      cases Option.some.inj read
      nofun
    | cons x b =>
      simp only [Codec.attributes] at read
      split at read
      · cases read
      · rename_i room
        obtain ⟨rest,later,eq⟩ := Option.bind_eq_some_iff.mp read
        cases Option.some.inj eq
        refine List.forall_mem_cons.mpr ⟨?_,?_⟩
        · simp only [List.length_take,List.length_drop]
          omega
        · intro a mem
          have inside := ih later a mem
          rw [List.length_drop] at inside
          omega

theorem codecDemux (hashes : Codec.Hashes) : Demux (Codec.documented hashes) := by
  refine ⟨rfl,rfl,fun _ _ => rfl,?_,?_⟩
  · intro c other accepted
    simp [Codec.documented,Codec.decodeChannelData,other] at accepted
  intro m d v decode data
  simp only [Codec.documented,Codec.decode] at decode data
  split at decode
  · cases decode
  · split at decode
    · cases decode
    · rename_i long
      split at decode
      · cases decode
      · rename_i attrs read
        cases decode
        unfold Codec.get at data
        split at data
        · rename_i a held
          cases data
          have inside := attributeLength read a (List.mem_of_find?_eq_some held)
          simp only [List.length_take,List.length_drop] at inside
          omega
        · cases data

def bindPacket : Bytes :=
  [0x00,0x09,0x00,0x14,0x21,0x12,0xa4,0x42,0x01,0x02,0x03,0x04,0x05,0x06,0x07,0x08,0x09,0x0a,0x0b,0x0c,
   0x00,0x0c,0x00,0x04,0x40,0x01,0x00,0x00,0x00,0x12,0x00,0x08,0x00,0x01,0x26,0xc3,0x2b,0x12,0xa4,0x41]

def boundSite : List Site.Event :=
  [.receive PeerFilter.sampleClient PeerFilter.allocatePacket,.serve 0 1 ⟨[],.ok ⟨sampleRelayed,17,1⟩⟩,
    .receive PeerFilter.sampleClient bindPacket,.serve 0 2 ⟨[],.error .listen⟩]

def boundHost : Host NonceAuth := (trace PeerFilter.sampleSite [] PeerFilter.sampleSite.start boundSite).2

theorem boundRun : Run PeerFilter.sampleSite (trace PeerFilter.sampleSite [] PeerFilter.sampleSite.start boundSite).1
    boundHost :=
  traceStart (m := PeerFilter.sampleSite) boundSite ⟨trivial,Nat.one_pos,trivial,Nat.one_pos,trivial⟩

/- The packet as the client's datagram is processed, with what goes out on the relay socket. -/
def relayedData (d : Bytes) : Option Write :=
  (process .documented Codec.wire PeerFilter.openServer ⟨[],.error .listen⟩ boundHost.nonces boundHost.alloc.toAllocator
    (arrived .documented ⟨PeerFilter.openServer,newConfig PeerFilter.sampleOptions,boundHost.nonces,
      boundHost.alloc.toAllocator,⟨[],.error .listen⟩,3⟩ sampleTuple.client (channelPacket 0x4001 d []))).2.sent

theorem boundAllocation : find .documented boundHost.alloc.allocs sampleTuple =
    some ⟨sampleTuple,[⟨samplePeer.ip,60000000002,[⟨2001,0x4001,60000000002⟩]⟩],sampleRelayed,some 1,60000000001,2048⟩ := by
  decide +kernel

theorem channelDataTransparentSample : relayedData [1,2,3] = some ⟨1,[1,2,3],samplePeer⟩ :=
  (@channelDataTransparent _ .documented Codec.wire PeerFilter.openServer _ _ _ (codecDemux Codec.noHashes) _ _ boundRun
    (newConfig PeerFilter.sampleOptions) ⟨[],.error .listen⟩ 3 _ samplePeer 0x4001 _ _ boundAllocation rfl rfl _ _ (.inl rfl)
    (by decide)).mpr (fun looks => by obtain ⟨long,_⟩ := looks; exact absurd long (by decide))

/- A payload that starts with the magic cookie is dropped as a broken STUN message. -/
def cookiePayload : Bytes := Codec.cookie ++ [1,2,3,4,5,6,7,8,9,10,11,12]

theorem cookieNotRelayed : Reachable PeerFilter.sampleSite boundHost ∧
    (find .documented boundHost.alloc.allocs sampleTuple).map (fun a => (a.conn,targets a 0x4001)) =
      some (some 1,[samplePeer]) ∧
    relayedData cookiePayload = none ∧ relayedData cookiePayload ≠ some ⟨1,cookiePayload,samplePeer⟩ := by
  have dropped : relayedData cookiePayload = none := by decide +kernel
  exact ⟨⟨_,boundRun⟩,by decide +kernel,dropped,by rw [dropped]; nofun⟩

end Gortcd.Transparency
