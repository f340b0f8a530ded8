import Gortcd.PeerData
import Gortcd.RoundTrip

/-! A datagram of a peer on its way to the client. `ReadFrom` fills the buffer that `New`
made for the loop and drops what does not fit; the part that was read is forwarded as if it
were the datagram. -/
namespace Gortcd.Inbound
open Keyed Net Ports Sections Records Relaying Permissions Calls Runs Interleaving Grants Messages PeerData RoundTrip

variable {turn : Turn} {stun : Stun}

/- `a.Buf[:n]` after `ReadFrom`: a datagram longer than the buffer is cut without an error. -/
def readFrom (l : Loop) (d : Bytes) : Bytes := d.take l.bufLen

/- One turn of `ReadUntilClosed` in which `p` has sent `d`. -/
def relay (turn : Turn) (stun : Stun) (allocs : Table) (l : Loop) (d : Bytes) (p : Addr) (id : Option Bytes) :
    Option (Bytes × Addr) := handlePeerData turn stun allocs (readFrom l d) l.tuple p id

/- The packet tells the client that `p` sent `d`: as ChannelData if `p` is bound to a
channel, otherwise as a Data indication. -/
def Says (turn : Turn) (stun : Stun) (allocs : Table) (t : FiveTuple) (d : Bytes) (p : Addr) (packet : Bytes) : Prop :=
  match bound turn allocs t p with
  | .ok n => ∃ c, stun.decodeChannelData { emptyChannelData with raw := packet } = (c,none) ∧ c.number = n ∧ c.data = d
  | .error _ => ∃ m q, stun.decode { emptyMessage with raw := packet } = (m,none) ∧ m.type = ⟨.data,.indication⟩ ∧
      stun.data m = .ok d ∧ stun.peerAddress m = .ok q ∧ turn.addrs.same q p = true

/- Nothing is forwarded, or one packet to the client that says what was sent. -/
def Faithful (turn : Turn) (stun : Stun) (allocs : Table) (t : FiveTuple) (d : Bytes) (p : Addr)
    (out : Option (Bytes × Addr)) : Prop :=
  ∀ w, out = some w → w.2 = t.client ∧ Says turn stun allocs t d p w.1

/- Decoding undoes encoding. A Data indication is not built without a transaction ID. -/
structure Inverse (turn : Turn) (stun : Stun) : Prop where
  channelData : ∀ n d, turn.channelValid n = true → d.length ≤ 65000 →
    ∃ c, stun.decodeChannelData { emptyChannelData with
        raw := (stun.encodeChannelData { emptyChannelData with number := n, data := d }).raw } = (c,none) ∧
      c.number = n ∧ c.data = d
  indication : ∀ d p id, d.length ≤ 65000 → UDPAddr p → id.length = 12 →
    ∃ built m q, dataIndication stun d p (some id) = (built,none) ∧
      stun.decode { emptyMessage with raw := built.raw } = (m,none) ∧ m.type = ⟨.data,.indication⟩ ∧
      stun.data m = .ok d ∧ stun.peerAddress m = .ok q ∧ turn.addrs.same q p = true
  random : ∀ d p, (dataIndication stun d p none).2 ≠ none

theorem loopBuffers {h s} (run : Run (machine turn) h s) : ∀ l ∈ s.loops, l.bufLen = 2048 := by
  refine invariant (Q := fun s : State => ∀ l ∈ s.loops, l.bufLen = 2048) (List.forall_mem_nil _) ?_ run
  intro s e held _
  cases e with
  | register k t timeout =>
    simp only [machine,next]
    split <;> exact held
  | answer k port => cases port <;> exact held
  | install k =>
    simp only [machine,next]
    split
    · dsimp only
      split
      · exact List.forall_mem_cons.mpr ⟨rfl,held⟩
      · exact held
    · exact held
  | _ => exact held

theorem boundValid {allocs : Table} (ok : TableOk turn allocs) {t : FiveTuple} {p : Addr} {n : ChannelNumber}
    (hit : bound turn allocs t p = .ok n) : turn.channelValid n = true := by
  obtain ⟨a,q,b,found,under,port,rfl⟩ := boundSource ok hit
  have inside := ok.allocations a (lookupSome found).1
  exact (inside.permissions q (lookupSome under).1).valid b (lookupSome port).1

theorem handledFaithful (lib : Inverse turn stun) {allocs : Table} (ok : TableOk turn allocs) {d : Bytes}
    (small : d.length ≤ 65000) (t : FiveTuple) {p : Addr} (udp : UDPAddr p) {id : Option Bytes}
    (sized : ∀ i, id = some i → i.length = 12) :
    Faithful turn stun allocs t d p (handlePeerData turn stun allocs d t p id) := by
  intro w sent
  unfold handlePeerData at sent
  unfold Says
  cases hit : bound turn allocs t p with
  | ok n =>
    rw [hit] at sent
    cases Option.some.inj sent
    exact ⟨rfl,lib.channelData n d (boundValid ok hit) small⟩
  | error e =>
    rw [hit] at sent
    cases id with
    | none =>
      have failed := lib.random d p
      generalize dataIndication stun d p none = out at sent failed
      obtain ⟨m,err⟩ := out
      cases err with
      | none => exact absurd rfl failed
      | some e => cases sent
    | some i =>
      obtain ⟨built,m,q,done,reads⟩ := lib.indication d p i small udp (sized i rfl)
      rw [done] at sent
      cases Option.some.inj sent
      exact ⟨rfl,m,q,reads⟩

/- A packet says one thing only. -/
theorem saysOnce {allocs : Table} {t : FiveTuple} {d e : Bytes} {p : Addr} {packet : Bytes}
    (one : Says turn stun allocs t d p packet) (two : Says turn stun allocs t e p packet) : d = e := by
  unfold Says at one two
  cases hit : bound turn allocs t p with
  | ok n =>
    rw [hit] at one two
    obtain ⟨c,decode,_,rfl⟩ := one
    obtain ⟨c',decode',_,rfl⟩ := two
    cases decode.symm.trans decode'
    rfl
  | error f =>
    rw [hit] at one two
    obtain ⟨m,_,decode,_,data,_⟩ := one
    obtain ⟨m',_,decode',_,data',_⟩ := two
    cases decode.symm.trans decode'
    exact Except.ok.inj (data.symm.trans data')

/- Nothing is forwarded for want of a channel and of a transaction ID. -/
theorem nothingForwarded (lib : Inverse turn stun) {allocs : Table} {d : Bytes} (small : d.length ≤ 65000) {t : FiveTuple}
    {p : Addr} (udp : UDPAddr p) {id : Option Bytes} (sized : ∀ i, id = some i → i.length = 12) :
    handlePeerData turn stun allocs d t p id = none ↔ id = none ∧ ∀ n, bound turn allocs t p ≠ .ok n := by
  unfold handlePeerData
  cases hit : bound turn allocs t p with
  | ok n =>
    constructor
    · intro silent
      cases silent
    · intro unbound
      exact absurd rfl (unbound.2 n)
  | error e =>
    cases id with
    | none =>
      have failed := lib.random d p
      generalize dataIndication stun d p none = out at failed
      obtain ⟨m,err⟩ := out
      cases err with
      | none => exact absurd rfl failed
      | some e => exact ⟨fun _ => ⟨rfl,by nofun⟩,fun _ => rfl⟩
    | some i =>
      obtain ⟨built,_,_,done,_⟩ := lib.indication d p i small udp (sized i rfl)
      rw [done]
      constructor
      · intro silent
        cases silent
      · intro unbound
        cases unbound.1

section Reading
variable (lib : Inverse turn stun) {allocs : Table} (ok : TableOk turn allocs) {l : Loop} (short : l.bufLen ≤ 65000)
  {p : Addr} (udp : UDPAddr p) {id : Option Bytes} (sized : ∀ i, id = some i → i.length = 12)
include lib ok short udp sized

theorem relayedRead (d : Bytes) :
    Faithful turn stun allocs l.tuple (readFrom l d) p (relay turn stun allocs l d p id) := by
  have small : (readFrom l d).length ≤ 65000 := by
    rw [readFrom,List.length_take]
    omega
  exact handledFaithful lib ok small l.tuple udp sized

theorem faithfulFits {d : Bytes} {w : Bytes × Addr} (sent : relay turn stun allocs l d p id = some w)
    (faithful : Faithful turn stun allocs l.tuple d p (relay turn stun allocs l d p id)) : d.length ≤ l.bufLen := by
  have read := relayedRead lib ok short udp sized d
  have whole : d = d.take l.bufLen := saysOnce (faithful w sent).2 (read w sent).2
  have length := congrArg List.length whole
  rw [List.length_take] at length
  omega

end Reading

/- In every reachable state a datagram read on a relay socket reaches the client as it was
sent, or not at all, if and only if it fits the buffer or cannot be forwarded. -/
theorem inboundExactly (lib : Inverse turn stun) {h s} (run : Run (machine turn) h s) {l : Loop} (listening : l ∈ s.loops)
    {p : Addr} (udp : UDPAddr p) {id : Option Bytes} (sized : ∀ i, id = some i → i.length = 12) (d : Bytes) :
    Faithful turn stun s.allocs l.tuple d p (relay turn stun s.allocs l d p id) ↔
      d.length ≤ 2048 ∨ (id = none ∧ ∀ n, bound turn s.allocs l.tuple p ≠ .ok n) := by
  have buffer := loopBuffers run l listening
  have short : l.bufLen ≤ 65000 := by omega
  have small : (readFrom l d).length ≤ 65000 := by
    rw [readFrom,List.length_take]
    omega
  have silent := @nothingForwarded turn stun lib s.allocs (readFrom l d) small l.tuple p udp id sized
  constructor
  · intro faithful
    cases sent : relay turn stun s.allocs l d p id with
    | none => exact .inr (silent.mp sent)
    | some w => exact .inl (buffer ▸ faithfulFits lib (tableOk run) short udp sized sent faithful)
  · intro met
    rcases met with fits | unbound
    · have read := relayedRead lib (tableOk run) short udp sized d
      have whole : readFrom l d = d := by
        rw [readFrom,buffer]
        exact List.take_of_length_le fits
      rw [whole] at read
      exact read
    · intro w sent
      cases (silent.mpr unbound).symm.trans sent

section Library
variable {hashes : Codec.Hashes}

/- The message that a Data indication starts from: its header, with no attributes. -/
def opened (id : Bytes) : Message :=
  Codec.writeHeader { Codec.writeHeader { Codec.writeHeader emptyMessage with transactionID := id } with
    type := ⟨.data,.indication⟩ }

def finished (d : Bytes) (p : Addr) (id : Bytes) : Message :=
  let m := Codec.add 0x0013 d (opened id)
  let m := Codec.add 0x0012 (Codec.xorAddress p m) m
  Codec.add 0x8028 (Codec.fingerprint m) m

theorem indicationBuilt (d : Bytes) {p : Addr} (udp : UDPAddr p) (id : Bytes) :
    dataIndication (Codec.documented hashes) d p (some id) = (finished d p id,none) := by
  simp only [dataIndication,build,apply,Codec.documented,Codec.addTo,Codec.value,Codec.address,if_pos udp.ip]
  rfl

theorem openedEncoded {id : Bytes} (size : id.length = 12) : Encoded (opened id) := by
  have empty : Encoded (Codec.writeHeader emptyMessage) := writeEncoded ⟨rfl,rfl,rfl⟩
  have named := writeEncoded (m := { Codec.writeHeader emptyMessage with transactionID := id }) ⟨empty.raw,empty.length,size⟩
  exact writeEncoded ⟨named.raw,named.length,named.id⟩

section Finished
variable {d : Bytes} (small : d.length ≤ 65000) {p : Addr} (udp : UDPAddr p) {id : Bytes} (size : id.length = 12)
include size

theorem finishedEncoded (d : Bytes) (p : Addr) : Encoded (finished d p id) :=
  addEncoded (addEncoded (addEncoded (openedEncoded size) d 0x0013) _ 0x0012) _ 0x8028

include udp

theorem addressShort (m : Message) (same : m.transactionID = id) : (Codec.xorAddress p m).length ≤ 20 := by
  have length := @xorAddressLength p m udp (same ▸ size)
  have canon := canonLength udp.ip
  omega

include small

theorem finishedLength : (finished d p id).length < 65536 := by
  have short := addressShort udp size (Codec.add 0x0013 d (opened id)) rfl
  have length := (finishedEncoded size d p).length
  have attributes : (finished d p id).attributes = [⟨0x0013,d⟩,⟨0x0012,Codec.xorAddress p (Codec.add 0x0013 d (opened id))⟩,
      ⟨0x8028,Codec.fingerprint (Codec.add 0x0012 (Codec.xorAddress p (Codec.add 0x0013 d (opened id)))
        (Codec.add 0x0013 d (opened id)))⟩] := rfl
  generalize Codec.xorAddress p (Codec.add 0x0013 d (opened id)) = x at short attributes
  have print : (Codec.fingerprint (Codec.add 0x0012 x (Codec.add 0x0013 d (opened id)))).length = 4 := rfl
  generalize Codec.fingerprint (Codec.add 0x0012 x (Codec.add 0x0013 d (opened id))) = f at print attributes
  rw [length,attributes]
  simp only [body,List.flatMap_cons,List.flatMap_nil,List.append_nil,List.length_append,fieldLength]
  have pad := And.intro (paddingLength d.length) (And.intro (paddingLength x.length) (paddingLength f.length))
  omega

end Finished

theorem codecInverse (hashes : Codec.Hashes) : Inverse .documented (Codec.documented hashes) := by
  refine ⟨?_,?_,?_⟩
  · intro n d valid small
    exact channelDataRead ((Turn.documented.channelRange n).mp valid) (by omega)
  · intro d p id small udp size
    have kind : Codec.readType (Codec.number (Codec.word (Codec.typeValue ⟨.data,.indication⟩))) = ⟨.data,.indication⟩ := by
      rw [Codec.numberWord]
      rfl
    have decoder : (Codec.documented hashes).decode = Codec.decode := rfl
    have decoded := decodeEncoded (finishedEncoded size d p) (finishedLength small udp size) kind
    have held : Codec.get (finished d p id) 0x0012 = .ok (Codec.xorAddress p (Codec.add 0x0013 d (opened id))) := rfl
    have read := @readXor p (Codec.add 0x0013 d (opened id)) udp size (finished d p id) rfl
    have address : (Codec.documented hashes).peerAddress (finished d p id) = .ok ⟨IP.canon p.ip,p.port⟩ := by
      simp only [Codec.documented,Codec.reading,held]
      exact read
    have same : Turn.documented.addrs.same ⟨IP.canon p.ip,p.port⟩ p = true :=
      (addrEqual _ p).mpr ⟨rfl,canonEqual p.ip⟩
    refine ⟨finished d p id,finished d p id,_,indicationBuilt d udp id,?_,rfl,rfl,address,same⟩
    rw [decoder]
    exact decoded
  · intro d p built
    cases built

end Library

/- A client with a permission for one peer and a channel bound to another. -/
def listeningEvents : List Interleaving.Event :=
  [.register 1 sampleTuple 60,.answer 1 (.ok ⟨sampleRelayed,17,1⟩),.install 1,
    .createPermission sampleTuple samplePeer 50,.channelBind sampleTuple 0x4001 sampleOther 50]

def listeningState : State := (trace (machine .documented) [] .empty listeningEvents).2

theorem listeningRun : Run (machine .documented) (trace (machine .documented) [] .empty listeningEvents).1 listeningState :=
  traceStart (m := machine .documented) listeningEvents
    ⟨rfl,⟨⟨_,rfl,rfl⟩,by decide,by decide⟩,⟨_,_,rfl,rfl⟩,trivial,trivial,trivial⟩

def sampleID : Option Bytes := some (List.replicate 12 7)

def sampleRelay (d : Bytes) (p : Addr) : Option (Bytes × Addr) :=
  relay .documented (Codec.documented Codec.noHashes) listeningState.allocs sampleLoop d p sampleID

def SampleFaithful (d : Bytes) (p : Addr) : Prop :=
  Faithful .documented (Codec.documented Codec.noHashes) listeningState.allocs sampleTuple d p (sampleRelay d p)

theorem sampleSized : ∀ i, sampleID = some i → i.length = 12 := by
  intro i same
  cases Option.some.inj same
  rfl

theorem inboundExactlySample : (sampleRelay [1,2] samplePeer).isSome ∧ (sampleRelay [1,2] sampleOther).isSome ∧
    SampleFaithful [1,2] samplePeer ∧ SampleFaithful [1,2] sampleOther := by
  refine ⟨rfl,rfl,?_,?_⟩
  · exact (inboundExactly (codecInverse Codec.noHashes) listeningRun (l := sampleLoop) List.mem_cons_self
      ⟨.inl rfl,by decide⟩ sampleSized [1,2]).mpr (.inl (by decide))
  · exact (inboundExactly (codecInverse Codec.noHashes) listeningRun (l := sampleLoop) List.mem_cons_self
      ⟨.inl rfl,by decide⟩ sampleSized [1,2]).mpr (.inl (by decide))

def longDatagram : Bytes := List.replicate 2049 0

/- Of a datagram of 2049 bytes the client is told 2048, by an indication and by ChannelData. -/
theorem datagramTruncated : Reachable (machine .documented) listeningState ∧ sampleLoop ∈ listeningState.loops ∧
    Permitted .documented sampleTuple samplePeer.ip listeningState.allocs ∧
    (∃ w m, sampleRelay longDatagram samplePeer = some w ∧
      Codec.decode { emptyMessage with raw := w.1 } = (m,none) ∧ Codec.get m 0x0013 = .ok (List.replicate 2048 0)) ∧
    (∃ w c, sampleRelay longDatagram sampleOther = some w ∧
      Codec.decodeChannelData { emptyChannelData with raw := w.1 } = (c,none) ∧ c.data = List.replicate 2048 0) ∧
    ¬ SampleFaithful longDatagram samplePeer ∧ ¬ SampleFaithful longDatagram sampleOther := by
  have lib := codecInverse Codec.noHashes
  have ok := tableOk listeningRun
  have short : sampleLoop.bufLen ≤ 65000 := by decide
  have cut : readFrom sampleLoop longDatagram = List.replicate 2048 0 := List.take_replicate
  have small : (readFrom sampleLoop longDatagram).length ≤ 65000 := by
    rw [cut,List.length_replicate]
    omega
  have forwarded {p : Addr} (udp : UDPAddr p) : ∃ w, sampleRelay longDatagram p = some w ∧
      Says .documented (Codec.documented Codec.noHashes) listeningState.allocs sampleTuple (List.replicate 2048 0) p
        w.1 := by
    cases sent : sampleRelay longDatagram p with
    | none => cases ((nothingForwarded lib small udp sampleSized).mp sent).1
    | some w =>
      have read := relayedRead lib ok short udp sampleSized longDatagram w sent
      rw [cut] at read
      exact ⟨w,rfl,read.2⟩
  have unfaithful {p : Addr} (udp : UDPAddr p) : ¬ SampleFaithful longDatagram p := by
    intro faithful
    obtain ⟨w,sent,_⟩ := forwarded udp
    have fits := faithfulFits lib ok short udp sampleSized sent faithful
    rw [longDatagram,List.length_replicate] at fits
    exact absurd fits (by decide)
  have one : UDPAddr samplePeer := ⟨.inl rfl,by decide⟩
  have two : UDPAddr sampleOther := ⟨.inl rfl,by decide⟩
  obtain ⟨w,sent,m,_,decode,_,data,_⟩ := forwarded one
  obtain ⟨v,sent',c,decode',_,data'⟩ := forwarded two
  exact ⟨⟨_,listeningRun⟩,List.mem_cons_self,⟨_,_,rfl,rfl⟩,⟨w,m,sent,decode,data⟩,⟨v,c,sent',decode',data'⟩,
    unfaithful one,unfaithful two⟩

end Gortcd.Inbound
