import Gortcd.Grants
import Gortcd.Library

/-! `Server.HandlePeerData`, called by the read loop of every relay socket. Channels are
looked up in the allocation table, permissions are not: a datagram from any other address
goes out as a Data indication. -/
namespace Gortcd.PeerData
open Keyed Net Ports Sections Records Relaying Permissions Calls Runs Interleaving Grants Messages Library

def dataIndication (stun : Stun) (d : Bytes) (a : Addr) (id : Option Bytes) : Message × Option LibErr :=
  build stun [.transactionID id,.type ⟨.data,.indication⟩,.data d,.peerAddress a,.fingerprint]

/- The packet written to the client and its destination. `id` is what the random source
gives for the transaction ID. -/
def handlePeerData (turn : Turn) (stun : Stun) (allocs : Table) (d : Bytes) (t : FiveTuple) (a : Addr)
    (id : Option Bytes) : Option (Bytes × Addr) :=
  match bound turn allocs t a with
  | .ok n => some ((stun.encodeChannelData { emptyChannelData with number := n, data := d }).raw,t.client)
  | .error _ => match dataIndication stun d a id with
    | (_,some _) => none
    | (m,none) => some (m.raw,t.client)

variable {turn : Turn} {stun : Stun}

def Filtered (turn : Turn) (stun : Stun) (x : Step State Event) : Prop :=
  match x.event with
  | .peerData l d a id =>
      (handlePeerData turn stun x.pre.allocs d l.tuple a id).isSome → Permitted turn l.tuple a.ip x.pre.allocs
  | _ => True

/- The sender is permitted, or there can be no Data indication: its address is none, or the
random source has failed. -/
def Admissible (turn : Turn) (x : Step State Event) : Prop :=
  match x.event with
  | .peerData l _ a id =>
      Permitted turn l.tuple a.ip x.pre.allocs ∨ id = none ∨ ¬ (a.ip.length = 4 ∨ a.ip.length = 16)
  | _ => True

theorem indicationExactly (lib : Adding stun) (d : Bytes) (a : Addr) (id : Option Bytes) :
    (dataIndication stun d a id).2 = none ↔ id ≠ none ∧ (a.ip.length = 4 ∨ a.ip.length = 16) := by
  have blank : Blank (stun.reset emptyMessage) := by
    rw [lib.reset]
    exact ⟨rfl,rfl,rfl,rfl⟩
  have other : Setter.fingerprint ∉ [Setter.transactionID id,.type ⟨.data,.indication⟩,.data d,.peerAddress a] := by simp
  refine (appliedExactly lib (builtNil blank) List.not_mem_nil other).trans ?_
  simp [Acceptable]

theorem boundPermitted {allocs : Table} (ok : TableOk turn allocs) {t : FiveTuple} {a : Addr} {n : ChannelNumber}
    (hit : bound turn allocs t a = .ok n) : Permitted turn t a.ip allocs := by
  obtain ⟨b,p,_,found,under,_⟩ := boundSource ok hit
  exact ⟨b,p,found,under⟩

theorem forwardedUnbound {allocs : Table} {t : FiveTuple} {d : Bytes} {a : Addr} {id : Option Bytes} {e : Err}
    (miss : bound turn allocs t a = .error e) :
    (handlePeerData turn stun allocs d t a id).isSome ↔ (dataIndication stun d a id).2 = none := by
  unfold handlePeerData
  rw [miss]
  cases dataIndication stun d a id with
  | mk m err => cases err <;> simp

theorem peerDataFiltered (lib : Adding stun) {h s} (run : Run (machine turn) h s) :
    ∀ x ∈ h, Filtered turn stun x ↔ Admissible turn x := by
  intro x mem
  have ok := tableOkAt run mem
  obtain ⟨pre,event⟩ := x
  cases event with
  | peerData l d a id =>
    simp only [Filtered,Admissible]
    cases hit : bound turn pre.allocs l.tuple a with
    | ok n =>
      have permitted := boundPermitted ok hit
      exact ⟨fun _ => .inl permitted,fun _ _ => permitted⟩
    | error e =>
      have forwarded := (@forwardedUnbound turn stun pre.allocs l.tuple d a id e hit).trans (indicationExactly lib d a id)
      constructor
      · intro filtered
        by_cases drawn : id = none
        · exact .inr (.inl drawn)
        · by_cases address : a.ip.length = 4 ∨ a.ip.length = 16
          · exact .inl (filtered (forwarded.mpr ⟨drawn,address⟩))
          · exact .inr (.inr address)
      · intro admissible sent
        obtain ⟨drawn,address⟩ := forwarded.mp sent
        rcases admissible with permitted | none | other
        · exact permitted
        · exact absurd none drawn
        · exact absurd address other
  | _ => exact Iff.rfl

def sampleLoop : Loop := ⟨sampleTuple,1,2048⟩

def permittedData : List Event :=
  [.register 1 sampleTuple 60,.answer 1 (.ok ⟨sampleRelayed,17,1⟩),.install 1,
    .createPermission sampleTuple samplePeer 50,.peerData sampleLoop [1,2] samplePeer (some (List.replicate 12 7))]

/- The datagram of the permitted peer is forwarded. -/
theorem peerDataFilteredSample : ∃ x ∈ (trace (machine .documented) [] .empty permittedData).1,
    (handlePeerData .documented (Codec.documented Codec.noHashes) x.pre.allocs [1,2] sampleTuple samplePeer
      (some (List.replicate 12 7))).isSome ∧ Filtered .documented (Codec.documented Codec.noHashes) x := by
  have run := traceStart (m := machine .documented) permittedData
    ⟨rfl,⟨⟨_,rfl,rfl⟩,by decide,by decide⟩,⟨_,_,rfl,rfl⟩,trivial,⟨List.mem_cons_self,rfl,by decide⟩,trivial⟩
  refine ⟨_,List.mem_cons_self,rfl,(peerDataFiltered (codecAdding Codec.noHashes) run _ List.mem_cons_self).mpr ?_⟩
  exact .inl ⟨_,_,rfl,rfl⟩

def unpermittedData : List Event :=
  [.register 1 sampleTuple 60,.answer 1 (.ok ⟨sampleRelayed,17,1⟩),.install 1,
    .createPermission sampleTuple sampleOther 50,.peerData sampleLoop [1,2] samplePeer (some (List.replicate 12 7)),
    .remove sampleTuple,.peerData sampleLoop [1,2] sampleOther (some (List.replicate 12 7))]

/- A peer without a permission, and a permitted peer after `Remove`: both are forwarded. -/
theorem unpermittedForwarded : ∃ h s, Run (machine .documented) h s ∧
    ∃ x y, h[0]? = some x ∧ h[2]? = some y ∧ ¬ Filtered .documented (Codec.documented Codec.noHashes) x ∧
      ¬ Filtered .documented (Codec.documented Codec.noHashes) y := by
  have allowed : Allowed (machine .documented) .empty unpermittedData :=
    ⟨rfl,⟨⟨_,rfl,rfl⟩,by decide,by decide⟩,⟨_,_,rfl,rfl⟩,trivial,⟨List.mem_cons_self,rfl,by decide⟩,trivial,
      ⟨List.mem_cons_self,rfl,by decide⟩,trivial⟩
  refine ⟨_,_,traceStart (m := machine .documented) unpermittedData allowed,_,_,rfl,rfl,?_,?_⟩
  · intro filtered
    obtain ⟨a,_,found,_⟩ := filtered rfl
    cases found
  · intro filtered
    obtain ⟨a,p,found,under⟩ := filtered rfl
    cases Option.some.inj found
    cases under

end Gortcd.PeerData
