import Gortcd.Isolation
import Gortcd.Responses

/-! What a call on an existing allocation reports when there is none, and what it leaves
behind when it fails. `Refresh` is the one that does not look whether it found anything. -/
namespace Gortcd.Outcomes
open Keyed Net Ports Sections Records Calls Runs Interleaving Isolation Messages Handlers Effects

variable {turn : Turn}

def OnExisting (t : FiveTuple) : Call → Prop
  | .createPermission t' _ _ => t' = t
  | .channelBind t' _ _ _ => t' = t
  | .refresh t' _ => t' = t
  | .remove t' => t' = t
  | _ => False

def ValidNumber (turn : Turn) : Call → Prop
  | .channelBind _ n _ _ => turn.channelValid n = true
  | _ => True

/- Without an allocation the call returns `ErrAllocationMismatch` and the handler that makes
it answers 437; with any error both tables stay as they are. -/
def Uniform (turn : Turn) (a : Allocator) (t : FiveTuple) (c : Call) : Prop :=
  (ValidNumber turn c → find turn a.allocs t = none →
    a.outcome turn c = .error .allocationMismatch ∧
    ∀ stun env ctx, Requests stun env.port ctx c →
      handle turn stun env a ctx = ctx.buildErr stun a .allocMismatch) ∧
  ∀ e, a.outcome turn c = .error e → a.run turn c = a

def BlindRefresh (turn : Turn) (a : Allocator) (t : FiveTuple) (c : Call) : Prop :=
  (∃ timeout, c = .refresh t timeout) ∧ find turn a.allocs t = none

theorem existingTuple {t : FiveTuple} {c : Call} (existing : OnExisting t c) : c.tuple = some t := by
  cases c with
  | new => exact existing.elim
  | prune => exact existing.elim
  | _ => exact congrArg some existing

theorem removeAbsent {a : Allocator} {t : FiveTuple} (absent : find turn a.allocs t = none) :
    a.remove turn t = (a,some .allocationMismatch) := by
  have same : (remove turn a.allocs t).1 = a.allocs := by
    rw [removeTable,List.filter_eq_self]
    intro b mem
    simp [lookupNone.mp absent b mem]
  simp [Allocator.remove,removedNone,absent,same]

theorem grantAbsent {a : Allocator} {t : FiveTuple} (absent : find turn a.allocs t = none) (peer : Addr) (timeout : Time) :
    a.createPermission turn t peer timeout = (a,some .allocationMismatch) := by
  simp [Allocator.createPermission,createdPermission,absent,updateNone absent]

theorem bindAbsentCall {a : Allocator} (ok : TableOk turn a.allocs) {t : FiveTuple} {n : ChannelNumber}
    (valid : turn.channelValid n = true) (absent : find turn a.allocs t = none) (peer : Addr) (timeout : Time) :
    a.channelBind turn t n peer timeout = (a,some .allocationMismatch) := by
  simp [Allocator.channelBind,channelBound ok.distinct,valid,absent]

theorem failedUnchanged {a : Allocator} (ok : TableOk turn a.allocs) {t : FiveTuple} {c : Call}
    (existing : OnExisting t c) {e : Err} (failed : a.outcome turn c = .error e) : a.run turn c = a := by
  cases c with
  | new => exact existing.elim
  | prune => exact existing.elim
  | refresh t' timeout => cases failed
  | remove t' =>
    rw [runOutcome ok rfl,returns] at failed
    split at failed
    · cases failed
    · rename_i absent
      rw [Allocator.run,removeAbsent (by simpa using absent)]
  | createPermission t' peer timeout =>
    rw [runOutcome ok rfl,returns] at failed
    split at failed
    · cases failed
    · rename_i absent
      rw [Allocator.run,grantAbsent (by simpa using absent)]
  | channelBind t' n peer timeout =>
    rcases @bindCases turn a.allocs t' timeout ok.distinct n peer with ⟨_,same⟩ | ⟨b,d,_,_,_,eq⟩
    · simp only [Allocator.run,Allocator.channelBind,same]
    · simp only [Allocator.outcome,Allocator.channelBind,eq,returned] at failed
      cases failed

theorem absentReported {a : Allocator} (ok : TableOk turn a.allocs) {t : FiveTuple} {c : Call}
    (existing : OnExisting t c) (valid : ValidNumber turn c) (absent : find turn a.allocs t = none)
    (other : ∀ timeout, c ≠ .refresh t timeout) : a.outcome turn c = .error .allocationMismatch := by
  rw [runOutcome ok (existingTuple existing),absent]
  cases c with
  | new => exact existing.elim
  | prune => exact existing.elim
  | refresh t' timeout =>
    cases existing
    exact absurd rfl (other timeout)
  | remove => rfl
  | createPermission => rfl
  | channelBind t' n peer timeout =>
    have number : turn.channelValid n = true := valid
    simp [returns,number]

theorem absentAnswered {a : Allocator} (ok : TableOk turn a.allocs) {t : FiveTuple} {c : Call}
    (existing : OnExisting t c) (valid : ValidNumber turn c) (absent : find turn a.allocs t = none)
    (other : ∀ timeout, c ≠ .refresh t timeout) {stun : Stun} {env : Env} {ctx : Context}
    (requests : Requests stun env.port ctx c) : handle turn stun env a ctx = ctx.buildErr stun a .allocMismatch := by
  cases requests with
  | new => exact existing.elim
  | remove type zero =>
    cases existing
    rcases zero with zero | missing
    · simp [handle,type,processRefreshRequest,zero,removeAbsent absent]
    · simp [handle,type,processRefreshRequest,missing,removeAbsent absent]
  | refresh =>
    cases existing
    exact absurd rfl (other _)
  | createPermission type addr allowed lifetime =>
    cases existing
    rcases lifetime with ⟨missing,rfl⟩ | ⟨l,given,rfl⟩
    · simp [handle,type,processCreatePermissionRequest,addr,allowed,missing,grantAbsent absent]
    · simp [handle,type,processCreatePermissionRequest,addr,allowed,given,grantAbsent absent]
  | channelBind type addr number allowed =>
    cases existing
    simp [handle,type,processChannelBinding,addr,number,allowed,bindAbsentCall ok valid absent]

/- In every reachable state the call behaves as its siblings do if and only if it is not a
`Refresh` of a tuple without an allocation. -/
theorem mismatchReported {h s} (run : Run (Interleaving.machine turn) h s) {t : FiveTuple} {c : Call}
    (existing : OnExisting t c) :
    Uniform turn s.toAllocator t c ↔ ¬ BlindRefresh turn s.toAllocator t c := by
  have ok := tableOk run
  constructor
  · intro uniform blind
    obtain ⟨⟨timeout,rfl⟩,absent⟩ := blind
    obtain ⟨failed,_⟩ := uniform.1 trivial absent
    cases failed
  · intro seeing
    refine ⟨?_,fun e failed => failedUnchanged ok existing failed⟩
    intro valid absent
    have other : ∀ timeout, c ≠ .refresh t timeout := fun timeout same => seeing ⟨⟨timeout,same⟩,absent⟩
    exact ⟨absentReported ok existing valid absent other,
      fun stun env ctx requests => absentAnswered ok existing valid absent other requests⟩

def absentTuple : FiveTuple := { sampleTuple with client := samplePeer }

theorem mismatchReportedSample : represented.2.allocs.length = 2 ∧
    Uniform .documented represented.2.toAllocator absentTuple (.createPermission absentTuple samplePeer 60) ∧
    (represented.2.toAllocator.createPermission .documented absentTuple samplePeer 60).2 = some .allocationMismatch := by
  refine ⟨by decide,(mismatchReported representedRun (c := .createPermission absentTuple samplePeer 60) rfl).mpr ?_,
    by decide⟩
  intro blind
  obtain ⟨⟨timeout,same⟩,_⟩ := blind
  cases same

/- The call returns nil, and a client without an allocation that sends LIFETIME 600 gets a
Refresh success response. -/
theorem refreshUnreported :
    (∃ s, Reachable (Interleaving.machine .documented) s ∧
      ¬ Uniform .documented s.toAllocator sampleTuple (.refresh sampleTuple 60)) ∧
    (Responses.answer .documented Codec.wire
      ⟨Responses.plain sampleServer,.udp sampleTuple.client,Codec.refreshRequest 0x02 0x58⟩).map (List.take 2) = some [0x01,0x04] := by
  refine ⟨⟨.empty,⟨[],.start⟩,?_⟩,by decide +kernel⟩
  intro uniform
  obtain ⟨failed,_⟩ := uniform.1 trivial rfl
  cases failed

end Gortcd.Outcomes
