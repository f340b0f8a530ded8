import Gortcd.Interleaving

/-! Outbound relaying over all interleavings. A permission or a binding in the table goes
back to a step that granted it, and every step since then left it in force. -/
namespace Gortcd.Grants
open Keyed Net Ports Sections Records Relaying Permissions Calls Runs Interleaving

variable {turn : Turn}

def Permitted (turn : Turn) (t : FiveTuple) (ip : IP) (allocs : Table) : Prop :=
  ∃ a p, find turn allocs t = some a ∧ permission a ip = some p

def BoundIn (turn : Turn) (t : FiveTuple) (n : ChannelNumber) (peer : Addr) (allocs : Table) : Prop :=
  ∃ a, find turn allocs t = some a ∧ BoundTo a n peer.ip peer.port

def GrantsTo (turn : Turn) (t : FiveTuple) (ip : IP) (x : Step State Event) : Prop :=
  match x.event with
  | .createPermission t' q timeout => turn.tuples.same t' t = true ∧ IP.equal q.ip ip = true ∧
      (createPermission turn x.pre.allocs t' q timeout).2 = none
  | .channelBind t' n q timeout => turn.tuples.same t' t = true ∧ IP.equal q.ip ip = true ∧
      (channelBind turn x.pre.allocs t' n q timeout).2 = none
  | _ => False

def BindsTo (turn : Turn) (t : FiveTuple) (n : ChannelNumber) (peer : Addr) (x : Step State Event) : Prop :=
  match x.event with
  | .channelBind t' m q timeout => turn.tuples.same t' t = true ∧ m = n ∧ q.port = peer.port ∧
      IP.equal q.ip peer.ip = true ∧ (channelBind turn x.pre.allocs t' m q timeout).2 = none
  | _ => False

/- The step is no `Remove` of the tuple that takes effect, and a `Prune` at `now` comes
before the timeouts the allocation and the permission have then. -/
def InForce (turn : Turn) (t : FiveTuple) (ip : IP) (x : Step State Event) : Prop :=
  match x.event with
  | .remove t' => ¬ (turn.tuples.same t' t = true ∧ (find turn x.pre.allocs t').isSome)
  | .prune now => ∃ a p, find turn x.pre.allocs t = some a ∧ permission a ip = some p ∧
      now < a.timeout ∧ now < p.timeout
  | _ => True

def BindingInForce (turn : Turn) (t : FiveTuple) (n : ChannelNumber) (peer : Addr) (x : Step State Event) : Prop :=
  match x.event with
  | .remove t' => ¬ (turn.tuples.same t' t = true ∧ (find turn x.pre.allocs t').isSome)
  | .prune now => ∃ a p b, find turn x.pre.allocs t = some a ∧ permission a peer.ip = some p ∧ b ∈ p.bindings ∧
      b.port = peer.port ∧ b.channel = n ∧ now < a.timeout ∧ now < p.timeout ∧ now < b.timeout
  | _ => True

/- The port allocator answers a call of `New` for the tuple with this socket. -/
def Opens (turn : Turn) (t : FiveTuple) (conn : Conn) (x : Step State Event) : Prop :=
  ∃ k n p, x.event = .answer k (.ok n) ∧ n.conn = conn ∧ p ∈ x.pre.pending ∧ p.call = k ∧
    turn.tuples.same p.tuple t = true

theorem elsewhereInForce {s : State} {e : Event} {t : FiveTuple} (ip : IP) (elsewhere : Elsewhere turn s t e) :
    InForce turn t ip ⟨s,e⟩ := by
  cases e with
  | remove t' =>
    have other : turn.tuples.same t' t = false := elsewhere
    simp [InForce,other]
  | prune x => exact elsewhere.elim
  | _ => trivial

theorem elsewhereBindingInForce {s : State} {e : Event} {t : FiveTuple} (n : ChannelNumber) (peer : Addr)
    (elsewhere : Elsewhere turn s t e) : BindingInForce turn t n peer ⟨s,e⟩ := by
  cases e with
  | remove t' =>
    have other : turn.tuples.same t' t = false := elsewhere
    simp [BindingInForce,other]
  | prune x => exact elsewhere.elim
  | _ => trivial

theorem grantedFound {s : State} {t t' : FiveTuple} {a : Allocation} {peer : Addr} {timeout : Time}
    (same : turn.tuples.same t' t = true) (found : find turn s.allocs t = some a) :
    (createPermission turn s.allocs t' peer timeout).2 = none := by
  simp [createdPermission,foundUnder same found]

theorem permittedStep {s : State} (ok : TableOk turn s.allocs) {e : Event} {t : FiveTuple} {ip : IP}
    (after : Permitted turn t ip (next turn s e).allocs) :
    GrantsTo turn t ip ⟨s,e⟩ ∨ (InForce turn t ip ⟨s,e⟩ ∧ Permitted turn t ip s.allocs) := by
  obtain ⟨a,p,found,under⟩ := after
  obtain ⟨o,before,step⟩ := stepTo ok found
  cases step with
  | kept elsewhere => exact .inr ⟨elsewhereInForce ip elsewhere,a,p,before,under⟩
  | registered => cases under
  | installed => cases under
  | @pruned x b alive =>
    have inside := ok.allocations b (lookupSome before).1
    rw [permissionPrune inside.distinct] at under
    obtain ⟨pruned,late⟩ := Option.filter_eq_some_iff.mp under
    obtain ⟨q,old,rfl⟩ := Option.map_eq_some_iff.mp pruned
    exact .inr ⟨⟨b,q,before,old,alive,of_decide_eq_true late⟩,b,q,before,old⟩
  | refreshed => exact .inr ⟨trivial,_,p,before,under⟩
  | @granted t' peer timeout b same =>
    rw [permissionGrant] at under
    split at under
    · rename_i ips
      exact .inl ⟨same,ips,grantedFound same before⟩
    · exact .inr ⟨trivial,b,p,before,under⟩
  | @bound t' n peer timeout b _ same success to' =>
    rw [permissionBind to'] at under
    split at under
    · rename_i ips
      exact .inl ⟨same,ips,success⟩
    · exact .inr ⟨trivial,b,p,before,under⟩

theorem boundStep {s : State} (ok : TableOk turn s.allocs) {e : Event} {t : FiveTuple} {n : ChannelNumber}
    {peer : Addr} (after : BoundIn turn t n peer (next turn s e).allocs) :
    BindsTo turn t n peer ⟨s,e⟩ ∨ (BindingInForce turn t n peer ⟨s,e⟩ ∧ BoundIn turn t n peer s.allocs) := by
  obtain ⟨a,found,holds⟩ := after
  have unbound {b : Allocation} (none : b.permissions = []) : ¬ BoundTo b n peer.ip peer.port := by
    intro holds
    obtain ⟨p,_,under,_⟩ := holds
    rw [noPermission none] at under
    cases under
  obtain ⟨o,before,step⟩ := stepTo ok found
  cases step with
  | kept elsewhere => exact .inr ⟨elsewhereBindingInForce n peer elsewhere,a,before,holds⟩
  | registered => exact absurd holds (unbound rfl)
  | installed => exact absurd holds (unbound rfl)
  | @pruned x b alive =>
    have inside := ok.allocations b (lookupSome before).1
    obtain ⟨p,c,under,late,mem,bindingLate,port,channel⟩ := (boundToPrune inside.distinct).mp holds
    exact .inr ⟨⟨b,p,c,before,under,mem,port,channel,alive,late,bindingLate⟩,b,before,p,c,under,mem,port,channel⟩
  | refreshed => exact .inr ⟨trivial,_,before,holds⟩
  | granted => exact .inr ⟨trivial,_,before,boundToGrant.mp holds⟩
  | bound same success to' =>
    rcases boundToBind to' holds with old | ⟨rfl,port,ips,_⟩
    · exact .inr ⟨trivial,_,before,old⟩
    · exact .inl ⟨same,rfl,port.symm,ips,success⟩

theorem permittedSince {h s} (run : Run (machine turn) h s) {t : FiveTuple} {ip : IP}
    (now : Permitted turn t ip s.allocs) : Since (GrantsTo turn t ip) (InForce turn t ip) h := by
  refine sinceMade (Q := fun s : State => Permitted turn t ip s.allocs) ?_ (fun _ _ _ before _ => permittedStep (tableOk before)) run now
  intro initial
  obtain ⟨a,_,found,_⟩ := initial
  cases found

theorem boundSince {h s} (run : Run (machine turn) h s) {t : FiveTuple} {n : ChannelNumber} {peer : Addr}
    (now : BoundIn turn t n peer s.allocs) : Since (BindsTo turn t n peer) (BindingInForce turn t n peer) h := by
  refine sinceMade (Q := fun s : State => BoundIn turn t n peer s.allocs) ?_ (fun _ _ _ before _ => boundStep (tableOk before)) run now
  intro initial
  obtain ⟨a,found,_⟩ := initial
  cases found

/- Every socket held by a call in progress or by an allocation was opened for its tuple. -/
structure SocketsOpened (turn : Turn) (h : List (Step State Event)) (s : State) : Prop where
  pending : ∀ p ∈ s.pending, ∀ n, p.port = some n → ∃ x ∈ h, Opens turn p.tuple n.conn x
  allocs : ∀ t a c, find turn s.allocs t = some a → a.conn = some c → ∃ x ∈ h, Opens turn t c x

theorem opensLater {h : List (Step State Event)} {t : FiveTuple} {c : Conn} (y : Step State Event)
    (past : ∃ x ∈ h, Opens turn t c x) : ∃ x ∈ y :: h, Opens turn t c x := by
  obtain ⟨x,mem,opens⟩ := past
  exact ⟨x,List.mem_cons_of_mem _ mem,opens⟩

theorem opensCongr {h : List (Step State Event)} {t t' : FiveTuple} {c : Conn} (same : turn.tuples.same t t' = true)
    (past : ∃ x ∈ h, Opens turn t c x) : ∃ x ∈ h, Opens turn t' c x := by
  obtain ⟨x,mem,k,n,p,event,conn,held,call,tuple⟩ := past
  exact ⟨x,mem,k,n,p,event,conn,held,call,turn.tuples.trans tuple same⟩

theorem openedStep {h : List (Step State Event)} {s : State} (ok : TableOk turn s.allocs)
    (inv : SocketsOpened turn h s) (e : Event) : SocketsOpened turn (⟨s,e⟩ :: h) (next turn s e) := by
  refine ⟨?_,?_⟩
  · intro p mem n port
    rcases pendingOrigin mem with old | ⟨k,t,timeout,_,rfl⟩ | ⟨k,m,q,rfl,held,call,rfl⟩
    · exact opensLater _ (inv.pending p old n port)
    · cases port
    · cases Option.some.inj port
      exact ⟨_,List.mem_cons_self,k,n,q,rfl,rfl,held,call,turn.tuples.refl _⟩
  · intro t a c found conn
    have held {b : Allocation} (before : find turn s.allocs t = some b) (same : b.conn = some c) :
        ∃ x ∈ ⟨s,e⟩ :: h, Opens turn t c x := opensLater _ (inv.allocs t b c before same)
    obtain ⟨o,before,step⟩ := stepTo ok found
    cases step with
    | kept => exact held before conn
    | registered => cases conn
    | installed call port same =>
      cases Option.some.inj conn
      exact opensLater _ (opensCongr same (inv.pending _ (callSome call).1 _ port))
    | pruned => exact held before conn
    | refreshed => exact held before conn
    | granted =>
      rw [grantConn] at conn
      exact held before conn
    | bound _ _ to' =>
      rw [(bindToTuple to').2.1] at conn
      exact held before conn

theorem opened {h s} (run : Run (machine turn) h s) : SocketsOpened turn h s := by
  induction run with
  | start =>
    refine ⟨?_,?_⟩
    · intro p mem
      cases mem
    · intro t a c found
      cases found
  | step before _ ih => exact openedStep (tableOk before) ih _

theorem relayingBacked {h s} (run : Run (machine turn) h s) (t : FiveTuple) (data : Bytes) :
    (∀ peer w, send turn s.allocs t peer data = .ok w →
      w.addr = peer ∧ (∃ x ∈ h, Opens turn t w.conn x) ∧ Since (GrantsTo turn t peer.ip) (InForce turn t peer.ip) h) ∧
    ∀ n w, sendBound turn s.allocs t n data = .ok w →
      (∃ x ∈ h, Opens turn t w.conn x) ∧ Since (BindsTo turn t n w.addr) (BindingInForce turn t n w.addr) h := by
  have ok := tableOk run
  refine ⟨?_,?_⟩
  · intro peer w sent
    obtain ⟨addr,_,a,p,found,conn,under⟩ := sendSource ok.distinct sent
    exact ⟨addr,(opened run).allocs t a w.conn found conn,permittedSince run ⟨a,p,found,under⟩⟩
  · intro n w sent
    obtain ⟨_,a,found,conn,target⟩ := sendBoundSource ok.distinct sent
    have holds := boundToTarget (ok.allocations a (lookupSome found).1) target
    exact ⟨(opened run).allocs t a w.conn found conn,boundSince run ⟨a,found,holds⟩⟩

def granted : List Event :=
  [.register 1 sampleTuple 60,.answer 1 (.ok ⟨sampleRelayed,17,1⟩),.install 1,
    .createPermission sampleTuple samplePeer 50,.channelBind sampleTuple 0x4001 samplePeer 50,.prune 10]

theorem grantedAllowed : Allowed (machine .documented) .empty granted :=
  ⟨rfl,⟨⟨_,rfl,rfl⟩,by decide,by decide⟩,⟨_,_,rfl,rfl⟩,trivial,trivial,trivial,trivial⟩

theorem relayingBackedSample :
    send .documented (trace (machine .documented) [] .empty granted).2.allocs sampleTuple samplePeer [1] =
      .ok ⟨1,[1],samplePeer⟩ ∧
    sendBound .documented (trace (machine .documented) [] .empty granted).2.allocs sampleTuple 0x4001 [1] =
      .ok ⟨1,[1],samplePeer⟩ ∧
    Since (GrantsTo .documented sampleTuple samplePeer.ip) (InForce .documented sampleTuple samplePeer.ip)
      (trace (machine .documented) [] .empty granted).1 ∧
    Since (BindsTo .documented sampleTuple 0x4001 samplePeer) (BindingInForce .documented sampleTuple 0x4001 samplePeer)
      (trace (machine .documented) [] .empty granted).1 := by
  have run := traceStart (m := machine .documented) granted grantedAllowed
  obtain ⟨bySend,byBinding⟩ := relayingBacked run sampleTuple [1]
  exact ⟨rfl,rfl,(bySend samplePeer _ rfl).2.2,(byBinding 0x4001 _ rfl).2⟩

end Gortcd.Grants
