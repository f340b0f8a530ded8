import Gortcd.Records

/-! What `Send`, `SendBound` and `Bound` read from a well formed table. The loops of the
two send functions have no `break`; with distinct tuples and addresses they meet one
allocation and one permission, and `SendBound` takes the last binding of the channel. -/
namespace Gortcd.Relaying
open Keyed Net Sections Records

variable {turn : Turn} {allocs : Table} {t : FiveTuple}

/- All peers bound to a channel in an allocation, in the order of the table. -/
def targets (a : Allocation) (n : ChannelNumber) : List Addr :=
  a.permissions.flatMap (fun p => (p.bindings.filter (fun b => b.channel == n)).map (fun b => ⟨p.ip,b.port⟩))

theorem memTargets {a : Allocation} {n : ChannelNumber} {x : Addr} :
    x ∈ targets a n ↔ ∃ p ∈ a.permissions, ∃ b ∈ p.bindings, b.channel = n ∧ x = ⟨p.ip,b.port⟩ := by
  simp only [targets,List.mem_flatMap,List.mem_map,List.mem_filter,beq_iff_eq]
  constructor
  · intro member
    obtain ⟨p,hp,b,⟨hb,hn⟩,rfl⟩ := member
    exact ⟨p,hp,b,hb,hn,rfl⟩
  · intro member
    obtain ⟨p,hp,b,hb,hn,rfl⟩ := member
    exact ⟨p,hp,b,⟨hb,hn⟩,rfl⟩

theorem bindingScan (conn : Option Conn) (ip : IP) (n : ChannelNumber) (l : List Binding) :
    l.flatMap (fun b => if b.channel != n then [] else [(conn,(⟨ip,b.port⟩ : Addr))]) =
      ((l.filter (fun b => b.channel == n)).map (fun b => (⟨ip,b.port⟩ : Addr))).map (fun x => (conn,x)) := by
  induction l with
  | nil => rfl
  | cons b l ih =>
    simp only [List.flatMap_cons,ih,List.filter_cons]
    cases hit : b.channel == n <;> simp [bne,hit]

theorem permissionScan (conn : Option Conn) (n : ChannelNumber) (l : List Permission) :
    l.flatMap (fun p => p.bindings.flatMap (fun b => if b.channel != n then [] else [(conn,(⟨p.ip,b.port⟩ : Addr))])) =
      (l.flatMap (fun p => (p.bindings.filter (fun b => b.channel == n)).map
        (fun b => (⟨p.ip,b.port⟩ : Addr)))).map (fun x => (conn,x)) := by
  simp only [bindingScan,List.map_flatMap]

/- The three nested loops of `SendBound` as one list of hits. -/
theorem sendBoundScan (n : ChannelNumber) (init : Option Conn × Addr) :
    allocs.foldl (fun acc a =>
      if !turn.tuples.same a.tuple t then acc
      else a.permissions.foldl (fun acc p =>
        p.bindings.foldl (fun acc b =>
          if b.channel != n then acc else (a.conn,(⟨p.ip,b.port⟩ : Addr))) acc) acc) init =
      (allocs.flatMap (fun a => if !turn.tuples.same a.tuple t then []
        else (targets a n).map (fun x => (a.conn,x)))).getLast?.getD init := by
  rw [← foldlLast]
  congr 1
  funext acc a
  split
  · rfl
  · have inner (p : Permission) (acc : Option Conn × Addr) : p.bindings.foldl (fun acc b =>
        if b.channel != n then acc else (a.conn,(⟨p.ip,b.port⟩ : Addr))) acc =
        (p.bindings.flatMap (fun b => if b.channel != n then [] else [(a.conn,(⟨p.ip,b.port⟩ : Addr))])).getLast?.getD
          acc := by
      rw [← foldlLast]
      congr 1
      funext acc b
      split <;> rfl
    simp only [inner,foldlLast,targets,permissionScan]

theorem sendBoundSpec (dist : Distinct turn.tuples Allocation.tuple allocs) (n : ChannelNumber) (data : Bytes) :
    sendBound turn allocs t n data =
      match (find turn allocs t).bind (fun a => (targets a n).getLast?.bind (fun x => a.conn.map (fun c => (c,x)))) with
      | none => .error .permissionNotFound
      | some (c,x) => .ok ⟨c,data,x⟩ := by
  have one := @flatMapLookup _ _ turn.tuples Allocation.tuple t allocs _ dist
    (fun a => (targets a n).map (fun x => (a.conn,x)))
  unfold sendBound
  simp only [sendBoundScan,one,lookupFound]
  cases find turn allocs t with
  | none => rfl
  | some a =>
    simp only [List.getLast?_map,Option.bind_some]
    cases (targets a n).getLast? with
    | none => rfl
    | some x => cases a.conn <;> simp

theorem sendSpec (dist : Distinct turn.tuples Allocation.tuple allocs) (peer : Addr) (data : Bytes) :
    send turn allocs t peer data =
      match (find turn allocs t).bind (fun a => if (permission a peer.ip).isSome then a.conn else none) with
      | none => .error .permissionNotFound
      | some c => .ok ⟨c,data,peer⟩ := by
  have turned (a : Allocation) : a.permissions.any (fun p => IP.equal peer.ip p.ip) = (permission a peer.ip).isSome := by
    have same : (fun p : Permission => IP.equal peer.ip p.ip) = (fun p => IP.equal p.ip peer.ip) := by
      funext p
      exact ips.comm _ _
    rw [same,anyPermission]
  have scan : allocs.foldl (fun acc a => if !turn.tuples.same a.tuple t then acc
      else a.permissions.foldl (fun acc p => if !IP.equal peer.ip p.ip then acc else a.conn) acc) (none : Option Conn) =
      (allocs.flatMap (fun a => if !turn.tuples.same a.tuple t then []
        else if (permission a peer.ip).isSome then [a.conn] else [])).getLast?.getD none := by
    rw [← foldlLast]
    congr 1
    funext acc a
    simp only [foldlConst,turned]
    cases turn.tuples.same a.tuple t <;> cases (permission a peer.ip).isSome <;> rfl
  unfold send
  simp only [scan,flatMapLookup dist,lookupFound]
  cases find turn allocs t with
  | none => rfl
  | some a =>
    simp only [Option.bind_some]
    cases (permission a peer.ip).isSome <;> cases a.conn <;> rfl

theorem boundSpec (ok : TableOk turn allocs) (peer : Addr) :
    bound turn allocs t peer =
      match (find turn allocs t).bind (fun a => (permission a peer.ip).bind
        (fun p => (portBinding p peer.port).map Binding.channel)) with
      | some n => .ok n
      | none => .error .allocationMismatch := by
  have outer := @findSomeLookup _ _ turn.tuples Allocation.tuple t allocs _ ok.distinct
    (fun a => a.permissions.findSome? (fun p => if !IP.equal p.ip peer.ip then none
      else (p.bindings.find? (fun b => b.port == peer.port)).map Binding.channel))
  have scan : allocs.findSome? (fun a => if !turn.tuples.same a.tuple t then none
      else a.permissions.findSome? (fun p => if !IP.equal p.ip peer.ip then none
        else (p.bindings.find? (fun b => b.port == peer.port)).map Binding.channel)) =
      (find turn allocs t).bind (fun a => (permission a peer.ip).bind
        (fun p => (portBinding p peer.port).map Binding.channel)) := by
    rw [outer,lookupFound]
    cases found : find turn allocs t with
    | none => rfl
    | some a =>
      have inside := ok.allocations a (lookupSome found).1
      exact findSomeLookup inside.distinct _
  exact congrArg (fun found => match found with
    | some n => Except.ok n
    | none => Except.error Err.allocationMismatch) scan

theorem sendSource (dist : Distinct turn.tuples Allocation.tuple allocs) {peer : Addr} {data : Bytes} {w : Write}
    (sent : send turn allocs t peer data = .ok w) :
    w.addr = peer ∧ w.data = data ∧ ∃ a p, find turn allocs t = some a ∧ a.conn = some w.conn ∧
      permission a peer.ip = some p := by
  rw [sendSpec dist] at sent
  cases found : find turn allocs t with
  | none => simp [found] at sent
  | some a => cases under : permission a peer.ip with
    | none => simp [found,under] at sent
    | some p => cases conn : a.conn with
      | none => simp [found,under,conn] at sent
      | some c =>
        simp only [found,under,conn,Option.bind_some,Option.isSome_some,if_true,Except.ok.injEq] at sent
        subst sent
        exact ⟨rfl,rfl,a,p,rfl,conn,under⟩

theorem sendBoundSource (dist : Distinct turn.tuples Allocation.tuple allocs) {n : ChannelNumber} {data : Bytes}
    {w : Write} (sent : sendBound turn allocs t n data = .ok w) :
    w.data = data ∧ ∃ a, find turn allocs t = some a ∧ a.conn = some w.conn ∧ w.addr ∈ targets a n := by
  rw [sendBoundSpec dist] at sent
  cases found : find turn allocs t with
  | none => simp [found] at sent
  | some a => cases last : (targets a n).getLast? with
    | none => simp [found,last] at sent
    | some x => cases conn : a.conn with
      | none => simp [found,last,conn] at sent
      | some c =>
        simp only [found,last,conn,Option.bind_some,Option.map_some,Except.ok.injEq] at sent
        subst sent
        exact ⟨rfl,a,rfl,conn,List.mem_of_getLast? last⟩

theorem boundSource (ok : TableOk turn allocs) {peer : Addr} {n : ChannelNumber}
    (hit : bound turn allocs t peer = .ok n) :
    ∃ a p b, find turn allocs t = some a ∧ permission a peer.ip = some p ∧ portBinding p peer.port = some b ∧
      b.channel = n := by
  rw [boundSpec ok] at hit
  cases found : find turn allocs t with
  | none => simp [found] at hit
  | some a => cases under : permission a peer.ip with
    | none => simp [found,under] at hit
    | some p => cases at' : portBinding p peer.port with
      | none => simp [found,under,at'] at hit
      | some b =>
        simp only [found,under,at',Option.bind_some,Option.map_some,Except.ok.injEq] at hit
        exact ⟨a,p,b,rfl,under,at',hit⟩

end Gortcd.Relaying
