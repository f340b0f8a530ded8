import Gortcd.Sections

/-! The allocation table as keyed records: allocations by 5-tuple, permissions by IP,
bindings by port and by channel. One lemma for each section of the allocator says what
is found under every tuple afterwards; `Change` lists what any section can do to the
table, and the representation invariant is kept by each of its cases. -/
namespace Gortcd.Records
open Keyed Net Sections

def find (turn : Turn) (allocs : Table) (t : FiveTuple) : Option Allocation :=
  lookup turn.tuples Allocation.tuple t allocs

def permission (a : Allocation) (ip : IP) : Option Permission := lookup ips Permission.ip ip a.permissions

def portBinding (p : Permission) (port : Port) : Option Binding :=
  lookup (equality Port) Binding.port port p.bindings

def channelBinding (p : Permission) (n : ChannelNumber) : Option Binding :=
  lookup (equality ChannelNumber) Binding.channel n p.bindings

structure PermissionOk (turn : Turn) (p : Permission) : Prop where
  ports : Distinct (equality Port) Binding.port p.bindings
  channels : Distinct (equality ChannelNumber) Binding.channel p.bindings
  valid : ∀ b ∈ p.bindings, turn.channelValid b.channel = true

structure AllocationOk (turn : Turn) (a : Allocation) : Prop where
  distinct : Distinct ips Permission.ip a.permissions
  permissions : ∀ p ∈ a.permissions, PermissionOk turn p

structure TableOk (turn : Turn) (allocs : Table) : Prop where
  distinct : Distinct turn.tuples Allocation.tuple allocs
  allocations : ∀ a ∈ allocs, AllocationOk turn a

variable {turn : Turn} {allocs : Table} {t t' : FiveTuple} {timeout : Time}

theorem anyFound : allocs.any (fun a => turn.tuples.same a.tuple t) = (find turn allocs t).isSome :=
  lookupIsSome.symm

theorem anyPermission (a : Allocation) (ip : IP) :
    a.permissions.any (fun p => IP.equal p.ip ip) = (permission a ip).isSome :=
  (@lookupIsSome IP Permission ips Permission.ip ip a.permissions).symm

theorem lookupFound : lookup turn.tuples Allocation.tuple t allocs = find turn allocs t := rfl

theorem foundUnder {a : Allocation} (same : turn.tuples.same t' t = true) (found : find turn allocs t = some a) :
    find turn allocs t' = some a := (lookupCongr same).trans found

theorem registered {out : Table} (ok : register turn allocs t timeout = .ok out) :
    t.proto = turn.protoUDP ∧ find turn allocs t = none ∧ out = allocs ++ [placeholder t timeout] := by
  unfold register at ok
  split at ok <;> try contradiction
  rename_i udp
  split at ok <;> try contradiction
  rename_i fresh
  rw [anyFound] at fresh
  cases Except.ok.inj ok
  exact ⟨by simpa using udp,by simpa using fresh,rfl⟩

theorem registerFails {e : Err} (fails : register turn allocs t timeout = .error e) :
    (t.proto ≠ turn.protoUDP ∧ e = .protoNotImplemented t.proto) ∨
    (t.proto = turn.protoUDP ∧ (find turn allocs t).isSome ∧ e = .allocationMismatch) := by
  unfold register at fails
  split at fails
  · rename_i other
    cases fails
    exact .inl ⟨by simpa using other,rfl⟩
  · rename_i udp
    split at fails <;> try contradiction
    rename_i used
    cases fails
    rw [anyFound] at used
    exact .inr ⟨by simpa using udp,used,rfl⟩

theorem registerOk (udp : t.proto = turn.protoUDP) (fresh : find turn allocs t = none) :
    register turn allocs t timeout = .ok (allocs ++ [placeholder t timeout]) := by
  simp [register,udp,anyFound,fresh]

theorem findRegistered (fresh : find turn allocs t = none) :
    find turn (allocs ++ [placeholder t timeout]) t' =
      if turn.tuples.same t t' then some (placeholder t timeout) else find turn allocs t' :=
  lookupAppend fresh

theorem findInstall (raddr : Addr) (conn : Conn) :
    find turn (install turn allocs t timeout raddr conn) t' =
      if turn.tuples.same t t' then (find turn allocs t).map (fun _ => installed t timeout raddr conn)
      else find turn allocs t' :=
  lookupUpdate (fun _ _ => turn.tuples.refl t)

theorem removeTable : (remove turn allocs t).1 = allocs.filter (fun a => !turn.tuples.same a.tuple t) :=
  compactFilter _ _

theorem findRemove : find turn (remove turn allocs t).1 t' =
    if turn.tuples.same t t' then none else find turn allocs t' := by
  rw [removeTable,turn.tuples.comm t t']
  exact lookupDrop t

theorem prunedPermissions (x : Time) (a : Allocation) : (a.prune x).permissions =
    (a.permissions.map (Permission.prune x)).filter (fun p => decide (x < p.timeout)) := by
  have length := List.length_filter_le (fun p : Permission => decide (x < p.timeout))
    (a.permissions.map (Permission.prune x))
  exact List.take_of_length_le (by simpa using length)

theorem pruneTable (x : Time) : (prune allocs x).1 =
    (allocs.map (Allocation.prune x)).filter (fun a => decide (x < a.timeout)) :=
  compactFilter _ _

theorem findPrune (dist : Distinct turn.tuples Allocation.tuple allocs) (x : Time) :
    find turn (prune allocs x).1 t =
      ((find turn allocs t).map (Allocation.prune x)).filter (fun a => decide (x < a.timeout)) := by
  have kept : Distinct turn.tuples Allocation.tuple (allocs.map (Allocation.prune x)) :=
    distinctMap dist (fun _ _ => rfl)
  have mapped : find turn (allocs.map (Allocation.prune x)) t = (find turn allocs t).map (Allocation.prune x) :=
    lookupMap (fun _ _ => rfl)
  have filtered : find turn ((allocs.map (Allocation.prune x)).filter (fun a => decide (x < a.timeout))) t =
      (find turn (allocs.map (Allocation.prune x)) t).filter (fun a => decide (x < a.timeout)) := lookupFilter kept _
  rw [pruneTable,filtered,mapped]

theorem grantTuple (peer : Addr) (a : Allocation) : (a.grant peer timeout).tuple = a.tuple := by
  unfold Allocation.grant
  split <;> rfl

theorem grantConn (peer : Addr) (a : Allocation) : (a.grant peer timeout).conn = a.conn := by
  unfold Allocation.grant
  split <;> rfl

theorem createdPermission (peer : Addr) :
    createPermission turn allocs t peer timeout =
      (update turn.tuples Allocation.tuple t (Allocation.grant peer timeout) allocs,
        if (find turn allocs t).isSome then none else some .allocationMismatch) := by
  unfold createPermission
  rw [anyFound]
  cases found : find turn allocs t with
  | none =>
    have same : update turn.tuples Allocation.tuple t (Allocation.grant peer timeout) allocs = allocs := updateNone found
    simp [same]
  | some a => rfl

theorem findGrant (peer : Addr) :
    find turn (createPermission turn allocs t peer timeout).1 t' =
      if turn.tuples.same t t' then (find turn allocs t).map (Allocation.grant peer timeout)
      else find turn allocs t' := by
  rw [createdPermission]
  exact lookupUpdate (fun a hit => by rw [grantTuple]; exact hit)

theorem findRefresh : find turn (refresh turn allocs t timeout).1 t' =
    if turn.tuples.same t t' then (find turn allocs t).map (fun a => { a with timeout := timeout })
    else find turn allocs t' :=
  lookupUpdate (fun _ hit => hit)

/- What `ChannelBind` does to the one allocation of the tuple: `none` is a conflict. -/
def Allocation.bindTo (n : ChannelNumber) (peer : Addr) (timeout : Time) (a : Allocation) : Option Allocation :=
  match permission a peer.ip with
  | none => some { a with permissions := a.permissions ++ [⟨peer.ip,timeout,[⟨peer.port,n,timeout⟩]⟩] }
  | some p =>
    if p.conflicts n peer then none
    else some { a with
      permissions := update ips Permission.ip peer.ip (fun p => (p.bind n peer timeout false).1) a.permissions }

def Allocation.rebind (n : ChannelNumber) (peer : Addr) (timeout : Time) (a : Allocation) : Allocation :=
  (bindTo n peer timeout a).getD a

theorem bindPermissionsSpec (n : ChannelNumber) (peer : Addr) (flags : BindFlags) (fresh : flags.updated = false)
    (l : List Permission) :
    bindPermissions n peer timeout flags l =
      match lookup ips Permission.ip peer.ip l with
      | none => some (l,flags)
      | some p =>
        if p.conflicts n peer then none
        else some (update ips Permission.ip peer.ip (fun p => (p.bind n peer timeout false).1) l,
          { flags with updated := (p.bind n peer timeout false).2, found := true }) := by
  induction l with
  | nil => rfl
  | cons p rest ih =>
    have scanned : update ips Permission.ip peer.ip (fun p => (p.bind n peer timeout false).1) (p :: rest) =
        if IP.equal p.ip peer.ip then (p.bind n peer timeout false).1 :: rest
        else p :: update ips Permission.ip peer.ip (fun p => (p.bind n peer timeout false).1) rest := rfl
    have first : lookup ips Permission.ip peer.ip (p :: rest) =
        if IP.equal p.ip peer.ip then some p else lookup ips Permission.ip peer.ip rest := lookupCons p
    cases hit : IP.equal p.ip peer.ip with
    | true => simp [bindPermissions,first,scanned,hit,fresh]
    | false =>
      cases found : lookup ips Permission.ip peer.ip rest with
      | none => simp [bindPermissions,first,hit,ih,found]
      | some q =>
        by_cases conflict : q.conflicts n peer = true
        · simp [bindPermissions,first,hit,ih,found,conflict]
        · simp [bindPermissions,first,scanned,hit,ih,found,conflict]

theorem bindAbsent (n : ChannelNumber) (peer : Addr) (flags : BindFlags) (absent : find turn allocs t = none) :
    bindAllocations turn t n peer timeout flags allocs = (allocs,some flags) := by
  induction allocs with
  | nil => rfl
  | cons a rest ih =>
    have other := lookupNone.mp absent
    have head : turn.tuples.same a.tuple t = false := other a List.mem_cons_self
    have tail : find turn rest t = none := lookupNone.mpr (fun b mem => other b (List.mem_cons_of_mem _ mem))
    simp [bindAllocations,head,ih tail]

theorem bindFound (dist : Distinct turn.tuples Allocation.tuple allocs) (n : ChannelNumber) (peer : Addr)
    {a : Allocation} (found : find turn allocs t = some a) :
    match Allocation.bindTo n peer timeout a with
    | none => bindAllocations turn t n peer timeout ⟨false,false,false⟩ allocs = (allocs,none)
    | some _ => ∃ flags, flags.allocFound = true ∧
        bindAllocations turn t n peer timeout ⟨false,false,false⟩ allocs =
          (update turn.tuples Allocation.tuple t (Allocation.rebind n peer timeout) allocs,some flags) := by
  induction allocs with
  | nil => cases found
  | cons b rest ih =>
    have tail := (List.pairwise_cons.mp dist).2
    have first : find turn (b :: rest) t = if turn.tuples.same b.tuple t then some b else find turn rest t :=
      lookupCons b
    have scanned : update turn.tuples Allocation.tuple t (Allocation.rebind n peer timeout) (b :: rest) =
        if turn.tuples.same b.tuple t then Allocation.rebind n peer timeout b :: rest
        else b :: update turn.tuples Allocation.tuple t (Allocation.rebind n peer timeout) rest := rfl
    cases hit : turn.tuples.same b.tuple t with
    | false =>
      have later := ih tail (by simpa [first,hit] using found)
      cases bound : Allocation.bindTo n peer timeout a with
      | none =>
        simp only [bound] at later
        simp [bindAllocations,hit,later]
      | some c =>
        simp only [bound] at later
        obtain ⟨flags,set,eq⟩ := later
        exact ⟨flags,set,by simp [bindAllocations,scanned,hit,eq]⟩
    | true =>
      have same : b = a := by simpa [first,hit] using found
      subst same
      -- no other row matches, so the rest of the loop leaves the table and the flags alone
      have alone (flags : BindFlags) : bindAllocations turn t n peer timeout flags rest = (rest,some flags) :=
        bindAbsent n peer flags (tailAbsent dist hit)
      have inner := @bindPermissionsSpec timeout n peer ⟨false,false,false⟩ rfl b.permissions
      cases under : lookup ips Permission.ip peer.ip b.permissions with
      | none =>
        simp only [under] at inner
        simp [bindAllocations,hit,inner,Allocation.bindTo,permission,under,alone,scanned,Allocation.rebind]
      | some p =>
        cases conflict : p.conflicts n peer with
        | true => simp [bindAllocations,hit,inner,Allocation.bindTo,permission,under,conflict]
        | false => simp [bindAllocations,hit,inner,Allocation.bindTo,permission,under,conflict,alone,scanned,
            Allocation.rebind]

theorem channelBound (dist : Distinct turn.tuples Allocation.tuple allocs) (n : ChannelNumber) (peer : Addr) :
    channelBind turn allocs t n peer timeout =
      if !turn.channelValid n then (allocs,some .invalidChannelNumber)
      else match (find turn allocs t).bind (Allocation.bindTo n peer timeout) with
        | none => (allocs,some .allocationMismatch)
        | some _ => (update turn.tuples Allocation.tuple t (Allocation.rebind n peer timeout) allocs,none) := by
  unfold channelBind
  cases valid : turn.channelValid n with
  | false => rfl
  | true =>
    cases found : find turn allocs t with
    | none => simp [bindAbsent n peer _ found]
    | some a =>
      have spec := @bindFound turn allocs t timeout dist n peer a found
      cases bound : Allocation.bindTo n peer timeout a with
      | none =>
        simp only [bound] at spec
        simp [spec,bound]
      | some b =>
        simp only [bound] at spec
        obtain ⟨flags,set,eq⟩ := spec
        simp [eq,bound,set]

/- Everything a section of the allocator can do to the table. -/
inductive Change (turn : Turn) : Table → Table → Prop where
  | keep (s : Table) : Change turn s s
  | register {s : Table} {t : FiveTuple} {timeout : Time} (fresh : find turn s t = none) :
      Change turn s (s ++ [placeholder t timeout])
  | install (s : Table) (t : FiveTuple) (timeout : Time) (raddr : Addr) (conn : Conn) :
      Change turn s (install turn s t timeout raddr conn)
  | remove (s : Table) (t : FiveTuple) : Change turn s (remove turn s t).1
  | prune (s : Table) (x : Time) : Change turn s (prune s x).1
  | grant (s : Table) (t : FiveTuple) (peer : Addr) (timeout : Time) :
      Change turn s (update turn.tuples Allocation.tuple t (Allocation.grant peer timeout) s)
  | bind {s : Table} {t : FiveTuple} {n : ChannelNumber} {peer : Addr} {timeout : Time} {a b : Allocation}
      (valid : turn.channelValid n = true) (found : find turn s t = some a)
      (bound : Allocation.bindTo n peer timeout a = some b) :
      Change turn s (update turn.tuples Allocation.tuple t (Allocation.rebind n peer timeout) s)
  | refresh (s : Table) (t : FiveTuple) (timeout : Time) : Change turn s (refresh turn s t timeout).1

theorem registerChange {out : Table} (ok : register turn allocs t timeout = .ok out) : Change turn allocs out := by
  obtain ⟨_,fresh,rfl⟩ := registered ok
  exact .register fresh

theorem grantChange (peer : Addr) : Change turn allocs (createPermission turn allocs t peer timeout).1 := by
  rw [createdPermission]
  exact .grant allocs t peer timeout

theorem bindCases (dist : Distinct turn.tuples Allocation.tuple allocs) (n : ChannelNumber) (peer : Addr) :
    ((channelBind turn allocs t n peer timeout).2 ≠ none ∧ (channelBind turn allocs t n peer timeout).1 = allocs) ∨
    ∃ a b, turn.channelValid n = true ∧ find turn allocs t = some a ∧ Allocation.bindTo n peer timeout a = some b ∧
      channelBind turn allocs t n peer timeout =
        (update turn.tuples Allocation.tuple t (Allocation.rebind n peer timeout) allocs,none) := by
  have spec := @channelBound turn allocs t timeout dist n peer
  cases valid : turn.channelValid n with
  | false => exact .inl (by simp [spec,valid])
  | true =>
    cases found : find turn allocs t with
    | none => exact .inl (by simp [spec,valid,found])
    | some a => cases bound : Allocation.bindTo n peer timeout a with
      | none => exact .inl (by simp [spec,valid,found,bound])
      | some b => exact .inr ⟨a,b,rfl,rfl,bound,by simp [spec,valid,found,bound]⟩

theorem bindChange (dist : Distinct turn.tuples Allocation.tuple allocs) (n : ChannelNumber) (peer : Addr) :
    Change turn allocs (channelBind turn allocs t n peer timeout).1 := by
  rcases @bindCases turn allocs t timeout dist n peer with ⟨_,same⟩ | ⟨a,b,valid,found,bound,eq⟩
  · rw [same]; exact .keep allocs
  · rw [eq]; exact .bind valid found bound

theorem grantOk {a : Allocation} (ok : AllocationOk turn a) (peer : Addr) :
    AllocationOk turn (a.grant peer timeout) := by
  unfold Allocation.grant
  split
  · refine ⟨distinctKeys (updateFirstMap (fun _ => rfl)) ok.distinct,?_⟩
    intro p mem
    rcases memUpdateFirst mem with old | ⟨q,hq,_,rfl⟩
    · exact ok.permissions p old
    · have inner := ok.permissions q hq
      exact ⟨inner.ports,inner.channels,inner.valid⟩
  · rename_i absent
    have fresh : lookup ips Permission.ip peer.ip a.permissions = none := by
      rw [lookupNone]
      simpa using absent
    refine ⟨distinctAppend ok.distinct _ fresh,?_⟩
    intro p mem
    rcases List.mem_append.mp mem with old | new
    · exact ok.permissions p old
    · have same := List.mem_singleton.mp new
      subst same
      exact ⟨List.Pairwise.nil,List.Pairwise.nil,by simp⟩

theorem raiseBindings (p : Permission) : (p.raise timeout).bindings = p.bindings := by
  unfold Permission.raise
  split <;> rfl

theorem raiseIp (p : Permission) : (p.raise timeout).ip = p.ip := by
  unfold Permission.raise
  split <;> rfl

theorem bindIp (n : ChannelNumber) (peer : Addr) (updated : Bool) (p : Permission) :
    (p.bind n peer timeout updated).1.ip = p.ip := by
  unfold Permission.bind
  split
  · exact raiseIp _
  · split
    · exact raiseIp _
    · rfl

theorem noConflict {p : Permission} {n : ChannelNumber} {peer : Addr} (same : IP.equal p.ip peer.ip = true)
    (free : p.conflicts n peer = false) {b : Binding} (mem : portBinding p peer.port = some b) : b.channel = n := by
  have hit : p.bindings.find? (fun b => b.port == peer.port) = some b := mem
  have some : p.bindings.isEmpty = false := by
    cases list : p.bindings with
    | nil => rw [list] at hit; cases hit
    | cons c rest => rfl
  simpa [Permission.conflicts,same,some,hit] using free

theorem bindOk {p : Permission} (ok : PermissionOk turn p) {n : ChannelNumber} {peer : Addr}
    (valid : turn.channelValid n = true) (same : IP.equal p.ip peer.ip = true)
    (free : p.conflicts n peer = false) : PermissionOk turn (p.bind n peer timeout false).1 := by
  unfold Permission.bind
  split
  · have keeps : (updateFirst (fun b => b.channel == n) (fun b : Binding => { b with timeout := timeout }) p.bindings).map
        (fun b => (b.port,b.channel)) = p.bindings.map (fun b => (b.port,b.channel)) := updateFirstMap (fun _ => rfl)
    have ports := congrArg (List.map Prod.fst) keeps
    have channels := congrArg (List.map Prod.snd) keeps
    simp only [List.map_map,Function.comp_def] at ports channels
    refine ⟨?_,?_,?_⟩ <;> rw [raiseBindings]
    · exact distinctKeys ports ok.ports
    · exact distinctKeys channels ok.channels
    · intro b mem
      rcases memUpdateFirst mem with old | ⟨c,hc,_,rfl⟩
      · exact ok.valid b old
      · exact ok.valid c hc
  · rename_i absent
    have channel : channelBinding p n = none := by
      rw [channelBinding,lookupNone]
      simpa using absent
    have port : portBinding p peer.port = none := by
      cases hit : portBinding p peer.port with
      | none => rfl
      | some b =>
        have same := noConflict same free hit
        have other := lookupNone.mp channel b (lookupSome hit).1
        rw [same,(equality ChannelNumber).refl] at other
        cases other
    refine ⟨?_,?_,?_⟩ <;> simp only [Bool.not_false,if_true,raiseBindings]
    · exact distinctAppend ok.ports _ port
    · exact distinctAppend ok.channels _ channel
    · intro b mem
      rcases List.mem_append.mp mem with old | new
      · exact ok.valid b old
      · have fresh := List.mem_singleton.mp new
        subst fresh
        exact valid

theorem bindToOk {a b : Allocation} (ok : AllocationOk turn a) {n : ChannelNumber} {peer : Addr}
    (valid : turn.channelValid n = true) (bound : Allocation.bindTo n peer timeout a = some b) :
    AllocationOk turn b := by
  unfold Allocation.bindTo at bound
  cases under : permission a peer.ip with
  | none =>
    simp only [under] at bound
    cases Option.some.inj bound
    refine ⟨distinctAppend ok.distinct _ under,?_⟩
    intro p mem
    rcases List.mem_append.mp mem with old | new
    · exact ok.permissions p old
    · have fresh := List.mem_singleton.mp new
      subst fresh
      exact ⟨List.pairwise_singleton _ _,List.pairwise_singleton _ _,by simpa using valid⟩
  | some p =>
    simp only [under] at bound
    split at bound <;> try contradiction
    rename_i free
    cases Option.some.inj bound
    have source := lookupSome under
    refine ⟨distinctKeys (updateFirstMap (fun q => bindIp n peer false q)) ok.distinct,?_⟩
    intro q mem
    rcases memUpdate mem with old | ⟨r,hr,hit,rfl⟩
    · exact ok.permissions q old
    · -- the rewritten row is the permission whose conflicts were checked
      have one : p = r := Option.some.inj (under.symm.trans (lookupOfMem ok.distinct hr hit))
      subst one
      exact bindOk (ok.permissions p hr) valid hit (by simpa using free)

theorem bindToTuple {a b : Allocation} {n : ChannelNumber} {peer : Addr}
    (bound : Allocation.bindTo n peer timeout a = some b) :
    b.tuple = a.tuple ∧ b.conn = a.conn ∧ b.relayedAddr = a.relayedAddr ∧ b.timeout = a.timeout := by
  unfold Allocation.bindTo at bound
  split at bound
  · cases Option.some.inj bound
    exact ⟨rfl,rfl,rfl,rfl⟩
  · split at bound <;> try contradiction
    cases Option.some.inj bound
    exact ⟨rfl,rfl,rfl,rfl⟩

theorem rebindTuple (n : ChannelNumber) (peer : Addr) (a : Allocation) :
    (Allocation.rebind n peer timeout a).tuple = a.tuple := by
  unfold Allocation.rebind
  cases bound : Allocation.bindTo n peer timeout a with
  | none => rfl
  | some b => exact (bindToTuple bound).1

theorem findRebind (n : ChannelNumber) (peer : Addr) :
    find turn (update turn.tuples Allocation.tuple t (Allocation.rebind n peer timeout) allocs) t' =
      if turn.tuples.same t t' then (find turn allocs t).map (Allocation.rebind n peer timeout)
      else find turn allocs t' :=
  lookupUpdate (fun a hit => by rw [rebindTuple]; exact hit)

theorem prunedOk {a : Allocation} (ok : AllocationOk turn a) (x : Time) : AllocationOk turn (a.prune x) := by
  refine ⟨?_,?_⟩ <;> rw [prunedPermissions]
  · exact distinctFilter (distinctMap (f := Permission.prune x) ok.distinct (fun _ _ => rfl)) _
  · intro p mem
    obtain ⟨q,hq,rfl⟩ := List.mem_map.mp (List.mem_filter.mp mem).1
    have inner := ok.permissions q hq
    exact ⟨distinctFilter inner.ports _,distinctFilter inner.channels _,
      fun b hb => inner.valid b (List.mem_filter.mp hb).1⟩

theorem emptyOk {a : Allocation} (none : a.permissions = []) : AllocationOk turn a :=
  ⟨by rw [none]; exact List.Pairwise.nil,by simp [none]⟩

theorem changeOk {before after : Table} (change : Change turn before after) (ok : TableOk turn before) :
    TableOk turn after := by
  cases change with
  | keep => exact ok
  | register fresh =>
    refine ⟨distinctAppend ok.distinct _ fresh,?_⟩
    intro a mem
    rcases List.mem_append.mp mem with old | new
    · exact ok.allocations a old
    · have same := List.mem_singleton.mp new
      subst same
      exact emptyOk rfl
  | install t timeout raddr conn =>
    refine ⟨distinctUpdate ok.distinct (fun a hit => turn.tuples.symm hit),?_⟩
    intro a mem
    rcases memUpdateFirst mem with old | ⟨b,_,_,rfl⟩
    · exact ok.allocations a old
    · exact emptyOk rfl
  | remove t =>
    rw [removeTable]
    exact ⟨distinctFilter ok.distinct _,fun a mem => ok.allocations a (List.mem_filter.mp mem).1⟩
  | prune x =>
    rw [pruneTable]
    refine ⟨distinctFilter (distinctMap (f := Allocation.prune x) ok.distinct (fun _ _ => rfl)) _,?_⟩
    intro a mem
    obtain ⟨b,hb,rfl⟩ := List.mem_map.mp (List.mem_filter.mp mem).1
    exact prunedOk (ok.allocations b hb) x
  | grant t peer timeout =>
    refine ⟨distinctKeys (updateFirstMap (grantTuple peer)) ok.distinct,?_⟩
    intro a mem
    rcases memUpdate mem with old | ⟨b,hb,_,rfl⟩
    · exact ok.allocations a old
    · exact grantOk (ok.allocations b hb) peer
  | @bind t n peer timeout a b valid found bound =>
    refine ⟨distinctKeys (updateFirstMap (rebindTuple n peer)) ok.distinct,?_⟩
    intro c mem
    rcases memUpdate mem with old | ⟨d,hd,hit,rfl⟩
    · exact ok.allocations c old
    · have one : a = d := Option.some.inj (found.symm.trans (lookupOfMem ok.distinct hd hit))
      subst one
      simp only [Allocation.rebind,bound,Option.getD_some]
      exact bindToOk (ok.allocations a hd) valid bound
  | refresh t timeout =>
    refine ⟨distinctKeys (updateFirstMap (fun _ => rfl)) ok.distinct,?_⟩
    intro a mem
    rcases memUpdateFirst mem with old | ⟨b,hb,_,rfl⟩
    · exact ok.allocations a old
    · have inner := ok.allocations b hb
      exact ⟨inner.distinct,inner.permissions⟩

end Gortcd.Records
