import Gortcd.Relaying

/-! Permissions and bindings of one allocation after each section: what is found under
every IP, and which bindings a permission has. `BoundTo` is the fact that a channel is
bound to a transport address, whatever the timeouts are. -/
namespace Gortcd.Permissions
open Keyed Net Sections Records Relaying

variable {turn : Turn} {timeout : Time}

theorem noPermission {a : Allocation} (none : a.permissions = []) (ip : IP) : permission a ip = .none := by
  simp [permission,none,lookup]

theorem permissionGrant (a : Allocation) (peer : Addr) (ip : IP) :
    permission (a.grant peer timeout) ip =
      if IP.equal peer.ip ip then
        some (((permission a peer.ip).map (fun p => { p with timeout := timeout })).getD ⟨peer.ip,timeout,[]⟩)
      else permission a ip := by
  unfold Allocation.grant
  rw [anyPermission]
  cases under : permission a peer.ip with
  | some p =>
    have updated : lookup ips Permission.ip ip
        (update ips Permission.ip peer.ip (fun p => { p with timeout := timeout }) a.permissions) =
        if ips.same peer.ip ip then (permission a peer.ip).map (fun p => { p with timeout := timeout })
        else permission a ip := lookupUpdate (fun _ hit => hit)
    rw [under] at updated
    exact updated
  | none =>
    have appended : lookup ips Permission.ip ip (a.permissions ++ [⟨peer.ip,timeout,[]⟩]) =
        if ips.same peer.ip ip then some ⟨peer.ip,timeout,[]⟩ else permission a ip := lookupAppend under
    exact appended

theorem permissionBind {a b : Allocation} {n : ChannelNumber} {peer : Addr}
    (bound : Allocation.bindTo n peer timeout a = some b) (ip : IP) :
    permission b ip =
      if IP.equal peer.ip ip then
        some (((permission a peer.ip).map (fun p => (p.bind n peer timeout false).1)).getD
          ⟨peer.ip,timeout,[⟨peer.port,n,timeout⟩]⟩)
      else permission a ip := by
  unfold Allocation.bindTo at bound
  cases under : permission a peer.ip with
  | none =>
    simp only [under] at bound
    cases Option.some.inj bound
    have appended : lookup ips Permission.ip ip (a.permissions ++ [⟨peer.ip,timeout,[⟨peer.port,n,timeout⟩]⟩]) =
        if ips.same peer.ip ip then some ⟨peer.ip,timeout,[⟨peer.port,n,timeout⟩]⟩ else permission a ip :=
      lookupAppend under
    exact appended
  | some p =>
    simp only [under] at bound
    split at bound <;> try contradiction
    cases Option.some.inj bound
    have updated : lookup ips Permission.ip ip
        (update ips Permission.ip peer.ip (fun p => (p.bind n peer timeout false).1) a.permissions) =
        if ips.same peer.ip ip then (permission a peer.ip).map (fun p => (p.bind n peer timeout false).1)
        else permission a ip :=
      lookupUpdate (fun q hit => by rw [bindIp]; exact hit)
    rw [under] at updated
    exact updated

theorem bindToFree {a b : Allocation} {n : ChannelNumber} {peer : Addr}
    (bound : Allocation.bindTo n peer timeout a = some b) {p : Permission} (under : permission a peer.ip = some p) :
    p.conflicts n peer = false := by
  unfold Allocation.bindTo at bound
  simp only [under] at bound
  split at bound <;> try contradiction
  rename_i free
  simpa using free

theorem bindToSome {a : Allocation} {n : ChannelNumber} {peer : Addr}
    (free : ∀ p, permission a peer.ip = some p → p.conflicts n peer = false) :
    ∃ b, Allocation.bindTo n peer timeout a = some b := by
  unfold Allocation.bindTo
  cases under : permission a peer.ip with
  | none => exact ⟨_,rfl⟩
  | some p =>
    have clear := free p under
    exact ⟨_,by simp only [clear]; rfl⟩

theorem permissionPrune {a : Allocation} (dist : Distinct ips Permission.ip a.permissions) (x : Time) (ip : IP) :
    permission (a.prune x) ip =
      ((permission a ip).map (Permission.prune x)).filter (fun p => decide (x < p.timeout)) := by
  have kept : Distinct ips Permission.ip (a.permissions.map (Permission.prune x)) :=
    distinctMap dist (fun _ _ => rfl)
  have mapped : lookup ips Permission.ip ip (a.permissions.map (Permission.prune x)) =
      (permission a ip).map (Permission.prune x) := lookupMap (fun _ _ => rfl)
  have filtered : lookup ips Permission.ip ip
      ((a.permissions.map (Permission.prune x)).filter (fun p => decide (x < p.timeout))) =
      (lookup ips Permission.ip ip (a.permissions.map (Permission.prune x))).filter (fun p => decide (x < p.timeout)) :=
    lookupFilter kept _
  rw [permission,prunedPermissions,filtered,mapped]

theorem permissionMem {a : Allocation} (ok : AllocationOk turn a) {p : Permission} (mem : p ∈ a.permissions) :
    permission a p.ip = some p := lookupOfMem ok.distinct mem (ips.refl p.ip)

theorem raisedTimeout (p : Permission) : (p.raise timeout).timeout = max p.timeout timeout := by
  unfold Permission.raise
  split
  · rename_i less
    exact (Int.max_eq_right (Int.le_of_lt less)).symm
  · rename_i more
    exact (Int.max_eq_left (Int.not_lt.mp more)).symm

theorem boundTimeout (p : Permission) (n : ChannelNumber) (peer : Addr) :
    (p.bind n peer timeout false).1.timeout = max p.timeout timeout := by
  unfold Permission.bind
  split
  · exact raisedTimeout _
  · exact raisedTimeout _

/- The bindings of a permission after `Permission.bind`, when no earlier match set `updated`. -/
theorem bindBindings (n : ChannelNumber) (peer : Addr) (p : Permission) :
    (p.bind n peer timeout false).1.bindings =
      if p.bindings.any (fun b => b.channel == n) then
        updateFirst (fun b => b.channel == n) (fun b => { b with timeout := timeout }) p.bindings
      else p.bindings ++ [⟨peer.port,n,timeout⟩] := by
  unfold Permission.bind
  split
  · exact raiseBindings _
  · exact raiseBindings _

theorem memBind {n : ChannelNumber} {peer : Addr} {p : Permission} {b : Binding}
    (mem : b ∈ (p.bind n peer timeout false).1.bindings) :
    (channelBinding p n = none ∧ b = ⟨peer.port,n,timeout⟩) ∨
    ∃ c ∈ p.bindings, c.port = b.port ∧ c.channel = b.channel := by
  rw [bindBindings] at mem
  split at mem
  · rcases memUpdateFirst mem with old | ⟨c,hc,_,rfl⟩
    · exact .inr ⟨b,old,rfl,rfl⟩
    · exact .inr ⟨c,hc,rfl,rfl⟩
  · rename_i absent
    rcases List.mem_append.mp mem with old | new
    · exact .inr ⟨b,old,rfl,rfl⟩
    · refine .inl ⟨?_,List.mem_singleton.mp new⟩
      rw [channelBinding,lookupNone]
      simpa using absent

theorem keptByUpdate {p : Binding → Bool} {l : List Binding} {c : Binding} (mem : c ∈ l) :
    ∃ b ∈ updateFirst p (fun b => { b with timeout := timeout }) l, b.port = c.port ∧ b.channel = c.channel := by
  have keys : (updateFirst p (fun b : Binding => { b with timeout := timeout }) l).map (fun b => (b.port,b.channel)) =
      l.map (fun b => (b.port,b.channel)) := updateFirstMap (fun _ => rfl)
  have listed : (c.port,c.channel) ∈ l.map (fun b => (b.port,b.channel)) := List.mem_map.mpr ⟨c,mem,rfl⟩
  rw [← keys] at listed
  obtain ⟨b,hb,same⟩ := List.mem_map.mp listed
  exact ⟨b,hb,congrArg Prod.fst same,congrArg Prod.snd same⟩

theorem keptByBind (n : ChannelNumber) (peer : Addr) {p : Permission} {c : Binding} (mem : c ∈ p.bindings) :
    ∃ b ∈ (p.bind n peer timeout false).1.bindings, b.port = c.port ∧ b.channel = c.channel := by
  rw [bindBindings]
  split
  · exact keptByUpdate mem
  · exact ⟨c,List.mem_append_left _ mem,rfl,rfl⟩

theorem channelAfterBind (n : ChannelNumber) (peer : Addr) (p : Permission) :
    ∃ b ∈ (p.bind n peer timeout false).1.bindings, b.channel = n := by
  rw [bindBindings]
  split
  · rename_i present
    obtain ⟨c,hc,same⟩ := List.any_eq_true.mp present
    obtain ⟨b,hb,_,channel⟩ := @keptByUpdate timeout (fun b => b.channel == n) p.bindings c hc
    exact ⟨b,hb,channel.trans (beq_iff_eq.mp same)⟩
  · exact ⟨_,List.mem_append_right _ List.mem_cons_self,rfl⟩

def BoundTo (a : Allocation) (n : ChannelNumber) (ip : IP) (port : Port) : Prop :=
  ∃ p b, permission a ip = some p ∧ b ∈ p.bindings ∧ b.port = port ∧ b.channel = n

theorem boundToCongr {a : Allocation} {n : ChannelNumber} {ip ip' : IP} {port : Port}
    (same : IP.equal ip ip' = true) (h : BoundTo a n ip port) : BoundTo a n ip' port := by
  obtain ⟨p,b,under,rest⟩ := h
  exact ⟨p,b,(lookupCongr same).symm.trans under,rest⟩

theorem boundToTarget {a : Allocation} (ok : AllocationOk turn a) {n : ChannelNumber} {x : Addr}
    (mem : x ∈ targets a n) : BoundTo a n x.ip x.port := by
  obtain ⟨p,hp,b,hb,channel,rfl⟩ := memTargets.mp mem
  exact ⟨p,b,permissionMem ok hp,hb,rfl,channel⟩

theorem targetOfBound {a : Allocation} {n : ChannelNumber} {ip : IP} {port : Port} (h : BoundTo a n ip port) :
    ∃ x ∈ targets a n, IP.equal x.ip ip = true ∧ x.port = port := by
  obtain ⟨p,b,under,hb,at',channel⟩ := h
  obtain ⟨hp,same⟩ := lookupSome under
  exact ⟨⟨p.ip,b.port⟩,memTargets.mpr ⟨p,hp,b,hb,channel,rfl⟩,same,at'⟩

theorem boundToGrant {a : Allocation} {peer : Addr} {n : ChannelNumber} {ip : IP} {port : Port} :
    BoundTo (a.grant peer timeout) n ip port ↔ BoundTo a n ip port := by
  unfold BoundTo
  rw [permissionGrant]
  cases same : IP.equal peer.ip ip with
  | false => rfl
  | true =>
    have moved : permission a ip = permission a peer.ip := (lookupCongr same).symm
    rw [moved]
    cases permission a peer.ip <;> simp

theorem boundToPrune {a : Allocation} (dist : Distinct ips Permission.ip a.permissions) {x : Time} {n : ChannelNumber}
    {ip : IP} {port : Port} : BoundTo (a.prune x) n ip port ↔
      ∃ p b, permission a ip = some p ∧ x < p.timeout ∧ b ∈ p.bindings ∧ x < b.timeout ∧ b.port = port ∧ b.channel = n := by
  unfold BoundTo
  rw [permissionPrune dist]
  cases permission a ip with
  | none => simp
  | some p =>
    simp only [Option.map_some,Option.filter_some,Permission.prune]
    by_cases alive : x < p.timeout
    · simp [alive,List.mem_filter,and_assoc]
    · simp [alive]

theorem boundToBind {a b : Allocation} {n m : ChannelNumber} {peer : Addr} {ip : IP} {port : Port}
    (bound : Allocation.bindTo n peer timeout a = some b) (h : BoundTo b m ip port) :
    BoundTo a m ip port ∨
      (m = n ∧ port = peer.port ∧ IP.equal peer.ip ip = true ∧
        ∀ p, permission a peer.ip = some p → channelBinding p n = none) := by
  obtain ⟨q,c,under,hc,at',channel⟩ := h
  rw [permissionBind bound] at under
  cases same : IP.equal peer.ip ip with
  | false =>
    simp only [same] at under
    exact .inl ⟨q,c,under,hc,at',channel⟩
  | true =>
    simp only [same,if_true,Option.some.injEq] at under
    have moved : permission a ip = permission a peer.ip := (lookupCongr same).symm
    cases old : permission a peer.ip with
    | none =>
      simp only [old,Option.map_none,Option.getD_none] at under
      subst under
      have fresh := List.mem_singleton.mp hc
      subst fresh
      exact .inr ⟨channel.symm,at'.symm,rfl,by simp⟩
    | some p =>
      simp only [old,Option.map_some,Option.getD_some] at under
      subst under
      rcases memBind hc with ⟨absent,fresh⟩ | ⟨d,hd,port',channel'⟩
      · subst fresh
        exact .inr ⟨channel.symm,at'.symm,rfl,by simpa using absent⟩
      · exact .inl ⟨p,d,moved.trans old,hd,port'.trans at',channel'.trans channel⟩

theorem boundToKept {a b : Allocation} {n m : ChannelNumber} {peer : Addr} {ip : IP} {port : Port}
    (bound : Allocation.bindTo n peer timeout a = some b) (h : BoundTo a m ip port) : BoundTo b m ip port := by
  obtain ⟨p,c,under,hc,at',channel⟩ := h
  unfold BoundTo
  rw [permissionBind bound]
  cases same : IP.equal peer.ip ip with
  | false => exact ⟨p,c,by simpa using under,hc,at',channel⟩
  | true =>
    have old : permission a peer.ip = some p := (lookupCongr same).trans under
    obtain ⟨d,hd,port',channel'⟩ := @keptByBind timeout n peer p c hc
    exact ⟨_,d,by simp [old],hd,port'.trans at',channel'.trans channel⟩

theorem boundAfter {a b : Allocation} {n : ChannelNumber} {peer : Addr}
    (bound : Allocation.bindTo n peer timeout a = some b) : ∃ port, BoundTo b n peer.ip port := by
  have after := permissionBind bound peer.ip
  have self : IP.equal peer.ip peer.ip = true := ips.refl _
  rw [if_pos self] at after
  cases old : permission a peer.ip with
  | none =>
    simp only [old,Option.map_none,Option.getD_none] at after
    exact ⟨peer.port,_,_,after,List.mem_cons_self,rfl,rfl⟩
  | some p =>
    simp only [old,Option.map_some,Option.getD_some] at after
    obtain ⟨c,hc,channel⟩ := @channelAfterBind timeout n peer p
    exact ⟨c.port,_,c,after,hc,rfl,channel⟩

end Gortcd.Permissions
