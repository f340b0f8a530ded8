import Gortcd.Views
import Gortcd.Store

/-! UDP may deliver a packet twice. The copies are served apart, by two workers, with packets
of other clients in between. What is left in the allocation table for the client is what one
of the two copies alone would have left: `New` refuses the second, a removed allocation stays
removed, and the other calls write the second time over the first. -/
namespace Gortcd.Duplicates
open Keyed Net Ports Sections Records Relaying Calls Runs Interleaving Isolation Messages Auth Handlers Nonces Separation
  Challenges Effects Service Views

variable {turn : Turn} {peer : Addr} {n : ChannelNumber} {x y : Time}

theorem grantTwice (a : Allocation) : (a.grant peer x).grant peer y = a.grant peer y := by
  have own : IP.equal peer.ip peer.ip = true := ips.refl peer.ip
  cases under : permission a peer.ip with
  | none =>
    have absent : a.permissions.any (fun p => IP.equal p.ip peer.ip) = false := by rw [anyPermission,under]; rfl
    have appended : updateFirst (fun p : Permission => IP.equal p.ip peer.ip) (fun p => { p with timeout := y })
        (a.permissions ++ [⟨peer.ip,x,[]⟩]) = a.permissions ++ [⟨peer.ip,y,[]⟩] := updateFirstAppend under own
    simp only [Allocation.grant,absent,Bool.false_eq_true,if_false,List.any_append,List.any_cons,List.any_nil,own,
      Bool.true_or,Bool.or_true,if_true,appended]
  | some p =>
    have present : a.permissions.any (fun p => IP.equal p.ip peer.ip) = true := by rw [anyPermission,under]; rfl
    have still : (updateFirst (fun p : Permission => IP.equal p.ip peer.ip) (fun p => { p with timeout := x })
        a.permissions).any (fun p => IP.equal p.ip peer.ip) = true := by
      rw [anyUpdateFirst]
      · exact present
      · exact fun _ hit => hit
    simp only [Allocation.grant,present,if_true,still]
    rw [updateFirstTwice]
    exact fun _ hit => hit

theorem raiseTwice (order : x ≤ y) (p : Permission) : (p.raise x).raise y = p.raise y := by
  unfold Permission.raise
  by_cases first : p.timeout < x
  · have second : p.timeout < y := Int.lt_of_lt_of_le first order
    simp only [if_pos first,if_pos second]
    split
    · rfl
    · rename_i late
      rw [Int.le_antisymm order (Int.not_lt.mp late)]
  · simp only [if_neg first]

theorem raiseWith (p : Permission) (l : List Binding) :
    { p.raise x with bindings := l } = ({ p with bindings := l } : Permission).raise x := by
  unfold Permission.raise
  split <;> rfl

theorem bindTwice (order : x ≤ y) (p : Permission) :
    ((p.bind n peer x false).1.bind n peer y false).1 = (p.bind n peer y false).1 := by
  cases held : p.bindings.any (fun b => b.channel == n) with
  | true =>
    have still : (updateFirst (fun b : Binding => b.channel == n) (fun b => { b with timeout := x }) p.bindings).any
        (fun b => b.channel == n) = true := by
      rw [anyUpdateFirst]
      · exact held
      · exact fun _ hit => hit
    simp only [Permission.bind,held,if_true,raiseBindings,still,raiseWith,raiseTwice order]
    rw [updateFirstTwice]
    exact fun _ hit => hit
  | false =>
    have appended : updateFirst (fun b : Binding => b.channel == n) (fun b => { b with timeout := y })
        (p.bindings ++ [⟨peer.port,n,x⟩]) = p.bindings ++ [⟨peer.port,n,y⟩] :=
      updateFirstAppend (List.find?_eq_none.mpr (fun b mem => by simpa using List.any_eq_false.mp held b mem))
        (beq_self_eq_true n)
    simp only [Permission.bind,held,Bool.false_eq_true,if_false,Bool.not_false,if_true,raiseBindings,List.any_append,
      List.any_cons,List.any_nil,beq_self_eq_true,Bool.true_or,Bool.or_true,raiseWith,raiseTwice order,appended]

theorem bindFree {p : Permission} (ok : PermissionOk turn p) (same : IP.equal p.ip peer.ip = true)
    (free : p.conflicts n peer = false) : (p.bind n peer x false).1.conflicts n peer = false := by
  have kept : IP.equal (p.bind n peer x false).1.ip peer.ip = true := by
    rw [bindIp]
    exact same
  refine (Store.conflictsExactly kept).mpr ?_
  intro b at'
  rw [Bindings.portAfterBind ok same free] at at'
  split at at'
  · split at at'
    · cases at'
      rfl
    · exact noConflict same free at'
  · rw [if_pos (beq_self_eq_true _)] at at'
    cases at'
    rfl

theorem bindToTwice (order : x ≤ y) {a b : Allocation} (ok : AllocationOk turn a)
    (bound : Allocation.bindTo n peer x a = some b) : Allocation.bindTo n peer y b = Allocation.bindTo n peer y a := by
  unfold Allocation.bindTo at bound
  cases under : permission a peer.ip with
  | none =>
    simp only [under,Option.some.injEq] at bound
    subst bound
    have appended : permission { a with permissions := a.permissions ++ [⟨peer.ip,x,[⟨peer.port,n,x⟩]⟩] } peer.ip =
        some ⟨peer.ip,x,[⟨peer.port,n,x⟩]⟩ := by
      have found := @lookupAppend IP Permission ips Permission.ip peer.ip a.permissions ⟨peer.ip,x,[⟨peer.port,n,x⟩]⟩ under
      rw [ips.refl] at found
      exact found
    have free : (⟨peer.ip,x,[⟨peer.port,n,x⟩]⟩ : Permission).conflicts n peer = false := by
      simp [Permission.conflicts]
    have renewed : ((⟨peer.ip,x,[⟨peer.port,n,x⟩]⟩ : Permission).bind n peer y false).1 =
        ⟨peer.ip,y,[⟨peer.port,n,y⟩]⟩ := by
      simp only [Permission.bind,Permission.raise,List.any_cons,beq_self_eq_true,Bool.true_or,if_true,updateFirst]
      split
      · rfl
      · rename_i late
        rw [Int.le_antisymm order (Int.not_lt.mp late)]
    simp only [Allocation.bindTo,appended,under,free,Bool.false_eq_true,if_false]
    unfold update
    rw [updateFirstAppend under (ips.refl peer.ip),renewed]
  | some p =>
    have source := lookupSome under
    have inside := ok.permissions p source.1
    cases conflict : p.conflicts n peer with
    | true => simp [under,conflict] at bound
    | false =>
      simp only [under,conflict,Bool.false_eq_true,if_false,Option.some.injEq] at bound
      subst bound
      have moved : permission { a with
          permissions := update ips Permission.ip peer.ip (fun p => (p.bind n peer x false).1) a.permissions } peer.ip =
            some (p.bind n peer x false).1 := by
        have updated : lookup ips Permission.ip peer.ip (update ips Permission.ip peer.ip
            (fun p => (p.bind n peer x false).1) a.permissions) =
            if ips.same peer.ip peer.ip then (permission a peer.ip).map (fun p => (p.bind n peer x false).1)
            else permission a peer.ip := lookupUpdate (fun q hit => by rw [bindIp]; exact hit)
        rw [ips.refl,under] at updated
        exact updated
      simp only [Allocation.bindTo,moved,under,bindFree inside source.2 conflict,conflict,Bool.false_eq_true,if_false]
      unfold update
      rw [updateFirstTwice]
      · simp only [bindTwice order]
      · intro q hit
        rw [bindIp]
        exact hit

theorem rebindTwice (order : x ≤ y) {a : Allocation} (ok : AllocationOk turn a) :
    Allocation.rebind n peer y (Allocation.rebind n peer x a) = Allocation.rebind n peer y a := by
  unfold Allocation.rebind
  cases bound : Allocation.bindTo n peer x a with
  | none => rfl
  | some b =>
    have free := (Store.relayFree a).mp (Option.isSome_iff_exists.mpr ⟨b,bound⟩)
    obtain ⟨c,again⟩ := Option.isSome_iff_exists.mp ((@Store.relayFree y n peer a).mpr free)
    rw [Option.getD_some,bindToTwice order ok bound,again]
    rfl

/- The calls that two copies of a request make: as the same request, at two times. -/
inductive Copies : Call → Call → Prop where
  | new {t x y p q} : Copies (.new t x p) (.new t y q)
  | remove {t} : Copies (.remove t) (.remove t)
  | refresh {t x y} : Copies (.refresh t x) (.refresh t y)
  | createPermission {t peer x y} : Copies (.createPermission t peer x) (.createPermission t peer y)
  | channelBind {t n peer x y} (order : x ≤ y) : Copies (.channelBind t n peer x) (.channelBind t n peer y)

theorem copiesAbsorbed {c c' : Call} (copies : Copies c c') {o : Option Allocation}
    (ok : ∀ a, o = some a → AllocationOk turn a) :
    effect turn c' (effect turn c o) = effect turn c o ∨ effect turn c' (effect turn c o) = effect turn c' o := by
  cases copies with
  | @new t x y p q => cases o with
    | some a => exact .inl rfl
    | none => cases effect turn (.new t x p) none with
      | none => exact .inr rfl
      | some a => exact .inl rfl
  | remove => exact .inl rfl
  | refresh => cases o <;> exact .inr rfl
  | createPermission => cases o with
    | none => exact .inr rfl
    | some a => exact .inr (congrArg some (grantTwice a))
  | channelBind order =>
    simp only [effect]
    split
    · cases o with
      | none => exact .inr rfl
      | some a => exact .inr (congrArg some (rebindTwice order (ok a rfl)))
    · exact .inr rfl

variable {stun : Stun} {srv : Server NonceAuth}

/- The contexts of two copies past authentication; the options may have been reloaded between them. -/
structure Again (d e : Context) : Prop where
  request : e.request = d.request
  tuple : e.tuple = d.tuple
  lifetime : e.cfg.defaultLifetime = d.cfg.defaultLifetime
  order : d.time ≤ e.time

theorem callCopies {d e : Context} (again : Again d e) (p : Except PortErr NetAllocation)
    {q : Except PortErr NetAllocation} {c' : Call} (calls : callOf stun q e = some c') :
    callOf stun p d = none ∨ ∃ c, callOf stun p d = some c ∧ Copies c c' := by
  obtain ⟨request,tuple,lifetime,order⟩ := again
  unfold callOf at calls
  rw [request,tuple] at calls
  split at calls
  · rename_i type
    cases transport : stun.requestedTransport d.request with
    | error e => simp [transport] at calls
    | ok proto =>
      simp only [transport,Option.some.injEq] at calls
      subst calls
      simp only [callOf,type,transport]
      exact .inr ⟨_,rfl,.new⟩
  · rename_i type
    cases given : stun.lifetime d.request with
    | ok l =>
      simp only [given,Option.some.injEq] at calls
      subst calls
      by_cases zero : l = 0
      · simp only [if_pos zero,callOf,type,given]
        exact .inr ⟨_,rfl,.remove⟩
      · simp only [if_neg zero,callOf,type,given]
        exact .inr ⟨_,rfl,.refresh⟩
    | error e => cases e with
      | attributeNotFound =>
        simp only [given,Option.some.injEq] at calls
        subst calls
        simp only [callOf,type,given]
        exact .inr ⟨_,rfl,.remove⟩
      | other text => simp [given] at calls
  · rename_i type
    cases address : stun.peerAddress d.request with
    | error e => simp [address] at calls
    | ok peer =>
      simp only [address] at calls
      split at calls
      · cases calls
      · cases allowed : d.allowPeer peer with
        | false => exact .inl (by simp [callOf,type,address,allowed])
        | true => cases given : stun.lifetime d.request with
          | ok l =>
            simp only [given,Option.some.injEq] at calls
            subst calls
            simp only [callOf,type,address,allowed,given,Bool.not_true,Bool.false_eq_true,if_false]
            exact .inr ⟨_,rfl,.createPermission⟩
          | error e => cases e with
            | attributeNotFound =>
              simp only [given,Option.some.injEq] at calls
              subst calls
              simp only [callOf,type,address,allowed,given,Bool.not_true,Bool.false_eq_true,if_false]
              exact .inr ⟨_,rfl,.createPermission⟩
            | other text => simp [given] at calls
  · rename_i type
    cases address : stun.peerAddress d.request with
    | error e => simp [address] at calls
    | ok peer => cases number : stun.channelNumber d.request with
      | error e => simp [address,number] at calls
      | ok n =>
        simp only [address,number] at calls
        split at calls
        · cases calls
        · cases calls
          cases allowed : d.allowPeer peer with
          | false => exact .inl (by simp [callOf,type,address,number,allowed])
          | true =>
            simp only [callOf,type,address,number,allowed,Bool.not_true,Bool.false_eq_true,if_false]
            refine .inr ⟨_,rfl,.channelBind ?_⟩
            rw [lifetime]
            exact Int.add_le_add_right order _
  · cases calls

theorem decidedStale {c d : Context} {auth : Message → Except AuthErr Bytes} {out : Bytes × Option NonceErr}
    (stale : out.2 = some .stale) : decided stun c auth out ≠ .pass d := by
  unfold decided
  rw [stale]
  simp only [reduceCtorEq,Option.some.injEq,if_false,if_true]
  split <;> exact Admission.noConfusion

theorem verdictStale {k : Check} {v : Bytes} (u : Time) (other : k.value ≠ v) :
    (verdict k (some (v,u))).2 = some .stale := by
  simp only [verdict]
  split
  · exact if_neg (fun same => other same.symm)
  · rfl

theorem renewedCases (d : Duration) (k : Check) (o : Option (Bytes × Time)) :
    some (renewed d k o) = o ∨ ((verdict k o).2 = some .stale ∧ ∃ u, renewed d k o = (newNonce k.random,u)) := by
  cases o with
  | none => exact .inr ⟨rfl,_,rfl⟩
  | some x =>
    obtain ⟨v,u⟩ := x
    by_cases current : u = 0 ∨ k.time < u
    · exact .inl (congrArg some (if_pos current))
    · refine .inr ⟨?_,k.time + d,if_neg current⟩
      simp only [verdict,if_neg current]

section Copy
variable {ctx ctx' : Context} {n₁ n₂ : NonceAuth} {env env' : Env}

/- The nonce manager treats the second copy as if there had been no first one, unless it has
refused the first for its nonce; then it refuses both. -/
theorem secondAdmission (manager : srv.nonce = NonceAuth.manager turn) (tuple : ctx'.tuple = ctx.tuple)
    (value : presented stun ctx' = presented stun ctx)
    (nonce : held turn n₂ ctx.tuple = held turn (admission stun srv env n₁ ctx).1 ctx.tuple)
    (duration : n₂.duration = n₁.duration) (unguessed : presented stun ctx ≠ newNonce env.random) :
    (admission stun srv env' n₂ ctx').2 = (admission stun srv env' n₁ ctx').2 ∨
    ((∀ d, (admission stun srv env n₁ ctx).2 ≠ .pass d) ∧ ∀ d, (admission stun srv env' n₂ ctx').2 ≠ .pass d) := by
  have unchanged (same : held turn n₂ ctx.tuple = held turn n₁ ctx.tuple) :
      (admission stun srv env' n₂ ctx').2 = (admission stun srv env' n₁ ctx').2 :=
    (admissionAgree manager (by rw [tuple]; exact same) duration).1
  rcases @admissionShape stun srv env ctx with ⟨r,eq⟩ | ⟨c,auth,eq,own,shown,_⟩
  · rw [eq] at nonce
    exact .inl (unchanged nonce)
  · rw [eq,authenticateDecided manager,performHeld,own,turn.tuples.refl,if_pos rfl] at nonce
    rcases renewedCases n₁.duration ⟨env.random,ctx.tuple,c.nonce,c.time⟩ (held turn n₁ ctx.tuple) with
      same | ⟨stale,u,fresh⟩
    · exact .inl (unchanged (nonce.trans same))
    · rcases @admissionShape stun srv env' ctx' with ⟨r,eq'⟩ | ⟨c',auth',eq',own',shown',_⟩
      · exact .inl (by rw [eq',eq'])
      · refine .inr ⟨?_,?_⟩
        · intro d
          rw [eq,authenticateDecided manager,performVerdict,own]
          exact decidedStale stale
        · intro d
          rw [eq',authenticateDecided manager,performVerdict,own',tuple,nonce,fresh]
          exact decidedStale (verdictStale u (by rw [shown',value]; exact unguessed))

end Copy

def passes (stun : Stun) (srv : Server NonceAuth) (env : Env) (n : NonceAuth) (ctx : Context) : Option Context :=
  if !stun.isMessage ctx.request.raw then none
  else match (admission stun srv env n ctx).2 with
    | .pass d => some d
    | _ => none

theorem passesSome {env : Env} {n : NonceAuth} {ctx d : Context} (pass : passes stun srv env n ctx = some d) :
    (admission stun srv env n ctx).2 = .pass d := by
  unfold passes at pass
  split at pass
  · cases pass
  · split at pass
    · rename_i admitted
      rw [admitted,Option.some.inj pass]
    · cases pass

/- A packet makes one call or none, and acts on the record of its sender by that call. -/
theorem processRecord {env : Env} {n : NonceAuth} {a : Allocator} {ctx : Context} (ok : TableOk turn a.allocs) :
    find turn (process turn stun srv env n a ctx).2.allocs.allocs ctx.tuple =
      ((passes stun srv env n ctx).bind (callOf stun env.port)).elim (find turn a.allocs ctx.tuple)
        (fun c => effect turn c (find turn a.allocs ctx.tuple)) := by
  unfold process passes
  cases framed : stun.isMessage ctx.request.raw with
  | false =>
    simp only [Bool.false_eq_true,if_false,Bool.not_false,if_true,Option.bind_none,Option.elim_none]
    split
    · rw [channelDataAllocs]
    · rfl
  | true =>
    have tuple := @admittedTuple stun srv env n ctx
    simp only [if_true,Bool.not_true,Bool.false_eq_true,if_false,processMessage]
    generalize admission stun srv env n ctx = out at tuple ⊢
    obtain ⟨m,admitted⟩ := out
    cases admitted with
    | silent c => rfl
    | refuse c code => rfl
    | pass d =>
      simp only [handleAllocs,Option.bind_some]
      cases made : callOf stun env.port d with
      | none => rfl
      | some c =>
        have own := callOfTuple made
        rw [tuple rfl] at own
        simp only [Option.elim_some]
        rw [runRecord ok own,turn.tuples.refl]
        rfl

theorem processNonce {env : Env} {n : NonceAuth} {a : Allocator} {ctx : Context}
    (framed : stun.isMessage ctx.request.raw = true) :
    (process turn stun srv env n a ctx).1 = (admission stun srv env n ctx).1 := by
  unfold process processMessage
  rw [if_pos framed]
  generalize admission stun srv env n ctx = out
  obtain ⟨m,admitted⟩ := out
  cases admitted <;> rfl

structure Copied (ctx ctx' : Context) : Prop where
  request : ctx'.request = ctx.request
  nonce : ctx'.nonce = ctx.nonce
  tuple : ctx'.tuple = ctx.tuple
  lifetime : ctx'.cfg.defaultLifetime = ctx.cfg.defaultLifetime
  order : ctx.time ≤ ctx'.time

theorem passesAgain {ctx ctx' d e : Context} {n n' : NonceAuth} {env env' : Env} (copied : Copied ctx ctx')
    (first : passes stun srv env n ctx = some d) (second : passes stun srv env' n' ctx' = some e) : Again d e := by
  obtain ⟨m,decoded,carried,_⟩ := passed (passesSome first)
  obtain ⟨m',decoded',carried',_⟩ := passed (passesSome second)
  rw [copied.request,decoded] at decoded'
  cases decoded'
  refine ⟨?_,?_,?_,?_⟩
  · rw [carried.request,carried'.request]
  · rw [carried.tuple,carried'.tuple,copied.tuple]
  · rw [carried.cfg,carried'.cfg,copied.lifetime]
  · rw [carried.time,carried'.time]
    exact copied.order

section Twice
variable {ctx ctx' : Context} {n₁ n₂ : NonceAuth} {a₁ a₂ : Allocator} {env env' : Env}

theorem secondPasses (manager : srv.nonce = NonceAuth.manager turn) (copied : Copied ctx ctx')
    (nonce : held turn n₂ ctx.tuple = held turn (process turn stun srv env n₁ a₁ ctx).1 ctx.tuple)
    (duration : n₂.duration = n₁.duration) (unguessed : presented stun ctx ≠ newNonce env.random) :
    passes stun srv env' n₂ ctx' = passes stun srv env' n₁ ctx' ∨
      (passes stun srv env n₁ ctx = none ∧ passes stun srv env' n₂ ctx' = none) := by
  have value : presented stun ctx' = presented stun ctx := by
    unfold presented
    rw [copied.request,copied.nonce]
  have never {env : Env} {n : NonceAuth} {c : Context} (refused : ∀ d, (admission stun srv env n c).2 ≠ .pass d) :
      passes stun srv env n c = none := by
    cases found : passes stun srv env n c with
    | none => rfl
    | some d => exact absurd (passesSome found) (refused d)
  cases framed : stun.isMessage ctx.request.raw with
  | false => exact .inl (by simp only [passes,copied.request,framed,Bool.not_false,if_true])
  | true =>
    rw [processNonce framed] at nonce
    rcases @secondAdmission turn stun srv ctx ctx' n₁ n₂ env env' manager copied.tuple value nonce duration unguessed with
      same | ⟨first,second⟩
    · exact .inl (by simp only [passes,same])
    · exact .inr ⟨never first,never second⟩

theorem processTwice (manager : srv.nonce = NonceAuth.manager turn) (copied : Copied ctx ctx')
    (ok : TableOk turn a₁.allocs) (ok' : TableOk turn a₂.allocs)
    (record : find turn a₂.allocs ctx.tuple =
      find turn (process turn stun srv env n₁ a₁ ctx).2.allocs.allocs ctx.tuple)
    (nonce : held turn n₂ ctx.tuple = held turn (process turn stun srv env n₁ a₁ ctx).1 ctx.tuple)
    (duration : n₂.duration = n₁.duration) (unguessed : presented stun ctx ≠ newNonce env.random) :
    find turn (process turn stun srv env' n₂ a₂ ctx').2.allocs.allocs ctx.tuple = find turn a₂.allocs ctx.tuple ∨
    find turn (process turn stun srv env' n₂ a₂ ctx').2.allocs.allocs ctx.tuple =
      find turn (process turn stun srv env' n₁ a₁ ctx').2.allocs.allocs ctx.tuple := by
  have second := @processRecord turn stun srv env' n₂ a₂ ctx' ok'
  have single := @processRecord turn stun srv env' n₁ a₁ ctx' ok
  rw [copied.tuple] at second single
  rw [processRecord ok] at record
  rw [second,single]
  rcases @secondPasses turn stun srv ctx ctx' n₁ n₂ a₁ env env' manager copied nonce duration unguessed with
    same | ⟨_,refused⟩
  · rw [← same]
    cases later : passes stun srv env' n₂ ctx' with
    | none => exact .inl rfl
    | some e => cases made : callOf stun env'.port e with
      | none => exact .inl (by simp [made])
      | some c' =>
        simp only [Option.bind_some,made,Option.elim_some]
        cases earlier : passes stun srv env n₁ ctx with
        | none =>
          rw [earlier] at record
          exact .inr (congrArg _ record)
        | some d =>
          rw [earlier] at record
          rcases callCopies (passesAgain copied earlier later) env.port made with idle | ⟨c,called,copies⟩
          · simp only [Option.bind_some,idle,Option.elim_none] at record
            exact .inr (congrArg _ record)
          · simp only [Option.bind_some,called,Option.elim_some] at record
            rw [record]
            exact copiesAbsorbed copies (fun b found => ok.allocations b (lookupSome found).1)
  · rw [refused]
    exact .inl rfl

end Twice

def carried (stun : Stun) (packet : Bytes) : Bytes :=
  (stun.nonce (stun.decode (Responses.received packet)).1).toOption.getD []

theorem serveCases (cfg : Config) (client : Addr) (packet : Bytes) (now : Time) (env : Env) (n : NonceAuth) (a : Allocator) :
    ((serveConn turn stun srv env now n a (accept srv cfg (.udp client) packet)).1 = n ∧
      (serveConn turn stun srv env now n a (accept srv cfg (.udp client) packet)).2.handled.allocs = a ∧
      cfg.clientFilter client ≠ .allow) ∨
    ((serveConn turn stun srv env now n a (accept srv cfg (.udp client) packet)).1 =
        (process turn stun srv env n a (Responses.arrived turn ⟨srv,cfg,n,a,env,now⟩ client packet)).1 ∧
      (serveConn turn stun srv env now n a (accept srv cfg (.udp client) packet)).2.handled.allocs =
        (process turn stun srv env n a (Responses.arrived turn ⟨srv,cfg,n,a,env,now⟩ client packet)).2.allocs ∧
      cfg.clientFilter client = .allow) := by
  unfold serveConn
  by_cases allowed : cfg.clientFilter client = .allow
  · have arrival := @Responses.arrivedAt NonceAuth turn ⟨srv,cfg,n,a,env,now⟩ client allowed packet
    rw [arrival]
    exact .inr ⟨rfl,rfl,allowed⟩
  · refine .inl ?_
    cases arrival : (accept srv cfg (.udp client) packet).arrive turn now with
    | error ctx => exact ⟨rfl,rfl,allowed⟩
    | ok ctx =>
      have passed : (accept srv cfg (.udp client) packet).allowClient client = true := by
        by_contra denied
        simp only [Context.arrive,accept,Context.allowClient,Context.fresh] at denied arrival
        simp only [denied,Bool.not_false,if_true] at arrival
        cases arrival
      exact absurd (of_decide_eq_true passed) allowed

theorem serveTwice (manager : srv.nonce = NonceAuth.manager turn) {cfg cfg' : Config} {client : Addr} {packet : Bytes}
    (lifetime : cfg'.defaultLifetime = cfg.defaultLifetime) {now now' : Time} (order : now ≤ now') {env env' : Env}
    (unguessed : carried stun packet ≠ newNonce env.random) {n₁ n₂ : NonceAuth} {a₁ a₂ : Allocator}
    (ok : TableOk turn a₁.allocs) (ok' : TableOk turn a₂.allocs)
    (view : look turn ⟨client,srv.addr,turn.protoUDP⟩ n₂ a₂.allocs = look turn ⟨client,srv.addr,turn.protoUDP⟩
      (serveConn turn stun srv env now n₁ a₁ (accept srv cfg (.udp client) packet)).1
      (serveConn turn stun srv env now n₁ a₁ (accept srv cfg (.udp client) packet)).2.handled.allocs.allocs) :
    find turn (serveConn turn stun srv env' now' n₂ a₂ (accept srv cfg' (.udp client) packet)).2.handled.allocs.allocs
        ⟨client,srv.addr,turn.protoUDP⟩ = find turn a₂.allocs ⟨client,srv.addr,turn.protoUDP⟩ ∨
    find turn (serveConn turn stun srv env' now' n₂ a₂ (accept srv cfg' (.udp client) packet)).2.handled.allocs.allocs
        ⟨client,srv.addr,turn.protoUDP⟩ =
      find turn (serveConn turn stun srv env' now' n₁ a₁ (accept srv cfg' (.udp client) packet)).2.handled.allocs.allocs
        ⟨client,srv.addr,turn.protoUDP⟩ := by
  simp only [look,View.mk.injEq] at view
  obtain ⟨record,nonce,duration⟩ := view
  rcases @serveCases turn stun srv cfg' client packet now' env' n₂ a₂ with ⟨_,idle,_⟩ | ⟨_,second,open'⟩
  · rw [idle]
    exact .inl rfl
  · rcases @serveCases turn stun srv cfg' client packet now' env' n₁ a₁ with ⟨_,_,denied⟩ | ⟨_,single,_⟩
    · exact absurd open' denied
    · rw [second,single]
      rcases @serveCases turn stun srv cfg client packet now env n₁ a₁ with ⟨same,idle,_⟩ | ⟨checked,first,_⟩
      · rw [idle] at record
        rw [same] at nonce duration
        exact .inr (@processAgree turn stun srv env' n₂ n₁ manager a₂ a₁
          (Responses.arrived turn ⟨srv,cfg',n₂,a₂,env',now'⟩ client packet) ⟨ok',ok,record,nonce,duration⟩).2.record
      · rw [first] at record
        rw [checked] at nonce duration
        rw [processDuration manager] at duration
        exact @processTwice turn stun srv (Responses.arrived turn ⟨srv,cfg,n₁,a₁,env,now⟩ client packet)
          (Responses.arrived turn ⟨srv,cfg',n₂,a₂,env',now'⟩ client packet) n₁ n₂ a₁ a₂ env env' manager
          ⟨rfl,rfl,rfl,lifetime,order⟩ ok ok' record nonce duration unguessed

/- A Create Permission request delivered twice, with an Allocate request of another client
served in between. -/
def sampleSite : Machine (Site.Host NonceAuth) Site.Event :=
  Site.machine .documented Codec.wire PeerFilter.openServer PeerFilter.sampleTexts PeerFilter.sampleOptions (newNonceAuth 0)

def sampleBefore : List Site.Event :=
  [.receive PeerFilter.sampleClient PeerFilter.allocatePacket,.serve 0 1 ⟨[],.ok ⟨sampleRelayed,17,1⟩⟩,
    .receive PeerFilter.sampleClient PeerFilter.permissionPacket,.receive (.udp sampleOther) PeerFilter.allocatePacket,
    .receive PeerFilter.sampleClient PeerFilter.permissionPacket]

def sampleBetween : List Site.Event := [.serve 0 3 ⟨[],.ok ⟨sampleServer,17,2⟩⟩]

def sampleRandom : Env := ⟨[1],.error .listen⟩

end Gortcd.Duplicates
