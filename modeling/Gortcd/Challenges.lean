import Gortcd.Nonces
import Gortcd.Responses

/-! The nonce manager in the server. It is asked once for a packet at most, about the tuple of
its sender, and the packet goes by the answer. The nonces it keeps are those it has issued. -/
namespace Gortcd.Challenges
open Keyed Net Ports Sections Calls Runs Messages Auth Nonces Handlers

variable {turn : Turn} {stun : Stun} {srv : Server NonceAuth} {env : Env} {n : NonceAuth} {d : Duration}

def decided (stun : Stun) (c : Context) (auth : Message → Except AuthErr Bytes) (out : Bytes × Option NonceErr) : Admission :=
  if out.2 = some .other then .refuse c .serverError
  else if stun.get c.request .messageIntegrity = .error .attributeNotFound then .refuse { c with nonce := out.1 } .unauthorized
  else if out.2 = some .stale then .refuse { c with nonce := out.1 } .staleNonce
  else match auth c.request with
    | .ok integrity => .pass { c with nonce := out.1, integrity := integrity }
    | .error _ => .refuse { c with nonce := out.1 } .unauthorized

theorem authenticateDecided (manager : srv.nonce = NonceAuth.manager turn) (c : Context)
    (auth : Message → Except AuthErr Bytes) :
    authenticate stun srv env n c auth = ((perform turn n ⟨env.random,c.tuple,c.nonce,c.time⟩).1,
      decided stun c auth (perform turn n ⟨env.random,c.tuple,c.nonce,c.time⟩).2) := by
  have asked : perform turn n ⟨env.random,c.tuple,c.nonce,c.time⟩ = srv.nonce.check n env.random c.tuple c.nonce c.time := by
    rw [manager]
    rfl
  unfold authenticate decided
  rw [asked]
  generalize srv.nonce.check n env.random c.tuple c.nonce c.time = out
  by_cases broken : out.2.2 = some .other
  · simp only [if_pos broken]
  · simp only [if_neg broken]
    by_cases unsigned : stun.get c.request .messageIntegrity = .error .attributeNotFound
    · simp only [if_pos unsigned]
    · simp only [if_neg unsigned]
      by_cases stale : out.2.2 = some .stale
      · simp only [if_pos stale]
      · simp only [if_neg stale]
        cases auth c.request <;> rfl

/- The nonce that is checked: that of the message, or else what the context holds. -/
def presented (stun : Stun) (ctx : Context) : Bytes := (stun.nonce (stun.decode ctx.request).1).toOption.getD ctx.nonce

/- The nonce manager is asked once, about the tuple of the context, or not at all. -/
theorem admissionShape (ctx : Context) : (∃ r, ∀ n, admission stun srv env n ctx = (n,r)) ∨
    ∃ c auth, (∀ n, admission stun srv env n ctx = authenticate stun srv env n c auth) ∧
      c.tuple = ctx.tuple ∧ c.nonce = presented stun ctx ∧ c.time = ctx.time := by
  unfold admission presented
  split
  · exact .inl ⟨_,fun _ => rfl⟩
  · rename_i m decoded
    dsimp only
    split
    · exact .inl ⟨_,fun _ => rfl⟩
    · split
      · split
        · rename_i value read
          exact .inr ⟨_,_,fun _ => rfl,rfl,by rw [decoded,read]; rfl,rfl⟩
        · rename_i read
          exact .inr ⟨_,_,fun _ => rfl,rfl,by rw [decoded,read]; rfl,rfl⟩
        · exact .inl ⟨_,fun _ => rfl⟩
      · exact .inl ⟨_,fun _ => rfl⟩

section Manager
variable (manager : srv.nonce = NonceAuth.manager turn)
include manager

/- The nonces after the checks: those before them, or after one check for the tuple. -/
theorem admissionNonces {ctx : Context} : (admission stun srv env n ctx).1 = n ∨
    ∃ value, (admission stun srv env n ctx).1 = (perform turn n ⟨env.random,ctx.tuple,value,ctx.time⟩).1 := by
  rcases @admissionShape stun srv env ctx with ⟨r,eq⟩ | ⟨c,auth,eq,tuple,_,time⟩
  · exact .inl (by rw [eq])
  · exact .inr ⟨c.nonce,by rw [eq,authenticateDecided manager,tuple,time]⟩

theorem processNonces {allocs : Allocator} {ctx : Context} : (process turn stun srv env n allocs ctx).1 = n ∨
    ∃ value, (process turn stun srv env n allocs ctx).1 = (perform turn n ⟨env.random,ctx.tuple,value,ctx.time⟩).1 := by
  have admitted := @admissionNonces turn stun srv env n manager ctx
  unfold process
  split
  · unfold processMessage
    split <;> rename_i found <;> rw [found] at admitted <;> exact admitted
  · split <;> exact .inl rfl

theorem processDuration {allocs : Allocator} {ctx : Context} :
    (process turn stun srv env n allocs ctx).1.duration = n.duration := by
  rcases @processNonces turn stun srv env n manager allocs ctx with same | ⟨value,checked⟩
  · rw [same]
  · rw [checked,performDuration]

end Manager

theorem nonceLength (random : Bytes) : (newNonce random).length = 2 * random.length := by
  induction random with
  | nil => rfl
  | cons b random ih =>
    have split : newNonce (b :: random) = [hexDigit (b / 16),hexDigit (b % 16)] ++ newNonce random := List.flatMap_cons
    rw [split,List.length_append,ih,List.length_cons]
    simp only [List.length_cons,List.length_nil]
    omega

/- The nonces are digits of 12 random bytes, and do not expire if the duration is zero. -/
structure Settled (d : Duration) (n : NonceAuth) : Prop where
  duration : n.duration = d
  short : ∀ x ∈ n.nonces, x.value.length ≤ 24
  lasting : d = 0 → ∀ x ∈ n.nonces, x.validUntil = 0

theorem checkSettled (settled : Settled d n) {c : Check} (random : c.random.length = 12) :
    Settled d (perform turn n c).1 ∧ (perform turn n c).2.1.length ≤ 24 ∧ (perform turn n c).2.2 ≠ some .other := by
  have digits : (newNonce c.random).length ≤ 24 := Nat.le_of_eq ((nonceLength c.random).trans (by rw [random]))
  have stale : some NonceErr.stale ≠ some NonceErr.other := by decide
  rcases performCases turn n c with ⟨_,eq⟩ | ⟨x,found,⟨_,eq⟩ | ⟨expired,eq⟩⟩ <;> rw [eq]
  · refine ⟨⟨settled.duration,?_,?_⟩,digits,stale⟩
    · exact List.forall_mem_append.mpr ⟨settled.short,List.forall_mem_singleton.mpr digits⟩
    · intro zero
      refine List.forall_mem_append.mpr ⟨settled.lasting zero,List.forall_mem_singleton.mpr ?_⟩
      simp [created,settled.duration,zero]
  · refine ⟨settled,settled.short x (lookupSome found).1,?_⟩
    dsimp only
    split <;> decide
  · refine ⟨⟨settled.duration,?_,?_⟩,digits,stale⟩
    · intro y mem
      rcases memUpdate mem with old | ⟨_,_,_,rfl⟩
      · exact settled.short y old
      · exact digits
    · intro zero
      rw [Nonce.valid,settled.lasting zero x (lookupSome found).1] at expired
      cases expired

theorem checkIssues (settled : Settled d n) (nonneg : 0 ≤ d) (c : Check) :
    ∃ until', held turn (perform turn n c).1 c.tuple = some ((perform turn n c).2.1,until') ∧
      (until' = 0 ∨ c.time < until') := by
  have expires {u : Time} (late : ¬ (u = 0 ∨ c.time < u)) (stored : ∃ x ∈ n.nonces, x.validUntil = u) : 0 < d := by
    obtain ⟨x,mem,rfl⟩ := stored
    rcases Int.lt_or_eq_of_le nonneg with positive | zero
    · exact positive
    · exact absurd (.inl (settled.lasting zero.symm x mem)) late
  rw [performHeld,if_pos (turn.tuples.refl c.tuple),performVerdict,settled.duration]
  cases stored : held turn n c.tuple with
  | none =>
    refine ⟨_,rfl,?_⟩
    split
    · rename_i rotating
      exact .inr (Int.lt_add_of_pos_right _ (Int.lt_iff_le_and_ne.mpr ⟨nonneg,Ne.symm rotating⟩))
    · exact .inl rfl
  | some x =>
    obtain ⟨v,u⟩ := x
    by_cases current : u = 0 ∨ c.time < u
    · simp only [renewed,verdict,if_pos current]
      exact ⟨u,rfl,current⟩
    · simp only [renewed,verdict,if_neg current]
      obtain ⟨y,found,same⟩ := Option.map_eq_some_iff.mp stored
      have positive := expires current ⟨y,(lookupSome found).1,congrArg Prod.snd same⟩
      exact ⟨c.time + d,rfl,.inr (Int.lt_add_of_pos_right _ positive)⟩

/- A check at a time at which the nonce is current leaves it. -/
theorem heldKept {t : FiveTuple} {v : Bytes} {until' : Time} (issued : held turn n t = some (v,until')) {c : Check}
    (current : until' = 0 ∨ c.time < until') : held turn (perform turn n c).1 t = some (v,until') := by
  rw [performHeld]
  split
  · rename_i same
    rw [heldCongr same,issued]
    exact congrArg some (if_pos current)
  · exact issued

end Gortcd.Challenges
