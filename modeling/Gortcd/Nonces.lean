import Gortcd.Auth
import Gortcd.Lib.Runs

/-! The nonce manager over whole histories of `Check`, with any tuples, values and times. A
nonce is issued at the first check of a tuple and again at the first check after its expiry;
`held` is all that a check reads of the table. -/
namespace Gortcd.Nonces
open Keyed Net Auth Runs

structure Check where
  random : Bytes
  tuple : FiveTuple
  value : Bytes
  time : Time
  deriving DecidableEq, Repr

def perform (turn : Turn) (n : NonceAuth) (c : Check) : NonceAuth × Bytes × Option NonceErr :=
  n.check turn c.random c.tuple c.value c.time

/- All times are later than Go's zero time. -/
def machine (turn : Turn) (d : Duration) : Machine NonceAuth Check :=
  ⟨newNonceAuth d,fun _ c => 0 < c.time,fun n c => (perform turn n c).1⟩

structure Issue where
  value : Bytes
  time : Time
  deriving DecidableEq, Repr

/- Not expired; a manager with duration zero never rotates. -/
def Issue.Current (d : Duration) (i : Issue) (now : Time) : Prop := d = 0 ∨ now < i.time + d

instance (d i now) : Decidable (Issue.Current d i now) := by unfold Issue.Current; infer_instance

def issue (d : Duration) (c : Check) : Option Issue → Issue
  | none => ⟨newNonce c.random,c.time⟩
  | some i => if i.Current d c.time then i else ⟨newNonce c.random,c.time⟩

/- What was last issued for a tuple, at first sight or at the last rotation. -/
def lastIssued (turn : Turn) (d : Duration) (t : FiveTuple) : List (Step NonceAuth Check) → Option Issue
  | [] => none
  | x :: h =>
    if turn.tuples.same x.event.tuple t then some (issue d x.event (lastIssued turn d t h)) else lastIssued turn d t h

variable {turn : Turn} {d : Duration} {n : NonceAuth} {c : Check} {t : FiveTuple}

def held (turn : Turn) (n : NonceAuth) (t : FiveTuple) : Option (Bytes × Time) :=
  (lookup turn.tuples Nonce.tuple t n.nonces).map (fun c => (c.value,c.validUntil))

def renewed (d : Duration) (c : Check) : Option (Bytes × Time) → Bytes × Time
  | none => (newNonce c.random,if d ≠ 0 then c.time + d else 0)
  | some (v,u) => if u = 0 ∨ c.time < u then (v,u) else (newNonce c.random,c.time + d)

def verdict (c : Check) : Option (Bytes × Time) → Bytes × Option NonceErr
  | none => (newNonce c.random,some .stale)
  | some (v,u) =>
    if u = 0 ∨ c.time < u then (v,if v = c.value then none else some .stale) else (newNonce c.random,some .stale)

theorem validRead (x : Nonce) (now : Time) : x.valid now = true ↔ x.validUntil = 0 ∨ now < x.validUntil := by
  simp [Nonce.valid]

def created (n : NonceAuth) (c : Check) : Nonce :=
  ⟨c.tuple,newNonce c.random,if n.duration ≠ 0 then c.time + n.duration else 0⟩

def rotated (n : NonceAuth) (c : Check) (x : Nonce) : Nonce :=
  { x with value := newNonce c.random, validUntil := c.time + n.duration }

/- Every way a check can end. -/
theorem performCases (turn : Turn) (n : NonceAuth) (c : Check) :
    (lookup turn.tuples Nonce.tuple c.tuple n.nonces = none ∧ perform turn n c =
      ({ n with nonces := n.nonces ++ [created n c] },newNonce c.random,some .stale)) ∨
    ∃ x, lookup turn.tuples Nonce.tuple c.tuple n.nonces = some x ∧
      ((x.valid c.time = true ∧ perform turn n c = (n,x.value,if x.value = c.value then none else some .stale)) ∨
        (x.valid c.time = false ∧ perform turn n c =
          ({ n with nonces := update turn.tuples Nonce.tuple c.tuple (fun _ => rotated n c x) n.nonces },
            newNonce c.random,some .stale))) := by
  unfold perform NonceAuth.check
  cases found : lookup turn.tuples Nonce.tuple c.tuple n.nonces with
  | none =>
    have scan : n.nonces.find? (fun x => turn.tuples.same x.tuple c.tuple) = none := found
    exact .inl ⟨rfl,by simp only [scan]; rfl⟩
  | some x =>
    have scan : n.nonces.find? (fun x => turn.tuples.same x.tuple c.tuple) = some x := found
    refine .inr ⟨x,rfl,?_⟩
    simp only [scan]
    cases valid : x.valid c.time with
    | true =>
      refine .inl ⟨rfl,?_⟩
      by_cases same : x.value = c.value
      · simp [same]
      · simp [same]
    | false => exact .inr ⟨rfl,rfl⟩

theorem heldCongr {t t' : FiveTuple} (same : turn.tuples.same t t' = true) : held turn n t = held turn n t' := by
  rw [held,held,lookupCongr same]

theorem performVerdict : (perform turn n c).2 = verdict c (held turn n c.tuple) := by
  unfold held
  rcases performCases turn n c with ⟨absent,eq⟩ | ⟨x,found,⟨valid,eq⟩ | ⟨expired,eq⟩⟩
  · rw [absent,eq]
    rfl
  · rw [found,eq]
    exact (if_pos ((validRead x c.time).mp valid)).symm
  · rw [found,eq]
    exact (if_neg (fun live => ne_true_of_eq_false expired ((validRead x c.time).mpr live))).symm

theorem performDuration : (perform turn n c).1.duration = n.duration := by
  rcases performCases turn n c with ⟨_,eq⟩ | ⟨x,_,⟨_,eq⟩ | ⟨_,eq⟩⟩ <;> rw [eq]

theorem performHeld : held turn (perform turn n c).1 t =
    if turn.tuples.same c.tuple t then some (renewed n.duration c (held turn n c.tuple)) else held turn n t := by
  unfold held
  rcases performCases turn n c with ⟨absent,eq⟩ | ⟨x,found,⟨valid,eq⟩ | ⟨expired,eq⟩⟩ <;> rw [eq]
  · have appended : lookup turn.tuples Nonce.tuple t (n.nonces ++ [created n c]) =
        if turn.tuples.same c.tuple t then some (created n c) else lookup turn.tuples Nonce.tuple t n.nonces :=
      lookupAppend absent
    rw [absent,appended]
    cases turn.tuples.same c.tuple t <;> rfl
  · have live := (validRead x c.time).mp valid
    cases same : turn.tuples.same c.tuple t with
    | false => rfl
    | true =>
      rw [← lookupCongr same,found]
      exact congrArg some (if_pos live).symm
  · have dead := fun live => ne_true_of_eq_false expired ((validRead x c.time).mpr live)
    have updated : lookup turn.tuples Nonce.tuple t
        (update turn.tuples Nonce.tuple c.tuple (fun _ => rotated n c x) n.nonces) =
        if turn.tuples.same c.tuple t then (lookup turn.tuples Nonce.tuple c.tuple n.nonces).map (fun _ => rotated n c x)
        else lookup turn.tuples Nonce.tuple t n.nonces := lookupUpdate (fun _ _ => (lookupSome found).2)
    rw [updated,found]
    cases turn.tuples.same c.tuple t with
    | false => rfl
    | true => exact congrArg some (if_neg dead).symm

theorem performDistinct (single : Distinct turn.tuples Nonce.tuple n.nonces) :
    Distinct turn.tuples Nonce.tuple (perform turn n c).1.nonces := by
  rcases performCases turn n c with ⟨absent,eq⟩ | ⟨x,found,⟨_,eq⟩ | ⟨_,eq⟩⟩ <;> rw [eq]
  · exact distinctAppend single (created n c) absent
  · exact single
  · refine distinctUpdate single ?_
    intro y hit
    exact turn.tuples.trans (lookupSome found).2 (turn.tuples.symm hit)

def Issue.stored (d : Duration) (i : Issue) : Bytes × Time := (i.value,if d ≠ 0 then i.time + d else 0)

structure Represents (turn : Turn) (d : Duration) (h : List (Step NonceAuth Check)) (n : NonceAuth) : Prop where
  duration : n.duration = d
  single : Distinct turn.tuples Nonce.tuple n.nonces
  stored : ∀ t, held turn n t = (lastIssued turn d t h).map (Issue.stored d)
  later : ∀ t i, lastIssued turn d t h = some i → 0 < i.time

theorem storedCurrent (nonneg : 0 ≤ d) {i : Issue} (later : 0 < i.time) (now : Time) :
    ((i.stored d).2 = 0 ∨ now < (i.stored d).2) ↔ i.Current d now := by
  unfold Issue.stored Issue.Current
  by_cases zero : d = 0
  · simp [zero]
  · have positive : i.time + d ≠ 0 := Int.ne_of_gt (Int.add_pos_of_pos_of_nonneg later nonneg)
    simp [zero,positive]

theorem issueStored (nonneg : 0 ≤ d) {o : Option Issue} (later : ∀ i, o = some i → 0 < i.time) :
    renewed d c (o.map (Issue.stored d)) = (issue d c o).stored d := by
  cases o with
  | none => rfl
  | some i =>
    have same := @storedCurrent d nonneg i (later i rfl) c.time
    by_cases current : i.Current d c.time
    · exact (if_pos (same.mpr current)).trans (congrArg (Issue.stored d) (if_pos current).symm)
    · have rotating : d ≠ 0 := fun zero => current (.inl zero)
      have renewal : (newNonce c.random,c.time + d) = Issue.stored d ⟨newNonce c.random,c.time⟩ := by
        simp [Issue.stored,rotating]
      exact ((if_neg (fun live => current (same.mp live))).trans renewal).trans
        (congrArg (Issue.stored d) (if_neg current).symm)

theorem lastIssuedCongr {t' : FiveTuple} (same : turn.tuples.same t t' = true) (h : List (Step NonceAuth Check)) :
    lastIssued turn d t h = lastIssued turn d t' h := by
  induction h with
  | nil => rfl
  | cons x h ih => simp only [lastIssued,ih,turn.tuples.congrRight same]

theorem issueLater {o : Option Issue} (later : ∀ i, o = some i → 0 < i.time) (now : 0 < c.time) :
    0 < (issue d c o).time := by
  cases o with
  | none => exact now
  | some i =>
    simp only [issue]
    split
    · exact later i rfl
    · exact now

theorem representsStep {h : List (Step NonceAuth Check)} (nonneg : 0 ≤ d) (inv : Represents turn d h n) (now : 0 < c.time) :
    Represents turn d (⟨n,c⟩ :: h) (perform turn n c).1 := by
  refine ⟨performDuration.trans inv.duration,performDistinct inv.single,?_,?_⟩
  · intro t
    rw [performHeld,inv.duration,inv.stored c.tuple,issueStored nonneg (inv.later c.tuple),inv.stored t]
    simp only [lastIssued]
    cases same : turn.tuples.same c.tuple t with
    | false => rfl
    | true => rw [lastIssuedCongr same]; rfl
  · intro t i issued
    simp only [lastIssued] at issued
    split at issued
    · cases issued
      exact issueLater (inv.later t) now
    · exact inv.later t i issued

theorem represents (nonneg : 0 ≤ d) {h n} (run : Run (machine turn d) h n) : Represents turn d h n := by
  induction run with
  | start => exact ⟨rfl,List.Pairwise.nil,fun _ => rfl,nofun⟩
  | step _ guard ih => exact representsStep nonneg ih guard

section Outcome
variable {h : List (Step NonceAuth Check)}

theorem answer (nonneg : 0 ≤ d) (inv : Represents turn d h n) (c : Check) :
    (perform turn n c).2 = ((issue d c (lastIssued turn d c.tuple h)).value,
      if ∃ i, lastIssued turn d c.tuple h = some i ∧ c.value = i.value ∧ i.Current d c.time then none else some .stale) := by
  rw [performVerdict,inv.stored]
  cases issued : lastIssued turn d c.tuple h with
  | none => simp [verdict,issue]
  | some i =>
    have same := @storedCurrent d nonneg i (inv.later c.tuple i issued) c.time
    by_cases current : i.Current d c.time
    · refine (if_pos (same.mpr current)).trans ?_
      simp [issue,current,eq_comm]
    · refine (if_neg (fun live => current (same.mp live))).trans ?_
      simp [issue,current]

theorem issueCurrent (nonneg : 0 ≤ d) (o : Option Issue) : (issue d c o).Current d c.time := by
  have fresh : Issue.Current d ⟨newNonce c.random,c.time⟩ c.time := by
    by_cases zero : d = 0
    · exact .inl zero
    · exact .inr (Int.lt_add_of_pos_right _ (Int.lt_iff_le_and_ne.mpr ⟨nonneg,Ne.symm zero⟩))
  cases o with
  | none => exact fresh
  | some i =>
    simp only [issue]
    split
    · assumption
    · exact fresh

structure Sound (turn : Turn) (d : Duration) (h : List (Step NonceAuth Check)) (n : NonceAuth) : Prop where
  single : n.nonces.Pairwise (fun x y => turn.tuples.same x.tuple y.tuple = false)
  accepted : ∀ c, (perform turn n c).2.2 = none ↔
    ∃ i, lastIssued turn d c.tuple h = some i ∧ c.value = i.value ∧ i.Current d c.time
  otherwise : ∀ c, 0 < c.time → (perform turn n c).2.2 ≠ none → (perform turn n c).2.2 = some .stale ∧
    ∀ random, (perform turn (perform turn n c).1 ⟨random,c.tuple,(perform turn n c).2.1,c.time⟩).2.2 = none
  elsewhere : ∀ c o, turn.tuples.same o.tuple c.tuple = false →
    (perform turn (perform turn n o).1 c).2 = (perform turn n c).2
  guessed : ∀ c o i, turn.tuples.same o.tuple c.tuple = true → lastIssued turn d c.tuple h = some i →
    o.value ≠ i.value → i.Current d o.time → (perform turn (perform turn n o).1 c).2 = (perform turn n c).2

theorem nonceSound (nonneg : 0 ≤ d) (run : Run (machine turn d) h n) : Sound turn d h n := by
  have inv := represents nonneg run
  refine ⟨inv.single,?_,?_,?_,?_⟩
  · intro c
    rw [answer nonneg inv]
    dsimp only
    split
    · rename_i good
      exact ⟨fun _ => good,fun _ => rfl⟩
    · rename_i bad
      exact ⟨nofun,fun good => absurd good bad⟩
  · intro c now refused
    have after := representsStep nonneg inv now
    refine ⟨?_,?_⟩
    · rw [answer nonneg inv] at refused ⊢
      dsimp only at refused ⊢
      split at refused
      · exact absurd rfl refused
      · rename_i bad
        exact if_neg bad
    · intro random
      rw [answer nonneg after]
      refine if_pos ⟨_,if_pos (turn.tuples.refl c.tuple),?_,issueCurrent nonneg _⟩
      rw [answer nonneg inv]
  · intro c o other
    rw [performVerdict,performVerdict,performHeld,other]
    rfl
  · intro c o i same issued _ current
    have kept : held turn (perform turn n o).1 c.tuple = held turn n c.tuple := by
      have later : ∀ j, some i = some j → 0 < j.time := by
        intro j eq
        cases eq
        exact inv.later c.tuple i issued
      rw [performHeld,if_pos same,inv.duration,inv.stored o.tuple,inv.stored c.tuple,lastIssuedCongr same,issued,
        issueStored nonneg later]
      exact congrArg (fun j => some (Issue.stored d j)) (if_pos current)
    rw [performVerdict,performVerdict,kept]

/- A second tuple, an earlier time, a rotation and a guess between two uses of a nonce. -/
def sampleRandom (k : UInt8) : Bytes := List.replicate 12 k

def sampleChecks : List Check :=
  [⟨sampleRandom 1,sampleTuple,[],100⟩,⟨sampleRandom 2,{ sampleTuple with client := sampleOther },[],50⟩,
    ⟨sampleRandom 3,sampleTuple,newNonce (sampleRandom 1),110⟩,⟨sampleRandom 4,sampleTuple,[9],105⟩]

theorem nonceSoundSample :
    (perform .documented (trace (machine .documented 10) [] (newNonceAuth 10) sampleChecks).2
      ⟨sampleRandom 5,sampleTuple,newNonce (sampleRandom 3),115⟩).2.2 = none := by
  have run := traceStart (m := machine .documented 10) sampleChecks
    ⟨(by decide : (0 : Int) < 100),(by decide : (0 : Int) < 50),(by decide : (0 : Int) < 110),
      (by decide : (0 : Int) < 105),trivial⟩
  exact ((nonceSound (by decide) run).accepted ⟨sampleRandom 5,sampleTuple,newNonce (sampleRandom 3),115⟩).mpr
    ⟨⟨newNonce (sampleRandom 3),110⟩,by decide,rfl,by decide⟩

end Outcome
end Gortcd.Nonces
