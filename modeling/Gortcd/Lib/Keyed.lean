import Mathlib.Data.List.Basic

/-! Lists used as tables: rows are found by a key, and keys are compared by a Boolean
equivalence that may be coarser than equality. Scans that stop at the first match are
`lookup` and `update`; a scan with an in-place compaction is `compact` of a filter. -/
namespace Keyed

structure Equality (κ : Type) where
  same : κ → κ → Bool
  refl : ∀ a, same a a = true
  symm : ∀ {a b}, same a b = true → same b a = true
  trans : ∀ {a b c}, same a b = true → same b c = true → same a c = true

def equality (κ : Type) [DecidableEq κ] : Equality κ where
  same a b := a == b
  refl a := beq_self_eq_true a
  symm h := by rw [beq_iff_eq] at h ⊢; exact h.symm
  trans h k := by rw [beq_iff_eq] at h k ⊢; exact h.trans k

@[simp] theorem equalitySame {κ : Type} [DecidableEq κ] (a b : κ) : (equality κ).same a b = (a == b) := rfl

variable {κ α : Type}

theorem Equality.comm (eq : Equality κ) (a b : κ) : eq.same a b = eq.same b a := by
  cases h : eq.same a b with
  | true => exact (eq.symm h).symm
  | false =>
    cases k : eq.same b a with
    | true => rw [eq.symm k] at h; cases h
    | false => rfl

theorem Equality.congrLeft (eq : Equality κ) {a b : κ} (h : eq.same a b = true) (c : κ) :
    eq.same a c = eq.same b c := by
  cases k : eq.same b c with
  | true => exact eq.trans h k
  | false =>
    cases l : eq.same a c with
    | true => rw [eq.trans (eq.symm h) l] at k; cases k
    | false => rfl

theorem Equality.congrRight (eq : Equality κ) {a b : κ} (h : eq.same a b = true) (c : κ) :
    eq.same c a = eq.same c b := by
  rw [eq.comm c a,eq.comm c b,eq.congrLeft h]

/- `n := copy(dst, src); dst[:n]`, the in-place compaction of a slice. -/
def compact (dst src : List α) : List α := src.take dst.length

theorem compactFilter (p : α → Bool) (l : List α) : compact l (l.filter p) = l.filter p :=
  List.take_of_length_le (List.length_filter_le p l)

/- The scan that rewrites the first row accepted by `p` and stops. -/
def updateFirst (p : α → Bool) (f : α → α) : List α → List α
  | [] => []
  | a :: l => if p a then f a :: l else a :: updateFirst p f l

theorem updateFirstNone {p : α → Bool} {f : α → α} {l : List α} (none : l.find? p = none) :
    updateFirst p f l = l := by
  induction l with
  | nil => rfl
  | cons a l ih =>
    rw [List.find?_cons] at none
    cases h : p a with
    | true => simp [h] at none
    | false =>
      simp only [h] at none
      simp [updateFirst,h,ih none]

theorem memUpdateFirst {p : α → Bool} {f : α → α} {l : List α} {b : α}
    (mem : b ∈ updateFirst p f l) : b ∈ l ∨ ∃ a ∈ l, p a = true ∧ b = f a := by
  induction l with
  | nil => cases mem
  | cons a l ih =>
    rw [updateFirst] at mem
    split at mem
    · rename_i hit
      rcases List.mem_cons.mp mem with rfl | old
      · exact .inr ⟨a,List.mem_cons_self,hit,rfl⟩
      · exact .inl (List.mem_cons_of_mem _ old)
    · rcases List.mem_cons.mp mem with rfl | rest
      · exact .inl List.mem_cons_self
      · rcases ih rest with old | ⟨c,hc,hit,rfl⟩
        · exact .inl (List.mem_cons_of_mem _ old)
        · exact .inr ⟨c,List.mem_cons_of_mem _ hc,hit,rfl⟩

theorem memUpdateOther {p : α → Bool} {f : α → α} {l : List α} {b : α} (mem : b ∈ l) (other : p b = false) :
    b ∈ updateFirst p f l := by
  induction l with
  | nil => cases mem
  | cons a l ih =>
    rw [updateFirst]
    rcases List.mem_cons.mp mem with rfl | rest
    · rw [if_neg (by simp [other])]
      exact List.mem_cons_self
    · split
      · exact List.mem_cons_of_mem _ rest
      · exact List.mem_cons_of_mem _ (ih rest)

theorem memUpdateHit {p : α → Bool} {f : α → α} {l : List α} {b : α} (found : l.find? p = some b) :
    f b ∈ updateFirst p f l := by
  induction l with
  | nil => cases found
  | cons a l ih =>
    rw [List.find?_cons] at found
    rw [updateFirst]
    cases hit : p a with
    | true =>
      simp only [hit,Option.some.injEq] at found
      simp [found]
    | false =>
      simp only [hit] at found
      simp [ih found]

theorem updateFirstMap {β : Type} {g : α → β} {p : α → Bool} {f : α → α} {l : List α}
    (keeps : ∀ a, g (f a) = g a) : (updateFirst p f l).map g = l.map g := by
  induction l with
  | nil => rfl
  | cons a l ih =>
    rw [updateFirst]
    split
    · simp only [List.map_cons,keeps]
    · simp only [List.map_cons,ih]

theorem updateFirstAppend {p : α → Bool} {f : α → α} {l : List α} {b : α} (absent : l.find? p = none)
    (hit : p b = true) : updateFirst p f (l ++ [b]) = l ++ [f b] := by
  induction l with
  | nil => simp [updateFirst,hit]
  | cons a l ih =>
    obtain ⟨head,tail⟩ := List.forall_mem_cons.mp (List.find?_eq_none.mp absent)
    simp only [List.cons_append,updateFirst,if_neg head,ih (List.find?_eq_none.mpr tail)]

/- The second of two scans meets the row that the first has rewritten. -/
theorem updateFirstTwice {p : α → Bool} {f g : α → α} {l : List α} (keeps : ∀ a, p a = true → p (f a) = true) :
    updateFirst p g (updateFirst p f l) = updateFirst p (fun a => g (f a)) l := by
  induction l with
  | nil => rfl
  | cons a l ih =>
    cases hit : p a with
    | true => simp only [updateFirst,hit,if_true,keeps a hit]
    | false => simp only [updateFirst,hit,Bool.false_eq_true,if_false,ih]

theorem anyUpdateFirst {p : α → Bool} {f : α → α} {l : List α} (keeps : ∀ a, p a = true → p (f a) = true) :
    (updateFirst p f l).any p = l.any p := by
  induction l with
  | nil => rfl
  | cons a l ih =>
    cases hit : p a with
    | true => simp only [updateFirst,hit,if_true,List.any_cons,keeps a hit,Bool.true_or]
    | false => simp only [updateFirst,hit,Bool.false_eq_true,if_false,List.any_cons,ih]

/- Rows accepted by one of two tests: those of the first, then what only the second adds. -/
theorem filterOr (p q : α → Bool) (l : List α) :
    (l.filter (fun a => p a || q a)).Perm (l.filter p ++ l.filter (fun a => q a && !p a)) := by
  have parts := List.filter_append_perm p (l.filter (fun a => p a || q a))
  have first : (fun a => p a && (p a || q a)) = p := by
    funext a
    cases p a <;> simp
  have second : (fun a => !p a && (p a || q a)) = fun a => q a && !p a := by
    funext a
    cases p a <;> simp
  rw [List.filter_filter,List.filter_filter,first,second] at parts
  exact parts.symm

/- Dropping rows changes the list of their values only when a dropped row has one. -/
theorem filterMapKept {β : Type} {p : α → Bool} {g : α → Option β} {l : List α}
    (lost : ∀ a ∈ l, p a = false → g a = none) : (l.filter p).filterMap g = l.filterMap g := by
  induction l with
  | nil => rfl
  | cons a l ih =>
    obtain ⟨head,tail⟩ := List.forall_mem_cons.mp lost
    rw [List.filter_cons,List.filterMap_cons,← ih tail]
    cases keep : p a with
    | true => rw [if_pos rfl,List.filterMap_cons]
    | false => rw [if_neg (by simp),head keep]

theorem filterMapLost {β : Type} {p : α → Bool} {g : α → Option β} {l : List α}
    (same : (l.filterMap g).length ≤ ((l.filter p).filterMap g).length) : ∀ a ∈ l, p a = false → g a = none := by
  induction l with
  | nil => simp
  | cons a l ih =>
    have less : ((l.filter p).filterMap g).length ≤ (l.filterMap g).length :=
      (List.filter_sublist.filterMap g).length_le
    rw [List.filter_cons,List.filterMap_cons] at same
    cases keep : p a with
    | true =>
      rw [keep,if_pos rfl,List.filterMap_cons] at same
      refine List.forall_mem_cons.mpr ⟨fun no => absurd (keep.symm.trans no) (by simp),ih ?_⟩
      cases value : g a <;> simp only [value,List.length_cons] at same <;> omega
    | false =>
      rw [keep,if_neg (by simp)] at same
      cases value : g a with
      | none =>
        simp only [value] at same
        exact List.forall_mem_cons.mpr ⟨fun _ => value,ih same⟩
      | some b =>
        simp only [value,List.length_cons] at same
        omega

/- A scan that overwrites its result at every match ends with the last one. -/
theorem foldlLast {β : Type} (g : α → List β) (l : List α) (init : β) :
    l.foldl (fun acc a => (g a).getLast?.getD acc) init = (l.flatMap g).getLast?.getD init := by
  induction l generalizing init with
  | nil => rfl
  | cons a l ih =>
    simp only [List.foldl_cons,ih,List.flatMap_cons,List.getLast?_append]
    cases (l.flatMap g).getLast? <;> rfl

theorem foldlConst {β : Type} (p : α → Bool) (l : List α) (value init : β) :
    l.foldl (fun acc a => if !p a then acc else value) init = if l.any p then value else init := by
  induction l generalizing init with
  | nil => rfl
  | cons a l ih =>
    rw [List.foldl_cons,ih,List.any_cons]
    cases p a with
    | false => rfl
    | true => exact ite_self value

section Tables
variable (eq : Equality κ) (key : α → κ)

def lookup (k : κ) (l : List α) : Option α := l.find? (fun a => eq.same (key a) k)

def update (k : κ) (f : α → α) (l : List α) : List α := updateFirst (fun a => eq.same (key a) k) f l

/- No two rows have the same key. -/
def Distinct (l : List α) : Prop := l.Pairwise (fun a b => eq.same (key a) (key b) = false)

variable {eq key} {k k' : κ} {l : List α} {f : α → α} {a : α}

theorem lookupSome (found : lookup eq key k l = some a) : a ∈ l ∧ eq.same (key a) k = true :=
  ⟨List.mem_of_find?_eq_some found,List.find?_some (p := fun a => eq.same (key a) k) found⟩

theorem lookupNone : lookup eq key k l = none ↔ ∀ a ∈ l, eq.same (key a) k = false := by
  simp [lookup]

theorem lookupIsSome : (lookup eq key k l).isSome = l.any (fun a => eq.same (key a) k) := by
  rw [lookup,List.isSome_find?]

theorem lookupCongr (h : eq.same k k' = true) : lookup eq key k l = lookup eq key k' l := by
  unfold lookup
  congr 1
  funext a
  exact eq.congrRight h _

theorem lookupNil : lookup eq key k [] = none := rfl

theorem lookupCons (b : α) : lookup eq key k (b :: l) =
    if eq.same (key b) k then some b else lookup eq key k l := by
  unfold lookup
  rw [List.find?_cons]
  cases eq.same (key b) k <;> rfl

/- With distinct keys a row is found under every key equal to its own. -/
theorem lookupOfMem (dist : Distinct eq key l) (mem : a ∈ l) (h : eq.same (key a) k = true) :
    lookup eq key k l = some a := by
  induction l with
  | nil => cases mem
  | cons b l ih =>
    obtain ⟨head,tail⟩ := List.pairwise_cons.mp dist
    rcases List.mem_cons.mp mem with rfl | inside
    · rw [lookupCons,if_pos h]
    · have other : eq.same (key b) k = false := by
        rw [← eq.congrRight h]
        exact head a inside
      rw [lookupCons,if_neg (by simp [other]),ih tail inside]

theorem tailAbsent {b : α} (dist : Distinct eq key (b :: l)) (hit : eq.same (key b) k = true) :
    lookup eq key k l = none := by
  rw [lookupNone]
  intro a mem
  have apart := (List.pairwise_cons.mp dist).1 a mem
  rw [eq.congrLeft hit,eq.comm] at apart
  exact apart

theorem lookupAppend {b : α} (absent : lookup eq key (key b) l = none) : lookup eq key k (l ++ [b]) =
    if eq.same (key b) k then some b else lookup eq key k l := by
  have joined : lookup eq key k (l ++ [b]) =
      (lookup eq key k l).or (if eq.same (key b) k then some b else none) := by
    unfold lookup
    rw [List.find?_append,List.find?_singleton]
  rw [joined]
  split
  · rename_i same
    have moved : lookup eq key k l = none := (lookupCongr same).symm.trans absent
    rw [moved,Option.none_or]
  · exact Option.or_none

theorem lookupMap (keeps : ∀ a ∈ l, key (f a) = key a) :
    lookup eq key k (l.map f) = (lookup eq key k l).map f := by
  induction l with
  | nil => rfl
  | cons b l ih =>
    rw [List.map_cons,lookupCons,lookupCons,keeps b List.mem_cons_self,
      ih (fun a mem => keeps a (List.mem_cons_of_mem _ mem))]
    split <;> rfl

theorem lookupFilter (dist : Distinct eq key l) (p : α → Bool) :
    lookup eq key k (l.filter p) = (lookup eq key k l).filter p := by
  induction l with
  | nil => rfl
  | cons b l ih =>
    obtain ⟨head,tail⟩ := List.pairwise_cons.mp dist
    rw [List.filter_cons,lookupCons]
    by_cases hit : eq.same (key b) k = true
    · -- the only row under `k` is `b`; if it is filtered out nothing is left
      rw [if_pos hit]
      cases keep : p b with
      | true => rw [if_pos rfl,lookupCons,if_pos hit,Option.filter_some,if_pos keep]
      | false =>
        rw [if_neg (by simp),ih tail]
        rw [tailAbsent dist hit,Option.filter_some,if_neg (by simp [keep])]
        rfl
    · rw [if_neg hit]
      cases keep : p b with
      | true => rw [if_pos rfl,lookupCons,if_neg hit,ih tail]
      | false => rw [if_neg (by simp),ih tail]

theorem lookupDrop (k' : κ) : lookup eq key k (l.filter (fun a => !eq.same (key a) k')) =
    if eq.same k k' then none else lookup eq key k l := by
  unfold lookup
  rw [List.find?_filter]
  split
  · rename_i h
    rw [List.find?_eq_none]
    intro a _
    simp [eq.congrRight h]
  · rename_i h
    congr 1
    funext a
    cases hit : eq.same (key a) k with
    | false => simp
    | true =>
      rw [eq.congrLeft hit]
      simpa using h

theorem lookupUpdate (keeps : ∀ a, eq.same (key a) k = true → eq.same (key (f a)) k = true) :
    lookup eq key k' (update eq key k f l) =
      if eq.same k k' then (lookup eq key k l).map f else lookup eq key k' l := by
  induction l with
  | nil => simp [update,updateFirst,lookupNil]
  | cons b l ih =>
    have unfolded : update eq key k f (b :: l) =
        if eq.same (key b) k then f b :: l else b :: update eq key k f l := rfl
    rw [unfolded]
    by_cases hit : eq.same (key b) k = true
    · rw [if_pos hit,lookupCons,lookupCons,lookupCons,if_pos hit,eq.congrLeft (keeps b hit),eq.congrLeft hit]
      split <;> rfl
    · rw [if_neg hit,lookupCons,lookupCons,lookupCons,if_neg hit,ih]
      by_cases h : eq.same k k' = true
      · rw [if_pos h,if_pos h,← eq.congrRight h,if_neg hit]
      · rw [if_neg h,if_neg h]

/- With distinct keys a scan without `break` meets at most one row. -/
theorem flatMapLookup {β : Type} (dist : Distinct eq key l) (g : α → List β) :
    l.flatMap (fun a => if !eq.same (key a) k then [] else g a) =
      match lookup eq key k l with
      | none => []
      | some a => g a := by
  induction l with
  | nil => rfl
  | cons b l ih =>
    simp only [List.flatMap_cons,lookupCons,ih (List.pairwise_cons.mp dist).2]
    cases hit : eq.same (key b) k with
    | false => rfl
    | true => simp [tailAbsent dist hit]

theorem findSomeLookup {β : Type} (dist : Distinct eq key l) (g : α → Option β) :
    l.findSome? (fun a => if !eq.same (key a) k then none else g a) = (lookup eq key k l).bind g := by
  induction l with
  | nil => rfl
  | cons b l ih =>
    simp only [List.findSome?_cons,lookupCons,ih (List.pairwise_cons.mp dist).2]
    cases hit : eq.same (key b) k with
    | false => rfl
    | true =>
      simp only [tailAbsent dist hit,Bool.not_true,if_true,Option.bind_some]
      cases g b <;> rfl

theorem updateNone (absent : lookup eq key k l = none) : update eq key k f l = l :=
  updateFirstNone absent

theorem memUpdate {b : α} (mem : b ∈ update eq key k f l) :
    b ∈ l ∨ ∃ a ∈ l, eq.same (key a) k = true ∧ b = f a :=
  memUpdateFirst mem

theorem distinctKeys {l' : List α} (keys : l'.map key = l.map key) (dist : Distinct eq key l) :
    Distinct eq key l' := by
  have pairs : (l.map key).Pairwise (fun a b => eq.same a b = false) := List.pairwise_map.mpr dist
  rw [← keys] at pairs
  exact List.pairwise_map.mp pairs

theorem distinctFilter (dist : Distinct eq key l) (p : α → Bool) : Distinct eq key (l.filter p) :=
  List.Pairwise.filter p dist

theorem distinctMap (dist : Distinct eq key l) (keeps : ∀ a ∈ l, key (f a) = key a) :
    Distinct eq key (l.map f) := by
  refine List.pairwise_map.mpr (dist.imp_of_mem ?_)
  intro a b ha hb h
  rw [keeps a ha,keeps b hb]
  exact h

theorem distinctAppend (dist : Distinct eq key l) (b : α) (absent : lookup eq key (key b) l = none) :
    Distinct eq key (l ++ [b]) := by
  refine List.pairwise_append.mpr ⟨dist,List.pairwise_singleton _ _,?_⟩
  intro a ha c hc
  rw [List.mem_singleton] at hc
  subst hc
  exact lookupNone.mp absent a ha

theorem distinctUpdate (dist : Distinct eq key l)
    (keeps : ∀ a, eq.same (key a) k = true → eq.same (key (f a)) (key a) = true) :
    Distinct eq key (update eq key k f l) := by
  induction l with
  | nil => exact List.Pairwise.nil
  | cons b l ih =>
    obtain ⟨head,tail⟩ := List.pairwise_cons.mp dist
    have unfolded : update eq key k f (b :: l) =
        if eq.same (key b) k then f b :: l else b :: update eq key k f l := rfl
    rw [unfolded]
    split
    · rename_i hit
      refine List.pairwise_cons.mpr ⟨?_,tail⟩
      intro a mem
      rw [eq.congrLeft (keeps b hit)]
      exact head a mem
    · refine List.pairwise_cons.mpr ⟨?_,ih tail⟩
      intro a mem
      rcases memUpdate mem with old | ⟨c,hc,hit,rfl⟩
      · exact head a old
      · rw [eq.congrRight (keeps c hit)]
        exact head c hc

end Tables
end Keyed
