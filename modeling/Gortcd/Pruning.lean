import Gortcd.Calls
import Mathlib.Data.List.Perm.Basic

/-! `Prune` loop by loop: the temporary slices, the copies of the range variables and the
compaction in place of the slices that are being iterated. The loops compute the section
`prune`, which keeps exactly what expires later; pruning twice is pruning once. -/
namespace Gortcd.Pruning
open Keyed Net Ports Sections Records Calls

/- `copy`: the destination afterwards and the number of elements copied. -/
def copy {α : Type} (dst src : List α) : List α × Nat :=
  (src.take dst.length ++ dst.drop src.length,min dst.length src.length)

/- `n := copy(dst, src); dst = dst[:n]`. -/
def shrink {α : Type} (dst src : List α) : List α := (copy dst src).1.take (copy dst src).2

def newBindings (t : Time) (bindings : List Binding) : List Binding :=
  bindings.foldl (fun newBindings b => if t < b.timeout then newBindings ++ [b] else newBindings) []

/- The range variable `p` is a copy, so its `Bindings` change without the slice. -/
def newPermissions (t : Time) (permissions : List Permission) : List Permission :=
  permissions.foldl (fun newPermissions p =>
    let p := { p with bindings := newBindings t p.bindings }
    if t < p.timeout then newPermissions ++ [p] else newPermissions) []

structure Loop where
  allocs : Table
  newAllocs : List Allocation
  toDealloc : List Allocation
  deriving DecidableEq, Repr

-- The body of `for i := range a.allocs`.
def visit (t : Time) (s : Loop) (i : Nat) : Loop :=
  match s.allocs[i]? with
  | none => s
  | some a =>
    let a := { a with permissions := shrink a.permissions (newPermissions t a.permissions) }
    if t < a.timeout then { s with allocs := s.allocs.set i a, newAllocs := s.newAllocs ++ [a] }
    else { s with allocs := s.allocs.set i a, toDealloc := s.toDealloc ++ [a] }

def loop (t : Time) (allocs : Table) : Loop := (List.range allocs.length).foldl (visit t) ⟨allocs,[],[]⟩

def pruneLoops (allocs : Table) (t : Time) : Table × List Allocation :=
  let out := loop t allocs
  (shrink out.allocs out.newAllocs,out.toDealloc)

theorem shrinkCompact {α : Type} (dst src : List α) : shrink dst src = compact dst src := by
  have length : (src.take dst.length).length = min dst.length src.length := List.length_take
  unfold shrink copy compact
  dsimp only
  rw [← length,List.take_left']
  rfl

theorem appended {α β : Type} (f : α → β) (p : β → Prop) [DecidablePred p] (l : List α) (acc : List β) :
    l.foldl (fun acc x => if p (f x) then acc ++ [f x] else acc) acc = acc ++ (l.map f).filter (fun y => decide (p y)) := by
  induction l generalizing acc with
  | nil => simp
  | cons x l ih =>
    rw [List.foldl_cons,ih,List.map_cons]
    by_cases live : p (f x)
    · simp [live]
    · simp [live]

theorem visitedBindings (t : Time) (l : List Binding) : newBindings t l = l.filter (fun b => decide (t < b.timeout)) := by
  have folded := appended id (fun b : Binding => t < b.timeout) l []
  rwa [List.map_id,List.nil_append] at folded

theorem visitedPermissions (t : Time) (l : List Permission) :
    newPermissions t l = (l.map (Permission.prune t)).filter (fun p => decide (t < p.timeout)) := by
  unfold newPermissions
  simp only [visitedBindings]
  exact appended (Permission.prune t) (fun p => t < p.timeout) l []

theorem visitAt (t : Time) (done rest kept old : List Allocation) (a : Allocation) :
    visit t ⟨done ++ a :: rest,kept,old⟩ done.length =
      ⟨done ++ [a.prune t] ++ rest,kept ++ [a.prune t].filter (fun a => decide (t < a.timeout)),
        old ++ [a.prune t].filter (fun a => !decide (t < a.timeout))⟩ := by
  have inPlace : ({ a with permissions := shrink a.permissions (newPermissions t a.permissions) } : Allocation) =
      a.prune t := by rw [shrinkCompact,visitedPermissions]; rfl
  have here : (done ++ a :: rest)[done.length]? = some a := by simp
  have written : (done ++ a :: rest).set done.length (a.prune t) = done ++ [a.prune t] ++ rest := by simp
  unfold visit
  simp only [here,inPlace,written]
  have timeout : (a.prune t).timeout = a.timeout := rfl
  by_cases live : t < a.timeout
  · simp [live,timeout]
  · simp [live,timeout]

/- The loop after its first iterations: the visited part is pruned in place. -/
theorem visited (t : Time) (allocs : Table) (k : Nat) (within : k ≤ allocs.length) :
    (List.range k).foldl (visit t) ⟨allocs,[],[]⟩ =
      ⟨(allocs.take k).map (Allocation.prune t) ++ allocs.drop k,
        ((allocs.take k).map (Allocation.prune t)).filter (fun a => decide (t < a.timeout)),
        ((allocs.take k).map (Allocation.prune t)).filter (fun a => !decide (t < a.timeout))⟩ := by
  induction k with
  | zero => rfl
  | succ k ih =>
    have taken : allocs.take (k + 1) = allocs.take k ++ [allocs.get ⟨k,within⟩] := (List.take_append_getElem within).symm
    have left : allocs.drop k = allocs.get ⟨k,within⟩ :: allocs.drop (k + 1) := List.drop_eq_getElem_cons within
    have length : ((allocs.take k).map (Allocation.prune t)).length = k := by
      rw [List.length_map,List.length_take_of_le (Nat.le_of_succ_le within)]
    rw [List.range_succ,List.foldl_append,ih (Nat.le_of_succ_le within),left,List.foldl_cons,List.foldl_nil]
    have step := visitAt t ((allocs.take k).map (Allocation.prune t)) (allocs.drop (k + 1))
    rw [length] at step
    rw [step,taken,List.map_append,List.filter_append,List.filter_append]
    rfl

theorem pruneLoopsSection (allocs : Table) (t : Time) : pruneLoops allocs t = prune allocs t := by
  have all := visited t allocs allocs.length (Nat.le_refl _)
  rw [List.take_length,List.drop_length,List.append_nil] at all
  unfold pruneLoops loop
  rw [all]
  exact congrArg (·,_) (shrinkCompact _ _)

def Allocator.pruneAll (turn : Turn) (a : Allocator) (t : Time) : Allocator :=
  let out := pruneLoops a.allocs t
  ⟨out.1,dealloc turn a.raddr out.2⟩

theorem pruneAllCall (turn : Turn) (a : Allocator) (t : Time) : Allocator.pruneAll turn a t = a.prune turn t := by
  unfold Allocator.pruneAll Allocator.prune
  rw [pruneLoopsSection]

/- What is to be kept of a table at a time, and what is to be dropped. -/
def survivors (t : Time) (allocs : Table) : Table :=
  (allocs.filter (fun a => decide (t < a.timeout))).map (fun a => { a with
    permissions := (a.permissions.filter (fun p => decide (t < p.timeout))).map (fun p => { p with
      bindings := p.bindings.filter (fun b => decide (t < b.timeout)) }) })

def expired (t : Time) (allocs : Table) : List Allocation := allocs.filter (fun a => !decide (t < a.timeout))

/- The arguments of the calls of `raddr.Remove`, in order. -/
def requests (dropped : List Allocation) : List (Addr × Protocol) := dropped.map (fun a => (a.tuple.server,a.tuple.proto))

theorem allocationPruned (t : Time) (a : Allocation) : a.prune t = { a with
    permissions := (a.permissions.filter (fun p => decide (t < p.timeout))).map (Permission.prune t) } := by
  have permissions := prunedPermissions t a
  rw [List.filter_map] at permissions
  exact congrArg (fun l => { a with permissions := l }) permissions

theorem prunedTable (t : Time) (allocs : Table) : (prune allocs t).1 = survivors t allocs := by
  rw [pruneTable,List.filter_map]
  exact congrArg (fun f => (allocs.filter (fun a => decide (t < a.timeout))).map f) (funext (allocationPruned t))

theorem prunedRequests (t : Time) (allocs : Table) : requests (prune allocs t).2 = requests (expired t allocs) := by
  unfold prune requests expired
  dsimp only
  rw [List.filter_map,List.map_map]
  rfl

theorem deallocRequests (turn : Turn) (ports : NetAllocator) (dropped : List Allocation) :
    dealloc turn ports dropped = (requests dropped).foldl (fun ports r => ports.remove turn r.1 r.2) ports := by
  rw [requests,List.foldl_map]
  rfl

theorem laterTime (t t' x : Time) : decide (max t t' < x) = (decide (t < x) && decide (t' < x)) := by
  rw [← Bool.decide_and,decide_eq_decide,Int.max_lt]

/- Filtering by two times, with a rewriting after each, is filtering by the later one. -/
theorem filterLater {α : Type} (timeout : α → Time) {f g h : α → α} (l : List α) (t t' : Time)
    (keeps : ∀ x, timeout (f x) = timeout x) (both : ∀ x, g (f x) = h x) :
    ((((l.filter (fun x => decide (t < timeout x))).map f).filter (fun x => decide (t' < timeout x))).map g) =
      (l.filter (fun x => decide (max t t' < timeout x))).map h := by
  rw [List.filter_map,List.map_map,List.filter_filter]
  have rewriting : g ∘ f = h := funext both
  have kept : (fun x => ((fun x => decide (t' < timeout x)) ∘ f) x && decide (t < timeout x)) =
      fun x => decide (max t t' < timeout x) := by
    funext x
    rw [Function.comp_apply,keeps,laterTime]
    exact Bool.and_comm _ _
  rw [rewriting,kept]

theorem survivorsTwice (t t' : Time) (allocs : Table) :
    survivors t' (survivors t allocs) = survivors (max t t') allocs := by
  refine filterLater Allocation.timeout allocs t t' (fun _ => rfl) ?_
  intro a
  refine congrArg (fun l => { a with permissions := l }) ?_
  refine filterLater Permission.timeout a.permissions t t' (fun _ => rfl) ?_
  intro p
  refine congrArg (fun l => { p with bindings := l }) ?_
  have bindings := @filterLater Binding Binding.timeout id id id p.bindings t t' (fun _ => rfl) (fun _ => rfl)
  rwa [List.map_id,List.map_id,List.map_id] at bindings

theorem expiredLater (t t' : Time) (allocs : Table) :
    (requests (expired t allocs) ++ requests (expired t' (survivors t allocs))).Perm
      (requests (expired (max t t') allocs)) := by
  have second : requests (expired t' (survivors t allocs)) =
      requests ((allocs.filter (fun a => decide (t < a.timeout))).filter (fun a => !decide (t' < a.timeout))) := by
    unfold requests expired survivors
    rw [List.filter_map,List.map_map]
    rfl
  have first : expired t allocs =
      (expired (max t t') allocs).filter (fun a => !decide (t < a.timeout)) := by
    unfold expired
    rw [List.filter_filter]
    refine List.filter_congr ?_
    intro a _
    rw [laterTime]
    cases decide (t < a.timeout) <;> cases decide (t' < a.timeout) <;> rfl
  have rest : (allocs.filter (fun a => decide (t < a.timeout))).filter (fun a => !decide (t' < a.timeout)) =
      (expired (max t t') allocs).filter (fun a => !!decide (t < a.timeout)) := by
    unfold expired
    rw [List.filter_filter,List.filter_filter]
    refine List.filter_congr ?_
    intro a _
    rw [laterTime]
    cases decide (t < a.timeout) <;> cases decide (t' < a.timeout) <;> rfl
  rw [second,first,rest]
  unfold requests
  rw [← List.map_append]
  exact (List.filter_append_perm _ _).map _

/- What `Prune` does to the table and to the port table, and that it composes. -/
structure Exact (turn : Turn) (a : Allocator) (t : Time) : Prop where
  table : (Allocator.pruneAll turn a t).allocs = survivors t a.allocs
  dropped : requests (pruneLoops a.allocs t).2 = requests (expired t a.allocs)
  ports : (Allocator.pruneAll turn a t).raddr =
    (requests (expired t a.allocs)).foldl (fun ports r => ports.remove turn r.1 r.2) a.raddr
  again : ∀ t', (Allocator.pruneAll turn (Allocator.pruneAll turn a t) t').allocs =
    (Allocator.pruneAll turn a (max t t')).allocs
  asked : ∀ t', (requests (pruneLoops a.allocs t).2 ++
      requests (pruneLoops (Allocator.pruneAll turn a t).allocs t').2).Perm
    (requests (pruneLoops a.allocs (max t t')).2)
  idempotent : Allocator.pruneAll turn (Allocator.pruneAll turn a t) t = Allocator.pruneAll turn a t

variable {turn : Turn}

def bindingsOf (a : Allocation) : List Binding := a.permissions.flatMap Permission.bindings

theorem statsCounts (allocs : Table) :
    stats allocs = ⟨allocs.length,(allocs.flatMap Allocation.permissions).length,(allocs.flatMap bindingsOf).length⟩ := by
  have inner (s : Stats) (l : List Permission) :
      l.foldl (fun s p => { s with bindings := s.bindings + p.bindings.length }) s =
        { s with bindings := s.bindings + (l.flatMap Permission.bindings).length } := by
    induction l generalizing s with
    | nil => rfl
    | cons p l ih =>
      rw [List.foldl_cons,ih,List.flatMap_cons,List.length_append,Nat.add_assoc]
  have outer (s : Stats) (l : Table) :
      l.foldl (fun s a => a.permissions.foldl (fun s p => { s with bindings := s.bindings + p.bindings.length })
        { s with permissions := s.permissions + a.permissions.length }) s =
        ⟨s.allocations,s.permissions + (l.flatMap Allocation.permissions).length,
          s.bindings + (l.flatMap bindingsOf).length⟩ := by
    induction l generalizing s with
    | nil => rfl
    | cons a l ih =>
      rw [List.foldl_cons,inner,ih,List.flatMap_cons,List.flatMap_cons,List.length_append,List.length_append,
        ← Nat.add_assoc,← Nat.add_assoc]
      rfl
  exact (outer _ _).trans (by rw [Nat.zero_add,Nat.zero_add])

theorem fewerFiltered {α β : Type} {f : α → List β} (h : α → α) (p : α → Bool) (l : List α)
    (fewer : ∀ x, (f (h x)).length ≤ (f x).length) : (((l.map h).filter p).flatMap f).length ≤ (l.flatMap f).length := by
  induction l with
  | nil => exact Nat.le_refl 0
  | cons x l ih =>
    rw [List.map_cons,List.flatMap_cons,List.length_append,List.filter_cons]
    split
    · rw [List.flatMap_cons,List.length_append]
      exact Nat.add_le_add (fewer x) ih
    · exact Nat.le_add_left_of_le ih

/- Every record that a pass does not keep is one that it releases, and no count grows. -/
theorem statsPruned (t : Time) (allocs : Table) :
    (stats (prune allocs t).1).allocations + (prune allocs t).2.length = (stats allocs).allocations ∧
    (stats (prune allocs t).1).permissions ≤ (stats allocs).permissions ∧
    (stats (prune allocs t).1).bindings ≤ (stats allocs).bindings := by
  have permissions (a : Allocation) : (a.prune t).permissions.length ≤ a.permissions.length := by
    rw [prunedPermissions]
    exact Nat.le_trans (List.length_filter_le _ _) (Nat.le_of_eq (List.length_map _))
  have bindings (a : Allocation) : (bindingsOf (a.prune t)).length ≤ (bindingsOf a).length := by
    rw [bindingsOf,prunedPermissions]
    exact fewerFiltered _ _ _ (fun p => List.length_filter_le _ p.bindings)
  simp only [statsCounts,pruneTable]
  refine ⟨?_,fewerFiltered _ _ _ permissions,fewerFiltered _ _ _ bindings⟩
  have split := List.length_eq_length_filter_add (l := allocs.map (Allocation.prune t)) (fun a => decide (t < a.timeout))
  rw [List.length_map] at split
  exact split.symm

theorem pruneAllTable (a : Allocator) (t : Time) : (Allocator.pruneAll turn a t).allocs = survivors t a.allocs := by
  rw [pruneAllCall]
  exact prunedTable t a.allocs

theorem loopsDropped (allocs : Table) (t : Time) : requests (pruneLoops allocs t).2 = requests (expired t allocs) := by
  rw [pruneLoopsSection]
  exact prunedRequests t allocs

theorem pruneAllPorts (a : Allocator) (t : Time) : (Allocator.pruneAll turn a t).raddr =
    (requests (expired t a.allocs)).foldl (fun ports r => ports.remove turn r.1 r.2) a.raddr := by
  unfold Allocator.pruneAll
  dsimp only
  rw [deallocRequests,loopsDropped]

theorem pruneAllTwice (a : Allocator) (t t' : Time) :
    (Allocator.pruneAll turn (Allocator.pruneAll turn a t) t').allocs = (Allocator.pruneAll turn a (max t t')).allocs := by
  rw [pruneAllTable,pruneAllTable,pruneAllTable,survivorsTwice]

theorem expiredNone (t : Time) (allocs : Table) : expired t (survivors t allocs) = [] := by
  unfold expired survivors
  rw [List.filter_eq_nil_iff]
  intro b mem
  obtain ⟨c,kept,rfl⟩ := List.mem_map.mp mem
  simpa using (List.mem_filter.mp kept).2

theorem pruneExact (turn : Turn) (a : Allocator) (t : Time) : Exact turn a t := by
  refine ⟨pruneAllTable a t,loopsDropped a.allocs t,pruneAllPorts a t,pruneAllTwice a t,?_,?_⟩
  · intro t'
    rw [loopsDropped,loopsDropped,loopsDropped,pruneAllTable]
    exact expiredLater t t' a.allocs
  · have ports : (Allocator.pruneAll turn (Allocator.pruneAll turn a t) t).raddr =
        (Allocator.pruneAll turn a t).raddr := by
      rw [pruneAllPorts,pruneAllTable,expiredNone]
      rfl
    have allocs := @pruneAllTwice turn a t t
    rw [Int.max_self] at allocs
    exact congrArg₂ Allocator.mk allocs ports

end Gortcd.Pruning
