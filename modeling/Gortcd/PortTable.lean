import Mathlib.Data.List.Nodup
import Mathlib.Data.List.Induction
import Gortcd.Ports

/-! internal/allocator/port.go once more: `Remove` as its loop runs, and the table after any
sequence of calls. The scratch slice `newAllocs` is part of the state between the calls, so
that its being empty there is a result. -/
namespace Gortcd.PortTable
open Keyed Net Ports

structure Work where
  newAllocs : List NetAllocation
  toRemove : List NetAllocation
  deriving DecidableEq, Repr

def visit (turn : Turn) (addr : Addr) (proto : Protocol) (w : Work) (alloc : NetAllocation) : Work :=
  if alloc.proto != proto then { w with newAllocs := w.newAllocs ++ [alloc] }
  else if !turn.addrs.same addr alloc.addr then { w with newAllocs := w.newAllocs ++ [alloc] }
  else { w with toRemove := w.toRemove ++ [alloc] }

def scan (turn : Turn) (addr : Addr) (proto : Protocol) (w : Work) (allocs : List NetAllocation) : Work :=
  allocs.foldl (visit turn addr proto) w

def removePorts (turn : Turn) (a : NetAllocator) (addr : Addr) (proto : Protocol) : NetAllocator :=
  let w := scan turn addr proto ⟨a.newAllocs,[]⟩ a.allocs
  if w.toRemove.length = 0 then { a with newAllocs := [] }
  else
    { allocs := compact a.allocs w.newAllocs
      newAllocs := []
      closed := a.closed ++ w.toRemove.map NetAllocation.conn }

-- `New` with the answer of `AllocatePort`.
def newPort (a : NetAllocator) : Except PortErr NetAllocation → NetAllocator
  | .error _ => a
  | .ok n => a.new n

inductive Call where
  | new (answer : Except PortErr NetAllocation)
  | remove (addr : Addr) (proto : Protocol)

def step (turn : Turn) (a : NetAllocator) : Call → NetAllocator
  | .new answer => newPort a answer
  | .remove addr proto => removePorts turn a addr proto

def serve (turn : Turn) (calls : List Call) : NetAllocator := calls.foldl (step turn) NetAllocator.empty

theorem visitUnmatched {turn : Turn} {addr : Addr} {proto : Protocol} {w : Work} {n : NetAllocation}
    (other : matched turn addr proto n = false) :
    visit turn addr proto w n = { w with newAllocs := w.newAllocs ++ [n] } := by
  unfold matched at other
  unfold visit
  cases same : n.proto == proto with
  | false => simp [bne,same]
  | true =>
    rw [same,Bool.true_and] at other
    simp [bne,same,other]

theorem visitMatched {turn : Turn} {addr : Addr} {proto : Protocol} {w : Work} {n : NetAllocation}
    (hit : matched turn addr proto n = true) :
    visit turn addr proto w n = { w with toRemove := w.toRemove ++ [n] } := by
  unfold matched at hit
  obtain ⟨same,equal⟩ := Bool.and_eq_true_iff.mp hit
  simp [visit,bne,same,equal]

theorem scanEq (turn : Turn) (addr : Addr) (proto : Protocol) (w : Work) (allocs : List NetAllocation) :
    scan turn addr proto w allocs =
      ⟨w.newAllocs ++ allocs.filter (fun n => !matched turn addr proto n),
        w.toRemove ++ allocs.filter (matched turn addr proto)⟩ := by
  unfold scan
  induction allocs generalizing w with
  | nil => simp
  | cons n rest ih =>
    rw [List.foldl_cons,ih]
    cases hit : matched turn addr proto n with
    | false => simp [visitUnmatched hit,hit]
    | true => simp [visitMatched hit,hit]

theorem removePortsEq (turn : Turn) (a : NetAllocator) (addr : Addr) (proto : Protocol) :
    removePorts turn a addr proto = a.remove turn addr proto := by
  simp only [removePorts,NetAllocator.remove,scanEq,List.nil_append,List.length_eq_zero_iff,List.isEmpty_iff]

theorem removeClean {turn : Turn} {a : NetAllocator} (scratch : a.newAllocs = []) (addr : Addr) (proto : Protocol) :
    removePorts turn a addr proto =
      ⟨a.allocs.filter (fun n => !matched turn addr proto n),[],
        a.closed ++ (a.allocs.filter (matched turn addr proto)).map NetAllocation.conn⟩ := by
  rw [removePortsEq]
  by_cases none : ∀ n ∈ a.allocs, matched turn addr proto n = false
  · rw [removeUnmatched scratch none]
    have all : a.allocs.filter (fun n => !matched turn addr proto n) = a.allocs :=
      List.filter_eq_self.mpr (fun n mem => by rw [none n mem]; rfl)
    have empty : a.allocs.filter (matched turn addr proto) = [] :=
      List.filter_eq_nil_iff.mpr (fun n mem => by rw [none n mem]; nofun)
    rw [all,empty,List.map_nil,List.append_nil]
    exact congrArg (NetAllocator.mk a.allocs · a.closed) scratch
  · have some' : a.allocs.filter (matched turn addr proto) ≠ [] := by
      intro empty
      exact none (fun n mem => Bool.eq_false_iff.mpr (List.filter_eq_nil_iff.mp empty n mem))
    simp [NetAllocator.remove,scratch,some',compactFilter]

def Call.removes (turn : Turn) (n : NetAllocation) : Call → Bool
  | .new _ => false
  | .remove addr proto => matched turn addr proto n

/- The successful allocations in order, each with whether a later `Remove` matches it. -/
def fates (turn : Turn) : List Call → List (NetAllocation × Bool)
  | [] => []
  | .new (.ok n) :: later => (n,later.any (Call.removes turn n)) :: fates turn later
  | _ :: later => fates turn later

theorem fatesFailed (turn : Turn) (calls : List Call) (err : PortErr) :
    fates turn (calls ++ [.new (.error err)]) = fates turn calls := by
  fun_induction fates turn calls with
  | case1 => rfl
  | case2 n later ih => simp [fates,ih,Call.removes]
  | case3 call later other ih => simp [fates,ih]

theorem fatesNew (turn : Turn) (calls : List Call) (n : NetAllocation) :
    fates turn (calls ++ [.new (.ok n)]) = fates turn calls ++ [(n,false)] := by
  fun_induction fates turn calls with
  | case1 => rfl
  | case2 m later ih => simp [fates,ih,Call.removes]
  | case3 call later other ih => simp [fates,ih]

theorem fatesRemove (turn : Turn) (calls : List Call) (addr : Addr) (proto : Protocol) :
    fates turn (calls ++ [.remove addr proto]) =
      (fates turn calls).map (fun x => (x.1,x.2 || matched turn addr proto x.1)) := by
  fun_induction fates turn calls with
  | case1 => rfl
  | case2 n later ih => simp [fates,ih,Call.removes]
  | case3 call later other ih => simp [fates,ih]

def survivors (turn : Turn) (calls : List Call) : List NetAllocation :=
  ((fates turn calls).filter (fun x => !x.2)).map Prod.fst

def removed (turn : Turn) (calls : List Call) : List NetAllocation :=
  ((fates turn calls).filter (fun x => x.2)).map Prod.fst

theorem survivorsRemove (turn : Turn) (calls : List Call) (addr : Addr) (proto : Protocol) :
    survivors turn (calls ++ [.remove addr proto]) =
      (survivors turn calls).filter (fun n => !matched turn addr proto n) := by
  unfold survivors
  rw [fatesRemove]
  simp [List.filter_map,Function.comp_def,Bool.and_comm]

theorem removedRemove (turn : Turn) (calls : List Call) (addr : Addr) (proto : Protocol) :
    (removed turn (calls ++ [.remove addr proto])).Perm
      (removed turn calls ++ (survivors turn calls).filter (matched turn addr proto)) := by
  unfold removed survivors
  rw [fatesRemove]
  rw [List.filter_map,List.map_map,List.filter_map,← List.map_append,List.filter_filter]
  exact (filterOr Prod.snd (fun x => matched turn addr proto x.1) (fates turn calls)).map Prod.fst

structure Bookkept (turn : Turn) (calls : List Call) (a : NetAllocator) : Prop where
  scratch : a.newAllocs = []
  table : a.allocs = survivors turn calls
  closed : a.closed.Perm ((removed turn calls).map NetAllocation.conn)

theorem stepBookkept {turn : Turn} {calls : List Call} {a : NetAllocator} (kept : Bookkept turn calls a)
    (call : Call) : Bookkept turn (calls ++ [call]) (step turn a call) := by
  cases call with
  | new answer => cases answer with
    | error err =>
      refine ⟨kept.scratch,?_,?_⟩
      · rw [survivors,fatesFailed]
        exact kept.table
      · rw [removed,fatesFailed]
        exact kept.closed
    | ok n =>
      refine ⟨kept.scratch,?_,?_⟩
      · rw [survivors,fatesNew]
        simp [step,newPort,NetAllocator.new,kept.table,survivors]
      · rw [removed,fatesNew]
        simpa [step,newPort,NetAllocator.new,removed] using kept.closed
  | remove addr proto =>
    have eq : step turn a (.remove addr proto) = _ := removeClean kept.scratch addr proto
    rw [eq]
    refine ⟨rfl,?_,?_⟩
    · rw [survivorsRemove,← kept.table]
    · refine List.Perm.trans ?_ ((removedRemove turn calls addr proto).map NetAllocation.conn).symm
      rw [List.map_append,← kept.table]
      exact kept.closed.append_right _

theorem serveBookkept (turn : Turn) (calls : List Call) : Bookkept turn calls (serve turn calls) := by
  induction calls using List.reverseRecOn with
  | nil => exact ⟨rfl,rfl,.nil⟩
  | append_singleton calls call ih =>
    rw [serve,List.foldl_append]
    exact stepBookkept ih call

theorem memRemoved {turn : Turn} {calls : List Call} {c : Conn} :
    c ∈ (removed turn calls).map NetAllocation.conn ↔ ∃ x ∈ fates turn calls, x.2 = true ∧ x.1.conn = c := by
  unfold removed
  rw [List.map_map,List.mem_map]
  constructor
  · intro ⟨x,mem,conn⟩
    have parts := List.mem_filter.mp mem
    exact ⟨x,parts.1,parts.2,conn⟩
  · intro ⟨x,mem,matched,conn⟩
    exact ⟨x,List.mem_filter.mpr ⟨mem,matched⟩,conn⟩

/- With a connection of its own for each allocation the number of its closings is its fate. -/
theorem closedOnce {turn : Turn} {calls : List Call} {a : NetAllocator} (kept : Bookkept turn calls a)
    (own : ((fates turn calls).map (fun x => x.1.conn)).Nodup) {x : NetAllocation × Bool}
    (mem : x ∈ fates turn calls) : a.closed.count x.1.conn = if x.2 then 1 else 0 := by
  rw [kept.closed.count_eq]
  cases fate : x.2 with
  | true =>
    have part : ((removed turn calls).map NetAllocation.conn).Sublist ((fates turn calls).map (fun x => x.1.conn)) := by
      unfold removed
      rw [List.map_map]
      exact List.filter_sublist.map _
    exact List.count_eq_one_of_mem (own.sublist part) (memRemoved.mpr ⟨x,mem,fate,rfl⟩)
  | false =>
    refine List.count_eq_zero.mpr (fun inside => ?_)
    obtain ⟨y,other,closed,conn⟩ := memRemoved.mp inside
    rw [List.inj_on_of_nodup_map own other mem conn,fate] at closed
    cases closed

/- The table over every sequence of calls; the states in between are those of its prefixes. -/
theorem portTableExact (turn : Turn) (calls : List Call) :
    (serve turn calls).newAllocs = [] ∧ (serve turn calls).allocs = survivors turn calls ∧
      (serve turn calls).closed.Perm ((removed turn calls).map NetAllocation.conn) ∧
      (((fates turn calls).map (fun x => x.1.conn)).Nodup → ∀ x ∈ fates turn calls,
        (serve turn calls).closed.count x.1.conn = if x.2 then 1 else 0) ∧
      ∀ addr proto, (∀ n ∈ (serve turn calls).allocs, matched turn addr proto n = false) →
        step turn (serve turn calls) (.remove addr proto) = serve turn calls := by
  have kept := serveBookkept turn calls
  refine ⟨kept.scratch,kept.table,kept.closed,fun own x mem => closedOnce kept own mem,fun addr proto none => ?_⟩
  rw [step,removePortsEq,removeUnmatched kept.scratch none]

end Gortcd.PortTable
