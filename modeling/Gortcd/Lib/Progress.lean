import Gortcd.Lib.Runs
import Mathlib.Algebra.BigOperators.Group.Multiset.Basic

/-! Work that comes to an end. Some events of a machine may happen at any time (`may`), some of
these it is bound to make when it can (`own`). If each of the former takes something off a
measure, and none of the latter is left only where the work is done, then every schedule is
short and cannot end before the work is done. -/
namespace Progress
open Runs

variable {σ ε : Type} {m : Machine σ ε}

def after (m : Machine σ ε) (s : σ) : List ε → σ
  | [] => s
  | e :: es => after m (m.next s e) es

/- Events of the given kind, each of them enabled in its turn. -/
def Schedule (m : Machine σ ε) (may : ε → Prop) (s : σ) (es : List ε) : Prop := Allowed m s es ∧ ∀ e ∈ es, may e

def Stuck (m : Machine σ ε) (own : ε → Prop) (s : σ) : Prop := ∀ e, own e → ¬ m.enabled s e

structure Drain (m : Machine σ ε) (may own : ε → Prop) (inv done : σ → Prop) (work : σ → Nat) : Prop where
  among : ∀ e, own e → may e
  kept : ∀ s e, inv s → m.enabled s e → may e → inv (m.next s e)
  spent : ∀ s e, inv s → m.enabled s e → may e → work (m.next s e) < work s
  stuck : ∀ s, inv s → Stuck m own s → done s

variable {may own : ε → Prop} {inv done : σ → Prop} {work : σ → Nat}

/- What each of the events keeps, a schedule keeps. -/
theorem scheduleKept {Q : σ → Prop} (step : ∀ s e, Q s → m.enabled s e → may e → Q (m.next s e)) {s : σ} (held : Q s)
    {es : List ε} (schedule : Schedule m may s es) : Q (after m s es) := by
  induction es generalizing s with
  | nil => exact held
  | cons e es ih =>
    obtain ⟨⟨guard,allowed⟩,all⟩ := schedule
    obtain ⟨first,rest⟩ := List.forall_mem_cons.mp all
    exact ih (step s e held guard first) ⟨allowed,rest⟩

theorem scheduleShort (drain : Drain m may own inv done work) {s : σ} (held : inv s) {es : List ε}
    (schedule : Schedule m may s es) : es.length + work (after m s es) ≤ work s := by
  induction es generalizing s with
  | nil => exact Nat.le_of_eq (Nat.zero_add _)
  | cons e es ih =>
    obtain ⟨⟨guard,allowed⟩,all⟩ := schedule
    obtain ⟨first,rest⟩ := List.forall_mem_cons.mp all
    have less := drain.spent s e held guard first
    have later := ih (drain.kept s e held guard first) ⟨allowed,rest⟩
    simp only [List.length_cons,after]
    omega

/- No schedule is longer than the work, and one that cannot go on has done it. -/
theorem drained (drain : Drain m may own inv done work) {s : σ} (held : inv s) {es : List ε}
    (schedule : Schedule m may s es) :
    es.length ≤ work s ∧ (Stuck m own (after m s es) → done (after m s es)) := by
  refine ⟨?_,drain.stuck _ (scheduleKept drain.kept held schedule)⟩
  have short := scheduleShort drain held schedule
  omega

/- There is a schedule to the end. -/
theorem drains (drain : Drain m may own inv done work) {s : σ} (held : inv s) :
    ∃ es, Schedule m may s es ∧ done (after m s es) := by
  generalize size : work s = n
  induction n using Nat.strongRecOn generalizing s with
  | ind n ih =>
    by_cases end' : Stuck m own s
    · exact ⟨[],⟨trivial,List.forall_mem_nil _⟩,drain.stuck s held end'⟩
    · have going : ∃ e, own e ∧ m.enabled s e := by
        refine Classical.byContradiction (fun none => end' ?_)
        intro e own' guard
        exact none ⟨e,own',guard⟩
      obtain ⟨e,own',guard⟩ := going
      have fits := drain.among e own'
      have less := drain.spent s e held guard fits
      obtain ⟨es,⟨allowed,all⟩,finished⟩ := ih _ (size ▸ less) (drain.kept s e held guard fits) rfl
      exact ⟨e :: es,⟨⟨guard,allowed⟩,List.forall_mem_cons.mpr ⟨fits,all⟩⟩,finished⟩

/- A measure that is a sum over the parties, when one of them moves. -/
theorem sumSplit {α : Type} [DecidableEq α] {parties : Multiset α} {a : α} (mem : a ∈ parties) (f : α → Nat) :
    (parties.map f).sum = f a + ((parties.erase a).map f).sum := by
  rw [← Multiset.sum_cons,← Multiset.map_cons f,Multiset.cons_erase mem]

theorem sumMoved {α : Type} [DecidableEq α] {parties : Multiset α} {a : α} (mem : a ∈ parties) (b : α) (f : α → Nat) :
    ((b ::ₘ parties.erase a).map f).sum + f a = (parties.map f).sum + f b := by
  rw [sumSplit mem f,Multiset.map_cons,Multiset.sum_cons]
  omega

end Progress
