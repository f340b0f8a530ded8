import Gortcd.Lib.Runs

/-! A machine as one of its users meets it. Some of the steps are inputs of his, he gets an
answer to each of them, and a part of the state is his own. When the other steps leave that
part alone, and his own go by it and by the input, the machine is for him the one that
`Alone` describes: all he ever sees is decided by his own inputs. -/
namespace Separation
open Runs

structure Observer (σ ε ι ω ν : Type) where
  input : σ → ε → Option ι
  output : σ → ε → ω
  view : σ → ν

structure Alone (ι ω ν : Type) where
  react : ν → ι → ν
  answer : ν → ι → ω

variable {σ ε ι ω ν : Type}

/- Inputs and answers are listed as in a history, newest first. -/
def Observer.told (p : Observer σ ε ι ω ν) (h : List (Step σ ε)) : List ι :=
  h.filterMap (fun x => p.input x.pre x.event)

def Observer.seen (p : Observer σ ε ι ω ν) (h : List (Step σ ε)) : List (ι × ω) :=
  h.filterMap (fun x => (p.input x.pre x.event).map (fun i => (i,p.output x.pre x.event)))

def Alone.after (a : Alone ι ω ν) (v : ν) : List ι → ν
  | [] => v
  | i :: is => a.react (a.after v is) i

def Alone.answers (a : Alone ι ω ν) (v : ν) : List ι → List (ι × ω)
  | [] => []
  | i :: is => (i,a.answer (a.after v is) i) :: a.answers v is

structure Separated (p : Observer σ ε ι ω ν) (a : Alone ι ω ν) (inv : σ → Prop) (next : σ → ε → σ) : Prop where
  quiet : ∀ {s e}, inv s → p.input s e = none → p.view (next s e) = p.view s
  own : ∀ {s e i}, inv s → p.input s e = some i →
    p.view (next s e) = a.react (p.view s) i ∧ p.output s e = a.answer (p.view s) i

variable {m : Machine σ ε} {p : Observer σ ε ι ω ν} {a : Alone ι ω ν} {inv : σ → Prop}

theorem stepQuiet {h : List (Step σ ε)} {x : Step σ ε} (none : p.input x.pre x.event = none) :
    p.told (x :: h) = p.told h ∧ p.seen (x :: h) = p.seen h := by
  simp [Observer.told,Observer.seen,none]

theorem stepOwn {h : List (Step σ ε)} {x : Step σ ε} {i : ι} (some : p.input x.pre x.event = some i) :
    p.told (x :: h) = i :: p.told h ∧ p.seen (x :: h) = (i,p.output x.pre x.event) :: p.seen h := by
  simp [Observer.told,Observer.seen,some]

theorem alone (separated : Separated p a inv m.next) (holds : ∀ h s, Run m h s → inv s) {h s} (run : Run m h s) :
    p.view s = a.after (p.view m.start) (p.told h) ∧ p.seen h = a.answers (p.view m.start) (p.told h) := by
  induction run with
  | start => exact ⟨rfl,rfl⟩
  | @step h s e before guard ih =>
    cases given : p.input s e with
    | none =>
      obtain ⟨told,seen⟩ := stepQuiet (h := h) (x := ⟨s,e⟩) given
      rw [told,seen,separated.quiet (holds _ _ before) given]
      exact ih
    | some i =>
      obtain ⟨told,seen⟩ := stepOwn (h := h) (x := ⟨s,e⟩) given
      obtain ⟨after,answered⟩ := separated.own (holds _ _ before) given
      rw [told,seen,after,answered,ih.1,ih.2]
      exact ⟨rfl,rfl⟩

/- Two runs, also of two machines, in which the user does the same. -/
theorem indistinguishable {k : Machine σ ε} (separated : Separated p a inv m.next) (separated' : Separated p a inv k.next)
    (holds : ∀ h s, Run m h s → inv s) (holds' : ∀ h s, Run k h s → inv s) (start : p.view m.start = p.view k.start)
    {h h' : List (Step σ ε)} {s s' : σ} (run : Run m h s) (run' : Run k h' s') (told : p.told h = p.told h') :
    p.view s = p.view s' ∧ p.seen h = p.seen h' := by
  obtain ⟨view,seen⟩ := alone separated holds run
  obtain ⟨view',seen'⟩ := alone separated' holds' run'
  rw [view,seen,view',seen',start,told]
  exact ⟨rfl,rfl⟩

end Separation
