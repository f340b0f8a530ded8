import Gortcd.Lib.Runs

/-! One machine inside another. Every step of the first is a step of the second, or leaves the
part that the second sees as it is; a run then has a run of the second as its image. -/
namespace Simulation
open Runs

variable {σ ε τ δ : Type} {m : Machine σ ε} {n : Machine τ δ}

structure Simulates (m : Machine σ ε) (n : Machine τ δ) (inv : σ → Prop) (seen : σ → τ) (act : σ → ε → Option δ) :
    Prop where
  start : seen m.start = n.start
  step : ∀ s e d, inv s → m.enabled s e → act s e = some d →
    n.enabled (seen s) d ∧ seen (m.next s e) = n.next (seen s) d
  still : ∀ s e, inv s → m.enabled s e → act s e = none → seen (m.next s e) = seen s

def image (seen : σ → τ) (act : σ → ε → Option δ) (h : List (Step σ ε)) : List (Step τ δ) :=
  h.filterMap (fun x => (act x.pre x.event).map (fun d => ⟨seen x.pre,d⟩))

variable {inv : σ → Prop} {seen : σ → τ} {act : σ → ε → Option δ}

theorem simulated (simulates : Simulates m n inv seen act) (holds : ∀ {h s}, Run m h s → inv s) {h s}
    (run : Run m h s) : Run n (image seen act h) (seen s) := by
  induction run with
  | start =>
    rw [simulates.start]
    exact .start
  | @step h s e before guard ih =>
    cases acts : act s e with
    | none =>
      rw [image,List.filterMap_cons_none (by rw [acts]; rfl),simulates.still s e (holds before) guard acts]
      exact ih
    | some d =>
      obtain ⟨enabled,same⟩ := simulates.step s e d (holds before) guard acts
      rw [image,List.filterMap_cons_some (by rw [acts]; rfl),same]
      exact .step ih enabled

end Simulation
