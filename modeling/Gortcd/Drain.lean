import Gortcd.Custody
import Gortcd.Lib.Progress

/-! The worker pool comes to rest. Its own steps are those of goroutines that are already
running: a sender at its channel, a worker in `workerFunc`, the goroutine that makes a worker,
and `Stop` between its sends under the lock. A worker that waits for the lock may wait for
`Stop`, which waits for the workers in `ready` to receive; these are idle, so it goes on. -/
namespace Gortcd.Drain
open Workers Custody Runs Progress

def Own : Event → Prop
  | .create _ => True
  | .reuse _ _ => True
  | .send _ => True
  | .deliver _ _ => True
  | .receive _ _ => True
  | .work _ _ => True
  | .put _ _ => True
  | .release _ _ => True
  | .leave _ => True
  | .recycle _ => True
  | .stopNext => True
  | .stopEnd => True
  | _ => False

/- How many steps are ahead of a message in a buffer, and of a worker. -/
def itemWork : Option Nat → Nat
  | some _ => 9
  | none => 3

def phaseWork : Phase → Nat
  | .idle => 0
  | .got _ => 8
  | .served _ => 7
  | .releasing => 6
  | .leaving => 2
  | .gone => 1

def sendWork (x : Send) : Nat := itemWork x.sender.item + 1

def mailWork (m : Mail) : Nat := itemWork m.item

def workerWork (w : Worker) : Nat := phaseWork w.phase

def work (s : State) : Nat :=
  11 * Multiset.card s.creating + (s.sends.map sendWork).sum + (s.mail.map mailWork).sum +
    (s.workers.map workerWork).sum + 5 * s.ready.length + s.locked.toNat

variable {p : Pool} {s : State} {e : Event}

theorem cardSplit {α : Type} [DecidableEq α] {m : Multiset α} {a : α} (mem : a ∈ m) :
    Multiset.card m = Multiset.card (m.erase a) + 1 := (Multiset.card_erase_add_one mem).symm

theorem takingWork (item : Option Nat) : phaseWork (taking item) + 1 ≤ itemWork item := by
  cases item <;> exact Nat.le_refl _

theorem moveWork {w : Worker} (here : w ∈ s.workers) (phase : Phase) :
    ((⟨w.slot,phase⟩ ::ₘ s.workers.erase w).map workerWork).sum + phaseWork w.phase =
      (s.workers.map workerWork).sum + phaseWork phase := sumMoved here ⟨w.slot,phase⟩ workerWork

theorem spent (guard : enabled p s e) (own : Own e) : work (next p s e) < work s := by
  cases e with
  | create c =>
    have creating := cardSplit guard
    simp only [work,next,State.spawn,Multiset.map_cons,Multiset.sum_cons,sendWork,workerWork,itemWork,Sender.item,phaseWork]
    omega
  | reuse c chan =>
    have creating := cardSplit guard.1
    simp only [work,next,State.spawn,Multiset.map_cons,Multiset.sum_cons,sendWork,workerWork,itemWork,Sender.item,phaseWork]
    omega
  | send x =>
    have sends := sumSplit guard.1 sendWork
    simp only [work,next,State.sent,Multiset.map_cons,Multiset.sum_cons,mailWork]
    simp only [sendWork] at sends ⊢
    omega
  | deliver x w =>
    obtain ⟨listed,here,idle,_⟩ := guard
    have sends := sumSplit listed sendWork
    have moved := moveWork here (taking x.sender.item)
    have taken := takingWork x.sender.item
    rw [idle] at moved
    simp only [work,next,State.sent,State.pick,State.move]
    simp only [sendWork] at sends ⊢
    omega
  | receive m w =>
    obtain ⟨listed,here,idle,_⟩ := guard
    have mail := sumSplit listed mailWork
    have moved := moveWork here (taking m.item)
    have taken := takingWork m.item
    rw [idle] at moved
    simp only [work,next,State.pick,State.move]
    simp only [mailWork] at mail ⊢
    omega
  | work w c =>
    have moved := moveWork guard.1 (.served c)
    rw [guard.2] at moved
    simp only [work,next,State.move,phaseWork] at moved ⊢
    omega
  | put w c =>
    have moved := moveWork guard.1 .releasing
    rw [guard.2] at moved
    simp only [work,next,State.move,phaseWork] at moved ⊢
    omega
  | release w now =>
    obtain ⟨here,phase,_⟩ := guard
    simp only [next]
    split
    · have moved := moveWork here .leaving
      rw [phase] at moved
      simp only [work,State.move,phaseWork] at moved ⊢
      omega
    · have moved := moveWork here .idle
      rw [phase] at moved
      simp only [work,State.move,phaseWork,List.length_append,List.length_singleton] at moved ⊢
      omega
  | leave w =>
    have moved := moveWork guard.1 .gone
    rw [guard.2.1] at moved
    simp only [work,next,State.move,phaseWork] at moved ⊢
    omega
  | recycle w =>
    have workers := sumSplit guard.1 workerWork
    simp only [work,next,workerWork,guard.2,phaseWork] at workers ⊢
    omega
  | stopNext =>
    obtain ⟨_,_,some'⟩ := guard
    simp only [next]
    cases ready : s.ready with
    | nil => exact absurd ready some'
    | cons r rest =>
      simp only [work,ready,Multiset.map_cons,Multiset.sum_cons,sendWork,Sender.item,itemWork,List.length_cons]
      omega
  | stopEnd =>
    obtain ⟨held,_⟩ := guard
    simp only [work,next,held,Bool.toNat_true,Bool.toNat_false]
    omega
  | acquire => exact own.elim
  | abandon c => exact own.elim
  | serve c => exact own.elim
  | forget chan => exact own.elim
  | clean now => exact own.elim
  | stop => exact own.elim

theorem sendAlone (kept : Kept p s) {x : Send} (listed : x ∈ s.sends) {m : Mail} (there : m ∈ s.mail) :
    m.slot.chan ≠ x.slot.chan := by
  have once := claimedOnce kept
  rw [claimed,Multiset.map_add,Multiset.map_add] at once
  obtain ⟨_,_,apart⟩ := Multiset.nodup_add.mp once
  intro same
  have sent : x.slot.chan ∈ (s.sends.map Send.slot).map Slot.chan :=
    Multiset.mem_map_of_mem _ (Multiset.mem_map_of_mem _ listed)
  have held : m.slot.chan ∈ (s.mail.map Mail.slot).map Slot.chan :=
    Multiset.mem_map_of_mem _ (Multiset.mem_map_of_mem _ there)
  exact Multiset.disjoint_left.mp apart (Multiset.mem_add.mpr (.inr sent)) (same ▸ held)

/- No send waits for ever: its worker is idle and can receive. -/
theorem sendMeets (kept : Kept p s) {x : Send} (listed : x ∈ s.sends) : ∃ w, enabled p s (.deliver x w) := by
  obtain ⟨w,there,own,idle⟩ := claimedIdle kept (sendClaimed listed)
  refine ⟨w,listed,there,idle,by rw [own],?_⟩
  refine Multiset.filter_eq_nil.mpr (fun m held same => ?_)
  exact sendAlone kept listed held (same.trans (congrArg Slot.chan own))

theorem mailMeets (kept : Kept p s) {m : Mail} (there : m ∈ s.mail) : ∃ w, enabled p s (.receive m w) := by
  obtain ⟨w,here,own,idle⟩ := claimedIdle kept (mailClaimed there)
  exact ⟨w,there,here,idle,by rw [own]⟩

def Closing (s : State) : Prop := s.mustStop = true → s.ready = []

structure Drained (s : State) : Prop where
  unlocked : s.locked = false
  quiet : s.creating = 0 ∧ s.sends = 0 ∧ s.mail = 0
  waiting : ∀ w ∈ s.workers, w.phase = .idle ∧ w.slot ∈ s.ready
  served : ∀ c ∈ s.accepted, c ∈ s.returned ∧ ∃ worker, (worker,c) ∈ s.worked
  stopped : s.mustStop = true → s.workers = 0 ∧ s.workersCount = 0

section Stuck
variable (kept : Kept p s) (stuck : Stuck (machine p) Own s)
include kept stuck

theorem stuckSends : s.sends = 0 := by
  refine Multiset.eq_zero_of_forall_notMem (fun x listed => ?_)
  obtain ⟨w,guard⟩ := sendMeets kept listed
  exact stuck (.deliver x w) trivial guard

theorem stuckMail : s.mail = 0 := by
  refine Multiset.eq_zero_of_forall_notMem (fun m there => ?_)
  obtain ⟨w,guard⟩ := mailMeets kept there
  exact stuck (.receive m w) trivial guard

theorem stuckUnlocked : s.locked = false := by
  cases locked : s.locked with
  | false => rfl
  | true =>
    have none : s.stopSends = 0 := by
      rw [State.stopSends,stuckSends kept stuck]
      rfl
    cases ready : s.ready with
    | nil => exact absurd (And.intro locked (And.intro none ready)) (stuck .stopEnd trivial)
    | cons r rest =>
      have some' : s.ready ≠ [] := by
        rw [ready]
        nofun
      exact absurd (And.intro locked (And.intro none some')) (stuck .stopNext trivial)

theorem stuckIdle {w : Worker} (here : w ∈ s.workers) : w.phase = .idle := by
  have unlocked := stuckUnlocked kept stuck
  cases phase : w.phase with
  | idle => rfl
  | got c => exact absurd (And.intro here phase) (stuck (.work w c) trivial)
  | served c => exact absurd (And.intro here phase) (stuck (.put w c) trivial)
  | releasing => exact absurd (And.intro here (And.intro phase unlocked)) (stuck (.release w 0) trivial)
  | leaving => exact absurd (And.intro here (And.intro phase unlocked)) (stuck (.leave w) trivial)
  | gone => exact absurd (And.intro here phase) (stuck (.recycle w) trivial)

/- The claim of an idle worker can only be its entry in `ready`. -/
theorem stuckReady {w : Worker} (here : w ∈ s.workers) : w.slot ∈ s.ready := by
  have own : w.slot ∈ s.workers.bind idles := by
    refine Multiset.mem_bind.mpr ⟨w,here,?_⟩
    rw [idlesOf (stuckIdle kept stuck here)]
    exact Multiset.mem_singleton_self _
  rw [kept.claims,claimed,stuckSends kept stuck,stuckMail kept stuck] at own
  simpa using own

theorem stuckServed {c : Nat} (accepted : c ∈ s.accepted) : c ∈ s.returned := by
  rcases acceptedPlace kept accepted with ⟨m,there,_⟩ | ⟨w,here,busy⟩ | returned
  · rw [stuckMail kept stuck] at there
    exact absurd there (Multiset.notMem_zero _)
  · have idle := stuckIdle kept stuck here
    rcases busy with got | served
    · rw [idle] at got
      cases got
    · rw [idle] at served
      cases served
  · exact returned

theorem stuckDrained (closing : Closing s) : Drained s := by
  have creating : s.creating = 0 := Multiset.eq_zero_of_forall_notMem (fun c there => stuck (.create c) trivial there)
  have workless : s.mustStop = true → s.workers = 0 := by
    intro stopping
    refine Multiset.eq_zero_of_forall_notMem (fun w here => ?_)
    have listed := stuckReady kept stuck here
    rw [closing stopping] at listed
    exact absurd listed List.not_mem_nil
  refine ⟨stuckUnlocked kept stuck,⟨creating,stuckSends kept stuck,stuckMail kept stuck⟩,
    fun w here => ⟨stuckIdle kept stuck here,stuckReady kept stuck here⟩,?_,?_⟩
  · intro c accepted
    have returned := stuckServed kept stuck accepted
    refine ⟨returned,?_⟩
    have passed : c ∈ (s.worked.map Prod.snd : Multiset Nat) := by
      rw [kept.worked]
      exact Multiset.mem_add.mpr (.inr returned)
    obtain ⟨x,there,rfl⟩ := List.mem_map.mp passed
    exact ⟨x.1,there⟩
  · intro stopping
    have none := workless stopping
    refine ⟨none,?_⟩
    rw [kept.counted,liveWorkers,none,creating]
    rfl

end Stuck

theorem closingStep (closing : Closing s) (guard : enabled p s e) : Closing (next p s e) := by
  cases e with
  | serve c =>
    simp only [next]
    split
    · rename_i r last
      intro stopping
      rw [closing stopping] at last
      cases last
    · split <;> exact closing
  | clean now =>
    intro stopping
    simp only [next,closing stopping,List.dropWhile_nil]
  | stopNext =>
    simp only [next]
    cases ready : s.ready with
    | nil => exact closing
    | cons r rest =>
      intro stopping
      cases ready.symm.trans (closing stopping)
  | stopEnd => exact fun _ => guard.2.2
  | release w now =>
    simp only [next]
    split
    · exact closing
    · rename_i going
      exact fun stopping => absurd stopping going
  | _ => exact closing

theorem drain (p : Pool) : Progress.Drain (machine p) Own Own (fun s => Kept p s ∧ Closing s) Drained work where
  among _ own := own
  kept _ _ held guard _ := ⟨keptStep held.1 (stepTook guard),closingStep held.2 guard⟩
  spent _ _ _ guard own := spent guard own
  stuck _ held stuck := stuckDrained held.1 stuck held.2

theorem closingRun {h} (run : Run (machine p) h s) : Closing s :=
  invariant (Q := Closing) (fun _ => rfl) (fun _ _ closing guard => closingStep closing guard) run

/- From any state, however the goroutines are scheduled: they make only so many steps, when
none of them can go on everything that was accepted has been served, and they can get there. -/
theorem poolDrains {h} (run : Run (machine p) h s) :
    (∀ es, Schedule (machine p) Own s es →
      es.length ≤ work s ∧ (Stuck (machine p) Own (after (machine p) s es) → Drained (after (machine p) s es))) ∧
    ∃ es, Schedule (machine p) Own s es ∧ Drained (after (machine p) s es) :=
  ⟨fun _ schedule => drained (drain p) ⟨keptRun run,closingRun run⟩ schedule,drains (drain p) ⟨keptRun run,closingRun run⟩⟩

/- An unbuffered pool: a worker has served a context and waits while `Stop` takes the lock. -/
def samplePool : Pool := ⟨1,10,0⟩

def sampleBusy : List Event :=
  [.acquire,.serve 0,.create 0,.deliver ⟨⟨0,0⟩,.serve 0⟩ ⟨⟨0,0⟩,.idle⟩,.work ⟨⟨0,0⟩,.got 0⟩ 0,.put ⟨⟨0,0⟩,.served 0⟩ 0,
   .release ⟨⟨0,0⟩,.releasing⟩ 5,.stop]

def sampleRest : List Event :=
  [.stopNext,.deliver ⟨⟨0,0⟩,.stop⟩ ⟨⟨0,0⟩,.idle⟩,.stopEnd,.leave ⟨⟨0,0⟩,.leaving⟩,.recycle ⟨⟨0,0⟩,.gone⟩]

def sampleStopping : State := (trace (machine samplePool) [] .empty sampleBusy).2

theorem emptyStuck {s : State} (none : s.creating = 0 ∧ s.sends = 0 ∧ s.mail = 0 ∧ s.workers = 0) (unlocked : s.locked = false) :
    Stuck (machine p) Own s := by
  obtain ⟨creating,sends,mail,workers⟩ := none
  intro e own guard
  cases e with
  | create c => exact absurd (creating ▸ guard : c ∈ (0 : Multiset Nat)) (Multiset.notMem_zero _)
  | reuse c chan => exact absurd (creating ▸ guard.1 : c ∈ (0 : Multiset Nat)) (Multiset.notMem_zero _)
  | send x => exact absurd (sends ▸ guard.1 : x ∈ (0 : Multiset Send)) (Multiset.notMem_zero _)
  | deliver x w => exact absurd (sends ▸ guard.1 : x ∈ (0 : Multiset Send)) (Multiset.notMem_zero _)
  | receive m w => exact absurd (mail ▸ guard.1 : m ∈ (0 : Multiset Mail)) (Multiset.notMem_zero _)
  | work w c => exact absurd (workers ▸ guard.1 : w ∈ (0 : Multiset Worker)) (Multiset.notMem_zero _)
  | put w c => exact absurd (workers ▸ guard.1 : w ∈ (0 : Multiset Worker)) (Multiset.notMem_zero _)
  | release w now => exact absurd (workers ▸ guard.1 : w ∈ (0 : Multiset Worker)) (Multiset.notMem_zero _)
  | leave w => exact absurd (workers ▸ guard.1 : w ∈ (0 : Multiset Worker)) (Multiset.notMem_zero _)
  | recycle w => exact absurd (workers ▸ guard.1 : w ∈ (0 : Multiset Worker)) (Multiset.notMem_zero _)
  | stopNext => cases unlocked.symm.trans guard.1
  | stopEnd => cases unlocked.symm.trans guard.1
  | _ => exact own

theorem poolDrainsSample :
    Drained (after (machine samplePool) sampleStopping sampleRest) ∧ sampleRest.length = 5 ∧ work sampleStopping = 6 := by
  have busy : Allowed (machine samplePool) .empty sampleBusy := by
    simp only [Allowed,sampleBusy,machine]
    decide +kernel
  have allowed : Allowed (machine samplePool) sampleStopping sampleRest := by
    simp only [Allowed,sampleRest,machine]
    decide +kernel
  have schedule : Schedule (machine samplePool) Own sampleStopping sampleRest := by
    refine ⟨allowed,fun e mem => ?_⟩
    simp only [sampleRest,List.mem_cons,List.not_mem_nil,or_false] at mem
    rcases mem with rfl | rfl | rfl | rfl | rfl <;> trivial
  refine ⟨((poolDrains (traceStart sampleBusy busy)).1 _ schedule).2 (emptyStuck ?_ ?_),rfl,by decide +kernel⟩
  · decide +kernel
  · decide +kernel

end Gortcd.Drain
