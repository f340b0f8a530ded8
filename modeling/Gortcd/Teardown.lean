import Gortcd.Shutdown

/-! `Close` comes to its end: a measure that every step after it lowers, and the states in which
no party can go on. -/
namespace Gortcd.Teardown
open Shutdown Runs Progress

variable {c : Setup} {s : State} {e : Event}

/- How many steps are ahead of each party once `s.close` is closed. -/
def phaseWork : Phase → Nat
  | .top => 2
  | .reading => tries + 4
  | .serving failed => 3 + (tries - failed)
  | .done => 0

def workerWork (w : Worker) : Nat := phaseWork w.phase

def serveWork (c : Setup) : Serving → Nat
  | .idle => 0
  | .loop i => 6 * (c.procs - i) + 1
  | .added i => 6 * (c.procs - i)
  | .opened i _ => 6 * (c.procs - i) - 1
  | .returned => 0

def closeWork (c : Setup) : Closing → Nat
  | .idle => 0
  | .closed => c.procs + 5
  | .stopped => c.procs + 4
  | .closedConn => c.procs + 3
  | .closingConns rest => rest.length + 1
  | .returned => 0
  | .panicked => 0

def work (c : Setup) (s : State) : Nat :=
  (s.workers.map workerWork).sum + serveWork c s.serve + s.collector.toNat + closeWork c s.close

theorem moveSpent {w : Worker} (here : w ∈ s.workers) {phase : Phase} (less : phaseWork phase < phaseWork w.phase) :
    work c (s.move w phase) < work c s := by
  have moved : ((s.move w phase).workers.map workerWork).sum + phaseWork w.phase =
      (s.workers.map workerWork).sum + phaseWork phase := sumMoved here ⟨w.socket,phase⟩ workerWork
  have serve : (s.move w phase).serve = s.serve := rfl
  have collector : (s.move w phase).collector = s.collector := rfl
  have close : (s.move w phase).close = s.close := rfl
  simp only [work,serve,collector,close]
  omega

theorem finishSpent {w : Worker} (here : w ∈ s.workers) (going : 0 < phaseWork w.phase) :
    work c (s.finish w) < work c s := moveSpent here (show phaseWork .done < phaseWork w.phase from going)

theorem nextPhaseWork (failed : Nat) (ok : Bool) : phaseWork (nextPhase failed ok) < phaseWork (.serving failed) := by
  unfold nextPhase
  split
  · simp only [phaseWork]
    omega
  · split
    · simp only [phaseWork]
      omega
    · simp only [phaseWork]
      omega

theorem spent (ok : Ok c s) (closed : s.closed = true) (guard : enabled c s e) (may : May e) :
    work c (next s e) < work c s := by
  cases e with
  | serve => exact may.elim
  | add =>
    obtain ⟨i,at',less⟩ := guard
    rw [nextAdd at']
    simp only [work,at',serveWork]
    omega
  | listen socket =>
    obtain ⟨⟨i,at'⟩,_⟩ := guard
    have far := ok.bounded.reached
    rw [at'] at far
    rw [nextListen at']
    simp only [work,at',serveWork,reached] at far ⊢
    omega
  | spawn =>
    obtain ⟨i,x,at'⟩ := guard
    have far := ok.bounded.reached
    rw [at'] at far
    rw [nextSpawn at']
    simp only [work,at',serveWork,reached,Multiset.map_cons,Multiset.sum_cons,workerWork,phaseWork] at far ⊢
    omega
  | serveReturn =>
    obtain ⟨⟨i,at',_⟩,_⟩ := guard
    simp only [work,next,at',serveWork]
    omega
  | check w =>
    simp only [next,closed,if_true]
    exact finishSpent guard.1 (by rw [guard.2]; exact Nat.two_pos)
  | read w => exact moveSpent guard.1 (by rw [guard.2.1]; exact Nat.lt_succ_self _)
  | readError w => exact finishSpent guard.1 (by rw [guard.2.1]; exact Nat.succ_pos _)
  | readClosed w => exact finishSpent guard.1 (by rw [guard.2.1]; exact Nat.succ_pos _)
  | tryServe w ok =>
    obtain ⟨here,failed,phase⟩ := guard
    rw [nextTry phase]
    exact moveSpent here (by rw [phase]; exact nextPhaseWork failed ok)
  | tick => exact may.elim
  | collectorReturn =>
    simp only [work,next,guard.1,Bool.toNat_true,Bool.toNat_false]
    omega
  | close => exact may.elim
  | stop =>
    have before : s.close = .closed := guard
    simp only [next]
    split
    · simp only [work,before,closeWork]
      omega
    · simp only [work,before,closeWork]
      omega
  | closeConn =>
    have before : s.close = .stopped := guard
    simp only [work,next,before,closeWork]
    omega
  | closeConns =>
    have before : s.close = .closedConn := guard
    have few := ok.bounded.conns
    have far := ok.bounded.reached
    have order : openedSockets c s.serve ≤ reached c s.serve := by
      cases s.serve <;> simp only [openedSockets,reached] <;> omega
    simp only [work,next,before,closeWork]
    omega
  | closeNext =>
    obtain ⟨x,rest,at'⟩ := guard
    rw [nextClose at']
    simp only [work,at',closeWork,List.length_cons]
    omega
  | closeReturn =>
    simp only [work,next,guard.1,closeWork]
    omega

theorem closedStep (closed : s.closed = true) (guard : enabled c s e) : (next s e).closed = true := by
  have going : s.close ≠ .idle := by simpa [State.closed] using closed
  cases e with
  | add =>
    obtain ⟨i,at',_⟩ := guard
    rw [nextAdd at']
    exact closed
  | listen socket =>
    obtain ⟨⟨i,at'⟩,_⟩ := guard
    rw [nextListen at']
    exact closed
  | spawn =>
    obtain ⟨i,x,at'⟩ := guard
    rw [nextSpawn at']
    exact closed
  | check w =>
    simp only [next]
    split <;> exact closed
  | tryServe w ok =>
    obtain ⟨_,failed,phase⟩ := guard
    rw [nextTry phase]
    exact closed
  | stop =>
    simp only [next]
    split <;> rfl
  | closeNext =>
    obtain ⟨x,rest,at'⟩ := guard
    rw [nextClose at']
    rfl
  | close => exact absurd guard going
  | closeConn => rfl
  | closeConns => rfl
  | closeReturn => rfl
  | _ => exact closed

/- Everything has ended; the sockets still open are those opened too late for `Close`. -/
structure Finished (c : Setup) (s : State) : Prop where
  closed : s.close = .returned
  served : s.serve = .returned
  workers : ∀ w ∈ s.workers, w.phase = .done
  collector : s.collector = false
  wg : s.wg = 0
  sockets : ∀ x ∈ s.sockets, x ∈ s.missed
  single : c.reusePort = false → s.sockets = []

def Ended (c : Setup) (s : State) : Prop := s.close = .panicked ∧ s.serve = .idle ∨ Finished c s

section Stuck
variable (stuck : Stuck (machine c) Own s)
include stuck

theorem stuckServe : s.serve = .idle ∨ (∃ i, s.serve = .loop i ∧ c.procs ≤ i) ∨ s.serve = .returned := by
  cases serve : s.serve with
  | idle => exact .inl rfl
  | loop i =>
    refine .inr (.inl ⟨i,rfl,?_⟩)
    exact Nat.le_of_not_lt (fun less => stuck .add trivial ⟨i,serve,less⟩)
  | added i => exact absurd ⟨⟨i,serve⟩,nofun,nofun⟩ (stuck (.listen none) trivial)
  | opened i x => exact absurd ⟨i,x,serve⟩ (stuck .spawn trivial)
  | returned => exact .inr (.inr rfl)

variable (closed : s.closed = true)
include closed

theorem stuckCollector : s.collector = false := by
  cases collector : s.collector with
  | false => rfl
  | true => exact absurd (And.intro collector closed) (stuck .collectorReturn trivial)

theorem stuckClose : s.close = .panicked ∨ s.snapshot = true ∧ toClose s.close = [] := by
  cases close : s.close with
  | idle => simp [State.closed,close] at closed
  | closed => exact absurd close (stuck .stop trivial)
  | stopped => exact absurd close (stuck .closeConn trivial)
  | closedConn => exact absurd close (stuck .closeConns trivial)
  | closingConns rest =>
    cases rest with
    | nil => exact .inr ⟨by simp only [State.snapshot,close],rfl⟩
    | cons x rest => exact absurd ⟨x,rest,close⟩ (stuck .closeNext trivial)
  | returned => exact .inr ⟨by simp only [State.snapshot,close],rfl⟩
  | panicked => exact .inl rfl

variable (ok : Ok c s)
include ok

theorem stuckSockets (running : s.close ≠ .panicked) : ∀ x ∈ s.sockets, x ∈ s.missed := by
  obtain ⟨read,none⟩ := (stuckClose stuck closed).resolve_left running
  intro x there
  rcases ok.shut.closing read x there with ahead | missed
  · rw [none] at ahead
    exact absurd ahead List.not_mem_nil
  · exact missed

/- A worker in `ReadFrom` waits on a socket that `Close` has closed. -/
theorem stuckWorkers (running : s.close ≠ .panicked) : ∀ w ∈ s.workers, w.phase = .done := by
  intro w here
  cases phase : w.phase with
  | top => exact absurd (And.intro here phase) (stuck (.check w) trivial)
  | reading =>
    have shut : w.socket ∉ s.sockets := fun there =>
      ok.shut.reading w here phase (stuckSockets stuck closed ok running _ there)
    exact absurd (And.intro here (And.intro phase shut)) (stuck (.readClosed w) trivial)
  | serving failed => exact absurd ⟨here,failed,phase⟩ (stuck (.tryServe w true) trivial)
  | done => rfl

theorem stuckWg (running : s.close ≠ .panicked) : s.wg = 0 := by
  have counted : s.wg = waits s := ok.counted
  have none : (s.workers.map live).sum = 0 := by
    refine Multiset.sum_eq_zero (fun n mem => ?_)
    obtain ⟨w,here,rfl⟩ := Multiset.mem_map.mp mem
    simp only [live,stuckWorkers stuck closed ok running w here]
  have waiting : serveWait s.serve = 0 := by
    rcases stuckServe stuck with serve | ⟨i,serve,_⟩ | serve <;> rw [serve] <;> rfl
  rw [counted,waits,none,waiting,stuckCollector stuck closed]
  rfl

theorem stuckEnded : Ended c s := by
  by_cases panicked : s.close = .panicked
  · have ran := ok.ran
    simp only [Ran,panicked] at ran
    exact .inl ⟨panicked,ran⟩
  · have wg := stuckWg stuck closed ok panicked
    obtain ⟨read,none⟩ := (stuckClose stuck closed).resolve_left panicked
    have close : s.close = .returned := by
      cases close : s.close with
      | closingConns rest =>
        rw [close] at none
        have last : rest = [] := none
        exact absurd ⟨last ▸ close,wg⟩ (stuck .closeReturn trivial)
      | returned => rfl
      | _ => simp only [State.snapshot,close,Bool.false_eq_true] at read
    have ran := ok.ran
    simp only [Ran,close] at ran
    have serve : s.serve = .returned := by
      rcases stuckServe stuck with idle | at' | returned
      · exact absurd idle ran
      · exact absurd ⟨at',wg⟩ (stuck .serveReturn trivial)
      · exact returned
    have left := stuckSockets stuck closed ok panicked
    refine .inr ⟨close,serve,stuckWorkers stuck closed ok panicked,stuckCollector stuck closed,wg,left,?_⟩
    intro plain
    refine List.eq_nil_iff_forall_not_mem.mpr (fun x there => ?_)
    have listed := (ok.owned.missed x (left x there)).2
    rw [ok.bounded.single plain] at listed
    exact absurd listed List.not_mem_nil

end Stuck

theorem drain (c : Setup) :
    Progress.Drain (machine c) May Own (fun s => Ok c s ∧ s.closed = true) (Ended c) (work c) where
  among e own := by cases e <;> trivial
  kept _ _ held guard _ := ⟨okStep held.1 guard,closedStep held.2 guard⟩
  spent _ _ held guard may := spent held.1 held.2 guard may
  stuck _ held stuck := stuckEnded stuck held.2 held.1

def sampleRest : List Event :=
  [.stop,.closeConn,.closeConns,.listen (some 1),.spawn,.check ⟨1,.top⟩,.collectorReturn,.closeReturn,.serveReturn]

end Gortcd.Teardown
