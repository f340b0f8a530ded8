import Gortcd.Workers

/-! Who has each worker channel and each context. An idle worker has exactly one claim on its
channel: the entry in `ready`, the goroutine that took the entry and is about to send, or the
message in the buffer. A context has exactly one place between its acquisition and its return
to the pool. -/
namespace Gortcd.Custody
open Workers Runs

variable {p : Pool} {s t : State} {e : Event}

/- Everything a step can do, with the multisets it takes from split at what it takes. -/
inductive Took (p : Pool) (s : State) : State → Prop where
  | acquired : Took p s { s with held := {s.acquired} + s.held, acquired := s.acquired + 1 }
  | abandoned {c rest} (held : s.held = {c} + rest) : Took p s { s with held := rest }
  | popped {c r front rest} (ready : s.ready = front ++ [r]) (held : s.held = {c} + rest) :
      Took p s { s with ready := front, held := rest, sends := {⟨r,.serve c⟩} + s.sends }
  | room {c rest} (below : s.workersCount < p.maxWorkersCount) (held : s.held = {c} + rest) :
      Took p s { s with workersCount := s.workersCount + 1, held := rest, creating := {c} + s.creating }
  | refused : Took p s s
  | spawned {c rest chan pool chans} (creating : s.creating = {c} + rest)
      (origin : (chan = s.chans ∧ chans = s.chans + 1 ∧ pool = s.workerChanPool) ∨
        (chans = s.chans ∧ s.workerChanPool = {chan} + pool)) :
      Took p s { s with
        creating := rest
        workers := {⟨⟨chan,s.spawned⟩,.idle⟩} + s.workers
        spawned := s.spawned + 1
        sends := {⟨⟨chan,s.spawned⟩,.serve c⟩} + s.sends
        chans := chans
        workerChanPool := pool }
  | forgotten {chan pool} (pooled : s.workerChanPool = {chan} + pool) : Took p s { s with workerChanPool := pool }
  | noticed {first rest sender} (ready : s.ready = first ++ rest) (nil : sender.item = none) :
      Took p s { s with ready := rest, sends := (first.map (fun r => ⟨r,sender⟩) : List Send) + s.sends }
  | locked {stop held} : Took p s { s with mustStop := stop, locked := held }
  | sent {x rest} (sends : s.sends = {x} + rest) :
      Took p s { s with
        sends := rest
        accepted := x.sender.item.toList ++ s.accepted
        mail := {⟨x.slot,x.sender.item⟩} + s.mail }
  | delivered {x rest w others} (sends : s.sends = {x} + rest) (workers : s.workers = {w} + others) (idle : w.phase = .idle)
      (chan : x.slot.chan = w.slot.chan) :
      Took p s { s with
        sends := rest
        accepted := x.sender.item.toList ++ s.accepted
        workers := {⟨w.slot,taking x.sender.item⟩} + others
        picked := x.sender.item.toList.map (fun c => ⟨c,x.slot,w.slot.worker⟩) ++ s.picked }
  | received {m rest w others} (mail : s.mail = {m} + rest) (workers : s.workers = {w} + others) (idle : w.phase = .idle)
      (chan : m.slot.chan = w.slot.chan) :
      Took p s { s with
        mail := rest
        workers := {⟨w.slot,taking m.item⟩} + others
        picked := m.item.toList.map (fun c => ⟨c,m.slot,w.slot.worker⟩) ++ s.picked }
  | worked {w c others} (workers : s.workers = {w} + others) (phase : w.phase = .got c) :
      Took p s { s with workers := {⟨w.slot,.served c⟩} + others, worked := (w.slot.worker,c) :: s.worked }
  | put {w c others} (workers : s.workers = {w} + others) (phase : w.phase = .served c) :
      Took p s { s with workers := {⟨w.slot,.releasing⟩} + others, returned := c :: s.returned }
  | released {w others last} (workers : s.workers = {w} + others) (phase : w.phase = .releasing) :
      Took p s { s with
        workers := {⟨w.slot,.idle⟩} + others
        lastUseTime := last
        ready := s.ready ++ [w.slot] }
  | stopped {w others last} (workers : s.workers = {w} + others) (phase : w.phase = .releasing) :
      Took p s { s with workers := {⟨w.slot,.leaving⟩} + others, lastUseTime := last }
  | left {w others} (workers : s.workers = {w} + others) (phase : w.phase = .leaving) :
      Took p s { s with workers := {⟨w.slot,.gone⟩} + others, workersCount := s.workersCount - 1 }
  | recycled {w others} (workers : s.workers = {w} + others) (phase : w.phase = .gone) :
      Took p s { s with workers := others, workerChanPool := {w.slot.chan} + s.workerChanPool }

theorem splitOff {α : Type} [DecidableEq α] {m : Multiset α} {a : α} (mem : a ∈ m) : m = {a} + m.erase a := by
  rw [Multiset.singleton_add,Multiset.cons_erase mem]

theorem stepTook (guard : enabled p s e) : Took p s (next p s e) := by
  cases e with
  | acquire => exact .acquired
  | abandon c => exact .abandoned (splitOff guard)
  | serve c =>
    simp only [next]
    cases last : s.ready.getLast? with
    | some r => exact .popped (List.dropLast_append_getLast? r (Option.mem_def.mpr last)).symm (splitOff guard.1)
    | none =>
      dsimp only
      split
      · exact .room (by assumption) (splitOff guard.1)
      · exact .refused
  | create c => exact .spawned (splitOff guard) (.inl ⟨rfl,rfl,rfl⟩)
  | reuse c chan => exact .spawned (splitOff guard.1) (.inr ⟨rfl,splitOff guard.2⟩)
  | forget chan => exact .forgotten (splitOff guard)
  | clean now => exact .noticed List.takeWhile_append_dropWhile.symm rfl
  | stop => exact .locked
  | stopNext =>
    simp only [next]
    cases ready : s.ready with
    | nil => exact .refused
    | cons r rest => exact @Took.noticed p s [r] rest .stop ready rfl
  | stopEnd => exact .locked
  | send x => exact .sent (splitOff guard.1)
  | deliver x w => exact .delivered (splitOff guard.1) (splitOff guard.2.1) guard.2.2.1 guard.2.2.2.1
  | receive m w => exact .received (splitOff guard.1) (splitOff guard.2.1) guard.2.2.1 guard.2.2.2
  | work w c => exact .worked (splitOff guard.1) guard.2
  | put w c => exact .put (splitOff guard.1) guard.2
  | release w now =>
    simp only [next]
    split
    · exact .stopped (splitOff guard.1) guard.2.1
    · exact .released (splitOff guard.1) guard.2.1
  | leave w => exact .left (splitOff guard.1) guard.2.1
  | recycle w => exact .recycled (splitOff guard.1) guard.2

def idles (w : Worker) : Multiset Slot :=
  match w.phase with
  | .idle => {w.slot}
  | _ => 0

def itemContexts : Option Nat → Multiset Nat
  | some c => {c}
  | none => 0

def sendContexts (x : Send) : Multiset Nat := itemContexts x.sender.item

def mailContexts (m : Mail) : Multiset Nat := itemContexts m.item

def workerContexts (w : Worker) : Multiset Nat :=
  match w.phase with
  | .got c => {c}
  | .served c => {c}
  | _ => 0

/- The context that went through `WorkerFunc` and is not put back yet. -/
def passed (w : Worker) : Multiset Nat :=
  match w.phase with
  | .served c => {c}
  | _ => 0

def Live (w : Worker) : Prop := w.phase ≠ .gone

instance (w : Worker) : Decidable (Live w) := inferInstanceAs (Decidable (w.phase ≠ .gone))

/- A worker lives from the section of `getCh` that makes room for it to its `workersCount--`. -/
def liveWorkers (s : State) : Nat := s.workers.countP Live + Multiset.card s.creating

def workerChans (s : State) : Multiset Nat := s.workers.map (fun w => w.slot.chan) + s.workerChanPool

def placed (s : State) : Multiset Nat :=
  s.held + s.creating + s.sends.bind sendContexts + s.mail.bind mailContexts + s.workers.bind workerContexts + s.returned

def claimed (s : State) : Multiset Slot := s.ready + s.sends.map Send.slot + s.mail.map Mail.slot

def Idle (s : State) (slot : Slot) : Prop := ∃ w ∈ s.workers, w.slot = slot ∧ w.phase = .idle

structure Kept (p : Pool) (s : State) : Prop where
  claims : s.workers.bind idles = claimed s
  chans : (workerChans s).Nodup
  chansBelow : ∀ chan ∈ workerChans s, chan < s.chans
  counted : s.workersCount = liveWorkers s
  bounded : s.workersCount ≤ p.maxWorkersCount
  places : (placed s).Nodup
  placesBelow : ∀ c ∈ placed s, c < s.acquired
  accepted : s.accepted = s.mail.bind mailContexts + s.workers.bind workerContexts + s.returned
  worked : (s.worked.map Prod.snd : Multiset Nat) = s.workers.bind passed + s.returned
  picked : ∀ x ∈ s.picked, x.sentOn.worker = x.worker

theorem balanced {α : Type} [DecidableEq α] {a b c d : Multiset α} (even : a = b)
    (counts : ∀ x, a.count x = b.count x → c.count x = d.count x) : c = d :=
  Multiset.ext.mpr fun x => counts x (congrArg (Multiset.count x) even)

theorem movedBind {α : Type} {f : Worker → Multiset α} {w : Worker} {others : Multiset Worker} {phase : Phase}
    (workers : s.workers = {w} + others) (same : f ⟨w.slot,phase⟩ = f w) :
    ({⟨w.slot,phase⟩} + others : Multiset Worker).bind f = s.workers.bind f := by
  rw [workers,Multiset.add_bind,Multiset.add_bind,Multiset.singleton_bind,Multiset.singleton_bind,same]

theorem idlesTaking (slot : Slot) (item : Option Nat) : idles ⟨slot,taking item⟩ = 0 := by
  cases item <;> rfl

theorem idlesOf {w : Worker} (idle : w.phase = .idle) : idles w = {w.slot} := by
  simp only [idles,idle]

theorem claimedIdle (kept : Kept p s) {slot : Slot} (claim : slot ∈ claimed s) : Idle s slot := by
  rw [← kept.claims] at claim
  obtain ⟨w,there,own⟩ := Multiset.mem_bind.mp claim
  unfold idles at own
  split at own
  · rename_i idle
    exact ⟨w,there,(Multiset.mem_singleton.mp own).symm,idle⟩
  · exact absurd own (Multiset.notMem_zero _)

theorem readyClaimed {r : Slot} (mem : r ∈ s.ready) : r ∈ claimed s :=
  Multiset.mem_add.mpr (.inl (Multiset.mem_add.mpr (.inl mem)))

theorem sendClaimed {x : Send} (mem : x ∈ s.sends) : x.slot ∈ claimed s :=
  Multiset.mem_add.mpr (.inl (Multiset.mem_add.mpr (.inr (Multiset.mem_map_of_mem _ mem))))

theorem mailClaimed {m : Mail} (mem : m ∈ s.mail) : m.slot ∈ claimed s :=
  Multiset.mem_add.mpr (.inr (Multiset.mem_map_of_mem _ mem))

theorem ownSlot (kept : Kept p s) {w : Worker} {others : Multiset Worker} (workers : s.workers = {w} + others) {slot : Slot}
    (claim : slot ∈ claimed s) (chan : slot.chan = w.slot.chan) : slot = w.slot := by
  obtain ⟨v,there,own,_⟩ := claimedIdle kept claim
  have here : w ∈ s.workers := by simp [workers]
  have nodup : (s.workers.map (fun w => w.slot.chan)).Nodup := (Multiset.nodup_add.mp kept.chans).1
  have same : v = w := Multiset.inj_on_of_nodup_map nodup v there w here (by rw [own,chan])
  rw [← own,same]

theorem claimsKept (kept : Kept p s) (took : Took p s t) : t.workers.bind idles = claimed t := by
  have claims := kept.claims
  unfold claimed at claims ⊢
  cases took with
  | acquired => exact claims
  | abandoned => exact claims
  | popped ready =>
    rw [ready,← Multiset.coe_add,Multiset.coe_singleton] at claims
    refine balanced claims fun x even => ?_
    simp only [Multiset.map_add,Multiset.map_singleton,Multiset.count_add] at even ⊢
    omega
  | room => exact claims
  | refused => exact claims
  | spawned =>
    refine balanced claims fun x even => ?_
    simp only [Multiset.add_bind,Multiset.singleton_bind,idles,Multiset.map_add,Multiset.map_singleton,
      Multiset.count_add] at even ⊢
    omega
  | forgotten => exact claims
  | @noticed first rest sender ready =>
    have slots : ((first.map (fun r => (⟨r,sender⟩ : Send)) : List Send) : Multiset Send).map Send.slot = first := by
      simp [Function.comp_def]
    rw [ready,← Multiset.coe_add] at claims
    refine balanced claims fun x even => ?_
    simp only [Multiset.map_add,slots,Multiset.count_add] at even ⊢
    omega
  | locked => exact claims
  | sent sends =>
    rw [sends] at claims
    refine balanced claims fun x even => ?_
    simp only [Multiset.map_add,Multiset.map_singleton,Multiset.count_add] at even ⊢
    omega
  | @delivered y rest w others sends workers idle chan =>
    -- The receive matched the channel only; the claim names the same worker.
    have own : y.slot = w.slot := ownSlot kept workers (sendClaimed (by simp [sends])) chan
    rw [sends,workers] at claims
    refine balanced claims fun x even => ?_
    simp only [Multiset.add_bind,Multiset.singleton_bind,idlesOf idle,idlesTaking,Multiset.map_add,Multiset.map_singleton,own,
      Multiset.count_add,Multiset.count_zero] at even ⊢
    omega
  | @received m rest w others mail workers idle chan =>
    have own : m.slot = w.slot := ownSlot kept workers (mailClaimed (by simp [mail])) chan
    rw [mail,workers] at claims
    refine balanced claims fun x even => ?_
    simp only [Multiset.add_bind,Multiset.singleton_bind,idlesOf idle,idlesTaking,Multiset.map_add,Multiset.map_singleton,own,
      Multiset.count_add,Multiset.count_zero] at even ⊢
    omega
  | worked workers phase => exact (movedBind workers (by simp only [idles,phase])).trans claims
  | put workers phase => exact (movedBind workers (by simp only [idles,phase])).trans claims
  | released workers phase =>
    rw [workers] at claims
    refine balanced claims fun x even => ?_
    simp only [Multiset.add_bind,Multiset.singleton_bind,idles,phase,← Multiset.coe_add,Multiset.coe_singleton,
      Multiset.count_add,Multiset.count_zero] at even ⊢
    omega
  | stopped workers phase => exact (movedBind workers (by simp only [idles,phase])).trans claims
  | left workers phase => exact (movedBind workers (by simp only [idles,phase])).trans claims
  | recycled workers phase =>
    rw [workers] at claims
    simpa only [Multiset.add_bind,Multiset.singleton_bind,idles,phase,zero_add] using claims

theorem distinctBelow {m m' : Multiset Nat} {n n' : Nat} (nodup : m.Nodup) (below : ∀ x ∈ m, x < n)
    (step : (n' = n ∧ m' ≤ m) ∨ (n' = n + 1 ∧ m' = {n} + m)) : m'.Nodup ∧ ∀ x ∈ m', x < n' := by
  rcases step with ⟨rfl,fewer⟩ | ⟨rfl,rfl⟩
  · exact ⟨Multiset.nodup_of_le fewer nodup,fun x mem => below x (Multiset.mem_of_le fewer mem)⟩
  · rw [Multiset.singleton_add]
    refine ⟨Multiset.nodup_cons.mpr ⟨fun mem => Nat.lt_irrefl n (below n mem),nodup⟩,?_⟩
    intro x mem
    rcases Multiset.mem_cons.mp mem with rfl | old
    · exact Nat.lt_succ_self x
    · exact Nat.lt_succ_of_lt (below x old)

theorem movedChans {w : Worker} {others : Multiset Worker} {phase : Phase} (workers : s.workers = {w} + others) :
    Multiset.map (fun w => w.slot.chan) ({⟨w.slot,phase⟩} + others) + s.workerChanPool = workerChans s := by
  simp only [workerChans,workers,Multiset.map_add,Multiset.map_singleton]

theorem chansStep (took : Took p s t) : (t.chans = s.chans ∧ workerChans t ≤ workerChans s) ∨
    (t.chans = s.chans + 1 ∧ workerChans t = {s.chans} + workerChans s) := by
  cases took with
  | spawned creating origin =>
    rcases origin with ⟨rfl,rfl,rfl⟩ | ⟨rfl,pooled⟩
    · refine .inr ⟨rfl,?_⟩
      simp only [workerChans,Multiset.map_add,Multiset.map_singleton,add_assoc]
    · refine .inl ⟨rfl,le_of_eq ?_⟩
      simp only [workerChans,Multiset.map_add,Multiset.map_singleton,pooled]
      ac_rfl
  | forgotten pooled =>
    refine .inl ⟨rfl,?_⟩
    simp only [workerChans,pooled]
    exact add_le_add_right (Multiset.le_add_left _ _) _
  | delivered sends workers => exact .inl ⟨rfl,le_of_eq (movedChans workers)⟩
  | received mail workers => exact .inl ⟨rfl,le_of_eq (movedChans workers)⟩
  | worked workers => exact .inl ⟨rfl,le_of_eq (movedChans workers)⟩
  | put workers => exact .inl ⟨rfl,le_of_eq (movedChans workers)⟩
  | released workers => exact .inl ⟨rfl,le_of_eq (movedChans workers)⟩
  | stopped workers => exact .inl ⟨rfl,le_of_eq (movedChans workers)⟩
  | left workers => exact .inl ⟨rfl,le_of_eq (movedChans workers)⟩
  | recycled workers =>
    refine .inl ⟨rfl,le_of_eq ?_⟩
    simp only [workerChans,workers,Multiset.map_add,Multiset.map_singleton]
    ac_rfl
  | _ => exact .inl ⟨rfl,le_refl _⟩

theorem takingContexts (slot : Slot) (item : Option Nat) : workerContexts ⟨slot,taking item⟩ = itemContexts item := by
  cases item <;> rfl

theorem idleContexts {w : Worker} (idle : w.phase = .idle) : workerContexts w = 0 := by
  simp only [workerContexts,idle]

theorem takingPassed (slot : Slot) (item : Option Nat) : passed ⟨slot,taking item⟩ = 0 := by
  cases item <;> rfl

theorem itemList (item : Option Nat) : (item.toList : Multiset Nat) = itemContexts item := by
  cases item <;> rfl

theorem noticeContexts {sender : Sender} (nil : sender.item = none) (slots : List Slot) :
    ((slots.map (fun r => ⟨r,sender⟩) : List Send) : Multiset Send).bind sendContexts = 0 := by
  have none : ∀ x ∈ ((slots.map (fun r => ⟨r,sender⟩) : List Send) : Multiset Send), sendContexts x = 0 := by
    intro x mem
    obtain ⟨r,_,rfl⟩ := List.mem_map.mp (Multiset.mem_coe.mp mem)
    simp only [sendContexts,nil,itemContexts]
  rw [Multiset.bind_congr none,Multiset.bind_zero]

theorem placesStep (took : Took p s t) : (t.acquired = s.acquired ∧ placed t ≤ placed s) ∨
    (t.acquired = s.acquired + 1 ∧ placed t = {s.acquired} + placed s) := by
  cases took with
  | acquired =>
    refine .inr ⟨rfl,?_⟩
    simp only [placed,add_assoc]
  | abandoned held =>
    refine .inl ⟨rfl,?_⟩
    simp only [placed,held,add_assoc]
    exact Multiset.le_add_left _ _
  | popped ready held =>
    refine .inl ⟨rfl,le_of_eq ?_⟩
    simp only [placed,held,Multiset.add_bind,Multiset.singleton_bind,sendContexts,Sender.item,itemContexts]
    ac_rfl
  | room below held =>
    refine .inl ⟨rfl,le_of_eq ?_⟩
    simp only [placed,held]
    ac_rfl
  | spawned creating =>
    refine .inl ⟨rfl,le_of_eq ?_⟩
    simp only [placed,creating,Multiset.add_bind,Multiset.singleton_bind,sendContexts,Sender.item,itemContexts,workerContexts,
      zero_add]
    ac_rfl
  | noticed ready nil =>
    refine .inl ⟨rfl,le_of_eq ?_⟩
    simp only [placed,Multiset.add_bind,noticeContexts nil,zero_add]
  | sent sends =>
    refine .inl ⟨rfl,le_of_eq ?_⟩
    simp only [placed,sends,Multiset.add_bind,Multiset.singleton_bind,sendContexts,mailContexts]
    ac_rfl
  | delivered sends workers idle =>
    refine .inl ⟨rfl,le_of_eq ?_⟩
    simp only [placed,sends,workers,Multiset.add_bind,Multiset.singleton_bind,sendContexts,takingContexts,idleContexts idle,
      zero_add]
    ac_rfl
  | received mail workers idle =>
    refine .inl ⟨rfl,le_of_eq ?_⟩
    simp only [placed,mail,workers,Multiset.add_bind,Multiset.singleton_bind,mailContexts,takingContexts,idleContexts idle,
      zero_add]
    ac_rfl
  | worked workers phase =>
    refine .inl ⟨rfl,le_of_eq ?_⟩
    simp only [placed,workers,Multiset.add_bind,Multiset.singleton_bind,workerContexts,phase]
  | put workers phase =>
    refine .inl ⟨rfl,le_of_eq ?_⟩
    simp only [placed,workers,Multiset.add_bind,Multiset.singleton_bind,workerContexts,phase,zero_add,← Multiset.cons_coe,
      ← Multiset.singleton_add]
    ac_rfl
  | released workers phase =>
    refine .inl ⟨rfl,le_of_eq ?_⟩
    simp only [placed,workers,Multiset.add_bind,Multiset.singleton_bind,workerContexts,phase]
  | stopped workers phase =>
    refine .inl ⟨rfl,le_of_eq ?_⟩
    simp only [placed,workers,Multiset.add_bind,Multiset.singleton_bind,workerContexts,phase]
  | left workers phase =>
    refine .inl ⟨rfl,le_of_eq ?_⟩
    simp only [placed,workers,Multiset.add_bind,Multiset.singleton_bind,workerContexts,phase]
  | recycled workers phase =>
    refine .inl ⟨rfl,le_of_eq ?_⟩
    simp only [placed,workers,Multiset.add_bind,Multiset.singleton_bind,workerContexts,phase,zero_add]
  | _ => exact .inl ⟨rfl,le_refl _⟩

theorem acceptedKept (kept : Kept p s) (took : Took p s t) :
    t.accepted = t.mail.bind mailContexts + t.workers.bind workerContexts + t.returned := by
  have accepted := kept.accepted
  cases took with
  | spawned =>
    simpa only [Multiset.add_bind,Multiset.singleton_bind,workerContexts,zero_add] using accepted
  | sent sends =>
    simp only [← Multiset.coe_add,itemList,accepted,Multiset.add_bind,Multiset.singleton_bind,mailContexts]
    ac_rfl
  | delivered sends workers idle =>
    simp only [← Multiset.coe_add,itemList,accepted,workers,Multiset.add_bind,Multiset.singleton_bind,takingContexts,
      idleContexts idle,zero_add]
    ac_rfl
  | received mail workers idle =>
    simp only [accepted,mail,workers,Multiset.add_bind,Multiset.singleton_bind,mailContexts,takingContexts,
      idleContexts idle,zero_add]
    ac_rfl
  | worked workers phase =>
    simp only [accepted,workers,Multiset.add_bind,Multiset.singleton_bind,workerContexts,phase]
  | put workers phase =>
    simp only [accepted,workers,Multiset.add_bind,Multiset.singleton_bind,workerContexts,phase,zero_add,← Multiset.cons_coe,
      ← Multiset.singleton_add]
    ac_rfl
  | released workers phase =>
    simp only [accepted,workers,Multiset.add_bind,Multiset.singleton_bind,workerContexts,phase]
  | stopped workers phase =>
    simp only [accepted,workers,Multiset.add_bind,Multiset.singleton_bind,workerContexts,phase]
  | left workers phase =>
    simp only [accepted,workers,Multiset.add_bind,Multiset.singleton_bind,workerContexts,phase]
  | recycled workers phase =>
    simp only [accepted,workers,Multiset.add_bind,Multiset.singleton_bind,workerContexts,phase,zero_add]
  | _ => exact accepted

theorem workedKept (kept : Kept p s) (took : Took p s t) :
    (t.worked.map Prod.snd : Multiset Nat) = t.workers.bind passed + t.returned := by
  have worked := kept.worked
  cases took with
  | spawned => simpa only [Multiset.add_bind,Multiset.singleton_bind,passed,zero_add] using worked
  | delivered sends workers idle =>
    simp only [worked,workers,Multiset.add_bind,Multiset.singleton_bind,takingPassed,zero_add]
    simp only [passed,idle,zero_add]
  | received mail workers idle =>
    simp only [worked,workers,Multiset.add_bind,Multiset.singleton_bind,takingPassed,zero_add]
    simp only [passed,idle,zero_add]
  | worked workers phase =>
    rw [List.map_cons,← Multiset.cons_coe,worked,workers]
    simp only [Multiset.add_bind,Multiset.singleton_bind,passed,phase,zero_add,← Multiset.singleton_add,add_assoc]
  | put workers phase =>
    rw [worked,workers]
    simp only [Multiset.add_bind,Multiset.singleton_bind,passed,phase,zero_add,← Multiset.cons_coe,← Multiset.singleton_add]
    ac_rfl
  | released workers phase => simp only [worked,workers,Multiset.add_bind,Multiset.singleton_bind,passed,phase]
  | stopped workers phase => simp only [worked,workers,Multiset.add_bind,Multiset.singleton_bind,passed,phase]
  | left workers phase => simp only [worked,workers,Multiset.add_bind,Multiset.singleton_bind,passed,phase]
  | recycled workers phase => simp only [worked,workers,Multiset.add_bind,Multiset.singleton_bind,passed,phase,zero_add]
  | _ => exact worked

theorem liveAdded {w : Worker} (others : Multiset Worker) (live : Live w) :
    ({w} + others).countP Live = others.countP Live + 1 := by
  rw [Multiset.singleton_add,Multiset.countP_cons_of_pos _ live]

theorem goneAdded {w : Worker} (others : Multiset Worker) (gone : w.phase = .gone) :
    ({w} + others).countP Live = others.countP Live := by
  rw [Multiset.singleton_add,Multiset.countP_cons_of_neg _ (fun live : Live w => live gone)]

theorem movedLive {w : Worker} {others : Multiset Worker} {phase : Phase} (workers : s.workers = {w} + others)
    (before : Live w) (after : Live ⟨w.slot,phase⟩) :
    ({⟨w.slot,phase⟩} + others : Multiset Worker).countP Live + Multiset.card s.creating = liveWorkers s := by
  rw [liveWorkers,workers,liveAdded others before,liveAdded others after]

theorem liveAt {w : Worker} {phase : Phase} (here : w.phase = phase) (other : phase ≠ .gone) : Live w := by
  rw [Live,here]
  exact other

theorem countedKept (kept : Kept p s) (took : Took p s t) :
    t.workersCount = liveWorkers t ∧ t.workersCount ≤ p.maxWorkersCount := by
  have counted := kept.counted
  have bounded := kept.bounded
  cases took with
  | room below held =>
    refine ⟨?_,below⟩
    simp only [liveWorkers,Multiset.card_add,Multiset.card_singleton] at counted ⊢
    omega
  | @spawned c rest chan pool chans creating =>
    refine ⟨?_,bounded⟩
    have added := @liveAdded ⟨⟨chan,s.spawned⟩,.idle⟩ s.workers nofun
    simp only [liveWorkers,creating,Multiset.card_add,Multiset.card_singleton,added] at counted ⊢
    omega
  | @delivered x rest w others sends workers idle =>
    refine ⟨counted.trans (movedLive workers (liveAt idle nofun) ?_).symm,bounded⟩
    cases x.sender.item <;> exact liveAt rfl nofun
  | @received m rest w others mail workers idle =>
    refine ⟨counted.trans (movedLive workers (liveAt idle nofun) ?_).symm,bounded⟩
    cases m.item <;> exact liveAt rfl nofun
  | worked workers phase =>
    refine ⟨counted.trans (movedLive workers (liveAt phase nofun) ?_).symm,bounded⟩
    exact liveAt rfl nofun
  | put workers phase =>
    refine ⟨counted.trans (movedLive workers (liveAt phase nofun) ?_).symm,bounded⟩
    exact liveAt rfl nofun
  | released workers phase =>
    refine ⟨counted.trans (movedLive workers (liveAt phase nofun) ?_).symm,bounded⟩
    exact liveAt rfl nofun
  | stopped workers phase =>
    refine ⟨counted.trans (movedLive workers (liveAt phase nofun) ?_).symm,bounded⟩
    exact liveAt rfl nofun
  | @left w others workers phase =>
    have before := liveAdded others (liveAt phase nofun)
    have after := @goneAdded ⟨w.slot,.gone⟩ others rfl
    simp only [liveWorkers,workers,before,after] at counted ⊢
    omega
  | @recycled w others workers phase =>
    refine ⟨?_,bounded⟩
    rw [counted,liveWorkers,workers,goneAdded others phase]
    rfl
  | _ => exact ⟨counted,bounded⟩

theorem pickedKept (kept : Kept p s) (took : Took p s t) : ∀ x ∈ t.picked, x.sentOn.worker = x.worker := by
  have picked := kept.picked
  have item {item : Option Nat} {slot own : Slot} (same : slot = own) :
      ∀ x ∈ item.toList.map (fun c => (⟨c,slot,own.worker⟩ : Pick)) ++ s.picked, x.sentOn.worker = x.worker := by
    intro x mem
    rcases List.mem_append.mp mem with new | old
    · obtain ⟨c,_,rfl⟩ := List.mem_map.mp new
      rw [same]
    · exact picked x old
  cases took with
  | @delivered x rest w others sends workers idle chan =>
    exact item (ownSlot kept workers (sendClaimed (by simp [sends])) chan)
  | @received m rest w others mail workers idle chan =>
    exact item (ownSlot kept workers (mailClaimed (by simp [mail])) chan)
  | _ => exact picked

theorem keptStep (kept : Kept p s) (took : Took p s t) : Kept p t := by
  have chans := distinctBelow kept.chans kept.chansBelow (chansStep took)
  have places := distinctBelow kept.places kept.placesBelow (placesStep took)
  have counted := countedKept kept took
  exact ⟨claimsKept kept took,chans.1,chans.2,counted.1,counted.2,places.1,places.2,acceptedKept kept took,
    workedKept kept took,pickedKept kept took⟩

theorem keptRun {h} (run : Run (machine p) h s) : Kept p s := by
  refine invariant ?_ (fun s e kept guard => keptStep kept (stepTook guard)) run
  exact ⟨rfl,Multiset.nodup_zero,nofun,rfl,Nat.zero_le _,Multiset.nodup_zero,nofun,rfl,rfl,nofun⟩

theorem idleChans (workers : Multiset Worker) :
    (workers.bind idles).map Slot.chan ≤ workers.map (fun w => w.slot.chan) := by
  induction workers using Multiset.induction_on with
  | empty => exact le_refl _
  | cons w rest ih =>
    rw [Multiset.cons_bind,Multiset.map_add,Multiset.map_cons,← Multiset.singleton_add]
    refine add_le_add ?_ ih
    unfold idles
    split
    · exact le_refl _
    · exact Multiset.zero_le _

theorem claimedOnce (kept : Kept p s) : ((claimed s).map Slot.chan).Nodup := by
  have workers := (Multiset.nodup_add.mp kept.chans).1
  rw [← kept.claims]
  exact Multiset.nodup_of_le (idleChans s.workers) workers

theorem pooledFree (kept : Kept p s) {slot : Slot} (claim : slot ∈ claimed s) : slot.chan ∉ s.workerChanPool := by
  obtain ⟨w,there,own,_⟩ := claimedIdle kept claim
  have apart := (Multiset.nodup_add.mp kept.chans).2.2
  intro pooled
  refine Multiset.disjoint_left.mp apart ?_ pooled
  exact Multiset.mem_map.mpr ⟨w,there,by rw [own]⟩

structure ServesOnce (p : Pool) (s : State) : Prop where
  passedOnce : (s.worked.map Prod.snd).Nodup
  passedAccepted : ∀ x ∈ s.worked, x.2 ∈ s.accepted
  putOnce : s.returned.Nodup
  putPassed : ∀ c ∈ s.returned, ∃ worker, (worker,c) ∈ s.worked
  acceptedKept : ∀ c ∈ s.accepted, (∃ m ∈ s.mail, m.item = some c) ∨
    (∃ w ∈ s.workers, w.phase = .got c ∨ w.phase = .served c) ∨ c ∈ s.returned
  mailRead : ∀ m ∈ s.mail, Idle s m.slot
  mailOwn : ∀ x ∈ s.picked, x.sentOn.worker = x.worker
  pooledFree : ∀ chan ∈ s.workerChanPool, ∀ slot ∈ claimed s, slot.chan ≠ chan
  readyOnce : (s.ready.map Slot.chan).Nodup
  readyIdle : ∀ r ∈ s.ready, Idle s r
  readyFree : ∀ r ∈ s.ready, (∀ x ∈ s.sends, x.slot.chan ≠ r.chan) ∧ ∀ m ∈ s.mail, m.slot.chan ≠ r.chan
  counted : s.workersCount = liveWorkers s
  bounded : s.workersCount ≤ p.maxWorkersCount

theorem passedAmong (workers : Multiset Worker) : workers.bind passed ≤ workers.bind workerContexts := by
  induction workers using Multiset.induction_on with
  | empty => exact le_refl _
  | cons w rest ih =>
    rw [Multiset.cons_bind,Multiset.cons_bind]
    refine add_le_add ?_ ih
    unfold passed
    split
    · rename_i c served
      rw [workerContexts,served]
    · exact Multiset.zero_le _

theorem workedAccepted (kept : Kept p s) : (s.worked.map Prod.snd : Multiset Nat) ≤ s.accepted := by
  rw [kept.worked,kept.accepted,add_assoc]
  exact le_trans (add_le_add_left (passedAmong s.workers) _) (Multiset.le_add_left _ _)

theorem acceptedPlaced (kept : Kept p s) : (s.accepted : Multiset Nat) ≤ placed s := by
  have split : placed s = s.held + s.creating + s.sends.bind sendContexts +
      (s.mail.bind mailContexts + s.workers.bind workerContexts + s.returned) := by
    simp only [placed,add_assoc]
  rw [split,← kept.accepted]
  exact Multiset.le_add_left _ _

theorem itemMem {item : Option Nat} {c : Nat} (mem : c ∈ itemContexts item) : item = some c := by
  cases item with
  | none => exact absurd mem (Multiset.notMem_zero _)
  | some d => rw [Multiset.mem_singleton.mp mem]

theorem contextMem {w : Worker} {c : Nat} (mem : c ∈ workerContexts w) : w.phase = .got c ∨ w.phase = .served c := by
  unfold workerContexts at mem
  split at mem
  · rename_i d phase
    exact .inl (Multiset.mem_singleton.mp mem ▸ phase)
  · rename_i d phase
    exact .inr (Multiset.mem_singleton.mp mem ▸ phase)
  · exact absurd mem (Multiset.notMem_zero _)

theorem acceptedPlace (kept : Kept p s) {c : Nat} (accepted : c ∈ s.accepted) : (∃ m ∈ s.mail, m.item = some c) ∨
    (∃ w ∈ s.workers, w.phase = .got c ∨ w.phase = .served c) ∨ c ∈ s.returned := by
  have mem : c ∈ (s.accepted : Multiset Nat) := accepted
  rw [kept.accepted] at mem
  rcases Multiset.mem_add.mp mem with early | returned
  · rcases Multiset.mem_add.mp early with mail | worker
    · obtain ⟨m,there,item⟩ := Multiset.mem_bind.mp mail
      exact .inl ⟨m,there,itemMem item⟩
    · obtain ⟨w,there,own⟩ := Multiset.mem_bind.mp worker
      exact .inr (.inl ⟨w,there,contextMem own⟩)
  · exact .inr (.inr returned)

theorem readyFree (kept : Kept p s) {r : Slot} (ready : r ∈ s.ready) :
    (∀ x ∈ s.sends, x.slot.chan ≠ r.chan) ∧ ∀ m ∈ s.mail, m.slot.chan ≠ r.chan := by
  have once := claimedOnce kept
  rw [claimed,Multiset.map_add,Multiset.map_add] at once
  obtain ⟨early,_,apartMail⟩ := Multiset.nodup_add.mp once
  obtain ⟨_,_,apartSends⟩ := Multiset.nodup_add.mp early
  have here : r.chan ∈ (s.ready : Multiset Slot).map Slot.chan := Multiset.mem_map_of_mem _ ready
  refine ⟨?_,?_⟩
  · intro x there same
    refine Multiset.disjoint_left.mp apartSends here (same ▸ ?_)
    exact Multiset.mem_map_of_mem _ (Multiset.mem_map_of_mem _ there)
  · intro m there same
    refine Multiset.disjoint_left.mp apartMail (Multiset.mem_add.mpr (.inl here)) (same ▸ ?_)
    exact Multiset.mem_map_of_mem _ (Multiset.mem_map_of_mem _ there)

theorem servesOnce {h} (run : Run (machine p) h s) : ServesOnce p s := by
  have kept := keptRun run
  have accepted : (s.accepted : Multiset Nat).Nodup := Multiset.nodup_of_le (acceptedPlaced kept) kept.places
  have worked : (s.worked.map Prod.snd : Multiset Nat).Nodup := Multiset.nodup_of_le (workedAccepted kept) accepted
  have returned : (s.returned : Multiset Nat) ≤ s.worked.map Prod.snd := by
    rw [kept.worked]
    exact Multiset.le_add_left _ _
  have ready : ((s.ready.map Slot.chan : List Nat) : Multiset Nat) ≤ (claimed s).map Slot.chan := by
    rw [claimed,Multiset.map_add,Multiset.map_add,add_assoc]
    exact Multiset.le_add_right _ _
  exact
    { passedOnce := Multiset.coe_nodup.mp worked
      passedAccepted := fun x mem => Multiset.mem_of_le (workedAccepted kept) (List.mem_map_of_mem mem)
      putOnce := Multiset.coe_nodup.mp (Multiset.nodup_of_le returned worked)
      putPassed := by
        intro c mem
        obtain ⟨x,there,rfl⟩ := List.mem_map.mp (Multiset.mem_of_le returned mem)
        exact ⟨x.1,there⟩
      acceptedKept := fun c mem => acceptedPlace kept mem
      mailRead := fun m mem => claimedIdle kept (mailClaimed mem)
      mailOwn := kept.picked
      pooledFree := by
        intro chan pooled slot claim same
        exact pooledFree kept claim (same ▸ pooled)
      readyOnce := Multiset.coe_nodup.mp (Multiset.nodup_of_le ready (claimedOnce kept))
      readyIdle := fun r mem => claimedIdle kept (readyClaimed mem)
      readyFree := fun r mem => readyFree kept mem
      counted := kept.counted
      bounded := kept.bounded }

def samplePool : Pool := ⟨1,10,1⟩

/- A worker serves a context, is cleaned away, and its channel goes to the next worker. -/
def sampleSchedule : List Event :=
  [.acquire,.serve 0,.create 0,.send ⟨⟨0,0⟩,.serve 0⟩,.receive ⟨⟨0,0⟩,some 0⟩ ⟨⟨0,0⟩,.idle⟩,.work ⟨⟨0,0⟩,.got 0⟩ 0,
   .put ⟨⟨0,0⟩,.served 0⟩ 0,.release ⟨⟨0,0⟩,.releasing⟩ 5,.clean 30,.send ⟨⟨0,0⟩,.clean⟩,
   .receive ⟨⟨0,0⟩,none⟩ ⟨⟨0,0⟩,.idle⟩,.leave ⟨⟨0,0⟩,.leaving⟩,.recycle ⟨⟨0,0⟩,.gone⟩,.acquire,.serve 1,.reuse 1 0,
   .deliver ⟨⟨0,1⟩,.serve 1⟩ ⟨⟨0,1⟩,.idle⟩,.work ⟨⟨0,1⟩,.got 1⟩ 1]

theorem sampleAllowed : Allowed (machine samplePool) .empty sampleSchedule := by
  simp only [Allowed,sampleSchedule,machine]
  decide +kernel

theorem servesOnceSample : ServesOnce samplePool (trace (machine samplePool) [] .empty sampleSchedule).2 ∧
    (trace (machine samplePool) [] .empty sampleSchedule).2.worked = [(1,1),(0,0)] :=
  ⟨servesOnce (traceStart sampleSchedule sampleAllowed),by decide +kernel⟩

end Gortcd.Custody
