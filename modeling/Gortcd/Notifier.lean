import Gortcd.Reload
import Gortcd.Lib.Progress
import Gortcd.Lib.Simulation

/-! From a request to reload to the options in force: internal/reload, internal/manage and the
goroutine of internal/cli/run.go that reads the file. A signal is dropped when the channel of
the runtime is full, a call of `Notify` waits while `n.C` is full, and several requests may end
in one read. What `Set` does to the servers is the machine of `Reload`, whose steps appear here
under `update`. -/
namespace Gortcd.Notifier
open Net Messages Filters Handlers Reload Runs Progress
open Auth (AuthErr NonceManager)

structure RawConfig where
  realm : Bytes
  workers : Int
  authForSTUN : Bool
  software : Bytes
  debugCollect : Bool
  metricsEnabled : Bool
  peer : RawFilter
  client : RawFilter

/- It leaves `Auth` as it is in the options it is given. -/
def parseOptions {α : Type} (texts : Texts) (auth : Option α) (raw : RawConfig) : Except ParseErr (ServerOptions α) := do
  let peer ← parseFilteringRules texts raw.peer
  let client ← parseFilteringRules texts raw.client
  .ok
    { software := raw.software
      realm := raw.realm
      authForSTUN := raw.authForSTUN
      peerRule := peer.act
      clientRule := client.act
      workers := raw.workers
      debugCollect := raw.debugCollect
      metricsEnabled := raw.metricsEnabled
      auth := auth }

structure Response where
  status : Nat
  body : String
  notifies : Bool
  deriving DecidableEq, Repr

/- `Manager.ServeHTTP`; it writes the body after `Notify` has returned. -/
def serveHTTP (path : String) : Response :=
  if path = "/reload" then ⟨200,"server will be reloaded soon",true⟩ else ⟨404,"management endpoint not found",false⟩

inductive Phase (α : Type) where
  | waiting
  | reading
  | parsing
  | storing (o : ServerOptions α)
  | setting

/- `file` is none when it cannot be read; `v.ReadInConfig` leaves viper as it was then. -/
structure State (α : Type) where
  file : Option RawConfig
  viper : RawConfig
  signals : Bool
  taken : Bool
  posting : Nat
  queue : Bool
  phase : Phase α
  updater : Reload.State α

inductive Event (α : Type) where
  | edit (file : Option RawConfig)
  | signal
  | http (path : String)
  | take
  | pushSignal
  | pushRequest
  | wake
  | read
  | parse
  | update (e : Reload.Event α)

variable {α : Type} {texts : Texts}

/- Only this goroutine calls `Set`. -/
def Event.fits (s : State α) : Reload.Event α → Prop
  | .store o => s.phase = .storing o
  | _ => True

def enabled (s : State α) : Event α → Prop
  | .edit _ => True
  | .signal => True
  | .http _ => True
  | .take => s.signals = true ∧ s.taken = false
  | .pushSignal => s.taken = true ∧ s.queue = false
  | .pushRequest => 0 < s.posting ∧ s.queue = false
  | .wake => s.queue = true ∧ s.phase = .waiting
  | .read => s.phase = .reading
  | .parse => s.phase = .parsing
  | .update e => Reload.enabled s.updater e ∧ Event.fits s e

def State.update (s : State α) (e : Reload.Event α) : State α :=
  let s := { s with updater := Reload.next s.updater e }
  match e with
  | .store _ => { s with phase := .setting }
  | .unlock => { s with phase := .waiting }
  | _ => s

def next (texts : Texts) (s : State α) : Event α → State α
  | .edit file => { s with file := file }
  | .signal => { s with signals := true }
  | .http path => if (serveHTTP path).notifies then { s with posting := s.posting + 1 } else s
  | .take => { s with signals := false, taken := true }
  | .pushSignal => { s with taken := false, queue := true }
  | .pushRequest => { s with posting := s.posting - 1, queue := true }
  | .wake => { s with queue := false, phase := .reading }
  | .read => match s.file with
    | some raw => { s with viper := raw, phase := .parsing }
    | none => { s with phase := .waiting }
  | .parse => match parseOptions texts none s.viper with -- `newOptions` has no `Auth`
    | .ok o => { s with phase := .storing o }
    | .error _ => { s with phase := .waiting }
  | .update e => s.update e

/- What `getListeners` starts from: the file, if one was found, what viper has read of it or of the
default configuration, and the options it has parsed (with `auth.public` there is no `Auth`). -/
structure Boot (α : Type) where
  file : Option RawConfig
  viper : RawConfig
  options : ServerOptions α

def machine (texts : Texts) (b : Boot α) : Machine (State α) (Event α) :=
  ⟨⟨b.file,b.viper,false,false,0,false,.waiting,⟨b.options,none,[],[]⟩⟩,enabled,next texts⟩

variable {b : Boot α} {h : List (Step (State α) (Event α))} {s : State α} {e : Event α}

theorem updateUpdater (s : State α) (e : Reload.Event α) : (s.update e).updater = Reload.next s.updater e := by
  cases e <;> rfl

def Event.inner : Event α → Option (Reload.Event α)
  | .update e => some e
  | _ => none

def updates : List (Step (State α) (Event α)) → List (Step (Reload.State α) (Reload.Event α)) :=
  Simulation.image State.updater (fun _ e => e.inner)

theorem innerUpdate {u : Reload.Event α} (inner : e.inner = some u) : e = .update u := by
  cases e with
  | update v => exact congrArg Event.update (Option.some.inj inner)
  | _ => cases inner

theorem nextUpdater (outer : e.inner = none) : (next texts s e).updater = s.updater := by
  cases e with
  | update u => cases outer
  | http path =>
    simp only [next]
    split <;> rfl
  | read =>
    simp only [next]
    split <;> rfl
  | parse =>
    simp only [next]
    split <;> rfl
  | _ => rfl

theorem updaterSimulates (texts : Texts) (b : Boot α) : Simulation.Simulates (machine texts b) (Reload.machine b.options)
    (fun _ => True) State.updater (fun _ e => e.inner) where
  start := rfl
  step s e u _ guard acts := by
    cases innerUpdate acts
    exact ⟨guard.1,updateUpdater s u⟩
  still _ _ _ _ outer := nextUpdater outer

theorem updatesRun (run : Run (machine texts b) h s) : Run (Reload.machine b.options) (updates h) s.updater :=
  Simulation.simulated (updaterSimulates texts b) (fun _ => trivial) run

def Asked (x : Step (State α) (Event α)) : Prop :=
  match x.event with
  | .signal => True
  | .http path => (serveHTTP path).notifies = true
  | _ => False

def IsRead (x : Step (State α) (Event α)) : Prop := x.event = .read

def IsEdit (x : Step (State α) (Event α)) : Prop := ∃ file, x.event = .edit file

def Pending (s : State α) : Prop :=
  s.signals = true ∨ s.taken = true ∨ 0 < s.posting ∨ s.queue = true ∨ s.phase = .reading

/- `Set` runs exactly in this phase, and its loop stays within the listeners. -/
structure Linked (s : State α) : Prop where
  setting : s.phase = .setting ↔ s.updater.setting ≠ none
  within : ∀ o i, s.updater.setting = some (.notifying o i) → i ≤ s.updater.listeners.length

theorem linkedOther (linked : Linked s) {t : State α} (phase : t.phase = .setting ↔ s.phase = .setting)
    (updater : t.updater = s.updater) : Linked t := by
  refine ⟨?_,?_⟩
  · rw [phase,updater]
    exact linked.setting
  · rw [updater]
    exact linked.within

theorem linkedUpdate {u : Reload.Event α} (linked : Linked s) (guard : enabled s (.update u)) : Linked (s.update u) := by
  obtain ⟨inner,fits⟩ := guard
  cases u with
  | get k => exact ⟨linked.setting,linked.within⟩
  | new k => exact ⟨linked.setting,linked.within⟩
  | fail k => exact ⟨linked.setting,linked.within⟩
  | subscribe k =>
    obtain ⟨⟨l,c,found,cfg⟩,outside⟩ := inner
    have moved := subscribeSpec found cfg
    refine ⟨?_,?_⟩
    · change s.phase = .setting ↔ (Reload.next s.updater (.subscribe k)).setting ≠ none
      rw [moved]
      exact linked.setting
    · change ∀ o i, (Reload.next s.updater (.subscribe k)).setting = some (.notifying o i) → _
      rw [moved]
      exact fun o i now => absurd now (outside o i)
  | store o =>
    refine ⟨⟨fun _ => Option.some_ne_none _,fun _ => rfl⟩,?_⟩
    intro p i at'
    cases at'
  | lock =>
    obtain ⟨o,now⟩ := inner
    have running := linked.setting.mpr (by rw [now]; exact Option.some_ne_none _)
    simp only [State.update,Reload.next,now]
    refine ⟨⟨fun _ => Option.some_ne_none _,fun _ => running⟩,?_⟩
    intro p i at'
    cases at'
    exact Nat.zero_le _
  | notify =>
    obtain ⟨o,i,now,less⟩ := inner
    have running := linked.setting.mpr (by rw [now]; exact Option.some_ne_none _)
    simp only [State.update,Reload.next,now]
    refine ⟨⟨fun _ => Option.some_ne_none _,fun _ => running⟩,?_⟩
    intro p j at'
    cases at'
    rw [List.length_modify]
    exact less
  | unlock =>
    refine ⟨⟨fun phase => ?_,fun some' => absurd rfl some'⟩,fun o i at' => ?_⟩
    · cases phase
    · cases at'

theorem linkedStep (linked : Linked s) (guard : enabled s e) : Linked (next texts s e) := by
  cases e with
  | edit file => exact ⟨linked.setting,linked.within⟩
  | signal => exact ⟨linked.setting,linked.within⟩
  | http path =>
    simp only [next]
    split
    · exact ⟨linked.setting,linked.within⟩
    · exact linked
  | take => exact ⟨linked.setting,linked.within⟩
  | pushSignal => exact ⟨linked.setting,linked.within⟩
  | pushRequest => exact ⟨linked.setting,linked.within⟩
  | wake => exact linkedOther linked (by simp [next,guard.2]) rfl
  | read =>
    have before : s.phase = .reading := guard
    simp only [next]
    split <;> exact linkedOther linked (by simp [before]) rfl
  | parse =>
    have before : s.phase = .parsing := guard
    simp only [next]
    split <;> exact linkedOther linked (by simp [before]) rfl
  | update u => exact linkedUpdate linked guard

theorem linkedStart (texts : Texts) (b : Boot α) : Linked (machine texts b).start := by
  refine ⟨⟨fun phase => ?_,fun some' => absurd rfl some'⟩,fun o i now => ?_⟩
  · cases phase
  · cases now

theorem linkedRun (run : Run (machine texts b) h s) : Linked s :=
  invariant (linkedStart texts b) (fun _ _ linked guard => linkedStep linked guard) run

/- While the goroutine reads, no `Set` is on its way. -/
theorem updateReading {u : Reload.Event α} (linked : Linked s) (guard : enabled s (.update u)) (reading : s.phase = .reading) :
    (s.update u).phase = .reading := by
  have none : s.updater.setting = none := by
    refine Classical.byContradiction (fun some' => ?_)
    cases reading.symm.trans (linked.setting.mpr some')
  obtain ⟨inner,fits⟩ := guard
  cases u with
  | store o => cases reading.symm.trans fits
  | unlock =>
    obtain ⟨o,now⟩ := inner
    cases none.symm.trans now
  | _ => exact reading

theorem pendingUpdate {u : Reload.Event α} (linked : Linked s) (guard : enabled s (.update u)) (pending : Pending s) :
    Pending (s.update u) := by
  have signals : (s.update u).signals = s.signals := by cases u <;> rfl
  have taken : (s.update u).taken = s.taken := by cases u <;> rfl
  have posting : (s.update u).posting = s.posting := by cases u <;> rfl
  have queue : (s.update u).queue = s.queue := by cases u <;> rfl
  rw [Pending,signals,taken,posting,queue]
  rcases pending with at' | at' | at' | at' | reading
  · exact .inl at'
  · exact .inr (.inl at')
  · exact .inr (.inr (.inl at'))
  · exact .inr (.inr (.inr (.inl at')))
  · exact .inr (.inr (.inr (.inr (updateReading linked guard reading))))

theorem pendingStep (linked : Linked s) (guard : enabled s e) (pending : Pending s) (other : e ≠ .read) :
    Pending (next texts s e) := by
  cases e with
  | edit file => exact pending
  | signal => exact .inl rfl
  | http path =>
    simp only [next]
    split
    · exact .inr (.inr (.inl (Nat.succ_pos _)))
    · exact pending
  | take => exact .inr (.inl rfl)
  | pushSignal => exact .inr (.inr (.inr (.inl rfl)))
  | pushRequest => exact .inr (.inr (.inr (.inl rfl)))
  | wake => exact .inr (.inr (.inr (.inr rfl)))
  | read => exact absurd rfl other
  | parse =>
    have before : s.phase = .parsing := guard
    simp only [next]
    rcases pending with at' | at' | at' | at' | reading
    · split <;> exact .inl at'
    · split <;> exact .inr (.inl at')
    · split <;> exact .inr (.inr (.inl at'))
    · split <;> exact .inr (.inr (.inr (.inl at')))
    · cases before.symm.trans reading
  | update u => exact pendingUpdate linked guard pending

theorem askedPending {x : Step (State α) (Event α)} (asked : Asked x) : Pending (next texts x.pre x.event) := by
  obtain ⟨s,e⟩ := x
  cases e with
  | signal => exact .inl rfl
  | http path =>
    have notifies : (serveHTTP path).notifies = true := asked
    simp only [next,notifies,if_true]
    exact .inr (.inr (.inl (Nat.succ_pos _)))
  | _ => exact asked.elim

/- No request is lost: until the file has been read again, one is on its way. -/
theorem askedUnread (run : Run (machine texts b) h s) (since : Since Asked (fun x => ¬ IsRead x) h) : Pending s := by
  induction run with
  | start => exact since.elim
  | @step h s e before guard ih =>
    rcases since with asked | ⟨unread,past⟩
    · exact askedPending (x := ⟨s,e⟩) asked
    · exact pendingStep (linkedRun before) guard (ih past) unread

def loaded (texts : Texts) (x : Step (State α) (Event α)) : Option (ServerOptions α) :=
  match x.event with
  | .read => x.pre.file.bind (fun raw => (parseOptions texts none raw).toOption)
  | _ => none

def inForce (texts : Texts) (initial : ServerOptions α) : List (Step (State α) (Event α)) → ServerOptions α
  | [] => initial
  | x :: h => (loaded texts x).getD (inForce texts initial h)

def State.aim (texts : Texts) (s : State α) : ServerOptions α :=
  match s.phase with
  | .parsing => (parseOptions texts none s.viper).toOption.getD s.updater.v
  | .storing o => o
  | _ => s.updater.v

theorem aimUpdate {u : Reload.Event α} (linked : Linked s) (guard : enabled s (.update u)) :
    (s.update u).aim texts = s.aim texts := by
  obtain ⟨inner,fits⟩ := guard
  have started (now : s.updater.setting ≠ none) : s.aim texts = s.updater.v := by
    simp only [State.aim,linked.setting.mpr now]
  cases u with
  | get k => rfl
  | new k => rfl
  | fail k => rfl
  | subscribe k =>
    obtain ⟨⟨l,c,found,cfg⟩,_⟩ := inner
    simp only [State.aim,State.update,subscribeSpec found cfg]
  | store o =>
    have storing : s.phase = .storing o := fits
    simp only [State.aim,State.update,Reload.next,storing]
  | lock =>
    obtain ⟨o,now⟩ := inner
    simp only [State.aim,State.update,Reload.next,now]
  | notify =>
    obtain ⟨o,i,now,_⟩ := inner
    simp only [State.aim,State.update,Reload.next,now]
  | unlock =>
    obtain ⟨o,now⟩ := inner
    rw [started (by rw [now]; exact Option.some_ne_none _)]
    rfl

theorem aimStep (linked : Linked s) (guard : enabled s e) :
    (next texts s e).aim texts = (loaded texts ⟨s,e⟩).getD (s.aim texts) := by
  cases e with
  | edit file => rfl
  | signal => rfl
  | http path =>
    simp only [next]
    split <;> rfl
  | take => rfl
  | pushSignal => rfl
  | pushRequest => rfl
  | wake => simp only [next,loaded,State.aim,guard.2,Option.getD_none]
  | read =>
    have before : s.phase = .reading := guard
    simp only [next,loaded]
    cases file : s.file with
    | none => simp only [State.aim,before,Option.bind_none,Option.getD_none]
    | some raw => simp only [State.aim,before,Option.bind_some]
  | parse =>
    have before : s.phase = .parsing := guard
    simp only [next,loaded,Option.getD_none]
    cases parsed : parseOptions texts none s.viper with
    | ok o => simp only [State.aim,before,parsed,Except.toOption,Option.getD_some]
    | error err => simp only [State.aim,before,parsed,Except.toOption,Option.getD_none]
  | update u => exact aimUpdate linked guard

theorem aimRun (run : Run (machine texts b) h s) : s.aim texts = inForce texts b.options h := by
  induction run with
  | start => rfl
  | @step h s e before guard ih =>
    change (next texts s e).aim texts = _
    rw [aimStep (linkedRun before) guard,ih]
    rfl

structure AtRest (s : State α) : Prop where
  unasked : ¬ Pending s
  waiting : s.phase = .waiting

theorem fileSame (unedited : ¬ IsEdit (⟨s,e⟩ : Step (State α) (Event α))) : (next texts s e).file = s.file := by
  cases e with
  | edit file => exact absurd ⟨file,rfl⟩ unedited
  | http path =>
    simp only [next]
    split <;> rfl
  | read =>
    simp only [next]
    split <;> rfl
  | parse =>
    simp only [next]
    split <;> rfl
  | update u => cases u <;> rfl
  | _ => rfl

/- Once the file was read as it is now, its options are in force if it can be parsed. -/
theorem fileInForce (run : Run (machine texts b) h s) (since : Since IsRead (fun x => ¬ IsEdit x) h) {raw : RawConfig}
    {o : ServerOptions α} (file : s.file = some raw) (parsed : parseOptions texts none raw = .ok o) :
    inForce texts b.options h = o := by
  induction run with
  | start => exact since.elim
  | @step h s e before guard ih =>
    have same (unedited : ¬ IsEdit (⟨s,e⟩ : Step (State α) (Event α))) : s.file = some raw := (fileSame unedited).symm.trans file
    have now (reads : e = .read) (here : s.file = some raw) : loaded texts ⟨s,e⟩ = some o := by
      simp only [loaded,reads,here,Option.bind_some,parsed,Except.toOption]
    rw [inForce]
    rcases since with reads | ⟨unedited,past⟩
    · have event : e = .read := reads
      have here := same (by
        intro edited
        obtain ⟨f,is⟩ := edited
        cases event.symm.trans is)
      rw [now event here,Option.getD_some]
    · have here := same unedited
      by_cases reads : e = .read
      · rw [now reads here,Option.getD_some]
      · have quiet : loaded texts ⟨s,e⟩ = none := by
          cases e <;> first | rfl | exact absurd rfl reads
        rw [quiet,Option.getD_none]
        exact ih past here

/- When nothing is on its way any more: the options are those of the newest good file, a read
has followed every request, and a file that was not edited after the last request is in force
on every server (with the reservation of `Reload`). -/
theorem reloadServed (run : Run (machine texts b) h s) (rest : AtRest s) :
    s.updater.v = inForce texts b.options h ∧
    (∀ later x before, h = later ++ x :: before → Asked x → ∃ y ∈ later, IsRead y) ∧
    (Since Asked (fun x => ¬ IsEdit x) h →
      ∀ raw o, s.file = some raw → parseOptions texts none raw = .ok o → s.updater.v = o) ∧
    ((∀ x ∈ updates h, SubscribesCurrent x) → ∀ x ∈ s.updater.listeners, Current s.updater x) := by
  have current : s.updater.v = inForce texts b.options h := by
    rw [← aimRun run,State.aim,rest.waiting]
  have unasked : ¬ Since Asked (fun x => ¬ IsRead x) h := fun since => rest.unasked (askedUnread run since)
  refine ⟨current,?_,?_,?_⟩
  · intro later x before split' asked
    refine Classical.byContradiction (fun none => unasked (sinceSplit.mpr ⟨later,x,before,split',asked,?_⟩))
    exact fun y mem reads => none ⟨y,mem,reads⟩
  · intro since raw o file parsed
    rw [current]
    exact fileInForce run (sinceBetween since unasked) file parsed
  · intro fresh
    have idle : s.updater.setting = none := by
      refine Classical.byContradiction (fun some' => ?_)
      cases rest.waiting.symm.trans ((linkedRun run).setting.mpr some')
    exact (toldRun (updatesRun run) fresh).settled idle

/- The file changes, the API is called, and the only server learns of it. -/
def sampleTexts : Texts := ⟨id,fun _ => none⟩

def sampleRaw (action : String) : RawConfig := ⟨[],100,false,[],false,false,⟨some [],action⟩,⟨some [],""⟩⟩

def sampleOptions {α : Type} (action : Action) (auth : Option α) : ServerOptions α :=
  ⟨⟨[],[],false,(newFilter action []).act,(newFilter .allow []).act⟩,100,false,false,auth⟩

def sampleBoot : Boot Unit := ⟨some (sampleRaw "allow"),sampleRaw "allow",sampleOptions .allow none⟩

def sampleReload : List (Event Unit) :=
  [.update (.get 1),.edit (some (sampleRaw "deny")),.http "/reload",.update (.new 1),.pushRequest,.update (.subscribe 1),.wake,
   .read,.parse,.update (.store (sampleOptions .deny none)),.update .lock,.update .notify,.update .unlock]

def sampleEnd : List (Step (State Unit) (Event Unit)) × State Unit :=
  trace (machine sampleTexts sampleBoot) [] (machine sampleTexts sampleBoot).start sampleReload

theorem reloadServedSample : sampleEnd.2.updater.v = sampleOptions .deny none ∧
    ∀ x ∈ sampleEnd.2.updater.listeners, Current sampleEnd.2.updater x := by
  have allowed : Allowed (machine sampleTexts sampleBoot) (machine sampleTexts sampleBoot).start sampleReload := by
    refine ⟨⟨⟨rfl,List.forall_mem_nil _⟩,trivial⟩,trivial,trivial,⟨⟨_,rfl,rfl⟩,trivial⟩,⟨Nat.one_pos,rfl⟩,
      ⟨⟨⟨_,_,rfl,rfl⟩,fun o i now => ?_⟩,trivial⟩,⟨rfl,rfl⟩,rfl,rfl,⟨rfl,rfl⟩,⟨⟨_,rfl⟩,trivial⟩,⟨⟨_,_,rfl,Nat.one_pos⟩,trivial⟩,
      ⟨⟨_,rfl⟩,trivial⟩,trivial⟩
    cases now
  have rest : AtRest sampleEnd.2 := by
    refine ⟨fun pending => ?_,rfl⟩
    rcases pending with at' | at' | at' | at' | at' <;> cases at'
  obtain ⟨_,_,file,servers⟩ := reloadServed (traceStart sampleReload allowed) rest
  refine ⟨file ?_ (sampleRaw "deny") _ rfl rfl,servers ?_⟩
  · simp [trace,sampleReload,Since,Asked,IsEdit,serveHTTP]
  · intro x mem
    simp only [sampleReload,trace,updates,Simulation.image,List.filterMap_cons,Event.inner,Option.map_some,Option.map_none,List.filterMap_nil,
      List.mem_cons,List.not_mem_nil,or_false] at mem
    rcases mem with rfl | rfl | rfl | rfl | rfl | rfl | rfl
    · trivial
    · trivial
    · trivial
    · trivial
    · intro _ l found
      cases Option.some.inj found
      rfl
    · trivial
    · trivial

/- The steps of goroutines that are running: from the signal's to the end of `Set`. -/
def Own : Event α → Prop
  | .take => True
  | .pushSignal => True
  | .pushRequest => True
  | .wake => True
  | .read => True
  | .parse => True
  | .update (.store _) => True
  | .update .lock => True
  | .update .notify => True
  | .update .unlock => True
  | _ => False

def phaseWork (n : Nat) : Phase α → Nat
  | .waiting => 0
  | .reading => n + 6
  | .parsing => n + 5
  | .storing _ => n + 4
  | .setting => 0

def settingWork (n : Nat) : Option (Setting α) → Nat
  | none => 0
  | some (.stored _) => n + 2
  | some (.notifying _ i) => n - i + 1

/- Each request may need a whole `Set`, which takes a step for each server. -/
def work (s : State α) : Nat :=
  let n := s.updater.listeners.length
  s.signals.toNat * (n + 9) + s.taken.toNat * (n + 8) + s.posting * (n + 8) + s.queue.toNat * (n + 7) + phaseWork n s.phase +
    settingWork n s.updater.setting

theorem spent (linked : Linked s) (guard : enabled s e) (own : Own e) : work (next texts s e) < work s := by
  cases e with
  | edit file => exact own.elim
  | signal => exact own.elim
  | http path => exact own.elim
  | take =>
    simp only [work,next,guard.1,guard.2,Bool.toNat_true,Bool.toNat_false]
    omega
  | pushSignal =>
    simp only [work,next,guard.1,guard.2,Bool.toNat_true,Bool.toNat_false]
    omega
  | pushRequest =>
    obtain ⟨some',free⟩ := guard
    obtain ⟨n,posting⟩ := Nat.exists_eq_succ_of_ne_zero (Nat.ne_of_gt some')
    simp only [work,next,posting,free,Bool.toNat_true,Bool.toNat_false,Nat.succ_eq_add_one,Nat.add_sub_cancel,Nat.succ_mul]
    omega
  | wake =>
    simp only [work,next,guard.1,guard.2,Bool.toNat_true,Bool.toNat_false,phaseWork]
    omega
  | read =>
    have before : s.phase = .reading := guard
    simp only [next]
    split
    · simp only [work,before,phaseWork]
      omega
    · simp only [work,before,phaseWork]
      omega
  | parse =>
    have before : s.phase = .parsing := guard
    simp only [next]
    split
    · simp only [work,before,phaseWork]
      omega
    · simp only [work,before,phaseWork]
      omega
  | update u =>
    obtain ⟨inner,fits⟩ := guard
    have running (now : s.updater.setting ≠ none) : s.phase = .setting := linked.setting.mpr now
    cases u with
    | store o =>
      have storing : s.phase = .storing o := fits
      have idle : s.updater.setting = none := inner
      simp only [work,next,State.update,Reload.next,storing,idle,phaseWork,settingWork]
      omega
    | lock =>
      obtain ⟨o,now⟩ := inner
      simp only [work,next,State.update,Reload.next,now,phaseWork,settingWork]
      omega
    | notify =>
      obtain ⟨o,i,now,less⟩ := inner
      simp only [work,next,State.update,Reload.next,now,phaseWork,settingWork,List.length_modify]
      omega
    | unlock =>
      obtain ⟨o,now⟩ := inner
      simp only [work,next,State.update,Reload.next,now,running (by rw [now]; exact Option.some_ne_none _),phaseWork,settingWork]
      omega
    | _ => exact own.elim

theorem stuckRest (linked : Linked s) (stuck : Stuck (machine texts b) Own s) : AtRest s := by
  have idle (waits : s.phase ≠ .setting) : s.updater.setting = none :=
    Classical.byContradiction (fun some' => waits (linked.setting.mpr some'))
  have waiting : s.phase = .waiting := by
    cases phase : s.phase with
    | waiting => rfl
    | reading => exact absurd phase (stuck .read trivial)
    | parsing => exact absurd phase (stuck .parse trivial)
    | storing o => exact absurd ⟨idle (by rw [phase]; nofun),phase⟩ (stuck (.update (.store o)) trivial)
    | setting =>
      cases setting : s.updater.setting with
      | none => exact absurd setting (linked.setting.mp phase)
      | some at' =>
        cases at' with
        | stored o => exact absurd ⟨⟨o,setting⟩,trivial⟩ (stuck (.update .lock) trivial)
        | notifying o i =>
          rcases Nat.lt_or_eq_of_le (linked.within o i setting) with less | last
          · exact absurd ⟨⟨o,i,setting,less⟩,trivial⟩ (stuck (.update .notify) trivial)
          · exact absurd ⟨⟨o,last ▸ setting⟩,trivial⟩ (stuck (.update .unlock) trivial)
  have empty : s.queue = false := Bool.eq_false_iff.mpr (fun full => stuck .wake trivial ⟨full,waiting⟩)
  have untaken : s.taken = false := Bool.eq_false_iff.mpr (fun taken => stuck .pushSignal trivial ⟨taken,empty⟩)
  refine ⟨fun pending => ?_,waiting⟩
  rcases pending with signals | taken | posting | queue | reading
  · exact stuck .take trivial ⟨signals,untaken⟩
  · cases untaken.symm.trans taken
  · exact stuck .pushRequest trivial ⟨posting,empty⟩
  · cases empty.symm.trans queue
  · cases waiting.symm.trans reading

theorem drain (texts : Texts) (b : Boot α) : Progress.Drain (machine texts b) Own Own Linked AtRest work where
  among _ own := own
  kept _ _ linked guard _ := linkedStep linked guard
  spent _ _ linked guard own := spent linked guard own
  stuck _ linked stuck := stuckRest linked stuck

theorem reloadDrains (run : Run (machine texts b) h s) :
    (∀ es, Schedule (machine texts b) Own s es →
      es.length ≤ work s ∧ (Stuck (machine texts b) Own (after (machine texts b) s es) → AtRest (after (machine texts b) s es))) ∧
    ∃ es, Schedule (machine texts b) Own s es ∧ AtRest (after (machine texts b) s es) :=
  ⟨fun _ schedule => drained (drain texts b) (linkedRun run) schedule,drains (drain texts b) (linkedRun run)⟩

def sampleAsked : List (Event Unit) := [.signal,.signal,.http "/reload"]

theorem reloadDrainsSample : ∃ es, Schedule (machine sampleTexts sampleBoot) Own
    (trace (machine sampleTexts sampleBoot) [] (machine sampleTexts sampleBoot).start sampleAsked).2 es ∧
    AtRest (after (machine sampleTexts sampleBoot)
      (trace (machine sampleTexts sampleBoot) [] (machine sampleTexts sampleBoot).start sampleAsked).2 es) ∧
    es.length ≤ 17 := by
  have allowed : Allowed (machine sampleTexts sampleBoot) (machine sampleTexts sampleBoot).start sampleAsked :=
    ⟨trivial,trivial,trivial,trivial⟩
  obtain ⟨short,es,schedule,rest⟩ := reloadDrains (traceStart sampleAsked allowed)
  exact ⟨es,schedule,rest,(short es schedule).1⟩

def Unsecured (s : State α) : Prop := ∀ o, s.phase = .storing o → o.auth = none

theorem parsedAuth {auth : Option α} {raw : RawConfig} {o : ServerOptions α} (parsed : parseOptions texts auth raw = .ok o) :
    o.auth = auth := by
  simp only [parseOptions,bind,Except.bind] at parsed
  split at parsed
  · cases parsed
  · split at parsed
    · cases parsed
    · cases parsed
      rfl

theorem unsecuredStep (unsecured : Unsecured s) : Unsecured (next texts s e) := by
  cases e with
  | http path =>
    simp only [next]
    split <;> exact unsecured
  | wake => exact nofun
  | read =>
    simp only [next]
    split <;> exact nofun
  | parse =>
    simp only [next]
    split
    · rename_i o parsed
      intro p storing
      cases storing
      exact parsedAuth parsed
    · exact nofun
  | update u =>
    cases u with
    | store o => exact nofun
    | unlock => exact nofun
    | _ => exact unsecured
  | _ => exact unsecured

theorem storesUnsecured (run : Run (machine texts b) h s) {x : Step (Reload.State α) (Reload.Event α)} (mem : x ∈ updates h)
    {o : ServerOptions α} (stores : x.event = .store o) : o.auth = none := by
  obtain ⟨y,past,image⟩ := List.mem_filterMap.mp mem
  obtain ⟨u,inner,rfl⟩ := Option.map_eq_some_iff.mp image
  obtain ⟨before,reached,guard⟩ := preReached run past
  have unsecured : Unsecured y.pre := by
    refine invariant (Q := Unsecured) (fun o storing => ?_) (fun _ _ held _ => unsecuredStep held) reached
    cases storing
  cases stores
  rw [innerUpdate inner] at guard
  exact unsecured o guard.2

theorem needsExactly {ν : Type} (srv : Server ν) (ctx : Context) : needAuth srv ctx = true ↔
    srv.auth ≠ none ∧ ctx.request.type.cls ≠ .indication ∧ (ctx.request.type = bindingRequest → ctx.cfg.authForSTUN = true) := by
  simp only [needAuth]
  cases srv.auth with
  | none => simp
  | some auth =>
    by_cases indication : ctx.request.type.cls = .indication
    · simp [indication]
    · simp [indication,imp_iff_not_or]

/- The server of a listener has the configured `Auth` exactly if no `Set` came before the listener
read the options, and none otherwise, whatever the file says and whatever is reloaded later. -/
theorem authAtStart {b : Boot (Message → Except AuthErr Bytes)} {h s} (run : Run (machine texts b) h s)
    {auth : Message → Except AuthErr Bytes} (configured : b.options.auth = some auth)
    {x : Subscribed (Message → Except AuthErr Bytes)} (subscribed : x ∈ s.updater.listeners) :
    ∃ later pre before, updates h = later ++ ⟨pre,.get x.server⟩ :: before ∧ (∀ y ∈ later, y.event ≠ .get x.server) ∧
      ((∀ y ∈ before, ¬ IsStore y) → x.auth = some auth) ∧ ((∃ y ∈ before, IsStore y) → x.auth = none) ∧
      ∀ {ν : Type} (addr : Addr) (nonce : NonceManager ν) (ctx : Context), needAuth (x.handling addr nonce) ctx = true ↔
        (∀ y ∈ before, ¬ IsStore y) ∧ ctx.request.type.cls ≠ .indication ∧
          (ctx.request.type = bindingRequest → ctx.cfg.authForSTUN = true) := by
  have inner := updatesRun run
  obtain ⟨later,⟨pre,event⟩,before,split',⟨got,read⟩,last⟩ := sinceSplit.mp ((authReadRun inner).listeners x subscribed)
  cases got
  rw [split'] at inner
  obtain ⟨intact,stored⟩ := valueRun (earlier inner).1
  have first (none : ∀ y ∈ before, ¬ IsStore y) : x.auth = some auth := by
    rw [← read,intact none,configured]
  have gone (some' : ∃ y ∈ before, IsStore y) : x.auth = none := by
    obtain ⟨y,mem,value⟩ := stored some'
    rw [← read]
    refine storesUnsecured run ?_ value
    rw [split']
    exact List.mem_append_right _ (List.mem_cons_of_mem _ mem)
  refine ⟨later,pre,before,split',last,first,gone,?_⟩
  intro ν addr nonce ctx
  rw [needsExactly]
  refine and_congr_left (fun _ => ⟨fun some' y mem is => some' (gone ⟨y,mem,is⟩),fun none absent => ?_⟩)
  cases (first none).symm.trans absent

/- A reload is stored after the first listener has read the options and before the second does. -/
def refusing : Message → Except AuthErr Bytes := fun _ => .error .userNotFound

def sampleSecured : Boot (Message → Except AuthErr Bytes) :=
  ⟨some (sampleRaw "allow"),sampleRaw "allow",sampleOptions .allow (some refusing)⟩

def sampleEarly : List (Event (Message → Except AuthErr Bytes)) :=
  [.update (.get 1),.signal,.take,.pushSignal,.wake,.read,.parse,.update (.store (sampleOptions .allow none)),.update (.get 2),
   .update (.new 2),.update (.new 1),.update (.subscribe 1),.update (.subscribe 2),.update .lock,.update .notify,.update .notify,
   .update .unlock]

def sampleLate : List (Step (State (Message → Except AuthErr Bytes)) (Event (Message → Except AuthErr Bytes))) ×
    State (Message → Except AuthErr Bytes) :=
  trace (machine sampleTexts sampleSecured) [] (machine sampleTexts sampleSecured).start sampleEarly

def sampleAllocate : Context :=
  { Context.fresh (Handlers.newConfig (sampleOptions .allow (none : Option Unit)).toOptions) with
    request := { emptyMessage with type := ⟨.allocate,.request⟩ } }

def sampleNonces : NonceManager Unit := ⟨fun nonces _ _ value _ => (nonces,value,none)⟩

theorem authAtStartSample : ∃ early late, sampleLate.2.updater.listeners = [early,late] ∧
    needAuth (early.handling ⟨[],3478⟩ sampleNonces) sampleAllocate = true ∧
    needAuth (late.handling ⟨[],3478⟩ sampleNonces) sampleAllocate = false ∧
    ∃ later pre before, updates sampleLate.1 = later ++ ⟨pre,.get 2⟩ :: before ∧ ∃ y ∈ before, IsStore y := by
  have allowed : Allowed (machine sampleTexts sampleSecured) (machine sampleTexts sampleSecured).start sampleEarly := by
    refine ⟨⟨⟨rfl,List.forall_mem_nil _⟩,trivial⟩,trivial,⟨rfl,rfl⟩,⟨rfl,rfl⟩,⟨rfl,rfl⟩,rfl,rfl,⟨rfl,rfl⟩,
      ⟨⟨rfl,List.forall_mem_nil _⟩,trivial⟩,⟨⟨_,rfl,rfl⟩,trivial⟩,⟨⟨_,rfl,rfl⟩,trivial⟩,
      ⟨⟨⟨_,_,rfl,rfl⟩,?_⟩,trivial⟩,⟨⟨⟨_,_,rfl,rfl⟩,?_⟩,trivial⟩,⟨⟨_,rfl⟩,trivial⟩,
      ⟨⟨_,_,rfl,Nat.two_pos⟩,trivial⟩,⟨⟨_,_,rfl,Nat.one_lt_two⟩,trivial⟩,
      ⟨⟨_,rfl⟩,trivial⟩,trivial⟩
    · intro o i now
      cases now
    · intro o i now
      cases now
  have run := traceStart sampleEarly allowed
  have secured : sampleSecured.options.auth = some refusing := rfl
  have early := authAtStart run secured
    (x := ⟨1,some refusing,newConfig 1 (sampleOptions .allow (none : Option Unit))⟩) List.mem_cons_self
  have late := authAtStart run secured
    (x := ⟨2,none,newConfig 2 (sampleOptions .allow (none : Option Unit))⟩) (List.mem_cons_of_mem _ List.mem_cons_self)
  obtain ⟨_,_,_,_,_,_,gone,asks⟩ := early
  obtain ⟨later,pre,before,got,_,first,_,free⟩ := late
  have stored : ∃ y ∈ before, IsStore y := by
    refine Classical.byContradiction (fun none => ?_)
    cases first (fun y mem is => none ⟨y,mem,is⟩)
  refine ⟨_,_,rfl,(asks _ _ _).mpr ⟨?_,nofun,nofun⟩,Bool.eq_false_iff.mpr (fun needed => ?_),later,pre,before,got,stored⟩
  · intro y mem is
    cases gone ⟨y,mem,is⟩
  · obtain ⟨y,mem,is⟩ := stored
    exact ((free _ _ _).mp needed).1 y mem is

end Gortcd.Notifier
