import Mathlib.Data.List.Basic

/-! Runs of a guarded machine with their histories, and the past-time operator
`Since` over a history. A history lists the steps taken, newest first. Every step
keeps the state it was taken in, so that one can ask later what was in force then. -/
namespace Runs

structure Machine (σ ε : Type) where
  start : σ
  enabled : σ → ε → Prop
  next : σ → ε → σ

structure Step (σ ε : Type) where
  pre : σ
  event : ε

variable {σ ε : Type}

inductive Run (m : Machine σ ε) : List (Step σ ε) → σ → Prop where
  | start : Run m [] m.start
  | step {h s e} (before : Run m h s) (guard : m.enabled s e) : Run m (⟨s,e⟩ :: h) (m.next s e)

def Reachable (m : Machine σ ε) (s : σ) : Prop := ∃ h, Run m h s

/- The run of a list of events given in the order in which they happen. -/
def Allowed (m : Machine σ ε) (s : σ) : List ε → Prop
  | [] => True
  | e :: es => m.enabled s e ∧ Allowed m (m.next s e) es

instance decidableAllowed (m : Machine σ ε) [∀ s e, Decidable (m.enabled s e)] : ∀ s es, Decidable (Allowed m s es)
  | _, [] => .isTrue trivial
  | s, e :: es => @instDecidableAnd _ _ _ (decidableAllowed m (m.next s e) es)

def trace (m : Machine σ ε) (h : List (Step σ ε)) (s : σ) : List ε → List (Step σ ε) × σ
  | [] => (h,s)
  | e :: es => trace m (⟨s,e⟩ :: h) (m.next s e) es

variable {m : Machine σ ε}

theorem traceRun {h s} (run : Run m h s) {es : List ε} (allowed : Allowed m s es) :
    Run m (trace m h s es).1 (trace m h s es).2 := by
  induction es generalizing h s with
  | nil => exact run
  | cons e es ih => exact ih (.step run allowed.1) allowed.2

theorem traceStart (es : List ε) (allowed : Allowed m m.start es) :
    Run m (trace m [] m.start es).1 (trace m [] m.start es).2 := traceRun .start allowed

theorem traceEvents {h : List (Step σ ε)} {s : σ} {es : List ε} {x : Step σ ε} (mem : x ∈ (trace m h s es).1) :
    x ∈ h ∨ x.event ∈ es := by
  induction es generalizing h s with
  | nil => exact .inl mem
  | cons e es ih =>
    rcases ih mem with here | later
    · rcases List.mem_cons.mp here with rfl | old
      · exact .inr List.mem_cons_self
      · exact .inl old
    · exact .inr (List.mem_cons_of_mem _ later)

/- An invariant kept by every enabled step holds after every run. -/
theorem invariant {Q : σ → Prop} (base : Q m.start)
    (kept : ∀ s e, Q s → m.enabled s e → Q (m.next s e)) {h s} (run : Run m h s) : Q s := by
  induction run with
  | start => exact base
  | step before guard ih => exact kept _ _ ih guard

/- The same when the steps of the run are known to meet a condition. -/
theorem invariantUnder {Q : σ → Prop} {cond : Step σ ε → Prop} (base : Q m.start)
    (kept : ∀ s e, Q s → m.enabled s e → cond ⟨s,e⟩ → Q (m.next s e)) {h s}
    (run : Run m h s) (met : ∀ x ∈ h, cond x) : Q s := by
  induction run with
  | start => exact base
  | step before guard ih =>
    exact kept _ _ (ih (fun x mem => met x (List.mem_cons_of_mem _ mem))) guard (met _ List.mem_cons_self)

theorem earlier {later : List (Step σ ε)} {x : Step σ ε} {before s}
    (run : Run m (later ++ x :: before) s) : Run m before x.pre ∧ m.enabled x.pre x.event := by
  generalize eq : later ++ x :: before = h at run
  induction run generalizing later with
  | start => simp at eq
  | @step h s e run guard ih =>
    cases later with
    | nil =>
      rw [List.nil_append,List.cons.injEq] at eq
      obtain ⟨rfl,rfl⟩ := eq
      exact ⟨run,guard⟩
    | cons y rest =>
      rw [List.cons_append,List.cons.injEq] at eq
      exact ih eq.2

theorem preReached {h s} (run : Run m h s) {x : Step σ ε} (mem : x ∈ h) :
    ∃ before, Run m before x.pre ∧ m.enabled x.pre x.event := by
  obtain ⟨later,before,rfl⟩ := List.append_of_mem mem
  exact ⟨before,earlier run⟩

def total {α : Type} (f : α → Nat) : List α → Nat
  | [] => 0
  | x :: l => f x + total f l

theorem totalMono {α : Type} {f g : α → Nat} {l : List α} (less : ∀ x ∈ l, f x ≤ g x) : total f l ≤ total g l := by
  induction l with
  | nil => exact Nat.le_refl _
  | cons x l ih =>
    obtain ⟨head,tail⟩ := List.forall_mem_cons.mp less
    exact Nat.add_le_add head (ih tail)

theorem totalAppend {α : Type} {f : α → Nat} {l k : List α} : total f (l ++ k) = total f l + total f k := by
  induction l with
  | nil => exact (Nat.zero_add _).symm
  | cons x l ih => simp only [List.cons_append,total,ih,Nat.add_assoc]

theorem totalErase {α : Type} {f : α → Nat} {l : List α} {i : Nat} {x : α} (held : l[i]? = some x) :
    f x + total f (l.eraseIdx i) = total f l := by
  induction l generalizing i with
  | nil => cases held
  | cons y l ih => cases i with
    | zero =>
      cases held
      rfl
    | succ i =>
      have rest := ih held
      simp only [List.eraseIdx_cons_succ,total]
      omega

theorem totalFilter {α : Type} {f : α → Nat} {p : α → Bool} {l : List α} : total f (l.filter p) ≤ total f l := by
  induction l with
  | nil => exact Nat.le_refl _
  | cons y l ih =>
    rw [List.filter_cons]
    split
    · exact Nat.add_le_add_left ih (f y)
    · exact Nat.le_add_left_of_le ih

theorem totalLost {α : Type} {f : α → Nat} {p : α → Bool} {l : List α} {x : α} (mem : x ∈ l) (lost : p x = false) :
    f x + total f (l.filter p) ≤ total f l := by
  induction l with
  | nil => cases mem
  | cons y l ih =>
    rw [List.filter_cons]
    rcases List.mem_cons.mp mem with rfl | later
    · rw [lost,if_neg Bool.false_ne_true]
      exact Nat.add_le_add_left totalFilter (f x)
    · have rest := ih later
      split <;> simp only [total] <;> omega

/- A balance: every step gives at most what it takes, apart from what the states hold. -/
theorem balance {given taken : Step σ ε → Nat} {held : σ → Nat} {h s} (run : Run m h s)
    (covered : ∀ x ∈ h, given x + held (m.next x.pre x.event) ≤ taken x + held x.pre) :
    total given h + held s ≤ total taken h + held m.start := by
  induction run with
  | start => exact Nat.le_refl _
  | step before guard ih =>
    obtain ⟨now,past⟩ := List.forall_mem_cons.mp covered
    have rest := ih past
    dsimp only at now
    simp only [total]
    omega

/- A fact established by one step and kept by all later ones holds at the end. -/
theorem stable {Q : List (Step σ ε) → σ → Prop} {later : List (Step σ ε)} {x : Step σ ε} {before s}
    (run : Run m (later ++ x :: before) s)
    (made : Q (x :: before) (m.next x.pre x.event))
    (kept : ∀ y newer older, later = newer ++ y :: older → Run m (older ++ x :: before) y.pre →
      m.enabled y.pre y.event → Q (older ++ x :: before) y.pre →
      Q (y :: (older ++ x :: before)) (m.next y.pre y.event)) :
    Q (later ++ x :: before) s := by
  induction later generalizing s with
  | nil => cases run with
    | step _ _ => exact made
  | cons y rest ih => cases run with
    | step run guard =>
      refine kept _ [] rest rfl run guard (ih run ?_)
      intro z newer older eq
      exact kept z (_ :: newer) older (by rw [eq]; rfl)

/- Every step meets a condition that may look at the steps before it. -/
def Along (cond : List (Step σ ε) → Step σ ε → Prop) : List (Step σ ε) → Prop
  | [] => True
  | x :: h => cond h x ∧ Along cond h

theorem alongAt {cond : List (Step σ ε) → Step σ ε → Prop} {newer older : List (Step σ ε)} {x : Step σ ε}
    (all : Along cond (newer ++ x :: older)) : cond older x := by
  induction newer with
  | nil => exact all.1
  | cons y newer ih => exact ih all.2

/- `Since made keep h`: some step of `h` satisfies `made` and every later one `keep`. -/
def Since (made keep : Step σ ε → Prop) : List (Step σ ε) → Prop
  | [] => False
  | x :: h => made x ∨ (keep x ∧ Since made keep h)

theorem sinceSplit {made keep : Step σ ε → Prop} {h : List (Step σ ε)} :
    Since made keep h ↔
      ∃ later x before, h = later ++ x :: before ∧ made x ∧ ∀ y ∈ later, keep y := by
  induction h with
  | nil => simp [Since]
  | cons y h ih =>
    constructor
    · intro since
      rcases since with now | ⟨kept,past⟩
      · exact ⟨[],y,h,rfl,now,by simp⟩
      · obtain ⟨later,x,before,rfl,mk,all⟩ := ih.mp past
        exact ⟨y :: later,x,before,rfl,mk,by simpa using ⟨kept,all⟩⟩
    · intro parts
      obtain ⟨later,x,before,eq,mk,all⟩ := parts
      cases later with
      | nil =>
        rw [List.nil_append,List.cons.injEq] at eq
        exact .inl (eq.1 ▸ mk)
      | cons z rest =>
        rw [List.cons_append,List.cons.injEq] at eq
        obtain ⟨rfl,rfl⟩ := eq
        exact .inr ⟨all _ List.mem_cons_self,
          ih.mpr ⟨rest,x,before,rfl,mk,fun a mem => all a (List.mem_cons_of_mem _ mem)⟩⟩

/- A fact that only `made` steps establish and only `keep` steps preserve. -/
theorem sinceMade {Q : σ → Prop} {made keep : Step σ ε → Prop} (base : ¬ Q m.start)
    (step : ∀ h s e, Run m h s → m.enabled s e → Q (m.next s e) → made ⟨s,e⟩ ∨ (keep ⟨s,e⟩ ∧ Q s))
    {h s} (run : Run m h s) (now : Q s) : Since made keep h := by
  induction run with
  | start => exact absurd now base
  | step before guard ih =>
    rcases step _ _ _ before guard now with mk | ⟨kp,earlier⟩
    · exact .inl mk
    · exact .inr ⟨kp,ih earlier⟩

/- The last step that satisfies `made` is one to count from. -/
theorem sinceLast {made keep : Step σ ε → Prop} {h : List (Step σ ε)} (past : Since made keep h) :
    Since made (fun x => ¬ made x) h := by
  induction h with
  | nil => exact past
  | cons x h ih =>
    by_cases now : made x
    · exact .inl now
    · rcases past with here | ⟨_,past⟩
      · exact absurd here now
      · exact .inr ⟨now,ih past⟩

/- If something else has happened since each such step, it has happened since the last one. -/
theorem sinceBetween {made keep other : Step σ ε → Prop} {h : List (Step σ ε)} (past : Since made keep h)
    (met : ¬ Since made (fun x => ¬ other x) h) : Since other keep h := by
  induction h with
  | nil => exact past.elim
  | cons x h ih =>
    rcases past with now | ⟨kept,past⟩
    · exact absurd (.inl now) met
    · by_cases here : other x
      · exact .inl here
      · exact .inr ⟨kept,ih past (fun since => met (.inr ⟨here,since⟩))⟩

theorem sinceMono {made made' keep keep' : Step σ ε → Prop} {h : List (Step σ ε)}
    (mk : ∀ x ∈ h, made x → made' x) (kp : ∀ x ∈ h, keep x → keep' x) (past : Since made keep h) :
    Since made' keep' h := by
  induction h with
  | nil => exact past
  | cons x h ih =>
    rcases past with now | ⟨kept,past⟩
    · exact .inl (mk x List.mem_cons_self now)
    · exact .inr ⟨kp x List.mem_cons_self kept,ih (fun y mem => mk y (List.mem_cons_of_mem _ mem))
        (fun y mem => kp y (List.mem_cons_of_mem _ mem)) past⟩

end Runs
