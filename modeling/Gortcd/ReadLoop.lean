import Gortcd.Inbound

/-! `Allocation.ReadUntilClosed` over the results of `SetReadDeadline` and `ReadFrom`, one
for each turn of the loop. Of the errors only those of the network that are temporary are
passed over. `io.EOF` is let through to the code of a successful read, and there the
address is asserted to be a `*net.UDPAddr`. -/
namespace Gortcd.ReadLoop
open Net Sections Interleaving Messages PeerData Inbound

inductive ReadErr where
  | eof
  | net (temporary timeout : Bool)
  | other (text : String)
  deriving DecidableEq, Repr

/- The `net.Addr` of `ReadFrom`: nil, a pointer that may be nil, or another type. -/
inductive Source where
  | nil
  | udp (a : Option Addr)
  | other (text : String)
  deriving DecidableEq, Repr

/- What `ReadFrom` did with a buffer of the given length; the count is that of the bytes. -/
structure Read (size : Nat) where
  data : Bytes
  fits : data.length ≤ size
  addr : Source
  err : Option ReadErr
  deriving DecidableEq, Repr

inductive Result (size : Nat) where
  | deadlineFailed (text : String)
  | read (r : Read size)
  deriving DecidableEq, Repr

structure PeerCall where
  data : Bytes
  tuple : FiveTuple
  addr : Addr
  deriving DecidableEq, Repr

inductive Status where
  | waiting
  | returned
  | panicked
  deriving DecidableEq, Repr

structure Outcome where
  calls : List PeerCall
  status : Status
  deriving DecidableEq, Repr

def fill (buf data : Bytes) : Bytes := data.take buf.length ++ buf.drop data.length

-- `netErr, ok := err.(net.Error)` with `Temporary` or `Timeout`
def ReadErr.retried : ReadErr → Bool
  | .net temporary timeout => temporary || timeout
  | _ => false

def readUntilClosed (t : FiveTuple) {size : Nat} : Bytes → List (Result size) → Outcome
  | _,[] => ⟨[],.waiting⟩
  | _,.deadlineFailed _ :: _ => ⟨[],.returned⟩
  | buf,.read r :: rest =>
    let buf := fill buf r.data
    if r.err ≠ none ∧ r.err ≠ some .eof then
      if r.err.any ReadErr.retried then readUntilClosed t buf rest else ⟨[],.returned⟩
    else match r.addr with
      | .udp (some a) =>
        let out := readUntilClosed t buf rest
        { out with calls := ⟨buf.take r.data.length,t,a⟩ :: out.calls }
      | _ => ⟨[],.panicked⟩

variable {size : Nat} {t : FiveTuple}

-- The results at which the loop is to stop: the connection is closed, or any other error.
def Result.stops : Result size → Bool
  | .deadlineFailed _ => true
  | .read r => r.err.any (fun e => !e.retried)

def Result.success : Result size → Option (Read size)
  | .read r => if r.err = none then some r else none
  | .deadlineFailed _ => none

def successes (results : List (Result size)) : List (Read size) :=
  (results.takeWhile (fun x => !x.stops)).filterMap Result.success

def Handed (t : FiveTuple) (r : Read size) (c : PeerCall) : Prop :=
  c.data = r.data ∧ c.tuple = t ∧ r.addr = .udp (some c.addr)

/- One call for each successful read, in order, and a return at the first result at which
the loop is to stop; in particular no panic. -/
structure Contract (t : FiveTuple) (results : List (Result size)) (out : Outcome) : Prop where
  calls : List.Forall₂ (Handed t) (successes results) out.calls
  status : out.status = if results.any Result.stops then .returned else .waiting

/- Every read that succeeds has a UDP sender, and the loop is not to stop at `io.EOF`. -/
structure Orderly (results : List (Result size)) : Prop where
  senders : ∀ r ∈ successes results, ∃ a, r.addr = .udp (some a)
  stop : ∀ r, results.find? Result.stops = some (.read r) → r.err ≠ some .eof

theorem fillLength {buf data : Bytes} (fits : data.length ≤ buf.length) : (fill buf data).length = buf.length := by
  simp only [fill,List.length_append,List.length_take,List.length_drop]
  omega

theorem fillTaken {buf data : Bytes} (fits : data.length ≤ buf.length) : (fill buf data).take data.length = data := by
  rw [fill,List.take_of_length_le fits]
  exact List.take_left

section Turn
variable {x : Result size} {rest : List (Result size)} {out : Outcome}

theorem stoppedSuccesses (stops : x.stops = true) : successes (x :: rest) = [] := by
  simp [successes,stops]

theorem passedSuccesses (passes : x.stops = false) : successes (x :: rest) = x.success.toList ++ successes rest := by
  simp only [successes,List.takeWhile_cons,passes,Bool.not_false,if_true,List.filterMap_cons]
  cases x.success <;> rfl

theorem stoppedContract (stops : x.stops = true) : Contract t (x :: rest) out ↔ out = ⟨[],.returned⟩ := by
  constructor
  · intro contract
    have none := contract.calls
    have status := contract.status
    rw [stoppedSuccesses stops] at none
    rw [List.any_cons,stops,Bool.true_or,if_pos rfl] at status
    obtain ⟨calls,status'⟩ := out
    cases none
    cases status
    rfl
  · intro same
    subst same
    exact ⟨by rw [stoppedSuccesses stops]; exact .nil,by simp [stops]⟩

theorem stoppedOrderly (stops : x.stops = true) : Orderly (x :: rest) ↔ ∀ r, x = .read r → r.err ≠ some .eof := by
  have found : (x :: rest).find? Result.stops = some x := by simp [stops]
  constructor
  · intro orderly r same
    exact orderly.stop r (same ▸ found)
  · intro other
    refine ⟨by simp [stoppedSuccesses stops],?_⟩
    intro r same
    exact other r (Option.some.inj (found.symm.trans same))

theorem skippedContract (passes : x.stops = false) (skipped : x.success = none) :
    Contract t (x :: rest) out ↔ Contract t rest out := by
  have same : successes (x :: rest) = successes rest := by rw [passedSuccesses passes,skipped]; rfl
  have any : (x :: rest).any Result.stops = rest.any Result.stops := by simp [passes]
  constructor
  · intro contract
    exact ⟨same ▸ contract.calls,any ▸ contract.status⟩
  · intro contract
    exact ⟨same ▸ contract.calls,any ▸ contract.status⟩

theorem skippedOrderly (passes : x.stops = false) (skipped : x.success = none) : Orderly (x :: rest) ↔ Orderly rest := by
  have same : successes (x :: rest) = successes rest := by rw [passedSuccesses passes,skipped]; rfl
  have find : (x :: rest).find? Result.stops = rest.find? Result.stops := by simp [passes]
  constructor
  · intro orderly
    exact ⟨same ▸ orderly.senders,find ▸ orderly.stop⟩
  · intro orderly
    exact ⟨same ▸ orderly.senders,find ▸ orderly.stop⟩

end Turn

section Success
variable {r : Read size} (ok : r.err = none) {rest : List (Result size)} {out : Outcome}
include ok

theorem readSuccesses : successes (.read r :: rest) = r :: successes rest := by
  have passes : (Result.read r).stops = false := by simp [Result.stops,ok]
  have success : (Result.read r).success = some r := by simp [Result.success,ok]
  rw [passedSuccesses passes,success]
  rfl

theorem readContract {c : PeerCall} : Contract t (.read r :: rest) { out with calls := c :: out.calls } ↔
    Handed t r c ∧ Contract t rest out := by
  have any : (.read r :: rest).any Result.stops = rest.any Result.stops := by simp [Result.stops,ok]
  constructor
  · intro contract
    have calls := contract.calls
    rw [readSuccesses ok,List.forall₂_cons] at calls
    exact ⟨calls.1,calls.2,any ▸ contract.status⟩
  · intro parts
    refine ⟨?_,any ▸ parts.2.status⟩
    rw [readSuccesses ok]
    exact .cons parts.1 parts.2.calls

theorem readOrderly : Orderly (.read r :: rest) ↔ (∃ a, r.addr = .udp (some a)) ∧ Orderly rest := by
  have find : (.read r :: rest).find? Result.stops = rest.find? Result.stops := by simp [Result.stops,ok]
  constructor
  · intro orderly
    have senders := orderly.senders
    rw [readSuccesses ok] at senders
    obtain ⟨head,tail⟩ := List.forall_mem_cons.mp senders
    exact ⟨head,tail,find ▸ orderly.stop⟩
  · intro parts
    refine ⟨?_,find ▸ parts.2.stop⟩
    rw [readSuccesses ok]
    exact List.forall_mem_cons.mpr ⟨parts.1,parts.2.senders⟩

end Success

theorem panicBroken {results : List (Result size)} : ¬ Contract t results ⟨[],.panicked⟩ := by
  intro contract
  have status := contract.status
  split at status <;> cases status

section Read
variable {r : Read size} {buf : Bytes} {rest : List (Result size)} {e : ReadErr}

theorem turnRetried (err : r.err = some e) (retried : e.retried = true) :
    readUntilClosed t buf (.read r :: rest) = readUntilClosed t (fill buf r.data) rest := by
  have other : e ≠ .eof := by
    intro same
    subst same
    cases retried
  simp [readUntilClosed,err,other,retried]

theorem turnFailed (err : r.err = some e) (fatal : e.retried = false) (other : e ≠ .eof) :
    readUntilClosed t buf (.read r :: rest) = ⟨[],.returned⟩ := by
  simp [readUntilClosed,err,other,fatal]

variable (through : r.err = none ∨ r.err = some .eof)
include through

theorem turnCalled {a : Addr} (addr : r.addr = .udp (some a)) :
    readUntilClosed t buf (.read r :: rest) =
      { readUntilClosed t (fill buf r.data) rest with
        calls := ⟨(fill buf r.data).take r.data.length,t,a⟩ :: (readUntilClosed t (fill buf r.data) rest).calls } := by
  rcases through with err | err <;> simp [readUntilClosed,err,addr]

theorem turnPanicked (addr : ∀ a, r.addr ≠ .udp (some a)) :
    readUntilClosed t buf (.read r :: rest) = ⟨[],.panicked⟩ := by
  have odd : r.addr = .nil ∨ r.addr = .udp none ∨ ∃ text, r.addr = .other text := by
    cases own : r.addr with
    | nil => exact .inl rfl
    | udp a => cases a with
      | none => exact .inr (.inl rfl)
      | some a => exact absurd own (addr a)
    | other text => exact .inr (.inr ⟨text,rfl⟩)
  rcases through with err | err <;> rcases odd with own | own | ⟨text,own⟩ <;> simp [readUntilClosed,err,own]

end Read

section Loop
variable {r : Read size} {buf : Bytes} {rest : List (Result size)}

theorem successContract (length : buf.length = size) (ok : r.err = none)
    (ih : Contract t rest (readUntilClosed t (fill buf r.data) rest) ↔ Orderly rest) :
    Contract t (.read r :: rest) (readUntilClosed t buf (.read r :: rest)) ↔ Orderly (.read r :: rest) := by
  rw [readOrderly ok]
  by_cases udp : ∃ a, r.addr = .udp (some a)
  · obtain ⟨a,addr⟩ := udp
    have handed : Handed t r ⟨(fill buf r.data).take r.data.length,t,a⟩ :=
      ⟨fillTaken (length ▸ r.fits),rfl,addr⟩
    rw [turnCalled (.inl ok) addr,readContract ok,ih]
    exact ⟨fun parts => ⟨⟨a,addr⟩,parts.2⟩,fun parts => ⟨handed,parts.2⟩⟩
  · rw [turnPanicked (.inl ok) (fun a addr => udp ⟨a,addr⟩)]
    exact ⟨fun contract => absurd contract panicBroken,fun parts => absurd parts.1 udp⟩

/- At `io.EOF` the loop calls the handler or panics. -/
theorem eofContract (eof : r.err = some .eof) : ¬ Contract t (.read r :: rest) (readUntilClosed t buf (.read r :: rest)) := by
  have stops : (Result.read r).stops = true := by simp [Result.stops,eof,ReadErr.retried]
  rw [stoppedContract stops]
  by_cases udp : ∃ a, r.addr = .udp (some a)
  · obtain ⟨a,addr⟩ := udp
    rw [turnCalled (.inr eof) addr]
    nofun
  · rw [turnPanicked (.inr eof) (fun a addr => udp ⟨a,addr⟩)]
    nofun

end Loop

theorem loopContract {results : List (Result size)} {buf : Bytes} (length : buf.length = size) :
    Contract t results (readUntilClosed t buf results) ↔ Orderly results := by
  induction results generalizing buf with
  | nil => exact ⟨fun _ => ⟨nofun,nofun⟩,fun _ => ⟨.nil,rfl⟩⟩
  | cons x rest ih => cases x with
    | deadlineFailed text =>
      rw [stoppedContract rfl,stoppedOrderly rfl]
      exact ⟨fun _ => nofun,fun _ => rfl⟩
    | read r =>
      have filled : (fill buf r.data).length = size := (fillLength (length ▸ r.fits)).trans length
      cases err : r.err with
      | none => exact successContract length err (ih filled)
      | some e => cases retried : e.retried with
        | true =>
          have passes : (Result.read r).stops = false := by simp [Result.stops,err,retried]
          have skipped : (Result.read r).success = none := by simp [Result.success,err]
          rw [turnRetried err retried,skippedContract passes skipped,skippedOrderly passes skipped]
          exact ih filled
        | false =>
          have stops : (Result.read r).stops = true := by simp [Result.stops,err,retried]
          rw [stoppedOrderly stops]
          by_cases eof : e = .eof
          · subst eof
            exact ⟨fun contract => absurd contract (eofContract err),fun other => absurd err (other r rfl)⟩
          · rw [turnFailed err retried eof,stoppedContract stops]
            refine ⟨fun _ q same => ?_,fun _ => rfl⟩
            cases same
            intro own
            exact eof (Option.some.inj (err.symm.trans own))

/- For every buffer and every sequence of results, the loop does what it promises if and only
if its senders are UDP addresses and it has not to stop at `io.EOF`. -/
theorem readLoopExactly (t : FiveTuple) (buf : Bytes) (results : List (Result buf.length)) :
    Contract t results (readUntilClosed t buf results) ↔ Orderly results := loopContract rfl

def eofRead (data : Bytes) (fits : data.length ≤ 2) (addr : Source) : Result 2 := .read ⟨data,fits,addr,some .eof⟩

/- The end of the stream without an address is a panic; with one it is a datagram, and the
loop reads on. -/
theorem eofNotStopped :
    readUntilClosed sampleTuple [0,0] [eofRead [] (by decide) .nil] = ⟨[],.panicked⟩ ∧
    ¬ Contract sampleTuple [eofRead [] (by decide) .nil] (readUntilClosed sampleTuple [0,0] [eofRead [] (by decide) .nil]) ∧
    readUntilClosed sampleTuple [0,0] [eofRead [7] (by decide) (.udp (some samplePeer))] =
      ⟨[⟨[7],sampleTuple,samplePeer⟩],.waiting⟩ ∧
    ¬ Contract sampleTuple [eofRead [7] (by decide) (.udp (some samplePeer))]
      (readUntilClosed sampleTuple [0,0] [eofRead [7] (by decide) (.udp (some samplePeer))]) :=
  ⟨by decide,eofContract rfl,by decide,eofContract rfl⟩

def arrival (l : Loop) (d : Bytes × Addr) : Result l.bufLen :=
  .read ⟨readFrom l d.1,List.length_take_le _ _,.udp (some d.2),none⟩

theorem datagramsRelayed {turn : Turn} {stun : Stun} (allocs : Table) (id : Option Bytes) {l : Loop} {buf : Bytes}
    (length : buf.length = l.bufLen) (datagrams : List (Bytes × Addr)) :
    (readUntilClosed l.tuple buf (datagrams.map (arrival l))).calls.map
        (fun c => handlePeerData turn stun allocs c.data c.tuple c.addr id) =
      datagrams.map (fun d => relay turn stun allocs l d.1 d.2 id) := by
  induction datagrams generalizing buf with
  | nil => rfl
  | cons d rest ih =>
    have fits : (readFrom l d.1).length ≤ buf.length := length ▸ List.length_take_le _ _
    have read := @turnCalled l.bufLen l.tuple ⟨readFrom l d.1,List.length_take_le _ _,.udp (some d.2),none⟩ buf
      (rest.map (arrival l)) (.inl rfl) d.2 rfl
    have later := ih ((fillLength fits).trans length)
    simp only [List.map_cons,arrival] at later ⊢
    rw [read,List.map_cons,later,fillTaken fits]
    rfl

end Gortcd.ReadLoop
