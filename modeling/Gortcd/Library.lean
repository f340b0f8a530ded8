import Gortcd.Codec
import Gortcd.Lib.Runs

/-! gortc.io/stun and gortc.io/turn as they are documented. `Build` empties a message, writes
the header and adds the attributes one after the other; what it wrote can be decoded, read and
checked. The results take what they need of this as hypotheses on `stun`, each about messages
that were built, and the wire format of `Codec` meets them. -/
namespace Gortcd.Library
open Net Messages Runs

/- A setter that adds an attribute, rather than writing the header. -/
def Attribute : Setter → Prop
  | .type _ => False
  | .transactionID _ => False
  | _ => True

/- A message as `Reset` leaves it; transaction IDs have 12 bytes. -/
structure Blank (m : Message) : Prop where
  length : m.length = 0
  attributes : m.attributes = []
  raw : m.raw = []
  id : m.transactionID.length = 12

/- What a list of setters, all of which succeed, makes of it. -/
structure Built (stun : Stun) (b : Message) (l : List Setter) (m : Message) : Prop where
  blank : Blank b
  applied : apply stun (stun.writeHeader b) l = (m,none)

/- The values that can be added: texts of at most 763 bytes, IP addresses of 4 or 16, and a
transaction ID if there was randomness for it. -/
def Acceptable : Setter → Prop
  | .transactionID id => id ≠ none
  | .nonce v => v.length ≤ 763
  | .realm v => v.length ≤ 763
  | .software v => v.length ≤ 763
  | .xorMappedAddress a => a.ip.length = 4 ∨ a.ip.length = 16
  | .relayedAddress a => a.ip.length = 4 ∨ a.ip.length = 16
  | .peerAddress a => a.ip.length = 4 ∨ a.ip.length = 16
  | _ => True

def Drawn : Setter → Prop
  | .transactionID id => ∀ i, id = some i → i.length = 12
  | _ => True

/- Adding an attribute leaves the type and the transaction ID alone, and FINGERPRINT is written. -/
structure Building (stun : Stun) : Prop where
  kept : ∀ s m, Attribute s → (stun.addTo s m).1.type = m.type ∧ (stun.addTo s m).1.transactionID = m.transactionID
  header : ∀ m, (stun.writeHeader m).type = m.type ∧ (stun.writeHeader m).transactionID = m.transactionID
  finished : ∀ m, (stun.addTo .fingerprint m).1.raw ≠ []

/- Which setters succeed as long as the message has no FINGERPRINT. -/
structure Adding (stun : Stun) : Prop where
  reset : ∀ m, stun.reset m = { m with length := 0, attributes := [], raw := [] }
  decodedID : ∀ {p m}, stun.decode p = (m,none) → m.transactionID.length = 12
  accepts : ∀ {b l m}, Built stun b l m → .fingerprint ∉ l → ∀ s, (stun.addTo s m).2 = none ↔ Acceptable s

def taken (n : Nat) : Nat := 4 + (n + (4 - n % 4) % 4)

theorem takenMono {n k : Nat} (less : n ≤ k) (whole : k % 4 = 0) : taken n ≤ taken k := by
  simp only [taken]
  omega

def cost : Setter → Nat
  | .transactionID _ => 0
  | .type _ => 0
  | .nonce v => taken v.length
  | .realm v => taken v.length
  | .software v => taken v.length
  | .data d => taken d.length
  | .xorMappedAddress _ => taken 20
  | .relayedAddress _ => taken 20
  | .peerAddress _ => taken 20
  | .lifetime _ => taken 4
  | .channelNumber _ => taken 4
  | .errorCode _ => taken 24
  | .integrity _ => taken 20
  | .fingerprint => taken 4

/- A message takes the header and its attributes; ChannelData takes a header and padding. -/
structure Sizes (stun : Stun) : Prop where
  built : ∀ {b l m}, Built stun b l m → (∀ s ∈ l, Drawn s) → m.raw.length ≤ 20 + total cost l
  channelData : ∀ n d, (stun.encodeChannelData { emptyChannelData with number := n, data := d }).raw.length ≤ d.length + 7

/- What was built is read back: it decodes as itself if it fits a datagram and its method was
read from a message, the first NONCE and REALM are found, and both digests check. -/
structure Reading (stun : Stun) : Prop extends Building stun, Adding stun where
  decodes : ∀ {b l m}, Built stun b l m → (∀ s ∈ l, Attribute s) → m.raw.length < 65536 →
    (∃ p q, stun.decode p = (q,none) ∧ q.type.method = b.type.method) →
    stun.decode { emptyMessage with raw := m.raw } = (m,none)
  nonce : ∀ {b l k m v}, Built stun b (l ++ .nonce v :: k) m → (∀ w, .nonce w ∉ l) → stun.nonce m = .ok v
  realm : ∀ {b l k m v}, Built stun b (l ++ .realm v :: k) m → (∀ w, .realm w ∉ l) → stun.get m .realm = .ok v
  unsigned : ∀ {b l m}, Built stun b l m → (∀ k, .integrity k ∉ l) →
    stun.get m .messageIntegrity = .error .attributeNotFound
  integrity : ∀ {b l m k}, Built stun b (l ++ [.integrity k,.fingerprint]) m → (∀ s ∈ l, Attribute s) →
    (∀ j, .integrity j ∉ l) → m.raw.length < 65536 → stun.checkIntegrity k m = none
  fingerprint : ∀ {b l m}, Built stun b (l ++ [.fingerprint]) m → (∀ s ∈ l, Attribute s) → .fingerprint ∉ l →
    m.raw.length < 65536 → stun.checkFingerprint m = none
  nonceMissing : ∀ {m e}, stun.nonce m = .error e → e = .attributeNotFound
  signed : ∀ {m k}, stun.checkIntegrity k m = none → stun.get m .messageIntegrity ≠ .error .attributeNotFound
  longTerm : ∀ u r p, stun.newLongTermIntegrity u r p ≠ []

variable {stun : Stun} {b m : Message} {l : List Setter}

theorem builtNil (blank : Blank b) : Built stun b [] (stun.writeHeader b) := ⟨blank,rfl⟩

theorem builtAdd (built : Built stun b l m) {s : Setter} {n : Message} (added : stun.addTo s m = (n,none)) :
    Built stun b (l ++ [s]) n := by
  have done : (apply stun (stun.writeHeader b) l).2 = none := by rw [built.applied]
  refine ⟨built.blank,?_⟩
  rw [applyAfter done,built.applied]
  simp only [apply,added]

theorem builtSplit {s : Setter} {k : List Setter} (built : Built stun b (l ++ s :: k) m) :
    ∃ n n', Built stun b l n ∧ stun.addTo s n = (n',none) ∧ apply stun n' k = (m,none) := by
  obtain ⟨blank,applied⟩ := built
  have began := applyBegan (by rw [applied])
  rw [applyAfter began,apply] at applied
  refine ⟨_,(stun.addTo s (apply stun (stun.writeHeader b) l).1).1,⟨blank,Prod.ext rfl began⟩,?_⟩
  generalize stun.addTo s (apply stun (stun.writeHeader b) l).1 = out at applied
  obtain ⟨n',err⟩ := out
  cases err with
  | some e => cases applied
  | none => exact ⟨rfl,applied⟩

theorem appliedKept (lib : Building stun) (attributes : ∀ s ∈ l, Attribute s) (m : Message) :
    (apply stun m l).1.type = m.type ∧ (apply stun m l).1.transactionID = m.transactionID := by
  induction l generalizing m with
  | nil => exact ⟨rfl,rfl⟩
  | cons s l ih =>
    obtain ⟨head,tail⟩ := List.forall_mem_cons.mp attributes
    have same := lib.kept s m head
    simp only [apply]
    generalize stun.addTo s m = out at same
    obtain ⟨n,err⟩ := out
    cases err with
    | some e => exact same
    | none =>
      have rest := ih tail n
      exact ⟨rest.1.trans same.1,rest.2.trans same.2⟩

theorem builtKept (lib : Building stun) (built : Built stun b l m) (attributes : ∀ s ∈ l, Attribute s) :
    m.type = b.type ∧ m.transactionID = b.transactionID := by
  have kept := appliedKept lib attributes (stun.writeHeader b)
  rw [built.applied] at kept
  exact ⟨kept.1.trans (lib.header b).1,kept.2.trans (lib.header b).2⟩

/- A message that ends with FINGERPRINT can be built exactly if its other attributes can be added. -/
theorem appliedExactly (lib : Adding stun) (built : Built stun b l m) (unprinted : Setter.fingerprint ∉ l) {k : List Setter}
    (rest : Setter.fingerprint ∉ k) :
    (apply stun m (k ++ [.fingerprint])).2 = none ↔ ∀ s ∈ k, Acceptable s := by
  induction k generalizing l m with
  | nil =>
    have last := (lib.accepts built unprinted .fingerprint).mpr trivial
    simp only [List.nil_append,apply]
    generalize stun.addTo .fingerprint m = out at last
    obtain ⟨n,err⟩ := out
    cases last
    exact ⟨fun _ => List.forall_mem_nil _,fun _ => rfl⟩
  | cons s k ih =>
    obtain ⟨differs,further⟩ := not_or.mp (fun hit => rest (List.mem_cons.mpr hit))
    have first := lib.accepts built unprinted s
    rw [List.cons_append,apply,List.forall_mem_cons,← first]
    cases added : stun.addTo s m with
    | mk n err => cases err with
      | some e =>
        constructor
        · intro done
          cases done
        · intro all
          cases all.1
      | none =>
        have step := builtAdd built added
        have free : Setter.fingerprint ∉ l ++ [s] := by
          simp only [List.mem_append,List.mem_singleton,not_or]
          exact ⟨unprinted,differs⟩
        exact (ih step free further).trans ⟨fun all => ⟨rfl,all⟩,And.right⟩

theorem codecBuilding (hashes : Codec.Hashes) : Building (Codec.documented hashes) := by
  refine ⟨?_,fun m => ⟨rfl,rfl⟩,fun m raw => ?_⟩
  · intro s m adds
    have header : (∀ id, s ≠ .transactionID id) ∧ ∀ t, s ≠ .type t := by
      constructor
      · rintro id rfl
        exact adds
      · rintro t rfl
        exact adds
    have known : (Codec.documented hashes).addTo s m = Codec.addTo hashes s m := rfl
    rcases Codec.addCases hashes s m header with ⟨e,_,same⟩ | ⟨v,_,same⟩ <;> rw [known,same]
    · exact ⟨rfl,rfl⟩
    · exact ⟨rfl,rfl⟩
  · simp [Codec.documented,Codec.addTo,Codec.value,Codec.add,Codec.writeHeader,Codec.header,Codec.word] at raw

def Lacks (type : UInt16) (m : Message) : Prop := ∀ a ∈ m.attributes, a.type ≠ type

theorem lacksAdd {type other : UInt16} (lacks : Lacks type m) (differ : other ≠ type) (v : Bytes) :
    Lacks type (Codec.add other v m) :=
  List.forall_mem_append.mpr ⟨lacks,List.forall_mem_singleton.mpr differ⟩

theorem addedLacks {hashes : Codec.Hashes} {type : UInt16} {s : Setter} (differ : Codec.kind s ≠ type) (lacks : Lacks type m) :
    Lacks type (Codec.addTo hashes s m).1 := by
  by_cases header : (∀ id, s ≠ .transactionID id) ∧ ∀ t, s ≠ .type t
  · rcases Codec.addCases hashes s m header with ⟨e,_,same⟩ | ⟨v,_,same⟩ <;> rw [same]
    · exact lacks
    · exact lacksAdd lacks differ v
  · cases s with
    | transactionID id => cases id <;> exact lacks
    | type t => exact lacks
    | _ => exact absurd ⟨nofun,nofun⟩ header

theorem appliedLacks {hashes : Codec.Hashes} {type : UInt16} (differ : ∀ s ∈ l, Codec.kind s ≠ type) (lacks : Lacks type m) :
    Lacks type (apply (Codec.documented hashes) m l).1 := by
  induction l generalizing m with
  | nil => exact lacks
  | cons s l ih =>
    obtain ⟨head,tail⟩ := List.forall_mem_cons.mp differ
    have step := @addedLacks m hashes type s head lacks
    have known : (Codec.documented hashes).addTo s m = Codec.addTo hashes s m := rfl
    simp only [apply,known]
    generalize Codec.addTo hashes s m = out at step
    obtain ⟨n,err⟩ := out
    cases err with
    | some e => exact step
    | none => exact ih tail step

theorem kindPrint {s : Setter} (other : s ≠ .fingerprint) : Codec.kind s ≠ 0x8028 := by
  cases s with
  | fingerprint => exact absurd rfl other
  | _ => simp [Codec.kind]

theorem codecAdding (hashes : Codec.Hashes) : Adding (Codec.documented hashes) := by
  refine ⟨fun m => rfl,?_,?_⟩
  · intro p m decoded
    have read : Codec.decode p = (m,none) := decoded
    unfold Codec.decode at read
    dsimp only at read
    split at read
    · cases read
    · split at read
      · cases read
      · rename_i framed _
        split at read
        · cases read
        · cases read
          simp only [Codec.isMessage,Bool.not_eq_true,Bool.not_eq_false',Bool.and_eq_true,decide_eq_true_eq] at framed
          rw [List.length_take,List.length_drop]
          omega
  · intro b l m built unprinted s
    have lacks : Lacks 0x8028 m := by
      have start : Lacks 0x8028 (Codec.writeHeader b) := by
        intro a mem
        change a ∈ b.attributes at mem
        rw [built.blank.attributes] at mem
        cases mem
      have after := @appliedLacks (Codec.writeHeader b) l hashes 0x8028
        (fun s mem => kindPrint (fun same => unprinted (same ▸ mem))) start
      have applied : apply (Codec.documented hashes) (Codec.writeHeader b) l = (m,none) := built.applied
      rw [applied] at after
      exact after
    have none' : m.attributes.any (fun a => a.type == 0x8028) = false :=
      List.any_eq_false.mpr (fun a mem hit => lacks a mem (beq_iff_eq.mp hit))
    cases s with
    | transactionID id => cases id <;> simp [Codec.documented,Codec.addTo,Acceptable]
    | integrity key => simp [Codec.documented,Codec.addTo,Codec.value,none',Acceptable]
    | nonce v => by_cases short : v.length ≤ 763 <;> simp [Codec.documented,Codec.addTo,Codec.value,Codec.text,Acceptable,short]
    | realm v => by_cases short : v.length ≤ 763 <;> simp [Codec.documented,Codec.addTo,Codec.value,Codec.text,Acceptable,short]
    | software v => by_cases short : v.length ≤ 763 <;> simp [Codec.documented,Codec.addTo,Codec.value,Codec.text,Acceptable,short]
    | xorMappedAddress a =>
      by_cases ip : a.ip.length = 4 ∨ a.ip.length = 16 <;> simp [Codec.documented,Codec.addTo,Codec.value,Codec.address,Acceptable,ip]
    | relayedAddress a =>
      by_cases ip : a.ip.length = 4 ∨ a.ip.length = 16 <;> simp [Codec.documented,Codec.addTo,Codec.value,Codec.address,Acceptable,ip]
    | peerAddress a =>
      by_cases ip : a.ip.length = 4 ∨ a.ip.length = 16 <;> simp [Codec.documented,Codec.addTo,Codec.value,Codec.address,Acceptable,ip]
    | _ => simp [Codec.documented,Codec.addTo,Codec.value,Acceptable]

end Gortcd.Library
