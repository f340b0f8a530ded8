import Gortcd.Net

/-! internal/filter and the `filter` section of the configuration (`parseFilteringRules`).
A rule is the `Action` method of Go's `Rule` interface. A list of subnet rules looks at the
IP only and not at its form. -/
namespace Gortcd.Filters
open Keyed Net

inductive Action where
  | pass
  | allow
  | deny
  deriving DecidableEq, Repr

abbrev Rule := Addr → Action

structure IPNet where
  ip : IP
  mask : Bytes
  deriving DecidableEq, Repr

/- `net.networkNumberAndMask`; both are nil for a malformed network. -/
def IPNet.networkNumberAndMask (n : IPNet) : IP × Bytes :=
  let ip := IP.canon n.ip
  if ip.length ≠ 4 ∧ ip.length ≠ 16 then ([],[])
  else if n.mask.length = 4 then if ip.length = 4 then (ip,n.mask) else ([],[])
  else if n.mask.length = 16 then if ip.length = 4 then (ip,n.mask.drop 12) else (ip,n.mask)
  else ([],[])

def masked (ip mask : Bytes) : Bytes := List.zipWith (· &&& ·) ip mask

/- `net.IPNet.Contains`. -/
def IPNet.contains (n : IPNet) (ip : IP) : Bool :=
  let network := n.networkNumberAndMask
  let x := IP.canon ip
  decide (x.length = network.1.length) && masked network.1 network.2 == masked x network.2

def subnetRule (action : Action) (net : IPNet) : Rule :=
  fun addr => if net.contains addr.ip then action else .pass

def allowAll : Rule := fun _ => .allow

-- `filter.List`
structure RuleList where
  action : Action
  rules : List Rule

def firstMatch (default : Action) (addr : Addr) : List Rule → Action
  | [] => default
  | r :: rules => match r addr with
    | .pass => firstMatch default addr rules
    | a => a

def RuleList.act (f : RuleList) : Rule := fun addr => firstMatch f.action addr f.rules

def newFilter (action : Action) (rules : List Rule) : RuleList := ⟨action,rules⟩

structure RawRuleItem where
  net : String
  action : String
  deriving DecidableEq, Repr

/- What viper holds under a filter's key; `rules` is none when `UnmarshalKey` fails. -/
structure RawFilter where
  rules : Option (List RawRuleItem)
  action : String
  deriving DecidableEq, Repr

inductive ParseErr where
  | unmarshal
  | unknownAction (text : String)
  | cidr (net : String)
  | defaultPass
  | unknownDefault
  deriving DecidableEq, Repr

/- Functions of the standard library on texts. -/
structure Texts where
  toLower : String → String
  parseCIDR : String → Option IPNet

def staticNetRule (texts : Texts) (action : Action) (subnet : String) : Except ParseErr Rule :=
  match texts.parseCIDR subnet with
  | none => .error (.cidr subnet)
  | some net => .ok (subnetRule action net)

def denied (text : String) : Bool := text == "drop" || text == "forbid" || text == "deny" || text == "block"

def parseAction (texts : Texts) (text : String) : Except ParseErr Action :=
  let lower := texts.toLower text
  if lower == "allow" then .ok .allow
  else if denied lower then .ok .deny
  else if lower == "pass" || lower == "none" || lower == "" then .ok .pass
  else .error (.unknownAction text)

def parseRules (texts : Texts) : List RawRuleItem → Except ParseErr (List Rule)
  | [] => .ok []
  | raw :: rest => do
    let action ← parseAction texts raw.action
    let rule ← staticNetRule texts action raw.net
    let rules ← parseRules texts rest
    .ok (rule :: rules)

def parseDefault (texts : Texts) (text : String) : Except ParseErr Action :=
  let lower := texts.toLower text
  if lower == "allow" || lower == "" then .ok .allow
  else if denied lower then .ok .deny
  else if lower == "pass" || lower == "none" then .error .defaultPass
  else .error .unknownDefault

def parseFilteringRules (texts : Texts) (raw : RawFilter) : Except ParseErr RuleList :=
  match raw.rules with
  | none => .error .unmarshal
  | some items => do
    let rules ← parseRules texts items
    let action ← parseDefault texts raw.action
    .ok (newFilter action rules)

theorem bindOk {ε α β : Type} {x : Except ε α} {f : α → Except ε β} {b : β} (ok : x >>= f = .ok b) :
    ∃ a, x = .ok a ∧ f a = .ok b := by
  cases x with
  | error e => cases ok
  | ok a => exact ⟨a,rfl,ok⟩

/- The verdict does not depend on the port or on the form of the IP. -/
def ByIP (r : Rule) : Prop := ∀ a b : Addr, IP.equal a.ip b.ip = true → r a = r b

theorem containsByIP (n : IPNet) {a b : IP} (same : IP.equal a b = true) : n.contains a = n.contains b := by
  have canon := (equalCanon a b).mp same
  simp only [IPNet.contains,canon]

theorem subnetByIP (action : Action) (net : IPNet) : ByIP (subnetRule action net) := by
  intro a b same
  simp only [subnetRule,containsByIP net same]

theorem listByIP {default : Action} {rules : List Rule} (all : ∀ r ∈ rules, ByIP r) {a b : Addr}
    (same : IP.equal a.ip b.ip = true) : firstMatch default a rules = firstMatch default b rules := by
  induction rules with
  | nil => rfl
  | cons r rules ih =>
    obtain ⟨head,tail⟩ := List.forall_mem_cons.mp all
    simp only [firstMatch,head a b same,ih tail]

variable {texts : Texts}

theorem staticByIP {action : Action} {net : String} {rule : Rule}
    (parsed : staticNetRule texts action net = .ok rule) : ByIP rule := by
  unfold staticNetRule at parsed
  split at parsed <;> try contradiction
  cases parsed
  exact subnetByIP action _

theorem rulesByIP {items : List RawRuleItem} {rules : List Rule} (parsed : parseRules texts items = .ok rules) :
    ∀ r ∈ rules, ByIP r := by
  induction items generalizing rules with
  | nil =>
    cases parsed
    simp
  | cons raw rest ih =>
    unfold parseRules at parsed
    obtain ⟨a,_,parsed⟩ := bindOk parsed
    obtain ⟨rule,static,parsed⟩ := bindOk parsed
    obtain ⟨more,others,parsed⟩ := bindOk parsed
    cases parsed
    exact List.forall_mem_cons.mpr ⟨staticByIP static,ih others⟩

theorem parsedByIP {raw : RawFilter} {f : RuleList} (parsed : parseFilteringRules texts raw = .ok f) : ByIP f.act := by
  unfold parseFilteringRules at parsed
  split at parsed <;> try contradiction
  rename_i items _
  obtain ⟨rules,first,parsed⟩ := bindOk parsed
  obtain ⟨action,_,parsed⟩ := bindOk parsed
  cases parsed
  exact fun a b same => listByIP (rulesByIP first) same

end Gortcd.Filters
