import Gortcd.Filters
import Mathlib.Data.List.Forall2

/-! What a filter section of the configuration means: the words for each action, the first
rule that applies to an address, and exactly which sections are refused. Words are compared
after `strings.ToLower`. -/
namespace Gortcd.Verdicts
open Net Filters

def actionWords : Action → List String
  | .allow => ["allow"]
  | .deny => ["drop","forbid","deny","block"]
  | .pass => ["pass","none",""]

/- The empty text is a pass rule but an allowing default. -/
def defaultWords : Action → List String
  | .allow => ["allow",""]
  | .deny => ["drop","forbid","deny","block"]
  | .pass => ["pass","none"]

def Names (texts : Texts) (text : String) (a : Action) : Prop := texts.toLower text ∈ actionWords a

def NamesDefault (texts : Texts) (text : String) (a : Action) : Prop := texts.toLower text ∈ defaultWords a

instance (texts text a) : Decidable (Names texts text a) := by unfold Names; infer_instance

def passes (texts : Texts) (item : RawRuleItem) : Bool := decide (Names texts item.action .pass)

/- A rule that decides about the address: not a pass rule, and its subnet has the IP. -/
def Decides (texts : Texts) (addr : Addr) (item : RawRuleItem) (a : Action) : Prop :=
  a ≠ .pass ∧ Names texts item.action a ∧ ∃ net, texts.parseCIDR item.net = some net ∧ net.contains addr.ip = true

def FirstDecides (texts : Texts) (addr : Addr) (items : List RawRuleItem) (a : Action) : Prop :=
  ∃ before item after, items = before ++ item :: after ∧ Decides texts addr item a ∧
    ∀ x ∈ before, ∀ b, ¬ Decides texts addr x b

variable {texts : Texts}

theorem deniedWord {word : String} (named : denied word = true) : word ∈ actionWords .deny := by
  simpa [denied,actionWords,or_assoc] using named

theorem actionParsed {text : String} {a : Action} : parseAction texts text = .ok a ↔ Names texts text a := by
  unfold parseAction Names
  dsimp only
  generalize texts.toLower text = word
  constructor
  · intro parsed
    split at parsed
    · cases parsed
      simp_all [actionWords]
    · split at parsed
      · cases parsed
        exact deniedWord ‹_›
      · split at parsed <;> try contradiction
        cases parsed
        simp_all [actionWords,or_assoc]
  · intro named
    cases a <;> simp only [actionWords,List.mem_cons,List.not_mem_nil,or_false] at named
    · rcases named with rfl | rfl | rfl <;> rfl
    · cases named
      rfl
    · rcases named with rfl | rfl | rfl | rfl <;> rfl

theorem defaultParsed {text : String} {a : Action} :
    parseDefault texts text = .ok a ↔ NamesDefault texts text a ∧ a ≠ .pass := by
  unfold parseDefault NamesDefault
  dsimp only
  generalize texts.toLower text = word
  constructor
  · intro parsed
    split at parsed
    · cases parsed
      simp_all [defaultWords]
    · split at parsed
      · cases parsed
        exact ⟨deniedWord ‹_›,nofun⟩
      · split at parsed <;> contradiction
  · intro parts
    obtain ⟨named,decided⟩ := parts
    cases a <;> simp only [defaultWords,List.mem_cons,List.not_mem_nil,or_false] at named
    · exact absurd rfl decided
    · rcases named with rfl | rfl <;> rfl
    · rcases named with rfl | rfl | rfl | rfl <;> rfl

theorem namesUnique {text : String} {a b : Action} (first : Names texts text a) (second : Names texts text b) : a = b :=
  Except.ok.inj ((actionParsed.mpr first).symm.trans (actionParsed.mpr second))

def Reads (texts : Texts) (item : RawRuleItem) (rule : Rule) : Prop :=
  ∃ a net, Names texts item.action a ∧ texts.parseCIDR item.net = some net ∧ rule = subnetRule a net

theorem staticParsed {a : Action} {net : String} {rule : Rule} :
    staticNetRule texts a net = .ok rule ↔ ∃ n, texts.parseCIDR net = some n ∧ rule = subnetRule a n := by
  unfold staticNetRule
  cases texts.parseCIDR net with
  | none => simp
  | some n => simp [eq_comm]

theorem rulesParsed {items : List RawRuleItem} {rules : List Rule} :
    parseRules texts items = .ok rules ↔ List.Forall₂ (Reads texts) items rules := by
  induction items generalizing rules with
  | nil => simp [parseRules,eq_comm]
  | cons item items ih =>
    rw [List.forall₂_cons_left_iff]
    constructor
    · intro parsed
      unfold parseRules at parsed
      obtain ⟨a,action,parsed⟩ := bindOk parsed
      obtain ⟨rule,static,parsed⟩ := bindOk parsed
      obtain ⟨rest,others,parsed⟩ := bindOk parsed
      cases parsed
      obtain ⟨net,cidr,form⟩ := staticParsed.mp static
      exact ⟨rule,rest,⟨a,net,actionParsed.mp action,cidr,form⟩,ih.mp others,rfl⟩
    · intro parts
      obtain ⟨rule,rest,⟨a,net,named,cidr,form⟩,others,rfl⟩ := parts
      have action := actionParsed.mpr named
      have static := staticParsed.mpr ⟨net,cidr,form⟩
      simp only [parseRules,action,static,ih.mpr others,bind,Except.bind]

theorem sectionParsed {items : List RawRuleItem} {text : String} {f : RuleList} :
    parseFilteringRules texts ⟨some items,text⟩ = .ok f ↔
      List.Forall₂ (Reads texts) items f.rules ∧ NamesDefault texts text f.action ∧ f.action ≠ .pass := by
  rw [← rulesParsed,← defaultParsed]
  constructor
  · intro parsed
    obtain ⟨rules,first,parsed⟩ := bindOk parsed
    obtain ⟨action,second,parsed⟩ := bindOk parsed
    cases parsed
    exact ⟨first,second⟩
  · intro parts
    obtain ⟨first,second⟩ := parts
    simp only [parseFilteringRules,first,second,bind,Except.bind,newFilter]

theorem readDecides {addr : Addr} {item : RawRuleItem} {rule : Rule} (read : Reads texts item rule) :
    (rule addr = .pass ∧ ∀ b, ¬ Decides texts addr item b) ∨ Decides texts addr item (rule addr) := by
  obtain ⟨a,net,named,cidr,rfl⟩ := read
  by_cases within : net.contains addr.ip = true
  · have verdict : subnetRule a net addr = a := by simp [subnetRule,within]
    rw [verdict]
    by_cases pass : a = .pass
    · refine .inl ⟨pass,?_⟩
      intro b decides
      exact decides.1 (namesUnique decides.2.1 (pass ▸ named))
    · exact .inr ⟨pass,named,net,cidr,within⟩
  · refine .inl ⟨by simp [subnetRule,within],?_⟩
    intro b decides
    obtain ⟨_,_,other,same,inside⟩ := decides
    cases cidr.symm.trans same
    exact within inside

theorem firstDecides {default : Action} {addr : Addr} {items : List RawRuleItem} {rules : List Rule}
    (read : List.Forall₂ (Reads texts) items rules) :
    FirstDecides texts addr items (firstMatch default addr rules) ∨
      ((∀ item ∈ items, ∀ a, ¬ Decides texts addr item a) ∧ firstMatch default addr rules = default) := by
  induction read with
  | nil => exact .inr ⟨by simp,rfl⟩
  | @cons item rule items rules head _ ih =>
    rcases @readDecides texts addr item rule head with ⟨pass,none⟩ | decides
    · have skipped : firstMatch default addr (rule :: rules) = firstMatch default addr rules := by
        simp only [firstMatch,pass]
      rw [skipped]
      rcases ih with ⟨before,found,after,split,decides,others⟩ | ⟨nothing,same⟩
      · exact .inl ⟨item :: before,found,after,by rw [split]; rfl,decides,List.forall_mem_cons.mpr ⟨none,others⟩⟩
      · exact .inr ⟨List.forall_mem_cons.mpr ⟨none,nothing⟩,same⟩
    · have taken : firstMatch default addr (rule :: rules) = rule addr := by
        have decided := decides.1
        unfold firstMatch
        split
        · contradiction
        · rfl
      rw [taken]
      exact .inl ⟨[],item,items,rfl,decides,by simp⟩

theorem passesDropped {items : List RawRuleItem} {rules : List Rule} (read : List.Forall₂ (Reads texts) items rules) :
    ∃ kept, List.Forall₂ (Reads texts) (items.filter (fun i => !passes texts i)) kept ∧
      ∀ default addr, firstMatch default addr kept = firstMatch default addr rules := by
  induction read with
  | nil => exact ⟨[],.nil,fun _ _ => rfl⟩
  | @cons item rule items rules head _ ih =>
    obtain ⟨kept,read,same⟩ := ih
    by_cases pass : Names texts item.action .pass
    · refine ⟨kept,by simpa [passes,pass] using read,?_⟩
      intro default addr
      rw [same]
      rcases @readDecides texts addr item rule head with ⟨silent,_⟩ | decides
      · simp only [firstMatch,silent]
      · exact absurd (namesUnique decides.2.1 pass) decides.1
    · refine ⟨rule :: kept,?_,?_⟩
      · rw [List.filter_cons_of_pos (by simpa [passes] using pass)]
        exact .cons head read
      · intro default addr
        simp only [firstMatch,same]

theorem sameButPasses {items others : List RawRuleItem} {rules more : List Rule}
    (same : items.filter (fun i => !passes texts i) = others.filter (fun i => !passes texts i))
    (first : List.Forall₂ (Reads texts) items rules) (second : List.Forall₂ (Reads texts) others more)
    (default : Action) (addr : Addr) : firstMatch default addr rules = firstMatch default addr more := by
  obtain ⟨kept,read,verdict⟩ := passesDropped first
  obtain ⟨kept',read',verdict'⟩ := passesDropped second
  have unique : kept = kept' := Except.ok.inj ((rulesParsed.mpr (same ▸ read)).symm.trans (rulesParsed.mpr read'))
  rw [← verdict,← verdict',unique]

theorem readable {item : RawRuleItem} :
    (∃ rule, Reads texts item rule) ↔ (∃ a, Names texts item.action a) ∧ texts.parseCIDR item.net ≠ none := by
  rw [Option.ne_none_iff_exists']
  constructor
  · intro read
    obtain ⟨rule,a,net,named,cidr,_⟩ := read
    exact ⟨⟨a,named⟩,net,cidr⟩
  · intro parts
    obtain ⟨⟨a,named⟩,net,cidr⟩ := parts
    exact ⟨subnetRule a net,a,net,named,cidr,rfl⟩

theorem readableAll {items : List RawRuleItem} :
    (∃ rules, List.Forall₂ (Reads texts) items rules) ↔ ∀ item ∈ items, ∃ rule, Reads texts item rule := by
  induction items with
  | nil => simp
  | cons item items ih =>
    rw [List.forall_mem_cons,← ih]
    simp only [List.forall₂_cons_left_iff]
    constructor
    · intro all
      obtain ⟨_,rule,rules,read,rest,_⟩ := all
      exact ⟨⟨rule,read⟩,rules,rest⟩
    · intro all
      obtain ⟨⟨rule,read⟩,rules,rest⟩ := all
      exact ⟨_,rule,rules,read,rest,rfl⟩

theorem defaultUnique {text : String} {a b : Action} (first : NamesDefault texts text a)
    (second : NamesDefault texts text b) : a = b := by
  have apart : ∀ word ∈ defaultWords a, word ∈ defaultWords b → a = b := by cases a <;> cases b <;> decide
  exact apart _ first second

theorem sectionAccepted {items : List RawRuleItem} {text : String} :
    (∃ f, parseFilteringRules texts ⟨some items,text⟩ = .ok f) ↔
      (∀ item ∈ items, (∃ a, Names texts item.action a) ∧ texts.parseCIDR item.net ≠ none) ∧
        ∃ a, NamesDefault texts text a ∧ a ≠ .pass := by
  simp only [sectionParsed,← readable]
  rw [← readableAll]
  constructor
  · intro accepted
    obtain ⟨f,read,default⟩ := accepted
    exact ⟨⟨f.rules,read⟩,f.action,default⟩
  · intro parts
    obtain ⟨⟨rules,read⟩,action,default⟩ := parts
    exact ⟨⟨action,rules⟩,read,default⟩

theorem sectionRefused {items : List RawRuleItem} {text : String} :
    (∃ e, parseFilteringRules texts ⟨some items,text⟩ = .error e) ↔
      (∃ item ∈ items, (∀ a, ¬ Names texts item.action a) ∨ texts.parseCIDR item.net = none) ∨
        NamesDefault texts text .pass ∨ ∀ a, ¬ NamesDefault texts text a := by
  have either : (∃ e, parseFilteringRules texts ⟨some items,text⟩ = .error e) ↔
      ¬ ∃ f, parseFilteringRules texts ⟨some items,text⟩ = .ok f := by
    cases parseFilteringRules texts ⟨some items,text⟩ <;> simp
  rw [either,sectionAccepted,not_and_or]
  refine or_congr (by simp only [not_forall,not_and_or,not_exists,not_not,exists_prop,ne_eq]) ?_
  constructor
  · intro none
    by_cases pass : NamesDefault texts text .pass
    · exact .inl pass
    · refine .inr ?_
      intro a named
      exact none ⟨a,named,fun same => pass (same ▸ named)⟩
  · intro bad usable
    obtain ⟨a,named,decided⟩ := usable
    rcases bad with pass | unknown
    · exact decided (defaultUnique named pass)
    · exact unknown a named

/- What an accepted section makes of every address. -/
structure Means (texts : Texts) (items : List RawRuleItem) (text : String) (f : RuleList) : Prop where
  decided : ∀ addr, f.act addr = .allow ∨ f.act addr = .deny
  first : ∀ addr, FirstDecides texts addr items (f.act addr) ∨
    ((∀ item ∈ items, ∀ a, ¬ Decides texts addr item a) ∧ NamesDefault texts text (f.act addr))
  unchanged : ∀ others g, others.filter (fun i => !passes texts i) = items.filter (fun i => !passes texts i) →
    parseFilteringRules texts ⟨some others,text⟩ = .ok g → ∀ addr, g.act addr = f.act addr

theorem filterConfiguration (texts : Texts) (items : List RawRuleItem) (text : String) :
    (∀ f, parseFilteringRules texts ⟨some items,text⟩ = .ok f → Means texts items text f) ∧
    ((∃ e, parseFilteringRules texts ⟨some items,text⟩ = .error e) ↔
      (∃ item ∈ items, (∀ a, ¬ Names texts item.action a) ∨ texts.parseCIDR item.net = none) ∨
        NamesDefault texts text .pass ∨ ∀ a, ¬ NamesDefault texts text a) := by
  refine ⟨?_,sectionRefused⟩
  intro f parsed
  obtain ⟨read,named,usable⟩ := sectionParsed.mp parsed
  have verdict (addr : Addr) := @firstDecides texts f.action addr items f.rules read
  refine ⟨?_,?_,?_⟩
  · intro addr
    have decisive : f.act addr ≠ .pass := by
      rcases verdict addr with ⟨_,_,_,_,decides,_⟩ | ⟨_,same⟩
      · exact decides.1
      · exact fun pass => usable (same.symm.trans pass)
    cases act : f.act addr with
    | pass => exact absurd act decisive
    | allow => exact .inl rfl
    | deny => exact .inr rfl
  · intro addr
    rcases verdict addr with decides | ⟨nothing,same⟩
    · exact .inl decides
    · refine .inr ⟨nothing,?_⟩
      unfold RuleList.act
      rwa [same]
  · intro others g same accepted addr
    obtain ⟨read',named',_⟩ := sectionParsed.mp accepted
    unfold RuleList.act
    rw [defaultUnique named' named]
    exact sameButPasses same read' read f.action addr

end Gortcd.Verdicts
