import Gortcd.Authentication

/-! The `auth.static` section of the configuration (`parseStaticCredentials`) and the key
command that prints a value for it. An entry whose key does not decode is logged and kept,
so the last entry for a user decides and not the last well formed one. -/
namespace Gortcd.Credentials
open Net Messages Auth

-- encoding/hex
inductive HexErr where
  | invalidByte (b : UInt8)
  | length
  deriving DecidableEq, Repr

def fromHexChar (c : UInt8) : Option UInt8 :=
  if 0x30 ≤ c ∧ c ≤ 0x39 then some (c - 0x30)
  else if 0x61 ≤ c ∧ c ≤ 0x66 then some (c - 0x61 + 10)
  else if 0x41 ≤ c ∧ c ≤ 0x46 then some (c - 0x41 + 10)
  else none

/- The bytes decoded before an error are returned with it. -/
def decodeString : Bytes → Bytes × Option HexErr
  | [] => ([],none)
  | [c] => ([],some (if (fromHexChar c).isSome then .length else .invalidByte c))
  | a :: b :: rest => match fromHexChar a,fromHexChar b with
    | none,_ => ([],some (.invalidByte a))
    | some _,none => ([],some (.invalidByte b))
    | some high,some low => ((high <<< 4 ||| low) :: (decodeString rest).1,(decodeString rest).2)

def encodeToString (b : Bytes) : Bytes := b.flatMap (fun x => [hexDigit (x / 16),hexDigit (x % 16)])

structure StaticCredElem where
  username : Bytes
  password : Bytes
  key : Bytes
  realm : Bytes
  deriving DecidableEq, Repr

-- "0x"
def keyMark : Bytes := [0x30,0x78]

/- The body of the loop; a decoding error is only logged. -/
def parseStaticCredential (realm : Bytes) (cred : StaticCredElem) : StaticCredential :=
  { username := cred.username
    password := cred.password
    realm := if cred.realm = [] then realm else cred.realm
    key := if keyMark.isPrefixOf cred.key then (decodeString (cred.key.drop 2)).1 else [] }

def parseStaticCredentials (realm : Bytes) (rawCredentials : List StaticCredElem) : List StaticCredential :=
  rawCredentials.map (parseStaticCredential realm)

/- The authenticator that `getListeners` sets up. -/
def configured (stun : Stun) (realm : Bytes) (raw : List StaticCredElem) : Static :=
  newStatic stun (parseStaticCredentials realm raw)

section Key
variable (stun : Stun) (user realm password : Bytes)

def getIntegrityHex : Bytes := encodeToString (stun.newLongTermIntegrity user realm password)

def printedKey : Bytes := keyMark ++ getIntegrityHex stun user realm password

end Key

/- A well formed key: the mark and a non-empty text that decodes in full. -/
def hexKey (key : Bytes) : Option Bytes :=
  if keyMark.isPrefixOf key then
    match decodeString (key.drop 2) with
    | (b :: bytes,none) => some (b :: bytes)
    | _ => none
  else none

def StaticCredElem.malformed (e : StaticCredElem) : Bool := !e.key.isEmpty && (hexKey e.key).isNone

variable {stun : Stun} {realm : Bytes} {raw : List StaticCredElem}

theorem digitsRead (x : UInt8) : fromHexChar (hexDigit (x / 16)) = some (x / 16) ∧
    fromHexChar (hexDigit (x % 16)) = some (x % 16) ∧ (x / 16) <<< 4 ||| x % 16 = x := by
  have all : ∀ n : Fin 256, fromHexChar (hexDigit (UInt8.ofNat n / 16)) = some (UInt8.ofNat n / 16) ∧
      fromHexChar (hexDigit (UInt8.ofNat n % 16)) = some (UInt8.ofNat n % 16) ∧
      (UInt8.ofNat n / 16) <<< 4 ||| UInt8.ofNat n % 16 = UInt8.ofNat n := by decide +kernel
  have value := all ⟨x.toNat,x.toNat_lt⟩
  rwa [UInt8.ofNat_toNat] at value

theorem decodeEncoded (b : Bytes) : decodeString (encodeToString b) = (b,none) := by
  induction b with
  | nil => rfl
  | cons x b ih =>
    obtain ⟨high,low,halves⟩ := digitsRead x
    have unfolded : encodeToString (x :: b) = hexDigit (x / 16) :: hexDigit (x % 16) :: encodeToString b := rfl
    rw [unfolded,decodeString,high,low]
    simp only [ih,halves]

theorem parsedHexKey {key bytes : Bytes} (parsed : hexKey key = some bytes) :
    keyMark.isPrefixOf key = true ∧ decodeString (key.drop 2) = (bytes,none) ∧ bytes ≠ [] := by
  unfold hexKey at parsed
  split at parsed <;> try contradiction
  rename_i marked
  split at parsed <;> try contradiction
  rename_i decoded
  cases parsed
  exact ⟨marked,decoded,List.cons_ne_nil _ _⟩

/- The entry that decides for a user is the last one. -/
def lastFor (realm : Bytes) (k : StaticKey) (raw : List StaticCredElem) : Option StaticCredElem :=
  raw.reverse.find? (fun e => (parseStaticCredential realm e).id = k)

def entryKey (stun : Stun) (realm : Bytes) (e : StaticCredElem) : Bytes :=
  (parseStaticCredential realm e).integrity stun

theorem credentialLast (k : StaticKey) :
    (configured stun realm raw).credentials k = (lastFor realm k raw).map (entryKey stun realm) := by
  unfold configured newStatic parseStaticCredentials lastFor
  rw [List.foldl_map,← List.foldr_reverse]
  induction raw.reverse with
  | nil => rfl
  | cons e l ih =>
    simp only [List.foldr_cons,Static.insert,List.find?_cons]
    by_cases same : (parseStaticCredential realm e).id = k
    · simp [same,entryKey]
    · simp only [same,Ne.symm same,if_false,decide_false]
      exact ih

theorem lastSpec {k : StaticKey} {e : StaticCredElem} (last : lastFor realm k raw = some e) :
    e ∈ raw ∧ (parseStaticCredential realm e).id = k :=
  ⟨List.mem_reverse.mp (List.mem_of_find?_eq_some last),by simpa using List.find?_some last⟩

theorem lastFiltered {k : StaticKey} {e : StaticCredElem} {keep : StaticCredElem → Bool}
    (last : lastFor realm k raw = some e) (kept : keep e = true) : lastFor realm k (raw.filter keep) = some e := by
  unfold lastFor at last ⊢
  rw [← List.filter_reverse,List.find?_filter]
  rw [List.find?_eq_some_iff_append] at last ⊢
  obtain ⟨matching,before,after,split,others⟩ := last
  refine ⟨by simpa using ⟨kept,of_decide_eq_true matching⟩,before,after,split,?_⟩
  intro f mem
  have other := others f mem
  rw [Bool.not_eq_true',decide_eq_false_iff_not] at other ⊢
  exact fun both => other (of_decide_eq_true both.2)

theorem lastAbsent {k : StaticKey} {keep : StaticCredElem → Bool} (absent : lastFor realm k raw = none) :
    lastFor realm k (raw.filter keep) = none := by
  unfold lastFor at absent ⊢
  rw [List.find?_eq_none] at absent ⊢
  intro e mem
  rw [← List.filter_reverse] at mem
  exact absent e (List.mem_of_mem_filter mem)

/- The credentials mean what they say: every key in the table comes from a well formed
entry, and a malformed one has no part in it. -/
structure Faithful (stun : Stun) (realm : Bytes) (raw : List StaticCredElem) : Prop where
  justified : ∀ k key, (configured stun realm raw).credentials k = some key →
    ∃ e ∈ raw, (parseStaticCredential realm e).id = k ∧
      (hexKey e.key = some key ∨ (e.key = [] ∧ key = stun.newLongTermIntegrity k.username k.realm e.password))
  ignored : configured stun realm raw = configured stun realm (raw.filter (fun e => !e.malformed))

theorem entryJustified {e : StaticCredElem} (formed : e.malformed = false) :
    hexKey e.key = some (entryKey stun realm e) ∨
      (e.key = [] ∧ entryKey stun realm e =
        stun.newLongTermIntegrity e.username (parseStaticCredential realm e).realm e.password) := by
  by_cases empty : e.key = []
  · refine .inr ⟨empty,?_⟩
    have none : (parseStaticCredential realm e).key = [] := by
      simp only [parseStaticCredential,empty]
      rfl
    unfold entryKey StaticCredential.integrity
    rw [none]
    rfl
  · cases parsed : hexKey e.key with
    | none => simp [StaticCredElem.malformed,parsed,empty] at formed
    | some bytes =>
      obtain ⟨marked,decoded,filled⟩ := parsedHexKey parsed
      have key : (parseStaticCredential realm e).key = bytes := by
        simp only [parseStaticCredential,marked,decoded,if_true]
      have length : bytes.length > 0 := List.length_pos_iff.mpr filled
      simp [entryKey,StaticCredential.integrity,key,length]

theorem filteredJustified {k : StaticKey} {key : Bytes}
    (held : (configured stun realm (raw.filter (fun e => !e.malformed))).credentials k = some key) :
    ∃ e ∈ raw, (parseStaticCredential realm e).id = k ∧
      (hexKey e.key = some key ∨ (e.key = [] ∧ key = stun.newLongTermIntegrity k.username k.realm e.password)) := by
  rw [credentialLast,Option.map_eq_some_iff] at held
  obtain ⟨e,last,rfl⟩ := held
  obtain ⟨mem,rfl⟩ := lastSpec last
  obtain ⟨present,formed⟩ := List.mem_filter.mp mem
  exact ⟨e,present,rfl,entryJustified (by simpa using formed)⟩

/- The pairs of hexadecimal digits that a text starts with. -/
def leadingPairs : Bytes → Bytes
  | a :: b :: rest => match fromHexChar a,fromHexChar b with
    | some high,some low => (high <<< 4 ||| low) :: leadingPairs rest
    | _,_ => []
  | _ => []

theorem pairsDecoded (text : Bytes) : (decodeString text).1 = leadingPairs text := by
  induction text using decodeString.induct with
  | case1 => rfl
  | case2 c => rfl
  | case3 a b rest high => simp only [decodeString,leadingPairs,high]
  | case4 a b rest _ high low => simp only [decodeString,leadingPairs,high,low]
  | case5 a b rest _ _ low high ih => simp only [decodeString,leadingPairs,high,low,ih]

/- What an entry comes down to, formed well or not: the pairs after the mark, or the key made
from the password when there are none. -/
def statedKey (stun : Stun) (realm : Bytes) (e : StaticCredElem) : Bytes :=
  match if keyMark.isPrefixOf e.key then leadingPairs (e.key.drop 2) else [] with
  | [] => stun.newLongTermIntegrity e.username (if e.realm = [] then realm else e.realm) e.password
  | b :: bytes => b :: bytes

theorem entryStated (e : StaticCredElem) : entryKey stun realm e = statedKey stun realm e := by
  unfold entryKey StaticCredential.integrity statedKey
  simp only [parseStaticCredential,pairsDecoded]
  cases if keyMark.isPrefixOf e.key then leadingPairs (e.key.drop 2) else [] with
  | nil => rfl
  | cons b bytes => rfl

/- Where a malformed entry is the last one for its user and realm, the last well formed
one would have given the same key. -/
def TyposHarmless (stun : Stun) (realm : Bytes) (raw : List StaticCredElem) : Prop :=
  ∀ k e, lastFor realm k raw = some e → e.malformed = true →
    ∃ g, lastFor realm k (raw.filter (fun e => !e.malformed)) = some g ∧ statedKey stun realm g = statedKey stun realm e

theorem faithfulExactly (stun : Stun) (realm : Bytes) (raw : List StaticCredElem) :
    Faithful stun realm raw ↔ TyposHarmless stun realm raw := by
  constructor
  · intro faithful k e last _
    have same := congrFun (congrArg Static.credentials faithful.ignored) k
    rw [credentialLast,credentialLast,last,Option.map_some] at same
    obtain ⟨g,other,key⟩ := Option.map_eq_some_iff.mp same.symm
    rw [entryStated,entryStated] at key
    exact ⟨g,other,key⟩
  · intro harmless
    have ignored : configured stun realm raw = configured stun realm (raw.filter (fun e => !e.malformed)) := by
      refine congrArg Static.mk (funext ?_)
      intro k
      refine credentialLast k |>.trans (Eq.trans ?_ (credentialLast k).symm)
      cases last : lastFor realm k raw with
      | none => rw [lastAbsent last]
      | some e => cases formed : e.malformed with
        | false => rw [lastFiltered last (by simp [formed])]
        | true =>
          obtain ⟨g,other,key⟩ := harmless k e last formed
          rw [other,Option.map_some,Option.map_some,entryStated,entryStated,key]
    refine ⟨?_,ignored⟩
    intro k key held
    exact filteredJustified (ignored ▸ held)

/- The library with the digests of `user:realm:secret` and `foo:realm:`. -/
def sampleLibrary : Stun := Codec.documented
  { hmac := fun _ _ => []
    md5 := fun input =>
      if input = [0x75,0x73,0x65,0x72,0x3a,0x72,0x65,0x61,0x6c,0x6d,0x3a,0x73,0x65,0x63,0x72,0x65,0x74] then Authentication.sampleKey
      else if input = [0x66,0x6f,0x6f,0x3a,0x72,0x65,0x61,0x6c,0x6d,0x3a] then
        [0xb2,0x75,0x02,0x3a,0x31,0xb4,0x90,0xfe,0x5e,0xfc,0xc2,0x7f,0xff,0x45,0x12,0x24]
      else List.replicate 16 0 }

def sampleRealm : Bytes := [0x72,0x65,0x61,0x6c,0x6d]

/- Two typos in a configuration: `foo` has a key without the mark and no password, the key
of `bar` has a letter that is no digit. -/
def sampleTypos : List StaticCredElem :=
  [⟨[0x66,0x6f,0x6f],[],[0x61,0x62,0x63,0x64],[]⟩,⟨[0x62,0x61,0x72],[],[0x30,0x78,0x30,0x66,0x7a,0x7a],[]⟩]

theorem typosAccepted : ¬ Faithful sampleLibrary sampleRealm sampleTypos ∧
    (configured sampleLibrary sampleRealm sampleTypos).credentials ⟨[0x62,0x61,0x72],sampleRealm⟩ = some [0x0f] ∧
    (configured sampleLibrary sampleRealm sampleTypos).credentials ⟨[0x66,0x6f,0x6f],sampleRealm⟩ =
      some (sampleLibrary.newLongTermIntegrity [0x66,0x6f,0x6f] sampleRealm []) := by
  have partly : (configured sampleLibrary sampleRealm sampleTypos).credentials ⟨[0x62,0x61,0x72],sampleRealm⟩ = some [0x0f] := by
    decide +kernel
  refine ⟨?_,partly,by decide +kernel⟩
  intro faithful
  have none := faithful.justified _ _ partly
  revert none
  decide +kernel

theorem printedKeyParsed (integrity : ∀ u r p, (stun.newLongTermIntegrity u r p).length = 16)
    (user own password other : Bytes) (named : own ≠ []) :
    let byKey := parseStaticCredential realm ⟨user,other,printedKey stun user own password,own⟩
    let byPassword := parseStaticCredential realm ⟨user,password,[],own⟩
    byKey.id = byPassword.id ∧ byKey.integrity stun = byPassword.integrity stun := by
  have decoded : decodeString ((printedKey stun user own password).drop 2) =
      (stun.newLongTermIntegrity user own password,none) := decodeEncoded _
  have marked : keyMark.isPrefixOf (printedKey stun user own password) = true :=
    List.isPrefixOf_iff_prefix.mpr (List.prefix_append _ _)
  have filled : (stun.newLongTermIntegrity user own password).length > 0 := by rw [integrity]; decide
  refine ⟨rfl,?_⟩
  simp only [StaticCredential.integrity,parseStaticCredential,marked,decoded,filled,named,if_true,if_false]
  rfl

theorem keyCommandAgrees (integrity : ∀ u r p, (stun.newLongTermIntegrity u r p).length = 16)
    (user own password : Bytes) (named : own ≠ []) (before after : List StaticCredElem) :
    configured stun realm (before ++ ⟨user,[],printedKey stun user own password,own⟩ :: after) =
      configured stun realm (before ++ ⟨user,password,[],own⟩ :: after) ∧
    ∀ m, (configured stun realm (before ++ ⟨user,[],printedKey stun user own password,own⟩ :: after)).auth stun m =
      (configured stun realm (before ++ ⟨user,password,[],own⟩ :: after)).auth stun m := by
  obtain ⟨id,key⟩ := @printedKeyParsed stun realm integrity user own password [] named
  have same : configured stun realm (before ++ ⟨user,[],printedKey stun user own password,own⟩ :: after) =
      configured stun realm (before ++ ⟨user,password,[],own⟩ :: after) := by
    simp only [configured,newStatic,parseStaticCredentials,List.map_append,List.map_cons,List.foldl_append,
      List.foldl_cons,id,key]
  exact ⟨same,fun m => by rw [same]⟩

/- The command's output between other entries, one of them for the same user. -/
def sampleUser : Bytes := [0x75,0x73,0x65,0x72]

def samplePassword : Bytes := [0x73,0x65,0x63,0x72,0x65,0x74]

def sampleListed (elem : StaticCredElem) : Static :=
  configured sampleLibrary [] ((⟨sampleUser,[],[0x30,0x78,0x31,0x31],sampleRealm⟩ :: sampleTypos) ++
    elem :: [⟨[0x66,0x6f,0x6f],samplePassword,[],sampleRealm⟩])

theorem keyCommandAgreesSample :
    (sampleListed ⟨sampleUser,samplePassword,[],sampleRealm⟩).credentials ⟨sampleUser,sampleRealm⟩ =
      some Authentication.sampleKey ∧
    sampleListed ⟨sampleUser,[],printedKey sampleLibrary sampleUser sampleRealm samplePassword,sampleRealm⟩ =
      sampleListed ⟨sampleUser,samplePassword,[],sampleRealm⟩ := by
  have integrity (u r p : Bytes) : (sampleLibrary.newLongTermIntegrity u r p).length = 16 := by
    simp only [sampleLibrary,Codec.documented]
    split
    · rfl
    · split <;> rfl
  exact ⟨by decide +kernel,(keyCommandAgrees integrity _ sampleRealm _ (by decide) _ _).1⟩

end Gortcd.Credentials
