import Conductress.Control.App

/-!
# Bearer tokens

`TokenStore`: what the tokens file says a token stands for, under the token's
hash. A record is checked as a whole before its identity is stored and no two
records have one hash, so a presented token stands for what one record says
(`authenticate_ok`), and a runner's token names the runner of that record.
-/

namespace Conductress

open Lib

/-- A record of the tokens file. -/
structure TokenRecord where
  tokenHash : String
  role      : String
  label     : String
  runnerId  : Option String
  login     : Option String

namespace TokenRecord

/-- A `ValueError` unless a check passes. -/
def ensure (passes : Bool) (message : String) : Except PyError Unit :=
  if passes then .ok () else .error (.valueError message)

/-- The identity of a record that passes its checks. -/
def identity (r : TokenRecord) : Except PyError AuthIdentity := do
  ensure (decide (r.tokenHash.length = 64)) "token_hash must be a SHA-256 hexadecimal digest"
  ensure (decide (r.role ∈ ["operator", "runner", "user"]))
    "token role must be operator, runner, or user"
  ensure (decide (r.label ≠ "")) "token label must be a non-empty string"
  if r.role = "runner" then
    let runnerId := r.runnerId.getD ""
    if hrunner : runnerId ≠ "" then do
      ensure r.login.isNone "only a user token may set login"
      return .runner r.label runnerId hrunner
    else .error (.valueError "runner token requires runner_id")
  else do
    ensure r.runnerId.isNone "only a runner token may set runner_id"
    if r.role = "user" then
      let login := r.login.getD ""
      if hlogin : login ≠ "" then .ok (.user r.label login hlogin)
      else .error (.valueError "user token requires login")
    else do
      ensure r.login.isNone "only a user token may set login"
      return .operator r.label

end TokenRecord

/-- What a token stands for, under its hash. -/
structure TokenEntry where
  tokenHash : String
  identity  : AuthIdentity

/-- The identities by hash. -/
abbrev TokenStore := Table TokenEntry.tokenHash

/-- Why a request is turned away before its handler. -/
inductive AuthError where
  | required | invalid
  deriving DecidableEq

namespace AuthError

def code : AuthError → String
  | required => "AUTH_REQUIRED"
  | invalid => "AUTH_INVALID"

def message : AuthError → String
  | required => "Bearer authentication required"
  | invalid => "invalid bearer token"

def status : AuthError → ℕ := fun _ => 401

end AuthError

namespace TokenStore

/-- One pass of the loop over the records. -/
def add (store : TokenStore) (r : TokenRecord) : Except PyError TokenStore := do
  let identity ← r.identity
  match store.insert? ⟨r.tokenHash, identity⟩ with
  | some store => .ok store
  | none => .error (.valueError "duplicate token_hash")

/-- `TokenStore(path)`, on the records of the file. -/
def load (records : List TokenRecord) : Except PyError TokenStore := records.foldlM add .empty

/-- What an authorization header starts with. -/
def bearer : String := "Bearer "

/-- `authenticate`; `hashToken` is the digest tokens are stored under. -/
def authenticate (hashToken : String → String) (store : TokenStore) (authorization : Option String) :
    Except AuthError AuthIdentity :=
  let header := (authorization.getD "").toList
  if bearer.toList.isPrefixOf header then
    match store.find? (hashToken (String.ofList (header.drop bearer.length))) with
    | some entry => .ok entry.identity
    | none => .error .invalid
  else .error .required

/-! ## Records and identities -/

theorem ensure_ok {passes : Bool} {message : String} {u : Unit} :
    TokenRecord.ensure passes message = .ok u ↔ passes = true := by
  cases passes <;> simp [TokenRecord.ensure]

/-- The identities of a store are those of its records. -/
theorem mem_foldlM_add {records : List TokenRecord} {store store' : TokenStore}
    (h : records.foldlM add store = .ok store') {entry : TokenEntry} (hentry : entry ∈ store') :
    entry ∈ store ∨ ∃ r ∈ records, r.tokenHash = entry.tokenHash ∧ r.identity = .ok entry.identity := by
  induction records generalizing store with
  | nil =>
    rw [List.foldlM_nil] at h
    exact .inl (except_pure_ok.mp h ▸ hentry)
  | cons r rest ih =>
    rw [List.foldlM_cons] at h
    obtain ⟨store₁, hadd, hrest⟩ := except_bind_ok.mp h
    rcases ih hrest with hold | ⟨r', hr', hfound⟩
    · unfold add at hadd
      obtain ⟨identity, hidentity, hadd⟩ := except_bind_ok.mp hadd
      split at hadd
      · next inserted hins =>
        obtain rfl := Except.ok.inj hadd
        rcases (Table.mem_insert? hins).mp hold with hold | rfl
        · exact .inl hold
        · exact .inr ⟨r, List.mem_cons_self, rfl, hidentity⟩
      · cases hadd
    · exact .inr ⟨r', List.mem_cons_of_mem _ hr', hfound⟩

/-- A header is what it starts with and the token. -/
theorem bearer_append {authorization : Option String}
    (h : bearer.toList.isPrefixOf (authorization.getD "").toList = true) :
    authorization = some (bearer ++
      String.ofList ((authorization.getD "").toList.drop bearer.length)) := by
  obtain ⟨rest, hrest⟩ := List.isPrefixOf_iff_prefix.mp h
  cases authorization with
  | none => cases hrest
  | some header =>
    have hheader : header.toList = bearer.toList ++ rest := hrest.symm
    refine congrArg some (String.toList_inj.mp ?_)
    rw [Option.getD_some, hheader, String.toList_append, String.toList_ofList,
      ← String.length_toList, List.drop_left]

/-- **A token stands for what a record says**: the record whose hash is the
token's, and which passed every check. -/
theorem authenticate_ok {hashToken : String → String} {records : List TokenRecord}
    {store : TokenStore} (hload : load records = .ok store) {authorization : Option String}
    {identity : AuthIdentity} (h : authenticate hashToken store authorization = .ok identity) :
    ∃ token, authorization = some (bearer ++ token) ∧
      ∃ r ∈ records, r.tokenHash = hashToken token ∧ r.identity = .ok identity := by
  unfold authenticate at h
  dsimp only at h
  split at h
  · next hbearer =>
    split at h
    · next entry hfind =>
      obtain rfl := Except.ok.inj h
      obtain ⟨hmem, hhash⟩ := Table.find?_eq_some_iff.mp hfind
      rcases mem_foldlM_add hload hmem with hempty | ⟨r, hr, hrecord, hidentity⟩
      · exact absurd hempty (Table.not_mem_empty entry)
      · exact ⟨_, bearer_append hbearer, r, hr, hrecord.trans hhash, hidentity⟩
    · cases h
  · cases h

end TokenStore

namespace AuthIdentity

/-- The runner of a runner's token. -/
def runnerId : AuthIdentity → Option String
  | runner _ runnerId _ => some runnerId
  | _ => none

end AuthIdentity

/-- An operator's and a user's record name no runner. -/
theorem TokenRecord.runnerId_of_person {r : TokenRecord} {identity : AuthIdentity}
    (h : r.identity = .ok identity) (hrole : r.role ≠ "runner") : r.runnerId = none := by
  unfold TokenRecord.identity at h
  obtain ⟨_, -, h⟩ := except_bind_ok.mp h
  obtain ⟨_, -, h⟩ := except_bind_ok.mp h
  obtain ⟨_, -, h⟩ := except_bind_ok.mp h
  rw [if_neg hrole] at h
  obtain ⟨_, hnone, -⟩ := except_bind_ok.mp h
  exact Option.isNone_iff_eq_none.mp (TokenStore.ensure_ok.mp hnone)

/-- **A runner's token names the runner of its record**, and an operator's or a
user's names none. -/
theorem TokenRecord.identity_runner {r : TokenRecord} {identity : AuthIdentity}
    (h : r.identity = .ok identity) : identity.runnerId = r.runnerId := by
  have hperson := TokenRecord.runnerId_of_person h
  unfold TokenRecord.identity at h
  obtain ⟨_, -, h⟩ := except_bind_ok.mp h
  obtain ⟨_, -, h⟩ := except_bind_ok.mp h
  obtain ⟨_, -, h⟩ := except_bind_ok.mp h
  split at h
  · dsimp only at h
    split at h
    · next hrunner =>
      obtain ⟨_, -, h⟩ := except_bind_ok.mp h
      obtain rfl := except_pure_ok.mp h
      -- the text is not the default one
      have hid : some (r.runnerId.getD "") = r.runnerId := by
        cases hid : r.runnerId with
        | none =>
          rw [hid] at hrunner
          exact absurd rfl hrunner
        | some runnerId => rfl
      exact hid
    · cases h
  · next hrole =>
    rw [hperson hrole]
    obtain ⟨_, -, h⟩ := except_bind_ok.mp h
    split at h
    · dsimp only at h
      split at h
      · obtain rfl := Except.ok.inj h
        rfl
      · cases h
    · obtain ⟨_, -, h⟩ := except_bind_ok.mp h
      obtain rfl := except_pure_ok.mp h
      rfl

end Conductress
