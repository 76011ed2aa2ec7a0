import Conductress.Lib.Except
import Conductress.Control.Directory

/-!
# The user file

`UserDirectory.from_dict` on a parsed file. A human's entry carries its account
and its quota; an agent's names its sponsor and inherits both. So where each
GitHub account has one human, the logins of an account have one quota
(`quota_shared`).
-/

namespace Conductress

open Lib

namespace UserFile

/-! ## Entries -/

def commonFields : List String := ["login", "kind"]
def humanFields : List String :=
  commonFields ++ ["github", "role", "quota_runner_minutes_per_day", "sources"]
def agentFields : List String := commonFields ++ ["sponsor"]

/-- `sorted(set(record) - known)`. -/
def unknownFields (record : Fields) (known : List String) : List String :=
  ((record.map Prod.fst).dedup.filter fun key => decide (key ∉ known)).insertionSort (· ≤ ·)

/-- Membership in a set of strings, which a list or a table has no hash for. -/
def hashable : Json → Except PyError Unit
  | .arr _ => .error (.typeError "unhashable type: 'list'")
  | .obj _ => .error (.typeError "unhashable type: 'dict'")
  | _ => .ok ()

/-- A `ValueError` about a user's entry. -/
def userError {α : Type} (login message : String) : Except PyError α :=
  .error (.valueError ("user " ++ login ++ ": " ++ message))

/-- Raise it unless a check passes. -/
def ensure (passes : Bool) (login message : String) : Except PyError Unit :=
  if passes then .ok () else userError login message

/-- `_parse_login_and_kind`: the fields of the entry, its login, and whether it
is an agent's. -/
def parseLoginAndKind (record : Json) : Except PyError (Fields × String × Bool) :=
  match record with
  | .obj fields =>
    match Json.getD fields "login" with
    | .str login =>
      if login = "" then .error (.valueError "user login must be a non-empty string")
      else do
        hashable (Json.getD fields "kind")
        match Json.getD fields "kind" with
        | .str "human" => return (fields, login, false)
        | .str "agent" => return (fields, login, true)
        | _ => userError login "kind must be one of ['agent', 'human']"
    | _ => .error (.valueError "user login must be a non-empty string")
  | _ => .error (.valueError "each user entry must be a table")

def parseRole : Json → Option UserRole
  | .str "owner" => some .owner
  | .str "collaborator" => some .collaborator
  | .str "approver" => some .approver
  | _ => none

/-- The texts of an array of texts. -/
def parseSources : Json → Option (List String)
  | .arr items => items.mapM fun item => match item with
    | .str source => some source
    | _ => none
  | _ => none

/-- `_parse_human`: the entry's user, under its login. -/
def parseHuman (record : Fields) (login : String) :
    Except PyError { user : User // user.login = login } := do
  let unknown := unknownFields record humanFields
  ensure (decide ("sponsor" ∉ unknown)) login "a human must not name a sponsor"
  ensure unknown.isEmpty login ("unknown user fields: " ++ ", ".intercalate unknown)
  match Json.getD record "github" with
  | .str github =>
    ensure (decide (github ≠ "")) login "github must be a non-empty string"
    hashable (Json.getD record "role")
    match parseRole (Json.getD record "role"), Json.getD record "quota_runner_minutes_per_day" with
    | none, _ => userError login "role must be one of ['approver', 'collaborator', 'owner']"
    | some role, .int quota =>
      ensure (decide (0 ≤ quota)) login
        "quota_runner_minutes_per_day must be a non-negative integer"
      match parseSources ((Json.lookup record "sources").getD (.arr [])) with
      | some sources =>
        return ⟨{
          login := login, github := github, isAgent := false, role := role
          quotaRunnerMinutesPerDay := quota.toNat, sources := sources, sponsor := none }, rfl⟩
      | none => userError login "sources must be a list of strings"
    | some _, _ => userError login "quota_runner_minutes_per_day must be a non-negative integer"
  | _ => userError login "github must be a non-empty string"

/-- `_parse_agent`: the sponsor's login. -/
def parseAgent (record : Fields) (login : String) : Except PyError String := do
  let unknown := unknownFields record agentFields
  let inherited := unknown.filter fun key => decide (key ∈ humanFields)
  ensure inherited.isEmpty login ("an agent inherits " ++ ", ".intercalate inherited ++
    " from its sponsor and must not set them")
  ensure unknown.isEmpty login ("unknown user fields: " ++ ", ".intercalate unknown)
  let sponsor := Json.getD record "sponsor"
  ensure sponsor.truthy login "an agent must name a sponsor"
  match sponsor with
  | .str sponsor => return sponsor
  | _ => userError login "sponsor must be a string"

/-! ## The file -/

/-- The entries read so far, humans and agents with their sponsors, no two
under one login. -/
structure Entries where
  humans : List User
  agents : List (String × String)
  nodup  : (humans.map User.login ++ agents.map Prod.fst).Nodup

namespace Entries

def empty : Entries := ⟨[], [], List.nodup_nil⟩

def logins (e : Entries) : List String := e.humans.map User.login ++ e.agents.map Prod.fst

def addHuman (e : Entries) (user : User) (h : user.login ∉ e.logins) : Entries where
  humans := e.humans ++ [user]
  agents := e.agents
  nodup := by
    have hperm : ((e.humans ++ [user]).map User.login ++ e.agents.map Prod.fst).Perm
        (user.login :: e.logins) := by
      rw [List.map_append, List.append_assoc]
      exact List.perm_middle
    exact hperm.nodup_iff.mpr (List.nodup_cons.mpr ⟨h, e.nodup⟩)

def addAgent (e : Entries) (login sponsor : String) (h : login ∉ e.logins) : Entries where
  humans := e.humans
  agents := e.agents ++ [(login, sponsor)]
  nodup := by
    rw [List.map_append, ← List.append_assoc]
    exact List.Nodup.append e.nodup (List.nodup_singleton login) (List.disjoint_singleton.mpr h)

end Entries

/-- One pass of the loop over `users`. -/
def addRecord (e : Entries) (record : Json) : Except PyError Entries := do
  let (fields, login, isAgent) ← parseLoginAndKind record
  if h : login ∈ e.logins then .error (.valueError ("duplicate user login: " ++ login))
  else if isAgent then
    let sponsor ← parseAgent fields login
    return e.addAgent login sponsor h
  else
    let user ← parseHuman fields login
    return e.addHuman user.val (by rw [user.property]; exact h)

/-- The user an agent's entry stands for. -/
def agentUser (login : String) (sponsor : User) : User where
  login   := login
  github  := sponsor.github
  isAgent := true
  role    := sponsor.role
  quotaRunnerMinutesPerDay := sponsor.quotaRunnerMinutesPerDay
  sources := sponsor.sources
  sponsor := some sponsor.login

/-- One pass of the loop over the agents. -/
def resolveAgent (e : Entries) (agent : String × String) :
    Except PyError { user : User // user.login = agent.1 } :=
  match e.humans.find? fun human => decide (human.login = agent.2) with
  | some sponsor => .ok ⟨agentUser agent.1 sponsor, rfl⟩
  | none =>
    if agent.2 ∈ e.agents.map Prod.fst then
      userError agent.1 ("sponsor " ++ agent.2 ++ " must be a human account")
    else userError agent.1 ("sponsor " ++ agent.2 ++ " is not a known user")

/-- The users of the agents, one for each. -/
def resolveAgents (e : Entries) : (agents : List (String × String)) →
    Except PyError { users : List User // users.map User.login = agents.map Prod.fst }
  | [] => .ok ⟨[], rfl⟩
  | agent :: agents => do
    let user ← resolveAgent e agent
    let users ← resolveAgents e agents
    return ⟨user.val :: users.val, by rw [List.map_cons, List.map_cons, user.property, users.property]⟩

/-- `UserDirectory.from_dict`. -/
def fromDict (data : Fields) : Except PyError UserDirectory :=
  match Json.getD data "users" with
  | .arr records => do
    let e ← records.foldlM addRecord .empty
    let agents ← resolveAgents e e.agents
    return ⟨⟨e.humans ++ agents.val, by rw [List.map_append, agents.property]; exact e.nodup⟩⟩
  | _ => .error (.valueError "users file must contain a [[users]] array")

/-! ## Accounts and quotas -/

/-- Each GitHub account has one human. -/
def OneHumanEach (d : UserDirectory) : Prop :=
  ∀ u ∈ d.users, ∀ v ∈ d.users, u.isAgent = false → v.isAgent = false → u.github = v.github → u = v

theorem parseHuman_isAgent {record : Fields} {login : String}
    {user : { user : User // user.login = login }} (h : parseHuman record login = .ok user) :
    user.val.isAgent = false := by
  unfold parseHuman at h
  obtain ⟨_, -, h⟩ := except_bind_ok.mp h
  obtain ⟨_, -, h⟩ := except_bind_ok.mp h
  split at h
  · obtain ⟨_, -, h⟩ := except_bind_ok.mp h
    obtain ⟨_, -, h⟩ := except_bind_ok.mp h
    split at h
    · cases h
    · obtain ⟨_, -, h⟩ := except_bind_ok.mp h
      split at h
      · cases h
        rfl
      · cases h
    · cases h
  · cases h

/-- Every human entry is a human's. -/
theorem addRecord_humans {e e' : Entries} {record : Json} (h : addRecord e record = .ok e')
    (he : ∀ u ∈ e.humans, u.isAgent = false) : ∀ u ∈ e'.humans, u.isAgent = false := by
  unfold addRecord at h
  obtain ⟨⟨fields, login, isAgent⟩, -, h⟩ := except_bind_ok.mp h
  dsimp only at h
  split at h
  · cases h
  · split at h
    · obtain ⟨_, -, h⟩ := except_bind_ok.mp h
      cases h
      exact he
    · obtain ⟨user, huser, h⟩ := except_bind_ok.mp h
      cases h
      intro u hu
      rcases List.mem_append.mp hu with hu | hu
      · exact he u hu
      · rw [List.mem_singleton.mp hu]
        exact parseHuman_isAgent huser

theorem foldlM_humans {records : List Json} {e e' : Entries}
    (h : records.foldlM addRecord e = .ok e') (he : ∀ u ∈ e.humans, u.isAgent = false) :
    ∀ u ∈ e'.humans, u.isAgent = false := by
  induction records generalizing e with
  | nil =>
    cases h
    exact he
  | cons record records ih =>
    rw [List.foldlM_cons] at h
    obtain ⟨e₁, hstep, h⟩ := except_bind_ok.mp h
    exact ih h (addRecord_humans hstep he)

/-- An agent's user has its sponsor's account and quota. -/
theorem mem_resolveAgents {e : Entries} {agents : List (String × String)}
    {users : { users : List User // users.map User.login = agents.map Prod.fst }}
    (h : resolveAgents e agents = .ok users) : ∀ u ∈ users.val, ∃ sponsor ∈ e.humans,
      u.github = sponsor.github ∧ u.quotaRunnerMinutesPerDay = sponsor.quotaRunnerMinutesPerDay := by
  induction agents with
  | nil =>
    cases h
    exact fun u hu => absurd hu List.not_mem_nil
  | cons agent agents ih =>
    unfold resolveAgents at h
    obtain ⟨user, huser, h⟩ := except_bind_ok.mp h
    obtain ⟨rest, hrest, h⟩ := except_bind_ok.mp h
    cases h
    intro u hu
    rcases List.mem_cons.mp hu with rfl | hu
    · unfold resolveAgent at huser
      split at huser
      · next sponsor hsponsor =>
        cases huser
        exact ⟨sponsor, List.mem_of_find?_eq_some hsponsor, rfl, rfl⟩
      · split at huser <;> cases huser
    · exact ih hrest u hu

/-- **One account, one quota.** -/
theorem quota_shared {data : Fields} {d : UserDirectory} (h : fromDict data = .ok d)
    (hone : OneHumanEach d) {u v : User} (hu : u ∈ d.users) (hv : v ∈ d.users)
    (haccount : u.github = v.github) : u.quotaRunnerMinutesPerDay = v.quotaRunnerMinutesPerDay := by
  unfold fromDict at h
  split at h
  · obtain ⟨e, hentries, h⟩ := except_bind_ok.mp h
    obtain ⟨agents, hagents, h⟩ := except_bind_ok.mp h
    cases h
    have hhuman := foldlM_humans hentries fun u hu => absurd hu List.not_mem_nil
    -- a human stands for every user of the file
    have hfor : ∀ u ∈ e.humans ++ agents.val, ∃ sponsor ∈ e.humans, u.github = sponsor.github ∧
        u.quotaRunnerMinutesPerDay = sponsor.quotaRunnerMinutesPerDay := by
      intro u hu
      rcases List.mem_append.mp hu with hu | hu
      · exact ⟨u, hu, rfl, rfl⟩
      · exact mem_resolveAgents hagents u hu
    obtain ⟨s, hs, hgithub, hquota⟩ := hfor u hu
    obtain ⟨t, ht, hgithub', hquota'⟩ := hfor v hv
    have hsame : s = t := hone s (List.mem_append_left _ hs) t (List.mem_append_left _ ht)
      (hhuman s hs) (hhuman t ht) (by rw [← hgithub, ← hgithub', haccount])
    rw [hquota, hquota', hsame]
  · cases h

end UserFile

end Conductress
