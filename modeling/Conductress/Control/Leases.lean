import Conductress.Control.InFlight
import Conductress.Control.History

/-!
# Claim tokens and leases

A claim draws a new token and a lease; a sweep of lapsed leases, a cancel, an
accept and the next claim each rewrite some of the columns the accept reads.
`claimsIssued` is the list of claims a run has issued, and `TokensOf` ties the
columns of every row to it: a stored token is that of the task's most recent
claim, and a claimed row's lease is that claim's.

* `accepted_by_last_claim` — an accept that moves a task presents the token of
  the task's most recent claim before the end of its lease;
* `superseded_token_refused` — with fresh tokens an earlier claim's token is
  refused in every state;
* `repeated_claim` — a claim repeated while the sweep does not find its lease
  lapsed returns the same row, and requeues lapsed claims of other runners only;
* `leases_hold` — all of it, over every run.
-/

namespace Conductress

open Lib

/-! ## The claims a run issues -/

/-- A claim handed out by `claim_task` under a new token. -/
structure IssuedClaim where
  taskId    : String
  token     : ClaimToken
  leaseEnds : Instant
  deriving DecidableEq

/-- The claim an operation issues, if any: a repeated claim issues none. -/
def issuedClaim (svc : ControlService) (m : Moment) (db : Database) : Operation → Option IssuedClaim
  | .claim runnerId actor =>
    match ControlService.existingClaim (ControlService.expireStaleClaims m.now "system" db) runnerId,
      svc.claimTask m runnerId actor db with
    | none, .ok (_, some row) => some ⟨row.taskId, m.token, svc.leaseUntil m.now⟩
    | _, _ => none
  | _ => none

/-- The claims issued by a list of events, oldest first. -/
def claimsIssued (svc : ControlService) : Database → List ServiceEvent → List IssuedClaim
  | _, [] => []
  | db, e :: es =>
    (issuedClaim svc e.moment db e.operation).toList ++
      claimsIssued svc (perform svc e.moment e.operation db) es

/-- The most recent claim of a task. -/
def lastClaim (claims : List IssuedClaim) (taskId : String) : Option IssuedClaim :=
  (claims.filter fun c => decide (c.taskId = taskId)).getLast?

theorem serve_snoc (svc : ControlService) (db : Database) (es : List ServiceEvent) (e : ServiceEvent) :
    serve svc db (es ++ [e]) = perform svc e.moment e.operation (serve svc db es) := by
  rw [serve, List.foldl_append]
  rfl

theorem claimsIssued_snoc (svc : ControlService) (db : Database) (es : List ServiceEvent)
    (e : ServiceEvent) :
    claimsIssued svc db (es ++ [e]) = claimsIssued svc db es ++
      (issuedClaim svc e.moment (serve svc db es) e.operation).toList := by
  induction es generalizing db with
  | nil => simp [claimsIssued, serve]
  | cons first rest ih =>
    have hrest := ih (perform svc first.moment first.operation db)
    rw [List.cons_append, claimsIssued, hrest, claimsIssued, List.append_assoc]
    rfl

theorem lastClaim_snoc_self (claims : List IssuedClaim) (c : IssuedClaim) :
    lastClaim (claims ++ [c]) c.taskId = some c := by
  simp [lastClaim, List.filter_append]

theorem lastClaim_snoc_of_ne (claims : List IssuedClaim) {c : IssuedClaim} {taskId : String}
    (h : c.taskId ≠ taskId) : lastClaim (claims ++ [c]) taskId = lastClaim claims taskId := by
  simp [lastClaim, List.filter_append, h]

theorem lastClaim_mem {claims : List IssuedClaim} {taskId : String} {c : IssuedClaim}
    (h : lastClaim claims taskId = some c) : c ∈ claims ∧ c.taskId = taskId := by
  have hmem := List.mem_filter.mp (List.mem_of_getLast? h)
  exact ⟨hmem.1, by simpa using hmem.2⟩

/-! ## Tokens and leases of the rows -/

/-- A stored token is that of the task's most recent claim, and a claimed
row's lease is that claim's. -/
def TokensOf (claims : List IssuedClaim) (db : Database) : Prop :=
  ∀ row ∈ db.tasks, ∀ token, row.claimToken = some token →
    ∃ c, lastClaim claims row.taskId = some c ∧ c.token = token ∧
      (row.state = .claimed → row.leaseExpires = some c.leaseEnds)

/-- Only a claim writes a token, and only a claim leaves a row claimed. -/
theorem StateWrite.set_of_not_claim {w : StateWrite} (hw : ∀ token lease, w ≠ .claim token lease)
    (now : Instant) (row : TaskRow) :
    (∀ token, (w.set now row).claimToken = some token → row.claimToken = some token) ∧
      (w.set now row).state ≠ .claimed := by
  cases w with
  | claim token lease => exact absurd rfl (hw token lease)
  | expireClaim =>
    refine ⟨fun token htoken => ?_, by simp [StateWrite.newState]⟩
    cases htoken
  | report outcome =>
    refine ⟨fun token htoken => htoken, ?_⟩
    rw [StateWrite.set_state]
    cases hstate : outcome.state <;> simp [StateWrite.newState, Terminal.taskState, hstate]
  | _ => exact ⟨fun token htoken => htoken, by simp [StateWrite.newState]⟩

/-- A change that is no claim keeps the rows tied to the claims. -/
theorem Change.Step.tokensOf {db db' : Database} {c : Change} {claims : List IssuedClaim}
    (h : Change.Step db c db')
    (hc : ∀ token lease now actor detail row, c ≠ .wrote (.claim token lease) now actor detail row)
    (htokens : TokensOf claims db) : TokensOf claims db' := by
  intro row' hrow' token htoken
  rcases h.mem_after hrow' with ⟨hrow, -⟩ | ⟨_, _, _, _, -, -, hfresh⟩ |
    ⟨w, now, actor, detail, row, rfl, hrow, -, rfl⟩
  · exact htokens row' hrow token htoken
  · rw [hfresh.claimToken] at htoken
    cases htoken
  · have hw : ∀ t lease, w ≠ .claim t lease := by
      rintro t lease rfl
      exact hc t lease now actor detail row rfl
    obtain ⟨hkeep, hstate⟩ := StateWrite.set_of_not_claim hw now row
    obtain ⟨c, hlast, hsame, -⟩ := htokens row hrow token (hkeep token htoken)
    exact ⟨c, by rw [StateWrite.set_taskId]; exact hlast, hsame, fun hclaimed => absurd hclaimed hstate⟩

/-- Only a claim permits a claim. -/
theorem Operation.Permits.of_claim {svc : ControlService} {m : Moment} {op : Operation}
    {token : ClaimToken} {lease now : Instant} {actor : String} {detail : Option Fields} {row : TaskRow}
    (h : op.Permits svc m (.wrote (.claim token lease) now actor detail row)) :
    ∃ claimant, op = .claim row.runnerId claimant := by
  cases op with
  | claim runnerId claimant =>
    rcases h with ⟨_, heq⟩ | ⟨row', hrunner, heq⟩
    · cases heq
    · cases heq
      exact ⟨_, by rw [hrunner]⟩
  | cancel =>
    obtain ⟨w, row', -, -, hw, heq⟩ := h
    cases heq
    exact absurd hw ControlService.cancelWrite_ne_claim
  | _ => simp [Operation.Permits] at h

/-- The claimed rows of a runner decide whether a claim is a repeated one. -/
theorem ControlService.existingClaim_eq_none {db : Database} {runnerId : String} :
    existingClaim db runnerId = none ↔
      ∀ row ∈ db.tasks, row.runnerId = runnerId → row.state ≠ .claimed := by
  rw [existingClaim, List.argmin_eq_none, List.eq_nil_iff_forall_not_mem]
  simp only [mem_rowsOf, not_and]

/-- The write of a new claim ties its row to it. -/
theorem claim_write_tokensOf {db : Database} {claims : List IssuedClaim} {row : TaskRow}
    {token : ClaimToken} {lease now : Instant} {actor : String} (hrow : row ∈ db.tasks)
    (htokens : TokensOf claims db) :
    TokensOf (claims ++ [⟨row.taskId, token, lease⟩])
      (db.write (.claim token lease) now actor none row) := by
  intro row' hrow' t ht
  have hfind := Database.task?_of_mem hrow'
  rw [Database.task?_write hrow] at hfind
  by_cases hid : row'.taskId = row.taskId
  · rw [if_pos hid] at hfind
    obtain rfl := Option.some.inj hfind
    refine ⟨⟨row.taskId, token, lease⟩, ?_, Option.some.inj ht, fun _ => rfl⟩
    rw [hid]
    exact lastClaim_snoc_self claims ⟨row.taskId, token, lease⟩
  · rw [if_neg hid] at hfind
    obtain ⟨hmem, -⟩ := Database.task?_eq_some_iff.mp hfind
    rw [lastClaim_snoc_of_ne claims (fun heq => hid heq.symm)]
    exact htokens row' hmem t ht

/-- **One operation keeps the rows tied to the claims issued**, its own
included. -/
theorem perform_tokensOf (svc : ControlService) (m : Moment) (op : Operation) {db : Database}
    {claims : List IssuedClaim} (htokens : TokensOf claims db) :
    TokensOf (claims ++ (issuedClaim svc m db op).toList) (perform svc m op db) := by
  by_cases hop : ∃ runnerId actor, op = .claim runnerId actor
  · obtain ⟨runnerId, actor, rfl⟩ := hop
    have hswept : TokensOf claims (ControlService.expireStaleClaims m.now "system" db) := by
      obtain ⟨cs, hrun, hcs⟩ := ControlService.expire_changes db m.now "system"
      refine Run.invariant_of_mem _ hrun htokens fun a c b hc hstep ih => hstep.tokensOf ?_ ih
      obtain ⟨row, rfl⟩ := hcs c hc
      simp
    simp only [perform, issuedClaim]
    cases h : svc.claimTask m runnerId actor db with
    | error _ =>
      cases ControlService.existingClaim (ControlService.expireStaleClaims m.now "system" db)
        runnerId <;> simpa [committed] using htokens
    | ok answer =>
      obtain ⟨db', result⟩ := answer
      obtain ⟨-, ⟨row, hrow, hrunner, hstate, rfl, rfl⟩ | ⟨-, -, rfl, rfl⟩ |
        ⟨hfree, row, hrow, hrunner, hstate, rfl, rfl⟩⟩ := ControlService.claimTask_ok h
      · -- a repeated claim issues nothing
        have hexisting : ControlService.existingClaim
            (ControlService.expireStaleClaims m.now "system" db) runnerId ≠ none := by
          intro hnone
          exact ControlService.existingClaim_eq_none.mp hnone row hrow hrunner hstate
        obtain ⟨existing, hexisting⟩ := Option.ne_none_iff_exists'.mp hexisting
        rw [hexisting]
        simpa [committed] using hswept
      · cases ControlService.existingClaim (ControlService.expireStaleClaims m.now "system" db)
          runnerId <;> simpa [committed] using hswept
      · have hnone := ControlService.existingClaim_eq_none.mpr
          fun other hother hsame => (hfree other hother hsame).1
        rw [hnone]
        simp only [committed, Option.toList_some, StateWrite.set_taskId]
        exact claim_write_tokensOf hrow hswept
  · have hnone : issuedClaim svc m db op = none := by
      cases op with
      | claim runnerId actor => exact absurd ⟨runnerId, actor, rfl⟩ hop
      | _ => rfl
    rw [hnone, Option.toList_none, List.append_nil]
    obtain ⟨cs, hrun, hcs⟩ := perform_changes svc m op db
    refine Run.invariant_of_mem _ hrun htokens fun a c b hc hstep ih => hstep.tokensOf ?_ ih
    rintro token lease now actor detail row rfl
    obtain ⟨claimant, rfl⟩ := (hcs _ hc).of_claim
    exact hop ⟨row.runnerId, claimant, rfl⟩

/-- In every state reached the rows are tied to the claims issued. -/
theorem served_tokensOf (svc : ControlService) (es : List ServiceEvent) :
    TokensOf (claimsIssued svc .empty es) (serve svc .empty es) := by
  induction es using List.reverseRecOn with
  | nil => exact fun row hrow => absurd hrow (Table.not_mem_empty row)
  | append_singleton es e ih =>
    rw [serve_snoc, claimsIssued_snoc]
    exact perform_tokensOf svc e.moment e.operation ih

/-! ## Accepts -/

/-- `accept_task` moves the task to accepted under this token. -/
def AcceptsWith (db : Database) (e : ServiceEvent) (taskId : String) (token : ClaimToken) : Prop :=
  ∃ runnerId actor db' row, e.operation = .accept runnerId taskId token actor ∧
    ControlService.acceptTask e.moment.now runnerId taskId token actor db = .ok (db', row, true)

/-- **An accept that moves a task presents the token of its most recent claim**
before the end of that claim's lease. -/
theorem accepted_by_last_claim {claims : List IssuedClaim} {db : Database} {e : ServiceEvent}
    {taskId : String} {token : ClaimToken} (htokens : TokensOf claims db)
    (h : AcceptsWith db e taskId token) :
    ∃ c, lastClaim claims taskId = some c ∧ c.token = token ∧ e.moment.now < c.leaseEnds := by
  obtain ⟨runnerId, actor, db', result, -, h⟩ := h
  obtain ⟨row, hrow, rfl, -, htoken, ⟨hchanged, -⟩ | ⟨-, hallowed, -, -⟩⟩ :=
    ControlService.acceptTask_ok h
  · cases hchanged
  · obtain ⟨hclaimed, lease, hlease, hlt⟩ := hallowed
    obtain ⟨c, hlast, hsame, hends⟩ := htokens row hrow token htoken
    have hlease' : lease = c.leaseEnds := Option.some.inj (hlease.symm.trans (hends hclaimed))
    exact ⟨c, hlast, hsame, hlease' ▸ hlt⟩

/-- **A superseded token is refused**: an accept under the token of a claim
that is not the task's most recent one raises, whatever the row's state. -/
theorem superseded_token_refused {claims : List IssuedClaim} {db : Database}
    (htokens : TokensOf claims db) (hfresh : (claims.map IssuedClaim.token).Nodup) {c : IssuedClaim}
    (hc : c ∈ claims) (hlast : lastClaim claims c.taskId ≠ some c) (now : Instant)
    (runnerId actor : String) :
    ∃ e, ControlService.acceptTask now runnerId c.taskId c.token actor db = .error e := by
  cases h : ControlService.acceptTask now runnerId c.taskId c.token actor db with
  | error e => exact ⟨e, rfl⟩
  | ok answer =>
    exfalso
    obtain ⟨db', result, changed⟩ := answer
    obtain ⟨row, hrow, hid, -, htoken, -⟩ := ControlService.acceptTask_ok h
    obtain ⟨last, hlast', hsame, -⟩ := htokens row hrow c.token htoken
    rw [hid] at hlast'
    -- two claims of one run under one token are the same claim
    have heq : last = c := List.inj_on_of_nodup_map hfresh (lastClaim_mem hlast').1 hc hsame
    exact hlast (heq ▸ hlast')

/-- After an accept moved a task, no later accept does. -/
theorem accepted_once {svc : ControlService} {db : Database} {e e' : ServiceEvent} {taskId : String}
    {token token' : ClaimToken} {es : List ServiceEvent} (h : AcceptsWith db e taskId token) :
    ¬ AcceptsWith (serve svc (perform svc e.moment e.operation db) es) e' taskId token' := by
  rintro ⟨_, _, _, _, -, h'⟩
  obtain ⟨runnerId, actor, db', result, hop, h⟩ := h
  obtain ⟨row, hrow, rfl, -, -, ⟨hchanged, -⟩ | ⟨-, -, rfl, -⟩⟩ := ControlService.acceptTask_ok h
  · cases hchanged
  have hafter : perform svc e.moment e.operation db =
      db.write .accept e.moment.now actor none row := by
    rw [hop]
    simp only [perform, h, committed]
  have hmem : StateWrite.accept.set e.moment.now row ∈ (perform svc e.moment e.operation db).tasks := by
    have hfind := Database.task?_write hrow .accept e.moment.now actor none row.taskId
    rw [if_pos rfl] at hfind
    rw [hafter]
    exact (Database.task?_eq_some_iff.mp hfind).1
  obtain ⟨later, hlater⟩ := later_history svc (serve_run svc _ es) hmem
  obtain ⟨row', hrow', hid', -, -, ⟨hchanged, -⟩ | ⟨-, hallowed, -, -⟩⟩ :=
    ControlService.acceptTask_ok h'
  · cases hchanged
  have hsame : row' = later :=
    Table.eq_of_key_eq hrow' hlater.mem (hid'.trans hlater.taskId.symm)
  have hclaimed : later.state = .claimed := hsame ▸ hallowed.1
  rcases hlater.accepted rfl with hs | hs | hs | hs <;> rw [hclaimed] at hs <;> cases hs

/-! ## Repeated claims -/

/-- Claimed or accepted: what a runner holds. -/
def held (row : TaskRow) : Bool := decide (row.state = .claimed ∨ row.state = .accepted)

/-- No runner holds two tasks. -/
def OneHeld (db : Database) : Prop :=
  ∀ a ∈ db.tasks, ∀ b ∈ db.tasks, a.runnerId = b.runnerId → held a = true → held b = true → a = b

/-- A write leaves a row held only if it was held before or is a claim. -/
theorem held_of_set {db : Database} {w : StateWrite} {now : Instant} {row : TaskRow}
    (hallowed : w.Allowed db now row) (h : held (w.set now row) = true) :
    held row = true ∨ RunnerFree db row.runnerId := by
  rw [held, StateWrite.set_state] at h
  cases w with
  | claim => exact .inr hallowed.2
  | accept => exact .inl (by simp [held, hallowed.1])
  | report outcome =>
    cases hstate : outcome.state <;>
      simp [StateWrite.newState, Terminal.taskState, hstate] at h
  | _ => simp [StateWrite.newState] at h

/-- No change lets a runner hold two tasks: a claim finds it holding none. -/
theorem Change.Step.oneHeld {db db' : Database} {c : Change} (h : Change.Step db c db')
    (hOne : OneHeld db) : OneHeld db' := by
  -- a held row was held before, or it is the one a claim just wrote
  have hbefore : ∀ a ∈ db'.tasks, held a = true →
      (∃ a₀ ∈ db.tasks, a₀.taskId = a.taskId ∧ a₀.runnerId = a.runnerId ∧ held a₀ = true) ∨
        (c.rowId = some a.taskId ∧ RunnerFree db a.runnerId) := by
    intro a ha hheld
    rcases h.mem_after ha with ⟨hmem, -⟩ | ⟨_, _, _, _, -, -, hfresh⟩ |
      ⟨w, now, actor, detail, row, rfl, hrow, hallowed, rfl⟩
    · exact .inl ⟨a, hmem, rfl, rfl, hheld⟩
    · rcases hfresh.state with hs | hs <;> simp [held, hs] at hheld
    · rcases held_of_set hallowed hheld with hrow' | hfree
      · exact .inl ⟨row, hrow, by simp, by simp, hrow'⟩
      · exact .inr ⟨by simp [Change.rowId], by simpa using hfree⟩
  have hclash : ∀ a b : TaskRow, a.runnerId = b.runnerId → RunnerFree db b.runnerId →
      ∀ a₀ ∈ db.tasks, a₀.runnerId = a.runnerId → held a₀ = true → False := by
    intro a b hab hfree a₀ ha₀ hrunner hheld
    obtain ⟨hclaimed, haccepted⟩ := hfree a₀ ha₀ (hrunner.trans hab)
    simp [held, hclaimed, haccepted] at hheld
  intro a ha b hb hrunner hheldA hheldB
  rcases hbefore a ha hheldA with ⟨a₀, ha₀, hidA, hrA, hA⟩ | ⟨hidA, hfreeA⟩ <;>
    rcases hbefore b hb hheldB with ⟨b₀, hb₀, hidB, hrB, hB⟩ | ⟨hidB, hfreeB⟩
  · have hsame : a₀ = b₀ := hOne a₀ ha₀ b₀ hb₀ (hrA.trans (hrunner.trans hrB.symm)) hA hB
    exact Table.eq_of_key_eq ha hb (by rw [← hidA, ← hidB, hsame])
  · exact (hclash a b hrunner hfreeB a₀ ha₀ hrA hA).elim
  · exact (hclash b a hrunner.symm hfreeA b₀ hb₀ hrB hB).elim
  · exact Table.eq_of_key_eq ha hb (Option.some.inj (hidA.symm.trans hidB))

theorem served_oneHeld (svc : ControlService) (es : List ServiceEvent) :
    OneHeld (serve svc .empty es) := by
  refine (serve_run svc .empty es).invariant _
    (fun row hrow => absurd hrow (Table.not_mem_empty row)) ?_
  rintro a e _ rfl ih
  obtain ⟨cs, hrun, -⟩ := perform_changes svc e.moment e.operation a
  exact hrun.invariant _ ih fun _ _ _ hstep ih => hstep.oneHeld ih

/-- The runner of every claimed row is an enabled runner of the fleet. -/
def ClaimantsEnabled (svc : ControlService) (db : Database) : Prop :=
  ∀ row ∈ db.tasks, row.state = .claimed → ∃ entry, svc.registry.getRunner row.runnerId = .ok entry

theorem perform_claimantsEnabled {svc : ControlService} {m : Moment} {op : Operation} {db : Database}
    (henabled : ClaimantsEnabled svc db) : ClaimantsEnabled svc (perform svc m op db) := by
  -- the claim that went through looked its runner up
  have hclaimant : ∀ runnerId actor, op = .claim runnerId actor →
      (∃ entry, svc.registry.getRunner runnerId = .ok entry) ∨ perform svc m op db = db := by
    rintro runnerId actor rfl
    cases h : svc.claimTask m runnerId actor db with
    | error _ => exact .inr (by simp only [perform, h, committed])
    | ok answer =>
      obtain ⟨entry, hentry, -⟩ := except_bind_ok.mp h
      exact .inl ⟨entry, hentry⟩
  by_cases hsame : perform svc m op db = db
  · rw [hsame]
    exact henabled
  obtain ⟨cs, hrun, hcs⟩ := perform_changes svc m op db
  refine hrun.invariant_of_mem _ henabled fun a c b hc hstep ih row' hrow' hstate => ?_
  rcases hstep.mem_after hrow' with ⟨hrow, -⟩ | ⟨_, _, _, _, -, -, hfresh⟩ |
    ⟨w, now, actor, detail, row, rfl, hrow, hallowed, rfl⟩
  · exact ih row' hrow hstate
  · rcases hfresh.state with hs | hs <;> rw [hstate] at hs <;> cases hs
  · by_cases hw : ∃ token lease, w = .claim token lease
    · obtain ⟨token, lease, rfl⟩ := hw
      obtain ⟨claimant, hop⟩ := (hcs _ hc).of_claim
      rw [StateWrite.set_runnerId]
      exact (hclaimant _ _ hop).resolve_right hsame
    · have hnot : ∀ token lease, w ≠ .claim token lease := by
        rintro token lease rfl
        exact hw ⟨token, lease, rfl⟩
      exact absurd hstate (StateWrite.set_of_not_claim hnot now row).2

theorem served_claimantsEnabled (svc : ControlService) (es : List ServiceEvent) :
    ClaimantsEnabled svc (serve svc .empty es) := by
  refine (serve_run svc .empty es).invariant _
    (fun row hrow => absurd hrow (Table.not_mem_empty row)) ?_
  rintro a e _ rfl ih
  exact perform_claimantsEnabled ih

namespace ControlService

/-- The sweep requeues the rows whose lease it finds lapsed, and leaves the
others alone. -/
theorem task?_expireStaleClaims (db : Database) (now : Instant) (actor id : String) :
    (expireStaleClaims now actor db).task? id =
      (db.task? id).map fun r => if isStale now r then StateWrite.expireClaim.set now r else r := by
  have hmem : ∀ row ∈ db.tasks.rows.filter (isStale now), row ∈ db.tasks :=
    fun row hrow => (List.mem_filter.mp hrow).1
  rw [expireStaleClaims, Database.task?_foldl
    (fun db row hrow => Database.task?_write hrow .expireClaim now actor none)
    (StateWrite.set_taskId .expireClaim now) _ db (db.pairwise_filter _) hmem]
  cases hfind : db.task? id with
  | none => rfl
  | some r =>
    have hr : r ∈ db.tasks.rows := (Database.task?_eq_some_iff.mp hfind).1
    simp [List.mem_filter, hr]

end ControlService

/-- **A repeated claim.** A runner that claims again while the sweep does not
find its lease lapsed gets its claimed row back as it stands, token included;
the only rows that change are lapsed claims of other runners. -/
theorem repeated_claim {svc : ControlService} {db : Database} (hOne : OneHeld db)
    (henabled : ClaimantsEnabled svc db) {row : TaskRow} (hrow : row ∈ db.tasks)
    (hstate : row.state = .claimed) {m : Moment} (hactive : ControlService.isStale m.now row = false)
    (actor : String) :
    ∃ db', svc.claimTask m row.runnerId actor db = .ok (db', some row) ∧
      ∀ other ∈ db.tasks, other ∈ db'.tasks ∨
        (other.runnerId ≠ row.runnerId ∧ ControlService.isStale m.now other = true ∧
          StateWrite.expireClaim.set m.now other ∈ db'.tasks) := by
  let swept := ControlService.expireStaleClaims m.now "system" db
  have hlookup : ∀ other ∈ db.tasks, swept.task? other.taskId =
      some (if ControlService.isStale m.now other then StateWrite.expireClaim.set m.now other
        else other) := by
    intro other hother
    rw [ControlService.task?_expireStaleClaims, Database.task?_of_mem hother, Option.map_some]
  have hkept : ∀ other ∈ db.tasks, ControlService.isStale m.now other = false → other ∈ swept.tasks := by
    intro other hother hfresh
    have hfind := hlookup other hother
    rw [hfresh] at hfind
    exact (Database.task?_eq_some_iff.mp hfind).1
  have hheld : held row = true := by simp [held, hstate]
  -- nothing else of this runner is claimed or accepted, before the sweep or after it
  have hsole : ∀ other ∈ swept.tasks, other.runnerId = row.runnerId →
      held other = true → other = row := by
    intro other hother hrunner hheld'
    rcases ControlService.mem_expireStaleClaims hother with hmem | ⟨old, -, -, rfl⟩
    · exact hOne other hmem row hrow hrunner hheld' hheld
    · simp [held, StateWrite.newState] at hheld'
  have haccepted : ControlService.rowsOf swept row.runnerId .accepted = [] := by
    refine List.eq_nil_iff_forall_not_mem.mpr fun other hother => ?_
    obtain ⟨hmem, hrunner, haccepted⟩ := ControlService.mem_rowsOf.mp hother
    have hsame := hsole other hmem hrunner (by simp [held, haccepted])
    rw [hsame, hstate] at haccepted
    cases haccepted
  have hexisting : ControlService.existingClaim swept row.runnerId = some row := by
    cases hfind : ControlService.existingClaim swept row.runnerId with
    | none =>
      exact absurd hstate (ControlService.existingClaim_eq_none.mp hfind row
        (hkept row hrow hactive) rfl)
    | some found =>
      obtain ⟨hmem, hrunner, hclaimed⟩ := ControlService.mem_rowsOf.mp (List.argmin_mem hfind)
      rw [hsole found hmem hrunner (by simp [held, hclaimed])]
  obtain ⟨entry, hentry⟩ := henabled row hrow hstate
  refine ⟨swept, ?_, fun other hother => ?_⟩
  · simp only [swept] at haccepted hexisting
    simp only [ControlService.claimTask, hentry, haccepted, List.head?_nil, hexisting, bind,
      Except.bind, swept]
  · cases hstale : ControlService.isStale m.now other with
    | false => exact .inl (hkept other hother hstale)
    | true =>
      refine .inr ⟨fun hrunner => ?_, rfl, ?_⟩
      · have hclaimed := ControlService.isStale_claimed hstale
        have hsame := hOne other hother row hrow hrunner (by simp [held, hclaimed]) hheld
        rw [hsame, hactive] at hstale
        cases hstale
      · have hfind := hlookup other hother
        rw [hstale] at hfind
        exact (Database.task?_eq_some_iff.mp hfind).1

/-! ## Runs -/

/-- **Leases over whole runs.** In every run whose claims draw fresh tokens, an
accept moves a task at most once, under the token of its most recent claim and
before that claim's lease ends; every earlier claim's token is refused for
good; and a claim repeated while the sweep does not find its lease lapsed
returns the same row and requeues lapsed claims of other runners only. -/
theorem leases_hold (svc : ControlService) (es : List ServiceEvent)
    (hfresh : ((claimsIssued svc .empty es).map IssuedClaim.token).Nodup) :
    (∀ before e between e' after taskId token token',
      es = before ++ e :: (between ++ e' :: after) →
      AcceptsWith (serve svc .empty before) e taskId token →
      ¬ AcceptsWith (serve svc .empty (before ++ e :: between)) e' taskId token') ∧
    (∀ before e after taskId token, es = before ++ e :: after →
      AcceptsWith (serve svc .empty before) e taskId token →
      ∃ c, lastClaim (claimsIssued svc .empty before) taskId = some c ∧ c.token = token ∧
        e.moment.now < c.leaseEnds) ∧
    (∀ c ∈ claimsIssued svc .empty es, lastClaim (claimsIssued svc .empty es) c.taskId ≠ some c →
      ∀ now runnerId actor, ∃ e, ControlService.acceptTask now runnerId c.taskId c.token actor
        (serve svc .empty es) = .error e) ∧
    (∀ row ∈ (serve svc .empty es).tasks, row.state = .claimed →
      ∀ m actor, ControlService.isStale m.now row = false →
        ∃ db', svc.claimTask m row.runnerId actor (serve svc .empty es) = .ok (db', some row) ∧
          ∀ other ∈ (serve svc .empty es).tasks, other ∈ db'.tasks ∨
            (other.runnerId ≠ row.runnerId ∧ ControlService.isStale m.now other = true ∧
              StateWrite.expireClaim.set m.now other ∈ db'.tasks)) := by
  refine ⟨?_, ?_, ?_, ?_⟩
  · rintro before e between e' after taskId token token' rfl haccepts
    have hsplit : serve svc .empty (before ++ e :: between) =
        serve svc (perform svc e.moment e.operation (serve svc .empty before)) between := by
      simp only [serve, List.foldl_append, List.foldl_cons]
    rw [hsplit]
    exact accepted_once haccepts
  · rintro before e after taskId token rfl haccepts
    exact accepted_by_last_claim (served_tokensOf svc before) haccepts
  · intro c hc hlast now runnerId actor
    exact superseded_token_refused (served_tokensOf svc es) hfresh hc hlast now runnerId actor
  · intro row hrow hstate m actor hactive
    exact repeated_claim (served_oneHeld svc es) (served_claimantsEnabled svc es) hrow hstate hactive
      actor

namespace SmallDeployment

/-- A lapsed claim, the next claim of the same task, and a late accept under
the first claim's token. -/
def lateAccept : List ServiceEvent :=
  [submit 0 "t1", claim 1, claim 302, accept 303 "t1" 1]

/-- A claim half a second past the `n`-th second. -/
def claimHalf (n : ℕ) : ServiceEvent :=
  ⟨{ moment n with now := (moment n).now + 500000 }, .claim "runner-1" "runner:runner-1"⟩

/-- Two enabled runners. -/
def paired : ControlService :=
  { service with
    registry := ⟨⟨[⟨"runner-1", true, none⟩, ⟨"runner-2", true, none⟩], by decide⟩⟩ }

def submitTo (n : ℕ) (taskId runnerId : String) : ServiceEvent :=
  ⟨moment n, .submit { envelope taskId .manual with runnerId } "operator:ops" none none false⟩

def claimFor (n : ℕ) (runnerId : String) : ServiceEvent :=
  ⟨moment n, .claim runnerId ("runner:" ++ runnerId)⟩

end SmallDeployment

open SmallDeployment in
/-- The late accept is refused. -/
theorem leases_hold_late :
    ∃ e, ControlService.acceptTask (moment 304).now "runner-1" "t1" 1 "runner:runner-1"
      (serve service .empty lateAccept) = .error e :=
  (leases_hold service lateAccept (by decide +kernel)).2.2.1
    ⟨"t1", 1, service.leaseUntil (moment 1).now⟩ (by decide +kernel) (by decide +kernel) _ _ _

open SmallDeployment in
/-- Half a second before its end, at a whole second, the text of a lease sorts
before the text of the time: the repeated claim draws a new token. And a
repeated claim of one runner requeues the lapsed claim of another. -/
theorem repeated_claim_disturbs :
    (¬ ∀ (svc : ControlService) (es : List ServiceEvent) (m : Moment) (actor : String)
      (row : TaskRow) (lease : Instant), row ∈ (serve svc .empty es).tasks → row.state = .claimed →
        row.leaseExpires = some lease → m.now < lease →
          ∃ db' row', svc.claimTask m row.runnerId actor (serve svc .empty es) = .ok (db', some row') ∧
            row'.taskId = row.taskId ∧ row'.claimToken = row.claimToken) ∧
    ¬ ∀ (svc : ControlService) (es : List ServiceEvent) (m : Moment) (actor : String)
      (row : TaskRow), row ∈ (serve svc .empty es).tasks → row.state = .claimed →
        ControlService.isStale m.now row = false →
          ∃ db' row', svc.claimTask m row.runnerId actor (serve svc .empty es) = .ok (db', some row') ∧
            db'.tasks.rows = (serve svc .empty es).tasks.rows := by
  constructor
  · intro h
    let es := [submit 0 "t1", claimHalf 1]
    have hclaimed : ∃ row ∈ (serve service .empty es).tasks.rows, row.state = .claimed ∧
        row.runnerId = "runner-1" ∧ row.claimToken = some 1 ∧
        row.leaseExpires = some ((moment 301).now + 500000) := by decide +kernel
    obtain ⟨row, hrow, hstate, hrunner, htoken, hlease⟩ := hclaimed
    obtain ⟨db', row', hanswer, -, hsame⟩ :=
      h service es (moment 301) "runner:runner-1" row _ hrow hstate hlease (by decide)
    have hdrawn : ∀ answer ∈ (service.claimTask (moment 301) "runner-1" "runner:runner-1"
        (serve service .empty es)).toOption, answer.2.bind TaskRow.claimToken = some 301 := by
      decide +kernel
    rw [hrunner] at hanswer
    have htoken' := hdrawn _ (by rw [hanswer]; rfl)
    rw [Option.bind_some, hsame, htoken] at htoken'
    cases htoken'
  · intro h
    let es := [submitTo 0 "t1" "runner-1", claimFor 1 "runner-1", submitTo 2 "t2" "runner-2",
      claimFor 200 "runner-2"]
    have hclaimed : ∃ row ∈ (serve paired .empty es).tasks.rows, row.state = .claimed ∧
        row.runnerId = "runner-2" ∧ ControlService.isStale (moment 302).now row = false := by
      decide +kernel
    obtain ⟨row, hrow, hstate, hrunner, hactive⟩ := hclaimed
    obtain ⟨db', row', hanswer, hsame⟩ :=
      h paired es (moment 302) "runner:runner-2" row hrow hstate hactive
    have hchanged : ∀ answer ∈ (paired.claimTask (moment 302) "runner-2" "runner:runner-2"
        (serve paired .empty es)).toOption, answer.1.tasks.rows ≠ (serve paired .empty es).tasks.rows := by
      decide +kernel
    rw [hrunner] at hanswer
    exact hchanged _ (by rw [hanswer]; rfl) hsame

end Conductress
