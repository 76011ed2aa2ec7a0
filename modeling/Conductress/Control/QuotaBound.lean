import Mathlib.Algebra.Order.BigOperators.Group.List
import Conductress.Base.NumberText
import Conductress.Control.Dashboard
import Conductress.Control.Leases
import Conductress.Control.Submitters
import Conductress.Control.UserFile

/-!
# The daily quota

A manual submission of a directory user is queued only when the seconds charged
to its account that day, held tasks included, and its own estimate are within
the quota. No other operation brings a task into the account's budget, and a
cancelled or failed task does not come back to it; so the tasks that were
queued without an approval stay within the quota (`quota_holds`). The charge is
added up in floating point, which is exact while the quota is below 2⁵³
seconds; from there on additions are lost (`quota_exceeded_by_rounding`).
-/

namespace Conductress

open Lib

/-! ## Sums in floating point -/

namespace PyFloat

/-- A large number rounds to a large one. -/
theorem roundNat_large {n : ℕ} (h : 2 ^ 53 ≤ n) : 2 ^ 53 ≤ roundNat n := by
  have hlog : 53 ≤ n.log2 := (Nat.le_log2 (by omega)).mpr h
  have hself : 2 ^ n.log2 ≤ n := Nat.log2_self_le (by omega)
  have hpow : 2 ^ n.log2 = 2 ^ 52 * 2 ^ (n.log2 - 52) := by
    rw [← Nat.pow_add]
    congr 1
    omega
  have hunit : 0 < 2 ^ (n.log2 - 52) := Nat.two_pow_pos _
  have hquotient : 2 ^ 52 ≤ n / 2 ^ (n.log2 - 52) := by
    rw [Nat.le_div_iff_mul_le hunit, ← hpow]
    exact hself
  have hfloor : 2 ^ 53 ≤ n / 2 ^ (n.log2 - 52) * 2 ^ (n.log2 - 52) :=
    calc 2 ^ 53 ≤ 2 ^ n.log2 := Nat.pow_le_pow_right (by decide) hlog
      _ = 2 ^ 52 * 2 ^ (n.log2 - 52) := hpow
      _ ≤ n / 2 ^ (n.log2 - 52) * 2 ^ (n.log2 - 52) := Nat.mul_le_mul_right _ hquotient
  unfold roundNat
  rw [if_neg (by omega)]
  dsimp only
  split_ifs
  · exact hfloor
  · exact hfloor.trans (Nat.mul_le_mul_right _ (Nat.le_succ _))

/-- A sum that came out below 2⁵³ is exact. -/
theorem roundInt_exact {n : ℤ} (hn : 0 ≤ n) (h : roundInt n < 2 ^ 53) : roundInt n = n := by
  obtain ⟨k, rfl⟩ := Int.eq_ofNat_of_zero_le hn
  have hround : roundInt (k : ℤ) = roundNat k := by
    unfold roundInt
    rw [if_neg (by omega), Int.natAbs_natCast]
  rw [hround] at h ⊢
  by_cases hsmall : k < 2 ^ 53
  · unfold roundNat
    rw [if_pos hsmall]
  · have := roundNat_large (Nat.not_lt.mp hsmall)
    omega

end PyFloat

/-! ## The charge -/

/-- The estimate of a row's task. -/
def seconds (row : TaskRow) : Except PyError ℤ := DurationEstimator.estimate row.envelope.task

/-- The sum of the estimates of rows. -/
def totalSeconds (rows : List TaskRow) : Except PyError ℤ :=
  rows.foldlM (fun total row => do return total + (← seconds row)) 0

/-- The estimate of a row that has one. -/
def secondsOf (row : TaskRow) : ℤ :=
  match seconds row with
  | .ok n => n
  | .error _ => 0

theorem seconds_nonneg {row : TaskRow} {n : ℤ} (h : seconds row = .ok n) : 60 ≤ n := by
  obtain ⟨_, -, h⟩ := except_bind_ok.mp h
  obtain ⟨_, -, h⟩ := except_bind_ok.mp h
  cases h
  exact le_max_left _ _

theorem secondsOf_eq {row : TaskRow} {n : ℤ} (h : seconds row = .ok n) : secondsOf row = n := by
  rw [secondsOf, h]

theorem secondsOf_nonneg (row : TaskRow) : 0 ≤ secondsOf row := by
  unfold secondsOf
  cases h : seconds row with
  | error _ => exact le_refl 0
  | ok n =>
    have := seconds_nonneg h
    dsimp only
    omega

theorem totalSeconds_from {rows : List TaskRow} (h : ∀ row ∈ rows, ∃ n, seconds row = .ok n)
    (start : ℤ) :
    rows.foldlM (fun total row => do return total + (← seconds row)) start =
      .ok (start + (rows.map secondsOf).sum) := by
  induction rows generalizing start with
  | nil => simp [pure, Except.pure]
  | cons row rows ih =>
    obtain ⟨n, hn⟩ := h row List.mem_cons_self
    have hstep : (do return start + (← seconds row) : Except PyError ℤ) = .ok (start + n) := by
      rw [hn]
      rfl
    have hrest := ih (fun r hr => h r (List.mem_cons_of_mem _ hr)) (start + n)
    rw [List.foldlM_cons, hstep, List.map_cons, List.sum_cons, secondsOf_eq hn, ← Int.add_assoc,
      ← hrest]
    rfl

theorem totalSeconds_eq {rows : List TaskRow} (h : ∀ row ∈ rows, ∃ n, seconds row = .ok n) :
    totalSeconds rows = .ok (rows.map secondsOf).sum := by
  rw [totalSeconds, totalSeconds_from h, Int.zero_add]

theorem sum_secondsOf_nonneg (rows : List TaskRow) : 0 ≤ (rows.map secondsOf).sum := by
  induction rows with
  | nil => exact le_refl 0
  | cons row rows ih =>
    rw [List.map_cons, List.sum_cons]
    have := secondsOf_nonneg row
    omega

theorem usedSeconds_nonneg {rows : List TaskRow} {start used : ℤ} (hstart : 0 ≤ start)
    (h : rows.foldlM (fun used row => do
      return PyFloat.roundInt (used + (← DurationEstimator.estimate row.envelope.task))) start =
        .ok used) : 0 ≤ used := by
  induction rows generalizing start with
  | nil =>
    cases h
    exact hstart
  | cons row rows ih =>
    rw [List.foldlM_cons] at h
    obtain ⟨next, hnext, h⟩ := except_bind_ok.mp h
    obtain ⟨n, hn, hnext⟩ := except_bind_ok.mp hnext
    have hpos : 60 ≤ n := @seconds_nonneg row n hn
    have hnext : PyFloat.roundInt (start + n) = next := Except.ok.inj hnext
    refine ih ?_ h
    rw [← hnext]
    exact PyFloat.roundInt_nonneg (by omega)

/-- **The charge is exact** where it comes out below 2⁵³; by induction on the
rows, each partial sum being no more than the whole. -/
theorem usedSeconds_from {rows : List TaskRow} {start used : ℤ} (hstart : 0 ≤ start)
    (h : rows.foldlM (fun used row => do
      return PyFloat.roundInt (used + (← DurationEstimator.estimate row.envelope.task))) start =
        .ok used) (hused : used < 2 ^ 53) :
    (∀ row ∈ rows, ∃ n, seconds row = .ok n) ∧ used = start + (rows.map secondsOf).sum := by
  induction rows generalizing start with
  | nil =>
    cases h
    exact ⟨fun row hrow => absurd hrow List.not_mem_nil, by simp⟩
  | cons row rows ih =>
    rw [List.foldlM_cons] at h
    obtain ⟨next, hnext, h⟩ := except_bind_ok.mp h
    obtain ⟨n, hn, hnext⟩ := except_bind_ok.mp hnext
    have hn : seconds row = .ok n := hn
    have hnext : PyFloat.roundInt (start + n) = next := Except.ok.inj hnext
    have hpos := seconds_nonneg hn
    have hnonneg : 0 ≤ PyFloat.roundInt (start + n) := PyFloat.roundInt_nonneg (by omega)
    rw [hnext] at hnonneg
    obtain ⟨hrows, htotal⟩ := ih hnonneg h
    have hrest := sum_secondsOf_nonneg rows
    have hexact := PyFloat.roundInt_exact (by omega : 0 ≤ start + n) (by omega)
    refine ⟨fun r hr => ?_, ?_⟩
    · rcases List.mem_cons.mp hr with rfl | hr
      · exact ⟨n, hn⟩
      · exact hrows r hr
    · rw [List.map_cons, List.sum_cons, secondsOf_eq hn]
      omega

/-! ## The admission -/

/-- The logins of an account. -/
def accountLogins (d : UserDirectory) (account : String) : List String :=
  (d.users.rows.filter fun u => decide (u.github = account)).map User.login

theorem mem_accountLogins {d : UserDirectory} {account login : String} :
    login ∈ accountLogins d account ↔ ∃ u ∈ d.users, u.github = account ∧ u.login = login := by
  unfold accountLogins
  rw [List.mem_map]
  constructor
  · rintro ⟨u, hu, hlogin⟩
    have hu := List.mem_filter.mp hu
    exact ⟨u, hu.1, by simpa using hu.2, hlogin⟩
  · rintro ⟨u, hu, haccount, hlogin⟩
    exact ⟨u, List.mem_filter.mpr ⟨hu, by simpa using haccount⟩, hlogin⟩

/-- The rows charged to an account's logins on a day. -/
def charged (logins : List String) (day : ℕ) (db : Database) : List TaskRow :=
  db.tasks.rows.filter (chargedRow logins day)

/-- A task that passes the quota fits beside everything charged that day. -/
theorem overQuota_false {d : UserDirectory} {db : Database} {now : Instant} {user : User} {n : ℤ}
    (huser : user ∈ d.users) (hpositive : 0 < user.quotaRunnerMinutesPerDay)
    (hexact : (user.quotaRunnerMinutesPerDay : ℤ) * 60 < 2 ^ 53) (hn : 0 ≤ n)
    (h : overQuota d db now user n = .ok false) :
    ((charged (accountLogins d user.github) (dayOf now) db).map secondsOf).sum + n ≤
      user.quotaRunnerMinutesPerDay * 60 := by
  have hquota : user.quotaRunnerMinutesPerDay ≠ 0 := by omega
  unfold overQuota at h
  simp only [UserDirectory.quotaMinutes, UserDirectory.quotaAccount,
    UserDirectory.require_of_mem huser, Except.map] at h
  obtain ⟨_, hminutes, h⟩ := except_bind_ok.mp h
  cases hminutes
  rw [if_neg hquota] at h
  obtain ⟨_, haccount, h⟩ := except_bind_ok.mp h
  cases haccount
  obtain ⟨used, hused, h⟩ := except_bind_ok.mp h
  have hwithin : PyFloat.roundInt (used + n) ≤ user.quotaRunnerMinutesPerDay * 60 := by
    have := except_pure_ok.mp h
    simpa using this
  have hnonneg : 0 ≤ used := usedSeconds_nonneg (le_refl 0) hused
  have hsum := PyFloat.roundInt_exact (by omega : 0 ≤ used + n) (by omega)
  have hcharge := (usedSeconds_from (le_refl 0) hused (by omega)).2
  rw [Int.zero_add] at hcharge
  unfold charged accountLogins
  omega

/-- A manual task that is queued outright has no login, or fits beside what is
charged to the account of its login. -/
theorem queued_manual {d : UserDirectory} {db : Database} {now : Instant} {envelope : TaskEnvelope}
    {login : Option String} {reason : Option String} (hmanual : envelope.taskClass = .manual)
    (h : approvalDecision (some d) db now envelope (resolveSubmitter (some d) envelope login) login =
      .ok (.queued, reason)) :
    (match resolveSubmitter (some d) envelope login with
      | some user => some user.login
      | none => login) = none ∨
    ∃ user ∈ d.users, resolveSubmitter (some d) envelope login = some user ∧
      ∃ n, DurationEstimator.estimate envelope.task = .ok n ∧
        overQuota d db now user n = .ok false := by
  unfold approvalDecision at h
  rw [hmanual, if_neg (by decide)] at h
  dsimp only at h
  cases hpresented : presentedLogin envelope login with
  | none =>
    left
    have hlogin : login = none := by
      cases login with
      | none => rfl
      | some text => cases hpresented
    unfold resolveSubmitter
    rw [hpresented, hlogin]
  | some presented =>
    right
    rw [hpresented] at h
    dsimp only at h
    cases hsubmitter : resolveSubmitter (some d) envelope login with
    | none =>
      rw [hsubmitter] at h
      cases h
    | some user =>
      rw [hsubmitter] at h
      dsimp only at h
      obtain ⟨n, hn, h⟩ := except_bind_ok.mp h
      obtain ⟨exceeded, hover, h⟩ := except_bind_ok.mp h
      have hmem : user ∈ d.users := by
        unfold resolveSubmitter at hsubmitter
        rw [hpresented] at hsubmitter
        dsimp only at hsubmitter
        split_ifs at hsubmitter
        exact (UserDirectory.mem_of_get hsubmitter).1
      cases exceeded with
      | true => cases h
      | false => exact ⟨user, hmem, rfl, n, hn, hover⟩

/-! ## The budget over a run -/

/-- The task an operation stores as queued, without an approval. -/
def queuedOutright (svc : ControlService) (m : Moment) (db : Database) : Operation → Option String
  | .submit envelope actor key login bypass =>
    match svc.submitTask m envelope actor key login bypass db with
    | .ok (_, row, true) => if row.state = .queued then some row.taskId else none
    | _ => none
  | _ => none

/-- The tasks a list of events stores as queued, without an approval. -/
def queuedTasks (svc : ControlService) : Database → List ServiceEvent → List String
  | _, [] => []
  | db, e :: es =>
    (queuedOutright svc e.moment db e.operation).toList ++
      queuedTasks svc (perform svc e.moment e.operation db) es

theorem queuedTasks_snoc (svc : ControlService) (db : Database) (es : List ServiceEvent)
    (e : ServiceEvent) :
    queuedTasks svc db (es ++ [e]) = queuedTasks svc db es ++
      (queuedOutright svc e.moment (serve svc db es) e.operation).toList := by
  induction es generalizing db with
  | nil => simp [queuedTasks, serve]
  | cons first rest ih =>
    have hrest := ih (perform svc first.moment first.operation db)
    rw [List.cons_append, queuedTasks, hrest, queuedTasks, List.append_assoc]
    rfl

/-- The tasks queued outright exist, have estimates, and stay within the quota
on every day. -/
structure WithinQuota (logins : List String) (quota : ℤ) (direct : List String) (db : Database) :
    Prop where
  known     : ∀ id ∈ direct, db.task? id ≠ none
  estimated : ∀ row ∈ db.tasks, row.taskId ∈ direct → ∀ login ∈ logins,
    row.submitterLogin = some login → ∃ n, seconds row = .ok n
  bound     : ∀ (day : ℕ) (rows : List TaskRow), (rows.map TaskRow.taskId).Nodup →
    (∀ row ∈ rows, row ∈ db.tasks ∧ row.taskId ∈ direct ∧ chargedRow logins day row = true) →
      (rows.map secondsOf).sum ≤ quota

theorem chargedRow_iff {logins : List String} {day : ℕ} {row : TaskRow} :
    chargedRow logins day row = true ↔ (∃ login ∈ logins, row.submitterLogin = some login) ∧
      row.state ≠ .cancelled ∧ row.state ≠ .failed ∧ dayOf row.createdAt = day := by
  unfold chargedRow
  cases row.submitterLogin <;> simp [and_assoc]

theorem TaskRow.Continues.chargedRow_of {logins : List String} {day : ℕ} {before after : TaskRow}
    (h : before.Continues after) (hcharged : chargedRow logins day after = true) :
    chargedRow logins day before = true := by
  rw [chargedRow_iff] at hcharged ⊢
  obtain ⟨hlogin, hcancelled, hfailed, hday⟩ := hcharged
  have hlive : ¬ (before.state = .cancelled ∨ before.state = .failed) := by
    intro hspent
    have hsame := h.spent hspent
    rcases hspent with hstate | hstate
    · exact hcancelled (hsame.trans hstate)
    · exact hfailed (hsame.trans hstate)
  rw [not_or] at hlive
  exact ⟨by rw [h.submitterLogin]; exact hlogin, hlive.1, hlive.2, by rw [h.createdAt]; exact hday⟩

theorem TaskRow.Continues.seconds_eq {before after : TaskRow} (h : before.Continues after) :
    seconds after = seconds before := by
  unfold seconds
  rw [h.envelope]

/-- Rows that continue rows of the database before, with the same estimates. -/
theorem RowsFrom.rows {before db : Database} (hfrom : RowsFrom before db) {logins direct : List String}
    {day : ℕ} : ∀ {rows : List TaskRow},
      (∀ row ∈ rows, row ∈ db.tasks ∧ row.taskId ∈ direct ∧ chargedRow logins day row = true) →
      ∃ rows' : List TaskRow, rows'.map TaskRow.taskId = rows.map TaskRow.taskId ∧
        rows'.map secondsOf = rows.map secondsOf ∧
        ∀ row ∈ rows', row ∈ before.tasks ∧ row.taskId ∈ direct ∧
          chargedRow logins day row = true
  | [], _ => ⟨[], rfl, rfl, fun _ hrow => absurd hrow List.not_mem_nil⟩
  | row :: rows, h => by
    obtain ⟨hrow, hdirect, hcharged⟩ := h row List.mem_cons_self
    obtain ⟨⟨login, -, hlogin⟩, -⟩ := chargedRow_iff.mp hcharged
    obtain ⟨row', hrow', hlater⟩ := hfrom row hrow login hlogin
    obtain ⟨rows', hids, hsums, hrows'⟩ := RowsFrom.rows hfrom
      fun r hr => h r (List.mem_cons_of_mem _ hr)
    refine ⟨row' :: rows', ?_, ?_, fun r hr => ?_⟩
    · rw [List.map_cons, List.map_cons, hids, hlater.taskId]
    · have hsame : secondsOf row' = secondsOf row := by
        unfold secondsOf
        rw [hlater.seconds_eq]
      rw [List.map_cons, List.map_cons, hsums, hsame]
    · rcases List.mem_cons.mp hr with rfl | hr
      · exact ⟨hrow', by rw [hlater.taskId]; exact hdirect, hlater.chargedRow_of hcharged⟩
      · exact hrows' r hr

namespace WithinQuota

variable {logins : List String} {quota : ℤ} {direct : List String} {before db : Database}

/-- Operations that only continue rows keep the budget. -/
theorem of_rowsFrom (h : WithinQuota logins quota direct before) (hfrom : RowsFrom before db)
    (hkept : ∀ id, before.task? id ≠ none → db.task? id ≠ none) :
    WithinQuota logins quota direct db where
  known := fun id hid => hkept id (h.known id hid)
  estimated := by
    intro row hrow hdirect login hlogin hsame
    obtain ⟨row', hrow', hlater⟩ := hfrom row hrow login hsame
    rw [hlater.seconds_eq]
    exact h.estimated row' hrow' (by rw [hlater.taskId]; exact hdirect) login hlogin
      (hlater.submitterLogin.trans hsame)
  bound := by
    intro day rows hnodup hrows
    obtain ⟨rows', hids, hsums, hrows'⟩ := hfrom.rows hrows
    rw [← hsums]
    exact h.bound day rows' (by rw [hids]; exact hnodup) hrows'

/-- A new task that is held leaves the budget alone. -/
theorem held {row : TaskRow} (h : WithinQuota logins quota direct before)
    (hfree : before.task? row.taskId = none)
    (hrows : ∀ other ∈ db.tasks, other = row ∨ other ∈ before.tasks)
    (hkept : ∀ id, before.task? id ≠ none → db.task? id ≠ none) :
    WithinQuota logins quota direct db := by
  have hold : ∀ other ∈ db.tasks, other.taskId ∈ direct → other ∈ before.tasks := by
    intro other hother hdirect
    rcases hrows other hother with rfl | hother
    · exact absurd hfree (h.known _ hdirect)
    · exact hother
  refine ⟨fun id hid => hkept id (h.known id hid), fun other hother hdirect => ?_,
    fun day rows hnodup hcharged => ?_⟩
  · exact h.estimated other (hold other hother hdirect) hdirect
  · refine h.bound day rows hnodup fun other hother => ?_
    obtain ⟨hmem, hdirect, hcharge⟩ := hcharged other hother
    exact ⟨hold other hmem hdirect, hdirect, hcharge⟩

/-- **A new task that is queued** fits beside everything charged that day. -/
theorem queued {row : TaskRow} (h : WithinQuota logins quota direct before)
    (hfree : before.task? row.taskId = none) (hnew : db.task? row.taskId ≠ none)
    (hrows : ∀ other ∈ db.tasks, other = row ∨ other ∈ before.tasks)
    (hkept : ∀ id, before.task? id ≠ none → db.task? id ≠ none)
    (hfits : ∀ login ∈ logins, row.submitterLogin = some login → ∃ n, seconds row = .ok n ∧
      ((charged logins (dayOf row.createdAt) before).map secondsOf).sum + n ≤ quota) :
    WithinQuota logins quota (direct ++ [row.taskId]) db := by
  have hold : ∀ other ∈ db.tasks, other.taskId ∈ direct ++ [row.taskId] → other ≠ row →
      other ∈ before.tasks ∧ other.taskId ∈ direct := by
    intro other hother hdirect hne
    rcases hrows other hother with rfl | hmem
    · exact absurd rfl hne
    · refine ⟨hmem, ?_⟩
      rcases List.mem_append.mp hdirect with hdirect | hid
      · exact hdirect
      · rw [← List.mem_singleton.mp hid, Database.task?_of_mem hmem] at hfree
        cases hfree
  refine ⟨fun id hid => ?_, fun other hother hdirect login hlogin hsame => ?_,
    fun day rows hnodup hcharged => ?_⟩
  · rcases List.mem_append.mp hid with hid | hid
    · exact hkept id (h.known id hid)
    · rw [List.mem_singleton.mp hid]
      exact hnew
  · by_cases hne : other = row
    · rw [hne] at hsame ⊢
      obtain ⟨n, hn, -⟩ := hfits login hlogin hsame
      exact ⟨n, hn⟩
    · obtain ⟨hmem, hdirect⟩ := hold other hother hdirect hne
      exact h.estimated other hmem hdirect login hlogin hsame
  · by_cases hin : row ∈ rows
    · -- the others are among the rows charged before
      obtain ⟨-, -, hcharge⟩ := hcharged row hin
      obtain ⟨⟨login, hlogin, hsame⟩, -, -, hday⟩ := chargedRow_iff.mp hcharge
      obtain ⟨n, hn, hfit⟩ := hfits login hlogin hsame
      have hnodup' : rows.Nodup := List.Nodup.of_map _ hnodup
      have hsub : rows.erase row ⊆ charged logins (dayOf row.createdAt) before := by
        intro other hother
        have hother' := (hnodup'.mem_erase_iff).mp hother
        obtain ⟨hmem, hdirect, hcharge'⟩ := hcharged other hother'.2
        rw [hday]
        exact List.mem_filter.mpr ⟨(hold other hmem hdirect hother'.1).1, hcharge'⟩
      obtain ⟨rest, hperm, hsublist⟩ := (hnodup'.erase row).subperm hsub
      have hle : (rest.map secondsOf).sum ≤
          ((charged logins (dayOf row.createdAt) before).map secondsOf).sum :=
        (hsublist.map secondsOf).sum_le_sum fun x hx => by
          obtain ⟨r, -, rfl⟩ := List.mem_map.mp hx
          exact secondsOf_nonneg r
      have hsplit : (rows.map secondsOf).sum = n + (rest.map secondsOf).sum := by
        rw [((List.perm_cons_erase hin).map secondsOf).sum_eq, List.map_cons, List.sum_cons,
          secondsOf_eq hn, (hperm.map secondsOf).sum_eq]
      omega
    · refine h.bound day rows hnodup fun other hother => ?_
      obtain ⟨hmem, hdirect, hcharge⟩ := hcharged other hother
      have hne : other ≠ row := by
        rintro rfl
        exact hin hother
      exact ⟨(hold other hmem hdirect hne).1, (hold other hmem hdirect hne).2, hcharge⟩

end WithinQuota

/-- No operation removes a task. -/
theorem perform_keeps (svc : ControlService) (m : Moment) (op : Operation) {db : Database} {id : String}
    (h : db.task? id ≠ none) : (perform svc m op db).task? id ≠ none := by
  obtain ⟨cs, hrun, -⟩ := perform_changes svc m op db
  refine hrun.invariant (fun db => db.task? id ≠ none) h fun a c b hstep ih => ?_
  obtain ⟨row, hrow⟩ := Option.ne_none_iff_exists'.mp ih
  rcases hstep.row_after hrow with hafter | ⟨_, _, _, _, -, -, hafter⟩
  · rw [hafter]
    simp
  · rw [hafter]
    simp

/-- Every submission is of a manual task. -/
def ManualSubmissions (es : List ServiceEvent) : Prop :=
  ∀ e ∈ es, ∀ envelope actor key login bypass,
    e.operation = .submit envelope actor key login bypass → envelope.taskClass = .manual

section Account

variable {svc : ControlService} {d : UserDirectory} {user : User}

/-- **One operation** keeps the budget of an account. -/
theorem perform_withinQuota (hsvc : svc.userDirectory = some d)
    (hshared : ∀ u ∈ d.users, u.github = user.github →
      u.quotaRunnerMinutesPerDay = user.quotaRunnerMinutesPerDay)
    (hpositive : 0 < user.quotaRunnerMinutesPerDay)
    (hexact : (user.quotaRunnerMinutesPerDay : ℤ) * 60 < 2 ^ 53) (m : Moment) {op : Operation}
    (hmanual : ∀ envelope actor key login bypass, op = .submit envelope actor key login bypass →
      envelope.taskClass = .manual) {db : Database} {direct : List String}
    (h : WithinQuota (accountLogins d user.github) (user.quotaRunnerMinutesPerDay * 60) direct db) :
    WithinQuota (accountLogins d user.github) (user.quotaRunnerMinutesPerDay * 60)
      (direct ++ (queuedOutright svc m db op).toList) (perform svc m op db) := by
  have hkept : ∀ id, db.task? id ≠ none → (perform svc m op db).task? id ≠ none :=
    fun id => perform_keeps svc m op
  by_cases hsubmit : ∃ envelope actor key login bypass, op = .submit envelope actor key login bypass
  · obtain ⟨envelope, actor, key, login, bypass, rfl⟩ := hsubmit
    have hclass := hmanual envelope actor key login bypass rfl
    rcases submit_creates db with ⟨hsame, hnone⟩ |
      ⟨row, pullRequest, state, reason, hanswer, hdecision, hrow, hfree, hnew, hrows⟩
    · have hdirect : queuedOutright svc m db (.submit envelope actor key login bypass) = none := by
        unfold queuedOutright
        dsimp only
        split
        · next db' row hanswer => exact absurd hanswer (hnone db' row)
        · rfl
      rw [hdirect, Option.toList_none, List.append_nil, hsame]
      exact h
    · have hstate : row.state = state := by rw [hrow]; rfl
      by_cases hqueued : state = .queued
      · have hdirect : queuedOutright svc m db (.submit envelope actor key login bypass) =
            some row.taskId := by
          unfold queuedOutright
          dsimp only
          rw [hanswer]
          dsimp only
          rw [if_pos (by rw [hstate, hqueued])]
        rw [hdirect, Option.toList_some]
        refine h.queued hfree (by rw [hnew]; simp) hrows hkept fun name hname hlogin => ?_
        have hlogins : row.submitterLogin = match resolveSubmitter (some d) envelope login with
            | some submitter => some submitter.login
            | none => login := by
          rw [hrow, hsvc]
          rfl
        have hresolved : resolveSubmitter (some d) envelope login = resolveSubmitter (some d)
            (ControlService.resolvePullRequest envelope pullRequest) login := by
          cases pullRequest <;> rfl
        have htask : (ControlService.resolvePullRequest envelope pullRequest).task = envelope.task := by
          cases pullRequest <;> rfl
        rw [hsvc, hqueued, hresolved] at hdecision
        rcases queued_manual (by cases pullRequest <;> exact hclass) hdecision with hnone |
          ⟨submitter, hmem, hsubmitter, n, hn, hover⟩
        · rw [hlogins, hresolved, hnone] at hlogin
          cases hlogin
        · rw [hlogins, hresolved, hsubmitter] at hlogin
          have hname' : submitter.login = name := Option.some.inj hlogin
          obtain ⟨u, hu, haccount, hulogin⟩ := mem_accountLogins.mp hname
          have hsame : submitter = u := Table.eq_of_key_eq hmem hu (hname'.trans hulogin.symm)
          have hgithub : submitter.github = user.github := by rw [hsame, haccount]
          have hquota := hshared submitter hmem hgithub
          have hestimate : seconds row = .ok n := by
            rw [seconds, hrow]
            show DurationEstimator.estimate (canonicalObject _) = _
            rw [DurationEstimator.estimate_canonicalObject]
            exact hn
          have hfits := overQuota_false hmem (by rw [hquota]; exact hpositive)
            (by rw [hquota]; exact hexact)
            (by have := seconds_nonneg hestimate; omega) hover
          rw [hgithub, hquota] at hfits
          have hcreated : row.createdAt = m.now := by rw [hrow]; rfl
          exact ⟨n, hestimate, by rw [hcreated]; exact hfits⟩
      · have hdirect : queuedOutright svc m db (.submit envelope actor key login bypass) = none := by
          unfold queuedOutright
          dsimp only
          rw [hanswer]
          dsimp only
          rw [if_neg (by rw [hstate]; exact hqueued)]
        rw [hdirect, Option.toList_none, List.append_nil]
        exact h.held hfree hrows hkept
  · have hdirect : queuedOutright svc m db op = none := by
      cases op with
      | submit envelope actor key login bypass =>
        exact absurd ⟨envelope, actor, key, login, bypass, rfl⟩ hsubmit
      | _ => rfl
    rw [hdirect, Option.toList_none, List.append_nil]
    exact h.of_rowsFrom (perform_rowsFrom (fun envelope actor key login bypass heq =>
      hsubmit ⟨envelope, actor, key, login, bypass, heq⟩) db) hkept

/-- **Every run** keeps the budget of an account. -/
theorem served_withinQuota (hsvc : svc.userDirectory = some d)
    (hshared : ∀ u ∈ d.users, u.github = user.github →
      u.quotaRunnerMinutesPerDay = user.quotaRunnerMinutesPerDay)
    (hpositive : 0 < user.quotaRunnerMinutesPerDay)
    (hexact : (user.quotaRunnerMinutesPerDay : ℤ) * 60 < 2 ^ 53) {es : List ServiceEvent}
    (hmanual : ManualSubmissions es) :
    WithinQuota (accountLogins d user.github) (user.quotaRunnerMinutesPerDay * 60)
      (queuedTasks svc .empty es) (serve svc .empty es) := by
  induction es using List.reverseRecOn with
  | nil =>
    refine ⟨fun id hid => absurd hid List.not_mem_nil, fun row hrow => absurd hrow
      (Table.not_mem_empty row), fun day rows hnodup hrows => ?_⟩
    cases rows with
    | nil => simp
    | cons row rows => exact absurd (hrows row List.mem_cons_self).1 (Table.not_mem_empty row)
  | append_singleton es e ih =>
    rw [serve_snoc, queuedTasks_snoc]
    exact perform_withinQuota hsvc hshared hpositive hexact e.moment
      (hmanual e (by simp)) (ih fun e he => hmanual e (by simp [he]))

end Account

/-- **The daily quota.** In every run of manual submissions, under a user file
in which each account has one human, and for every account of positive quota
below 2⁵³ seconds: of each day the tasks of the account that were queued
without an approval, and are not cancelled or failed, have estimates whose sum
is within the quota. -/
theorem quota_holds {data : Fields} {d : UserDirectory} (hload : UserFile.fromDict data = .ok d)
    (hone : UserFile.OneHumanEach d) {svc : ControlService} (hsvc : svc.userDirectory = some d)
    {es : List ServiceEvent} (hmanual : ManualSubmissions es) {user : User} (huser : user ∈ d.users)
    (hpositive : 0 < user.quotaRunnerMinutesPerDay)
    (hexact : (user.quotaRunnerMinutesPerDay : ℤ) * 60 < 2 ^ 53) (day : ℕ) :
    ∃ total, totalSeconds ((charged (accountLogins d user.github) day (serve svc .empty es)).filter
        fun row => decide (row.taskId ∈ queuedTasks svc .empty es)) = .ok total ∧
      total ≤ user.quotaRunnerMinutesPerDay * 60 := by
  have hbudget := served_withinQuota hsvc
    (fun u hu haccount => UserFile.quota_shared hload hone hu huser haccount) hpositive hexact hmanual
  have hrows : ∀ row ∈ (charged (accountLogins d user.github) day (serve svc .empty es)).filter
      fun row => decide (row.taskId ∈ queuedTasks svc .empty es),
      row ∈ (serve svc .empty es).tasks ∧ row.taskId ∈ queuedTasks svc .empty es ∧
        chargedRow (accountLogins d user.github) day row = true := by
    intro row hrow
    obtain ⟨hcharged, hdirect⟩ := List.mem_filter.mp hrow
    obtain ⟨hmem, hcharge⟩ := List.mem_filter.mp hcharged
    exact ⟨hmem, by simpa using hdirect, hcharge⟩
  refine ⟨_, totalSeconds_eq fun row hrow => ?_, hbudget.bound day _ ?_ hrows⟩
  · obtain ⟨hmem, hdirect, hcharge⟩ := hrows row hrow
    obtain ⟨⟨login, hlogin, hsame⟩, -⟩ := chargedRow_iff.mp hcharge
    exact hbudget.estimated row hmem hdirect login hlogin hsame
  · exact (((serve svc .empty es).tasks.nodup.sublist
      ((List.filter_sublist).map TaskRow.taskId)).sublist ((List.filter_sublist).map TaskRow.taskId))

namespace SmallDeployment

/-- A user file with one human of this quota and an agent. -/
def userFile (minutes : ℕ) : Fields :=
  [("users", .arr [
    .obj [("login", .str "alice"), ("kind", .str "human"), ("github", .str "alice-gh"),
      ("role", .str "collaborator"), ("quota_runner_minutes_per_day", .int minutes)],
    .obj [("login", .str "alice-bot"), ("kind", .str "agent"), ("sponsor", .str "alice")]])]

def alice (minutes : ℕ) : User :=
  ⟨"alice", "alice-gh", false, .collaborator, minutes, [], none⟩

/-- The directory of the file. -/
def accounts (minutes : ℕ) : UserDirectory :=
  ⟨⟨[alice minutes, UserFile.agentUser "alice-bot" (alice minutes)],
    show ["alice", "alice-bot"].Nodup by decide⟩⟩

def metered (minutes : ℕ) : ControlService :=
  { service with userDirectory := some (accounts minutes) }

/-- A user submits a manual task of this duration. -/
def submitFor (n : ℕ) (taskId login : String) (duration : ℕ) : ServiceEvent :=
  ⟨moment n, .submit
    { envelope taskId .manual with task := body "PerfTaskData" ++ [("duration", .int duration)] }
    "user:laptop" none (some login) false⟩

theorem fromDict_userFile (minutes : ℕ) :
    UserFile.fromDict (userFile minutes) = .ok (accounts minutes) := rfl

theorem accounts_oneHuman (minutes : ℕ) : UserFile.OneHumanEach (accounts minutes) := by
  intro u hu v hv hhuman hhuman' _
  have hmem : ∀ u ∈ (accounts minutes).users.rows, u.isAgent = false → u = alice minutes := by
    intro u hu hhuman
    rcases List.mem_cons.mp hu with rfl | hu
    · rfl
    · rw [List.mem_singleton.mp hu] at hhuman
      cases hhuman
  rw [hmem u hu hhuman, hmem v hv hhuman']

/-- Two tasks, the second by the agent. -/
def sharedAccount (duration : ℕ) : List ServiceEvent :=
  [submitFor 0 "t1" "alice" duration, submitFor 1 "t2" "alice-bot" 0]

theorem sharedAccount_manual (duration : ℕ) : ManualSubmissions (sharedAccount duration) := by
  intro e he envelope actor key login bypass hop
  rcases List.mem_cons.mp he with rfl | he
  · cases hop
    rfl
  · rw [List.mem_singleton.mp he] at hop
    cases hop
    rfl

end SmallDeployment

open SmallDeployment in
/-- An account of ten minutes that its human and its agent draw on. -/
theorem quota_holds_shared : ∃ total,
    totalSeconds ((charged (accountLogins (accounts 10) "alice-gh") (dayOf start)
      (serve (metered 10) .empty (sharedAccount 450))).filter
        fun row => decide (row.taskId ∈ queuedTasks (metered 10) .empty (sharedAccount 450))) =
      .ok total ∧ total ≤ 10 * 60 :=
  @quota_holds _ _ (fromDict_userFile 10) (accounts_oneHuman 10) (metered 10) rfl _
    (sharedAccount_manual 450) (alice 10) List.mem_cons_self (by decide) (by decide) _

open SmallDeployment in
/-- Under a quota of 2⁵⁵ minutes, a task that uses all of it and then another
of 78 seconds: the float of the sum is the quota, and both are queued. -/
theorem quota_exceeded_by_rounding :
    ¬ ∀ (data : Fields) (d : UserDirectory), UserFile.fromDict data = .ok d → UserFile.OneHumanEach d →
      ∀ (svc : ControlService), svc.userDirectory = some d → ∀ es, ManualSubmissions es →
        ∀ user ∈ d.users, 0 < user.quotaRunnerMinutesPerDay → ∀ day, ∃ total,
          totalSeconds ((charged (accountLogins d user.github) day (serve svc .empty es)).filter
            fun row => decide (row.taskId ∈ queuedTasks svc .empty es)) = .ok total ∧
          total ≤ user.quotaRunnerMinutesPerDay * 60 := by
  intro h
  obtain ⟨total, htotal, hle⟩ := h (userFile (2 ^ 55)) (accounts (2 ^ 55)) (fromDict_userFile _)
    (accounts_oneHuman _) (metered (2 ^ 55)) rfl (sharedAccount (2 ^ 55 * 60 - 78))
    (sharedAccount_manual _) (alice (2 ^ 55)) List.mem_cons_self (by decide) (dayOf start)
  have hsum : totalSeconds ((charged (accountLogins (accounts (2 ^ 55)) "alice-gh") (dayOf start)
      (serve (metered (2 ^ 55)) .empty (sharedAccount (2 ^ 55 * 60 - 78)))).filter fun row =>
        decide (row.taskId ∈ queuedTasks (metered (2 ^ 55)) .empty
          (sharedAccount (2 ^ 55 * 60 - 78)))) = .ok (2 ^ 55 * 60 + 78) := by
    decide +kernel
  have hgithub : (alice (2 ^ 55)).github = "alice-gh" := rfl
  rw [hgithub, hsum] at htotal
  cases htotal
  exact absurd hle (by decide)

end Conductress
