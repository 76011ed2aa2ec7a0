import Conductress.Base.Json
import Conductress.Base.Clock

/-!
# Task envelopes and outcomes

The two documents the control service exchanges with its callers, as their
JSON schemas describe them. The types carry the part of a schema that is about
shapes; `TaskEnvelope.schemaValid` and `TaskOutcome.schemaValid` carry the
rest (patterns, lengths, required keys of the open task body).
-/

namespace Conductress

/-- An optional property of type `[T, null]`. -/
inductive Optional (α : Type) where
  | absent
  | null
  | value (a : α)
  deriving DecidableEq, Repr

namespace Optional

variable {α β : Type}

/-- `document.get(key)`. -/
def get : Optional α → Option α
  | .value a => some a
  | _ => none

def map (f : α → β) : Optional α → Optional β
  | .absent => .absent
  | .null => .null
  | .value a => .value (f a)

/-- A condition on the value, when there is one. -/
def all (p : α → Bool) : Optional α → Bool
  | .value a => p a
  | _ => true

end Optional

inductive TaskClass where
  | manual | canary | sweep
  deriving DecidableEq, Repr

/-- The terminal states a runner may report. -/
inductive Terminal where
  | completed | failed
  deriving DecidableEq, Repr

/-- The keys and values of a JSON object. -/
abbrev Fields := List (String × Json)

/-! ## Patterns -/

namespace Pattern

def isAlnum (c : Char) : Bool :=
  decide ('A' ≤ c ∧ c ≤ 'Z') || decide ('a' ≤ c ∧ c ≤ 'z') || decide ('0' ≤ c ∧ c ≤ '9')

def isLowerAlnum (c : Char) : Bool :=
  decide ('a' ≤ c ∧ c ≤ 'z') || decide ('0' ≤ c ∧ c ≤ '9')

def isTaskIdChar (c : Char) : Bool := isAlnum c || c == '.' || c == '_' || c == ':' || c == '-'

/-- What `$` lets pass: the end, or one newline before the end. -/
def dropFinalNewline (cs : List Char) : List Char :=
  if cs.getLast? = some '\n' then cs.dropLast else cs

/-- A non-empty run of characters, the first of which is restricted further. -/
def headTail (head tail : Char → Bool) : List Char → Bool
  | [] => false
  | c :: cs => head c && cs.all tail

/-- `re.search("^[A-Za-z0-9][A-Za-z0-9._:-]*$", s)`. -/
def taskId (s : String) : Bool := headTail isAlnum isTaskIdChar (dropFinalNewline s.toList)

/-- The same pattern under `fullmatch`, where a final newline does not pass. -/
def taskIdFull (s : String) : Bool := headTail isAlnum isTaskIdChar s.toList

/-- `re.search("^[a-z0-9][a-z0-9-]{0,62}$", s)`. -/
def runnerId (s : String) : Bool :=
  let cs := dropFinalNewline s.toList
  headTail isLowerAlnum (fun c => isLowerAlnum c || c == '-') cs && decide (cs.length ≤ 63)

end Pattern

/-! ## Envelopes -/

structure Submitter where
  login   : String
  isAgent : Bool
  sponsor : Optional String
  deriving DecidableEq, Repr

structure PullRequest where
  repo    : String
  number  : Int
  headSha : String
  deriving DecidableEq, Repr

structure Provenance where
  repo   : String
  sha    : String
  recipe : Optional String
  pr     : Optional PullRequest
  deriving DecidableEq, Repr

/-- A task envelope. The task body is open: any keys, any values. -/
structure TaskEnvelope where
  taskId      : String
  runnerId    : String
  taskClass   : TaskClass
  priority    : Int
  submittedAt : String
  submittedBy : String
  canaryId    : Optional String
  batchId     : Optional String
  submitter   : Optional Submitter
  provenance  : Optional Provenance
  task        : Fields
  deriving DecidableEq

/-- The document with the keys of every object in order. -/
def canonicalObject (fields : Fields) : Fields :=
  (Json.canonicalFields fields).insertionSort fun f g => Json.fieldLe f g = true

namespace TaskEnvelope

/-- `_canonical(envelope)`: equal canonical envelopes are equal canonical texts. -/
def canonical (e : TaskEnvelope) : TaskEnvelope := { e with task := canonicalObject e.task }

/-- The required keys of the task body. -/
def taskBodyValid (task : Fields) : Bool :=
  (match Json.lookup task "task_type" with
    | some (.str s) => decide (s ≠ "")
    | _ => false) &&
  (Json.lookup task "source").isSome && (Json.lookup task "specifier").isSome &&
  (Json.lookup task "timestamp").isSome

def submitterValid (s : Submitter) : Bool := decide (s.login ≠ "")

def pullRequestValid (pr : PullRequest) : Bool := decide (pr.repo ≠ "" ∧ pr.headSha ≠ "")

def provenanceValid (p : Provenance) : Bool :=
  decide (p.repo ≠ "" ∧ p.sha ≠ "") && p.pr.all pullRequestValid

def batchIdValid (s : String) : Bool := decide (s.length ≤ 200) && Pattern.taskId s

/-- `task-envelope.schema.json`. -/
def schemaValid (e : TaskEnvelope) : Bool :=
  decide (e.taskId.length ≤ 200) && Pattern.taskId e.taskId && Pattern.runnerId e.runnerId &&
  decide (e.submittedBy ≠ "") && e.batchId.all batchIdValid && e.submitter.all submitterValid &&
  e.provenance.all provenanceValid && taskBodyValid e.task

end TaskEnvelope

/-! ## Outcomes -/

structure TaskOutcome where
  taskId      : String
  runnerId    : String
  state       : Terminal
  completedAt : String
  result      : Optional Fields
  error       : Optional String
  deriving DecidableEq

namespace TaskOutcome

/-- `_canonical(outcome)`. -/
def canonical (o : TaskOutcome) : TaskOutcome := { o with result := o.result.map canonicalObject }

@[simp] theorem canonical_taskId (o : TaskOutcome) : o.canonical.taskId = o.taskId := rfl
@[simp] theorem canonical_state (o : TaskOutcome) : o.canonical.state = o.state := rfl

/-- `task-outcome.schema.json`. -/
def schemaValid (o : TaskOutcome) : Bool := decide (o.taskId ≠ "") && Pattern.runnerId o.runnerId

end TaskOutcome

end Conductress
