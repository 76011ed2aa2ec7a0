import Conductress.Lib.UnicodeDigits
import Mathlib.Data.List.Basic

/-!
# Command line options

An option parser with the rules of `argparse`: no positional arguments, options
that store a flag or a converted value, abbreviations by a prefix, `--opt=value`.
What is after an option is its value only if it does not itself read as an
option (`isArgument`), which is decided by the text alone. The namespace the
options write is arbitrary.

* `parse` — the namespace, or `none` for a usage error;
* `parse_items` — on options that each stand with their value, the parser writes
  one after the other.
-/

namespace Conductress.Lib.ArgParse

variable {ν : Type*}

/-- What an option does: `none` refuses the value, or ends the program. -/
inductive Store (ν : Type*) where
  | flag (set : ν → Option ν)
  | value (set : String → ν → Option ν)

/-- An option and its string, such as `--port`. -/
structure Action (ν : Type*) where
  flag  : String
  store : Store ν

/-! ## What an argument is -/

/-- A negative number: `-` and digits, with a fraction or without; the pattern's
`$` also matches before a last newline, and its `\d` is any decimal digit. -/
def isNegativeNumber (text : List Char) : Bool :=
  let digit (c : Char) : Bool := decide ('0' ≤ c ∧ c ≤ '9') || (toDecimal c).isSome
  let body := if text.getLast? = some '\n' then text.dropLast else text
  match body with
  | '-' :: cs =>
    let fraction := cs.dropWhile digit
    match fraction with
    | [] => !cs.isEmpty
    | c :: ds => c = '.' && !ds.isEmpty && ds.all digit
  | _ => false

/-- The text before the first `=`, and what is after it. -/
def splitEquals (text : List Char) : List Char × Option String :=
  match text.dropWhile fun c => c ≠ '=' with
  | [] => (text, none)
  | _ :: value => (text.takeWhile fun c => c ≠ '=', some (String.ofList value))

/-- `_get_option_tuples`: the options a text abbreviates. -/
def abbreviated (actions : List (Action ν)) (text : List Char) :
    List (Action ν × Option String) :=
  match text with
  | '-' :: '-' :: _ =>
    let (start, value) := splitEquals text
    (actions.filter fun a => start.isPrefixOf a.flag.toList).map (·, value)
  | _ =>
    actions.filterMap fun a =>
      if a.flag.toList = text.take 2 then some (a, some (String.ofList (text.drop 2)))
      else if text.isPrefixOf a.flag.toList then some (a, none)
      else none

/-- What a text is on the command line. -/
inductive Kind (ν : Type*) where
  | argument
  | option (action : Action ν) (value : Option String)
  /-- Ambiguous, unknown, or the separator `--`. -/
  | refused

/-- `_parse_optional`. -/
def kind (actions : List (Action ν)) (arg : String) : Kind ν :=
  let text := arg.toList
  if text.head? ≠ some '-' then .argument
  else if arg = "--" then .refused
  else
    match actions.find? fun a => decide (a.flag = arg) with
    | some a => .option a none
    | none =>
      if text.length = 1 then .argument
      else
        let (start, value) := splitEquals text
        match value, actions.find? fun a => decide (a.flag.toList = start) with
        | some v, some a => .option a (some v)
        | _, _ =>
          match abbreviated actions text with
          | [(a, v)] => .option a v
          | _ :: _ :: _ => .refused
          | [] => if isNegativeNumber text || text.elem ' ' then .argument else .refused

/-- The text can be the value of an option. -/
def isArgument (actions : List (Action ν)) (arg : String) : Bool :=
  match kind actions arg with
  | .argument => true
  | _ => false

/-! ## The parser -/

/-- An option without a value, or with one that stands in the same argument. -/
def store (action : Action ν) (value : Option String) (ns : ν) : Option ν :=
  match action.store, value with
  | .flag set, none => set ns
  | .value set, some v => set v ns
  | _, _ => none

def parse (actions : List (Action ν)) : List String → ν → Option ν
  | [], ns => some ns
  | [arg], ns =>
    match kind actions arg with
    | .option a value => store a value ns
    | _ => none
  | arg :: next :: rest, ns =>
    match kind actions arg with
    | .option ⟨_, .value set⟩ none =>
      if isArgument actions next then (set next ns).bind (parse actions rest) else none
    | .option a value => (store a value ns).bind (parse actions (next :: rest))
    | _ => none

/-! ## Options with their values -/

/-- An option as it is written out, with its value when it has one. -/
structure Item (ν : Type*) where
  action : Action ν
  value  : Option String

namespace Item

def tokens (item : Item ν) : List String := item.action.flag :: item.value.toList

/-- What it writes; a value has to be an argument. -/
def write (actions : List (Action ν)) (item : Item ν) (ns : ν) : Option ν :=
  match item.action.store, item.value with
  | .flag set, none => set ns
  | .value set, some v => if isArgument actions v then set v ns else none
  | _, _ => none

/-- The option is one of the parser's, under a string that names no other, and
has a value exactly when it takes one. -/
structure Known (actions : List (Action ν)) (item : Item ν) : Prop where
  dash  : item.action.flag.toList.head? = some '-'
  named : item.action.flag ≠ "--"
  found : actions.find? (fun a => decide (a.flag = item.action.flag)) = some item.action
  shape : (∃ set, item.action.store = .flag set ∧ item.value = none) ∨
    ∃ set v, item.action.store = .value set ∧ item.value = some v

end Item

variable {actions : List (Action ν)}

theorem kind_flag {item : Item ν} (h : item.Known actions) :
    kind actions item.action.flag = .option item.action none := by
  unfold kind
  dsimp only
  rw [if_neg (not_not_intro h.dash), if_neg h.named, h.found]

/-- **One item** on the command line. -/
theorem parse_item {item : Item ν} (h : item.Known actions) (rest : List String) (ns : ν) :
    parse actions (item.tokens ++ rest) ns = (item.write actions ns).bind (parse actions rest) := by
  have hkind := kind_flag h
  unfold Item.tokens Item.write
  rcases h.shape with ⟨set, hstore, hvalue⟩ | ⟨set, v, hstore, hvalue⟩
  · rw [hvalue, hstore, Option.toList_none, List.singleton_append]
    cases rest with
    | nil =>
      have hset : ∀ o : Option ν, o.bind (parse actions []) = o := by
        intro o
        cases o <;> rfl
      rw [parse, hkind, hset]
      dsimp only
      unfold store
      rw [hstore]
    | cons next rest =>
      rw [parse, hkind]
      obtain ⟨⟨flag, store'⟩, value⟩ := item
      dsimp only at hstore
      subst hstore
      rfl
  · rw [hvalue, hstore, Option.toList_some, List.cons_append, List.singleton_append, parse, hkind]
    obtain ⟨⟨flag, store'⟩, value⟩ := item
    dsimp only at hstore
    subst hstore
    dsimp only
    split <;> rfl

/-- **Options that stand with their values** are written one after the other. -/
theorem parse_items {items : List (Item ν)} (h : ∀ item ∈ items, item.Known actions) (ns : ν) :
    parse actions (items.flatMap Item.tokens) ns =
      items.foldlM (fun ns item => item.write actions ns) ns := by
  induction items generalizing ns with
  | nil => rfl
  | cons item items ih =>
    rw [List.flatMap_cons, parse_item (h item List.mem_cons_self), List.foldlM_cons]
    refine congrArg (item.write actions ns).bind (funext fun ns' => ?_)
    exact ih (fun i hi => h i (List.mem_cons_of_mem _ hi)) ns'

end Conductress.Lib.ArgParse
