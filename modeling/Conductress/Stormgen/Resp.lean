import Conductress.Base.Json

/-!
# The incremental reply parser

`ReplyParser`: bytes are fed as they arrive, and a reply is pulled once it is
there in full. Offsets into the buffer are Python's: they may be negative, and
then count from the end. `depth` is how many aggregates may still be entered
before the interpreter's stack is used up.
-/

namespace Conductress.Stormgen

/-! ## Python slices -/

abbrev Bytes := List UInt8

/-- Where a slice bound points. -/
def sliceIndex (length : ℕ) (i : ℤ) : ℕ :=
  if i < 0 then (i + length).toNat else min i.toNat length

/-- `buf[start:stop]`. -/
def slice (buf : Bytes) (start stop : ℤ) : Bytes :=
  (buf.take (sliceIndex buf.length stop)).drop (sliceIndex buf.length start)

/-- Where the first CR LF is. -/
def crlfIndex : Bytes → Option ℕ
  | 13 :: 10 :: _ => some 0
  | _ :: rest => (crlfIndex rest).map (· + 1)
  | [] => none

/-- `buf.find(CRLF, start)`. -/
def findCrlf (buf : Bytes) (start : ℤ) : Option ℕ :=
  let first := if start < 0 then (start + buf.length).toNat else start.toNat
  (crlfIndex (buf.drop first)).map (· + first)

/-! ## Replies -/

/-- What parsing a buffer may raise. -/
inductive ParseError where
  | protocolError (marker : Bytes)
  | py (error : PyError)
  deriving DecidableEq

/-- A reply as a Python value. -/
inductive Reply where
  | none
  | text (s : String)
  | int (n : ℤ)
  | float (x : PyFloat)
  | bool (b : Bool)
  | list (items : List Reply)
  | dict (entries : List (Reply × Reply))

/-- A value as a key of a dictionary: numbers compare by value, and a NaN is
equal to no other key. -/
inductive ReplyKey where
  | none
  | text (s : String)
  | number (q : Rat)
  | inf (negative : Bool)
  | nan
  deriving DecidableEq

namespace Reply

/-- The key a value hashes to; lists and dictionaries are unhashable. -/
def key? : Reply → Except ParseError ReplyKey
  | .none => .ok .none
  | .text s => .ok (.text s)
  | .int n => .ok (.number n)
  | .float (.finite q) => .ok (.number q)
  | .float (.inf negative) => .ok (.inf negative)
  | .float .nan => .ok .nan
  | .bool b => .ok (.number (if b then 1 else 0))
  | .list _ => .error (.py (.typeError "unhashable type: 'list'"))
  | .dict _ => .error (.py (.typeError "unhashable type: 'dict'"))

/-- `entries[key] = value`: an equal key keeps its place. -/
def setEntry (k : ReplyKey) (key value : Reply) :
    List (ReplyKey × Reply × Reply) → List (ReplyKey × Reply × Reply)
  | [] => [(k, key, value)]
  | e :: rest =>
    if e.1 = k ∧ k ≠ .nan then (e.1, e.2.1, value) :: rest else e :: setEntry k key value rest

/-- `{parsed[i]: parsed[i + 1] for i in range(0, len(parsed), 2)}`. -/
def dictFrom : List Reply → List (ReplyKey × Reply × Reply) → Except ParseError Reply
  | key :: value :: rest, entries => do
    let k ← key.key?
    dictFrom rest (setEntry k key value entries)
  | _, entries => .ok (.dict (entries.map Prod.snd))

end Reply

/-! ## Parsing -/

/-- `payload.decode()`. -/
def decode (payload : Bytes) : Except ParseError String :=
  match String.fromUTF8? ⟨payload.toArray⟩ with
  | some text => .ok text
  | none => .error (.py (.valueError "'utf-8' codec can't decode bytes"))

/-- `int(text)`. -/
def intOf (text : String) : Except ParseError ℤ :=
  match PyText.parseInt text with
  | some n => .ok n
  | none => .error (.py (.valueError s!"invalid literal for int() with base 10: '{text}'"))

/-- `float(text)`. -/
def floatOf (text : String) : Except ParseError PyFloat :=
  match PyText.parseFloat text with
  | some x => .ok x
  | none => .error (.py (.valueError s!"could not convert string to float: '{text}'"))

namespace ReplyParser

/-- What `_parse_at` gives: a value and where the next one starts, or nothing
when more bytes are needed. -/
abbrev Parsed := Option (Reply × ℤ)

/-- `_read_line`. -/
def readLine (buf : Bytes) (start : ℤ) : Option (Bytes × ℤ) :=
  (findCrlf buf start).map fun idx => (slice buf start idx, idx + 2)

/-- The markers of replies that are one line: `+`, `-`, `:`, `#`, `,`, `(`. -/
def scalarMarkers : List Bytes := [[43], [45], [58], [35], [44], [40]]

/-- The markers of an array, a set and a push: `*`, `~`, `>`. -/
def arrayMarkers : List Bytes := [[42], [126], [62]]

/-- `_scalar`. -/
def scalar (marker payload : Bytes) : Except ParseError Reply := do
  let text ← decode payload
  if marker = [58] ∨ marker = [40] then (intOf text).map .int
  else if marker = [44] then (floatOf text).map .float
  else if marker = [35] then .ok (.bool (decide (text = "t")))
  else .ok (.text text)

/-- `_bulk`. -/
def bulk (buf payload : Bytes) (after : ℤ) : Except ParseError Parsed := do
  let length ← intOf (← decode payload)
  let stop := after + length
  if length = -1 then .ok (some (.none, after))
  else if buf.length < stop + 2 then .ok none
  else (decode (slice buf after stop)).map fun text => some (.text text, stop + 2)

/-- The loop over the elements that are left. -/
def elementsFrom (parse : ℤ → Except ParseError Parsed) :
    ℕ → ℤ → List Reply → Except ParseError (Option (List Reply × ℤ))
  | 0, offset, parsed => .ok (some (parsed, offset))
  | left + 1, offset, parsed =>
    match parse offset with
    | .error e => .error e
    | .ok none => .ok none
    | .ok (some (value, next)) => elementsFrom parse left next (parsed ++ [value])

/-- The value of an aggregate, once its elements are there. -/
def aggregateOf (mapping : Bool) (parsed : List Reply) : Except ParseError Reply :=
  if mapping then Reply.dictFrom parsed [] else .ok (.list parsed)

/-- `_aggregate`. -/
def aggregate (parse : ℤ → Except ParseError Parsed) (payload : Bytes) (after : ℤ)
    (mapping : Bool) : Except ParseError Parsed := do
  let count ← intOf (← decode payload)
  let elements := if mapping then count * 2 else count
  if count = -1 then .ok (some (.none, after))
  else
    match ← elementsFrom parse elements.toNat after [] with
    | none => .ok none
    | some (parsed, offset) => (aggregateOf mapping parsed).map fun value => some (value, offset)

/-- `_parse_at`. -/
def parseAt (buf : Bytes) : ℕ → ℤ → Except ParseError Parsed
  | 0, _ => .error (.py (.runtimeError "maximum recursion depth exceeded"))
  | depth + 1, start =>
    if buf.length ≤ start then .ok none
    else
      let marker := slice buf start (start + 1)
      match readLine buf (start + 1) with
      | none => .ok none
      | some (payload, after) =>
        if marker ∈ scalarMarkers then (scalar marker payload).map fun value => some (value, after)
        else if marker = [95] then .ok (some (.none, after))
        else if marker = [36] then bulk buf payload after
        else if marker ∈ arrayMarkers then aggregate (parseAt buf depth) payload after false
        else if marker = [37] then aggregate (parseAt buf depth) payload after true
        else .error (.protocolError marker)

/-- `try_parse`: a reply that is there in full is taken off the buffer. -/
def tryParse (depth : ℕ) (buf : Bytes) : Except ParseError (Option Reply × Bytes) :=
  (parseAt buf depth 0).map fun
    | none => (none, buf)
    | some (value, consumed) => (some value, buf.drop (sliceIndex buf.length consumed))

/-- A buffer without a line end is no reply yet, whatever is in it. -/
theorem tryParse_noLine {depth : ℕ} {buf : Bytes} (h : crlfIndex buf.tail = none) :
    tryParse (depth + 1) buf = .ok (none, buf) := by
  have hline : readLine buf (0 + 1) = none := by
    simp [readLine, findCrlf, h]
  have hparse : parseAt buf (depth + 1) 0 = .ok none := by
    rw [parseAt, hline]
    split <;> rfl
  rw [tryParse, hparse]
  rfl

end ReplyParser

end Conductress.Stormgen
