import Conductress.Lib.UnicodeDigits
import Mathlib.Algebra.Group.Nat.Defs
import Mathlib.Algebra.Ring.Int.Defs
import Mathlib.Data.List.Sort

/-!
# JSON documents as Python holds them

The values `json.loads` returns, with the conversions the program applies to
them: truth value, `int(..)`, `float(..)`, `len(..)`, `dict.get`. Numbers keep
Python's distinction between `int`, `float` and `bool`; a float is an exact
rational, an infinity or a NaN.

`Json.canonical` is `json.dumps(.., sort_keys=True)` up to the text: two
documents have the same canonical text exactly when their canonical forms are
equal.
-/

namespace Conductress

/-- A Python `float`. -/
inductive PyFloat where
  | finite (value : Rat)
  | inf (negative : Bool)
  | nan
  deriving DecidableEq, Repr

/-- The exceptions the modelled code raises or lets through. -/
inductive PyError where
  | valueError (message : String)
  | typeError (message : String)
  | attributeError (message : String)
  | overflowError (message : String)
  | keyError (key : String)
  | runtimeError (message : String)
  | osError (message : String)
  | httpException (message : String)
  | indexError (message : String)
  | memoryError
  deriving DecidableEq, Repr

/-- A JSON value. The fields of an object are in insertion order. -/
inductive Json where
  | null
  | bool (b : Bool)
  | int (n : Int)
  | float (f : PyFloat)
  | str (s : String)
  | arr (items : List Json)
  | obj (fields : List (String × Json))

namespace Json

/-! ## Decidable equality -/

mutual

/-- Structural equality. -/
def beq : Json → Json → Bool
  | .null, .null => true
  | .bool a, .bool b => decide (a = b)
  | .int a, .int b => decide (a = b)
  | .float a, .float b => decide (a = b)
  | .str a, .str b => decide (a = b)
  | .arr a, .arr b => beqItems a b
  | .obj a, .obj b => beqFields a b
  | _, _ => false

def beqItems : List Json → List Json → Bool
  | [], [] => true
  | a :: as, b :: bs => beq a b && beqItems as bs
  | _, _ => false

def beqFields : List (String × Json) → List (String × Json) → Bool
  | [], [] => true
  | (k, a) :: as, (l, b) :: bs => decide (k = l) && (beq a b && beqFields as bs)
  | _, _ => false

end

mutual

theorem beq_iff : ∀ a b : Json, beq a b = true ↔ a = b
  | .arr as, .arr bs => by simp [beq, beqItems_iff as bs]
  | .obj as, .obj bs => by simp [beq, beqFields_iff as bs]
  | .null, b => by cases b <;> simp [beq]
  | .bool _, b => by cases b <;> simp [beq]
  | .int _, b => by cases b <;> simp [beq]
  | .float _, b => by cases b <;> simp [beq]
  | .str _, b => by cases b <;> simp [beq]
  | .arr _, .null | .arr _, .bool _ | .arr _, .int _ | .arr _, .float _ | .arr _, .str _
  | .arr _, .obj _ => by simp [beq]
  | .obj _, .null | .obj _, .bool _ | .obj _, .int _ | .obj _, .float _ | .obj _, .str _
  | .obj _, .arr _ => by simp [beq]

theorem beqItems_iff : ∀ as bs : List Json, beqItems as bs = true ↔ as = bs
  | [], bs => by cases bs <;> simp [beqItems]
  | _ :: _, [] => by simp [beqItems]
  | a :: as, b :: bs => by simp [beqItems, beq_iff a b, beqItems_iff as bs]

theorem beqFields_iff : ∀ as bs : List (String × Json), beqFields as bs = true ↔ as = bs
  | [], bs => by cases bs <;> simp [beqFields]
  | _ :: _, [] => by simp [beqFields]
  | (k, a) :: as, (l, b) :: bs => by
    simp [beqFields, beq_iff a b, beqFields_iff as bs, and_assoc]

end

instance : DecidableEq Json := fun a b => decidable_of_iff _ (beq_iff a b)

/-! ## Dictionaries -/

/-- `fields.get(key)`, with `none` for an absent key. -/
def lookup (fields : List (String × Json)) (key : String) : Option Json :=
  (fields.find? fun f => decide (f.1 = key)).map Prod.snd

/-- `document.get(key)`: an absent key reads as null. -/
def getD (fields : List (String × Json)) (key : String) : Json :=
  (lookup fields key).getD .null

/-- `document[key] = value`: replaced in place, or appended. -/
def setField (fields : List (String × Json)) (key : String) (value : Json) :
    List (String × Json) :=
  if fields.any fun f => decide (f.1 = key) then
    fields.map fun f => if f.1 = key then (key, value) else f
  else fields ++ [(key, value)]

/-- `document.pop(key, None)`. -/
def eraseField (fields : List (String × Json)) (key : String) : List (String × Json) :=
  fields.filter fun f => decide (f.1 ≠ key)

/-! ## Canonical form -/

/-- The order of `sort_keys`: by key, code point by code point. -/
def fieldLe (f g : String × Json) : Bool := decide (f.1 ≤ g.1)

mutual

/-- The document with the keys of every object sorted. -/
def canonical : Json → Json
  | .arr items => .arr (canonicalItems items)
  | .obj fields => .obj ((canonicalFields fields).insertionSort fun f g => fieldLe f g = true)
  | .null => .null
  | .bool b => .bool b
  | .int n => .int n
  | .float f => .float f
  | .str s => .str s

def canonicalItems : List Json → List Json
  | [] => []
  | item :: items => canonical item :: canonicalItems items

def canonicalFields : List (String × Json) → List (String × Json)
  | [] => []
  | (key, value) :: fields => (key, canonical value) :: canonicalFields fields

end

/-! ## Truth value and conversions -/

/-- `bool(value)`. -/
def truthy : Json → Bool
  | .null => false
  | .bool b => b
  | .int n => decide (n ≠ 0)
  | .float (.finite q) => decide (q ≠ 0)
  | .float _ => true
  | .str s => decide (s ≠ "")
  | .arr items => !items.isEmpty
  | .obj fields => !fields.isEmpty

/-- `value or default`. -/
def orElse (value default : Json) : Json := if value.truthy then value else default

/-- `len(value)`. -/
def pyLen : Json → Except PyError Nat
  | .str s => .ok s.length
  | .arr items => .ok items.length
  | .obj fields => .ok fields.length
  | _ => .error (.typeError "object has no len()")

end Json

/-! ## Doubles -/

namespace PyFloat

/-- `value > 0`. -/
def isPositive : PyFloat → Bool
  | .finite q => decide (0 < q)
  | .inf negative => !negative
  | .nan => false

/-- The least magnitude that rounds to an infinity. -/
def overflowAt : Nat := 2 ^ 1024 - 2 ^ 970

theorem overflowAt_pos : 0 < overflowAt := by
  unfold overflowAt
  -- the exponents by name, so that no power is evaluated
  generalize hb : 1024 = b
  generalize ha : 970 = a
  have hlt : a < b := by omega
  have := Nat.pow_lt_pow_right Nat.one_lt_two hlt
  omega

/-- An exact value as a double: infinite from `overflowAt` on, zero below half
the least subnormal, and otherwise left exact. -/
def ofRat (q : Rat) : PyFloat :=
  if (overflowAt : Rat) ≤ q then .inf false
  else if q ≤ -(overflowAt : Rat) then .inf true
  else if q * (2 ^ 1075 : Nat) ≤ 1 ∧ -1 ≤ q * (2 ^ 1075 : Nat) then .finite 0
  else .finite q

/-- The double nearest to a natural number, ties to even. -/
def roundNat (n : Nat) : Nat :=
  if n < 2 ^ 53 then n
  else
    let unit := 2 ^ (n.log2 - 52)
    let q := n / unit
    let r := n % unit
    if 2 * r < unit ∨ (2 * r = unit ∧ q % 2 = 0) then q * unit else (q + 1) * unit

/-- The double nearest to an integer. -/
def roundInt (n : Int) : Int := if n < 0 then -roundNat n.natAbs else roundNat n.natAbs

/-- The conversion of an `int` to a `float`, as an exact integer. -/
def ofInt (n : Int) : Except PyError Int :=
  if overflowAt ≤ n.natAbs then .error (.overflowError "int too large to convert to float")
  else .ok (roundInt n)

end PyFloat

/-! ## Numbers written as text -/

namespace PyText

/-- The characters `str.strip` removes: `Py_UNICODE_ISSPACE`. -/
def isSpace (c : Char) : Bool :=
  c.toNat ∈ [0x09, 0x0a, 0x0b, 0x0c, 0x0d, 0x1c, 0x1d, 0x1e, 0x1f, 0x20, 0x85, 0xa0,
    0x1680, 0x2000, 0x2001, 0x2002, 0x2003, 0x2004, 0x2005, 0x2006, 0x2007, 0x2008,
    0x2009, 0x200a, 0x2028, 0x2029, 0x202f, 0x205f, 0x3000]

def strip (cs : List Char) : List Char :=
  ((cs.dropWhile isSpace).reverse.dropWhile isSpace).reverse

/-- What `_PyUnicode_TransformDecimalAndSpaceToASCII` makes of a character. What it
cuts a text off at, a `?`, is in no number. -/
def toAscii (c : Char) : Char :=
  if c.toNat < 127 then c
  else if isSpace c then ' '
  else (Lib.toDecimal c).elim '?' fun d => Char.ofNat ('0'.toNat + d)

/-- `Py_ISSPACE`: fewer characters than `str.strip` removes. -/
def isBlank (c : Char) : Bool := c.toNat ∈ [0x09, 0x0a, 0x0b, 0x0c, 0x0d, 0x20]

/-- The text `int` and `float` read, without the blanks around it. -/
def numeral (cs : List Char) : List Char :=
  (((cs.map toAscii).dropWhile isBlank).reverse.dropWhile isBlank).reverse

def isDigit (c : Char) : Bool := decide ('0' ≤ c ∧ c ≤ '9')

def digitValue (c : Char) : Nat := c.toNat - '0'.toNat

/-- Digits with single underscores between them, as numeric literals allow;
`none` when the text is anything else. Accumulates value and digit count. -/
def digitsAux : List Char → Nat → Nat → Option (Nat × Nat)
  | [], value, count => if count = 0 then none else some (value, count)
  | '_' :: c :: cs, value, count =>
    if count = 0 || !isDigit c then none
    else digitsAux cs (10 * value + digitValue c) (count + 1)
  | c :: cs, value, count =>
    if isDigit c then digitsAux cs (10 * value + digitValue c) (count + 1) else none

def digits (cs : List Char) : Option (Nat × Nat) := digitsAux cs 0 0

/-- An optional sign and the rest. -/
def sign : List Char → Int × List Char
  | '-' :: cs => (-1, cs)
  | '+' :: cs => (1, cs)
  | cs => (1, cs)

/-- `int(text)`; longer literals than the interpreter's limit are refused. -/
def parseInt (s : String) : Option Int :=
  let (sgn, body) := sign (numeral s.toList)
  match digits body with
  | some (value, count) => if count ≤ 4300 then some (sgn * value) else none
  | none => none

/-- Split at the first character satisfying `p`, which is dropped. -/
def splitAt (p : Char → Bool) : List Char → List Char × Option (List Char)
  | [] => ([], none)
  | c :: cs =>
    if p c then ([], some cs)
    else ((c :: (splitAt p cs).1), (splitAt p cs).2)

/-- A digit string that may be empty. -/
def digitsOrEmpty (cs : List Char) : Option (Nat × Nat) :=
  if cs.isEmpty then some (0, 0) else digits cs

/-- The mantissa `12.5`, `.5`, `12.` as an exact rational. -/
def parseMantissa (cs : List Char) : Option Rat :=
  match splitAt (· = '.') cs with
  | (whole, none) => (digits whole).map fun w => (w.1 : Rat)
  | (whole, some fraction) =>
    match digitsOrEmpty whole, digitsOrEmpty fraction with
    | some (w, wn), some (f, fn) =>
      if wn = 0 && fn = 0 then none
      else some ((w : Rat) + (f : Rat) / ((10 ^ fn : Nat) : Rat))
    | _, _ => none

/-- The exponents beyond which a double is zero or infinite whatever the digits of
the mantissa are. -/
def exponentBound (mantissa : List Char) : Int := 5000 + mantissa.length

/-- `float(text)`. -/
def parseFloat (s : String) : Option PyFloat :=
  let (sgn, body) := sign (numeral s.toList)
  let word := String.ofList (body.map Char.toLower)
  if word = "inf" ∨ word = "infinity" then some (.inf (decide (sgn < 0)))
  else if word = "nan" then some .nan
  else
    match splitAt (fun c => c = 'e' || c = 'E') body with
    | (mantissa, none) => (parseMantissa mantissa).map fun q => .ofRat (sgn * q)
    | (mantissa, some expo) =>
      let (esgn, edigits) := sign expo
      match parseMantissa mantissa, digits edigits with
      | some q, some (e, _) =>
        if exponentBound mantissa < e then
          if esgn < 0 ∨ q = 0 then some (.finite 0) else some (.inf (decide (sgn < 0)))
        else if esgn < 0 then some (.ofRat (sgn * q / ((10 ^ e : Nat) : Rat)))
        else some (.ofRat (sgn * q * ((10 ^ e : Nat) : Rat)))
      | _, _ => none

end PyText

namespace Json

/-- `int(value)`: floats are truncated towards zero. -/
def pyInt : Json → Except PyError Int
  | .bool b => .ok (if b then 1 else 0)
  | .int n => .ok n
  | .float (.finite q) => .ok (q.num.tdiv q.den)
  | .float (.inf _) => .error (.overflowError "cannot convert float infinity to integer")
  | .float .nan => .error (.valueError "cannot convert float NaN to integer")
  | .str s =>
    match PyText.parseInt s with
    | some n => .ok n
    | none => .error (.valueError "invalid literal for int() with base 10")
  | _ => .error (.typeError "int() argument must be a string, a bytes-like object or a real number")

/-- `float(value)`. -/
def pyFloat : Json → Except PyError PyFloat
  | .bool b => .ok (.finite (if b then 1 else 0))
  | .int n => (PyFloat.ofInt n).map fun m => .finite m
  | .float f => .ok f
  | .str s =>
    match PyText.parseFloat s with
    | some f => .ok f
    | none => .error (.valueError "could not convert string to float")
  | _ => .error (.typeError "float() argument must be a string or a real number")

/-! ## Canonical documents read the same -/

/-- Sorting by key keeps what each key reads: an element goes in before the
first one that is not less, so before every one of its own key. -/
theorem lookup_orderedInsert (f : String × Json) (fields : List (String × Json)) (key : String) :
    lookup (fields.orderedInsert (fun f g => fieldLe f g = true) f) key =
      lookup (f :: fields) key := by
  induction fields with
  | nil => rfl
  | cons g fields ih =>
    rw [List.orderedInsert_cons]
    split
    · rfl
    · next hlt =>
      have hne : f.1 ≠ g.1 := by
        intro heq
        exact hlt (by simp [fieldLe, heq])
      unfold lookup at ih ⊢
      by_cases hg : g.1 = key
      · have hf : f.1 ≠ key := by rw [← hg]; exact hne
        simp [hg, hf]
      · rw [List.find?_cons_of_neg (by simpa using hg), ih]
        by_cases hf : f.1 = key <;> simp [hf, hg]

theorem lookup_insertionSort (fields : List (String × Json)) (key : String) :
    lookup (fields.insertionSort fun f g => fieldLe f g = true) key = lookup fields key := by
  induction fields with
  | nil => rfl
  | cons f fields ih =>
    rw [List.insertionSort_cons, lookup_orderedInsert]
    unfold lookup at ih ⊢
    by_cases hf : f.1 = key
    · simp [hf]
    · rw [List.find?_cons_of_neg (by simpa using hf), ih, List.find?_cons_of_neg (by simpa using hf)]

theorem lookup_canonicalFields (fields : List (String × Json)) (key : String) :
    lookup (canonicalFields fields) key = (lookup fields key).map canonical := by
  induction fields with
  | nil => rfl
  | cons f fields ih =>
    unfold lookup at ih ⊢
    rw [canonicalFields]
    by_cases hf : f.1 = key
    · simp [hf]
    · rw [List.find?_cons_of_neg (by simpa using hf), ih, List.find?_cons_of_neg (by simpa using hf)]

theorem length_canonicalItems (items : List Json) : (canonicalItems items).length = items.length := by
  induction items with
  | nil => rfl
  | cons item items ih => rw [canonicalItems, List.length_cons, ih, List.length_cons]

theorem length_canonicalFields (fields : List (String × Json)) :
    (canonicalFields fields).length = fields.length := by
  induction fields with
  | nil => rfl
  | cons f fields ih => rw [canonicalFields, List.length_cons, ih, List.length_cons]

theorem length_canonicalObject (fields : List (String × Json)) :
    ((canonicalFields fields).insertionSort fun f g => fieldLe f g = true).length = fields.length := by
  rw [List.length_insertionSort, length_canonicalFields]

theorem isEmpty_eq_of_length {α β : Type} {as : List α} {bs : List β} (h : as.length = bs.length) :
    as.isEmpty = bs.isEmpty := by
  cases as <;> cases bs <;> simp_all

@[simp] theorem truthy_canonical (v : Json) : v.canonical.truthy = v.truthy := by
  cases v with
  | arr items => simp only [canonical, truthy, isEmpty_eq_of_length (length_canonicalItems items)]
  | obj fields => simp only [canonical, truthy, isEmpty_eq_of_length (length_canonicalObject fields)]
  | _ => rfl

@[simp] theorem pyLen_canonical (v : Json) : v.canonical.pyLen = v.pyLen := by
  cases v with
  | arr items => simp only [canonical, pyLen, length_canonicalItems]
  | obj fields => simp only [canonical, pyLen, length_canonicalObject]
  | _ => rfl

theorem canonical_eq_str {v : Json} {s : String} : v.canonical = .str s ↔ v = .str s := by
  cases v <;> simp [canonical]

@[simp] theorem pyInt_canonical (v : Json) : v.canonical.pyInt = v.pyInt := by
  cases v <;> rfl

@[simp] theorem pyFloat_canonical (v : Json) : v.canonical.pyFloat = v.pyFloat := by
  cases v <;> rfl

end Json

end Conductress
