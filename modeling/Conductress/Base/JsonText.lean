import Conductress.Base.JsonBytes

/-!
# JSON text, written and read

`json.dumps(.., indent=2)`, and `json.loads` as a machine over the characters. A number
ends where the character after it says so; every other value ends with a character of its
own.

* `Passes` — a text leads the machine from one state to another, and the text may not end
  before;
* `Plain.readBack` — the text of a value without numbers leads to the value;
* `Plain.loads_dumpsIndent` — such a value is loaded from its text, and from no less.
-/

namespace Conductress

namespace Json

/-! ## Writing -/

/-- A line break and the indentation of a level. -/
def newline (level : ℕ) : List Char := '\n' :: List.replicate (2 * level) ' '

section Text

variable (floatText : Rat → List Char)

mutual

/-- `json.dumps(.., indent=2)`, at a level. -/
def dumpsIndent (level : ℕ) : Json → List Char
  | .null => "null".toList
  | .bool b => if b then "true".toList else "false".toList
  | .int n => (toString n).toList
  | .float f => dumpsFloat floatText f
  | .str s => quoted s
  | .arr [] => ['[', ']']
  | .arr (value :: rest) =>
    '[' :: (newline (level + 1) ++ dumpsIndent (level + 1) value ++ moreItems level rest)
  | .obj [] => ['{', '}']
  | .obj ((key, value) :: rest) =>
    '{' :: (newline (level + 1) ++
      (quoted key ++ ':' :: ' ' :: dumpsIndent (level + 1) value) ++ moreFields level rest)

/-- What follows an item of a list. -/
def moreItems (level : ℕ) : List Json → List Char
  | [] => newline level ++ [']']
  | value :: rest =>
    ',' :: (newline (level + 1) ++ dumpsIndent (level + 1) value ++ moreItems level rest)

/-- What follows a field of a dictionary. -/
def moreFields (level : ℕ) : List (String × Json) → List Char
  | [] => newline level ++ ['}']
  | (key, value) :: rest =>
    ',' :: (newline (level + 1) ++
      (quoted key ++ ':' :: ' ' :: dumpsIndent (level + 1) value) ++ moreFields level rest)

end

end Text

/-! ## Numbers -/

/-- How `json.loads` fails. -/
inductive LoadsError where
  /-- `JSONDecodeError`. -/
  | decode
  /-- The `ValueError` of `int`. -/
  | tooManyDigits
  deriving DecidableEq

/-- `-?(?:0|[1-9][0-9]*)`, and what is left. -/
def wholePart : List Char → (List Char × List Char) × List Char
  -- no digit follows a leading zero
  | '-' :: '0' :: rest => ((['-'], ['0']), rest)
  | '0' :: rest => (([], ['0']), rest)
  | '-' :: rest => ((['-'], rest.takeWhile PyText.isDigit), rest.dropWhile PyText.isDigit)
  | rest => (([], rest.takeWhile PyText.isDigit), rest.dropWhile PyText.isDigit)

/-- What is left after `(\.[0-9]+)?`. -/
def skipFraction : List Char → List Char
  | '.' :: c :: rest => if PyText.isDigit c then rest.dropWhile PyText.isDigit else '.' :: c :: rest
  | text => text

/-- What is left after `[-+]?`. -/
def skipSign : List Char → List Char
  | '+' :: rest => rest
  | '-' :: rest => rest
  | rest => rest

/-- What is left after `([eE][-+]?[0-9]+)?`. -/
def skipExponent : List Char → List Char
  | [] => []
  | c :: rest =>
    if (c = 'e' ∨ c = 'E') ∧ (skipSign rest).head?.any PyText.isDigit then
      (skipSign rest).dropWhile PyText.isDigit
    else c :: rest

/-- The number at the beginning of a text, of which nothing may be left. -/
def numberOf (text : List Char) : Except LoadsError Json :=
  let whole := wholePart text
  let left := skipExponent (skipFraction whole.2)
  if whole.1.2 = [] then .error .decode
  -- neither a fraction nor an exponent follows: an integer, which `int` may refuse before what
  -- is left is looked at
  else if left = whole.2 then
    match PyText.parseInt (String.ofList (whole.1.1 ++ whole.1.2)) with
    | none => .error .tooManyDigits
    | some n => if left = [] then .ok (.int n) else .error .decode
  else
    match left, PyText.parseFloat (String.ofList text) with
    | [], some f => .ok (.float f)
    | _, _ => .error .decode

/-! ## Reading -/

/-- In a string, after a backslash, or after `\u` and some digits. -/
inductive Escape where
  | none
  | backslash
  | hex (value count : ℕ)

inductive Mode where
  /-- A value comes. -/
  | value
  /-- A value, or the end of the list. -/
  | firstItem
  /-- A key, or the end of the dictionary. -/
  | firstKey
  | key
  | colon (key : String)
  | string (isKey : Bool) (codes : List ℕ) (escape : Escape)
  /-- The rest of a word, which is a value. -/
  | word (left : List Char) (value : Json)
  | number (text : List Char)
  | after (value : Json)

/-- A list or dictionary that is being read, and the key of the value that comes. -/
inductive Frame where
  | list (items : List Json)
  | dict (pairs : List (String × Json))
  | entry (pairs : List (String × Json)) (key : String)

structure Reader where
  mode  : Mode
  stack : List Frame

/-- The whitespace of JSON. -/
def isBlank (c : Char) : Bool := decide (c ∈ [' ', '\t', '\n', '\r'])

def hexValue (c : Char) : Option ℕ :=
  if PyText.isDigit c then some (c.toNat - '0'.toNat)
  else if 'a' ≤ c ∧ c ≤ 'f' then some (c.toNat - 'a'.toNat + 10)
  else if 'A' ≤ c ∧ c ≤ 'F' then some (c.toNat - 'A'.toNat + 10)
  else none

/-- The character that a backslash and another one stand for. -/
def escapedChar : Char → Option Char
  | '"' => some '"'
  | '\\' => some '\\'
  | '/' => some '/'
  | 'b' => some '\x08'
  | 'f' => some '\x0c'
  | 'n' => some '\n'
  | 'r' => some '\r'
  | 't' => some '\t'
  | _ => none

/-- A surrogate by itself is no character of a `String`. -/
def codeChar (code : ℕ) : Char :=
  if 0xd800 ≤ code ∧ code ≤ 0xdfff then '\uFFFD' else Char.ofNat code

/-- The characters of some codes, of which two surrogates that belong together are one. -/
def joinSurrogates : List ℕ → List Char
  | [] => []
  | [code] => [codeChar code]
  | high :: low :: rest =>
    if (0xd800 ≤ high ∧ high ≤ 0xdbff) ∧ 0xdc00 ≤ low ∧ low ≤ 0xdfff then
      Char.ofNat (0x10000 + (high - 0xd800) * 0x400 + (low - 0xdc00)) :: joinSurrogates rest
    else codeChar high :: joinSurrogates (low :: rest)

/-- A character of a string. -/
def stringStep (stack : List Frame) (isKey : Bool) (codes : List ℕ) (c : Char) :
    Escape → Except LoadsError Reader
  | .none =>
    if c = '"' then
      let s := String.ofList (joinSurrogates codes)
      .ok ⟨if isKey then .colon s else .after (.str s), stack⟩
    else if c = '\\' then .ok ⟨.string isKey codes .backslash, stack⟩
    else if c.toNat < 0x20 then .error .decode
    else .ok ⟨.string isKey (codes ++ [c.toNat]) .none, stack⟩
  | .backslash =>
    if c = 'u' then .ok ⟨.string isKey codes (.hex 0 0), stack⟩
    else
      match escapedChar c with
      | none => .error .decode
      | some d => .ok ⟨.string isKey (codes ++ [d.toNat]) .none, stack⟩
  | .hex value count =>
    match hexValue c with
    | none => .error .decode
    | some d =>
      -- the fourth digit
      if count = 3 then .ok ⟨.string isKey (codes ++ [16 * value + d]) .none, stack⟩
      else .ok ⟨.string isKey codes (.hex (16 * value + d) (count + 1)), stack⟩

/-- The first character of a value. -/
def opening (stack : List Frame) (c : Char) : Except LoadsError Reader :=
  if c = '"' then .ok ⟨.string false [] .none, stack⟩
  else if c = '[' then .ok ⟨.firstItem, .list [] :: stack⟩
  else if c = '{' then .ok ⟨.firstKey, .dict [] :: stack⟩
  else if c = 'n' then .ok ⟨.word "ull".toList .null, stack⟩
  else if c = 't' then .ok ⟨.word "rue".toList (.bool true), stack⟩
  else if c = 'f' then .ok ⟨.word "alse".toList (.bool false), stack⟩
  else if c = 'N' then .ok ⟨.word "aN".toList (.float .nan), stack⟩
  else if c = 'I' then .ok ⟨.word "nfinity".toList (.float (.inf false)), stack⟩
  else if c = '-' ∨ PyText.isDigit c then .ok ⟨.number [c], stack⟩
  else .error .decode

/-- The character after a value. -/
def following (stack : List Frame) (value : Json) (c : Char) : Except LoadsError Reader :=
  if isBlank c then .ok ⟨.after value, stack⟩
  else
    match c, stack with
    | ',', .list items :: stack => .ok ⟨.value, .list (items ++ [value]) :: stack⟩
    | ']', .list items :: stack => .ok ⟨.after (.arr (items ++ [value])), stack⟩
    -- of two fields with one key, the later one counts
    | ',', .entry pairs key :: stack => .ok ⟨.key, .dict (setField pairs key value) :: stack⟩
    | '}', .entry pairs key :: stack => .ok ⟨.after (.obj (setField pairs key value)), stack⟩
    | _, _ => .error .decode

namespace Reader

/-- The next character. -/
def step (r : Reader) (c : Char) : Except LoadsError Reader :=
  match r.mode with
  | .value => if isBlank c then .ok r else opening r.stack c
  | .firstItem =>
    if isBlank c then .ok r
    else
      match c, r.stack with
      | ']', .list _ :: stack => .ok ⟨.after (.arr []), stack⟩
      | c, stack => opening stack c
  | .firstKey =>
    if isBlank c then .ok r
    else
      match c, r.stack with
      | '}', .dict _ :: stack => .ok ⟨.after (.obj []), stack⟩
      | '"', stack => .ok ⟨.string true [] .none, stack⟩
      | _, _ => .error .decode
  | .key =>
    if isBlank c then .ok r
    else if c = '"' then .ok ⟨.string true [] .none, r.stack⟩
    else .error .decode
  | .colon key =>
    if isBlank c then .ok r
    else
      match c, r.stack with
      | ':', .dict pairs :: stack => .ok ⟨.value, .entry pairs key :: stack⟩
      | _, _ => .error .decode
  | .string isKey codes escape => stringStep r.stack isKey codes c escape
  | .word left value =>
    match left with
    | [] => .error .decode
    | d :: left =>
      if c ≠ d then .error .decode
      else if left = [] then .ok ⟨.after value, r.stack⟩
      else .ok ⟨.word left value, r.stack⟩
  | .number text =>
    if PyText.isDigit c ∨ c ∈ ['.', 'e', 'E', '+', '-'] then .ok ⟨.number (text ++ [c]), r.stack⟩
    -- `-Infinity`
    else if text = ['-'] ∧ c = 'I' then .ok ⟨.word "nfinity".toList (.float (.inf true)), r.stack⟩
    else do
      let value ← numberOf text
      following r.stack value c
  | .after value => following r.stack value c

/-- The end of the text. -/
def finish (r : Reader) : Except LoadsError Json :=
  match r.mode, r.stack with
  | .after value, [] => .ok value
  -- the end of the text is the end of the number
  | .number text, stack => do
    let value ← numberOf text
    match stack with
    | [] => .ok value
    | _ :: _ => .error .decode
  | _, _ => .error .decode

/-- The text may not end here. -/
def Cut (r : Reader) : Prop := r.finish = .error .decode

end Reader

/-- `json.loads`. -/
def loads (text : List Char) : Except LoadsError Json :=
  text.foldlM Reader.step ⟨.value, []⟩ >>= Reader.finish

example : loads " [1, -2.5e1, \"\\ud83d\\ude00\", \x7b\x7d] ".toList =
    .ok (.arr [.int 1, .float (.finite (-25)), .str "😀", .obj []]) := by decide +kernel

example : (loads "[1,]".toList, loads "01".toList, loads "\"a".toList) =
    (.error .decode, .error .decode, .error .decode) := by decide +kernel

/-! ## Runs of the machine -/

/-- A text leads from one state to another, and may not end before its last character. -/
inductive Passes : Reader → List Char → Reader → Prop
  | nil (r : Reader) : Passes r [] r
  | cons {r s t : Reader} {c : Char} {text : List Char} :
      r.Cut → r.step c = .ok s → Passes s text t → Passes r (c :: text) t

namespace Passes

variable {r s t : Reader} {c : Char} {text text' : List Char}

theorem append (h : Passes r text s) (h' : Passes s text' t) : Passes r (text ++ text') t := by
  induction h with
  | nil r => exact h'
  | cons hcut hstep _ ih => exact .cons hcut hstep (ih h')

theorem single (hcut : r.Cut) (hstep : r.step c = .ok s) : Passes r [c] s :=
  .cons hcut hstep (.nil s)

/-- All of the text leads to the last state. -/
theorem foldlM_eq (h : Passes r text t) : text.foldlM Reader.step r = .ok t := by
  induction h with
  | nil r => rfl
  | @cons r s t c text _ hstep _ ih =>
    rw [List.foldlM_cons, hstep]
    exact ih

/-- Less of it leads to a state in which it may not end. -/
theorem foldlM_take (h : Passes r text t) {n : ℕ} (hn : n < text.length) :
    ∃ s, (text.take n).foldlM Reader.step r = .ok s ∧ s.Cut := by
  induction h generalizing n with
  | nil r => exact absurd hn (Nat.not_lt_zero n)
  | @cons r s t c text hcut hstep _ ih =>
    cases n with
    | zero => exact ⟨r, rfl, hcut⟩
    | succ n =>
      obtain ⟨u, hu, hend⟩ := ih (Nat.lt_of_succ_lt_succ hn)
      refine ⟨u, ?_, hend⟩
      rw [List.take_succ_cons, List.foldlM_cons, hstep]
      exact hu

end Passes

/-! ## Strings -/

section Strings

variable {stack : List Frame} {isKey : Bool} {codes : List ℕ} {r : Reader}

/-- The four digits of an escape. -/
theorem unicodeEscape_eq {n : ℕ} (h : n < 0x10000) :
    unicodeEscape n = ['\\', 'u', Nat.digitChar (n / 4096), Nat.digitChar (n / 256 % 16),
      Nat.digitChar (n / 16 % 16), Nat.digitChar (n % 16)] := by
  have hbase : 1 < 16 := by decide
  unfold unicodeEscape
  dsimp only
  -- by the number of digits, before which there are zeros
  rcases Nat.lt_or_ge n 16 with h1 | h1
  · rw [Nat.toDigits_of_lt_base h1]
    have hz : n / 4096 = 0 ∧ n / 256 % 16 = 0 ∧ n / 16 % 16 = 0 ∧ n % 16 = n := by omega
    rw [hz.1, hz.2.1, hz.2.2.1, hz.2.2.2]
    rfl
  rw [Nat.toDigits_of_base_le hbase h1]
  rcases Nat.lt_or_ge (n / 16) 16 with h2 | h2
  · rw [Nat.toDigits_of_lt_base h2]
    have hz : n / 4096 = 0 ∧ n / 256 % 16 = 0 ∧ n / 16 % 16 = n / 16 := by omega
    rw [hz.1, hz.2.1, hz.2.2]
    rfl
  rw [Nat.toDigits_of_base_le hbase h2]
  rcases Nat.lt_or_ge (n / 16 / 16) 16 with h3 | h3
  · rw [Nat.toDigits_of_lt_base h3]
    have hz : n / 4096 = 0 ∧ n / 256 % 16 = n / 16 / 16 := by omega
    rw [hz.1, hz.2]
    rfl
  rw [Nat.toDigits_of_base_le hbase h3, Nat.toDigits_of_lt_base (by omega)]
  have hz : n / 4096 = n / 16 / 16 / 16 ∧ n / 256 % 16 = n / 16 / 16 % 16 := by omega
  rw [hz.1, hz.2]
  rfl

theorem hexValue_digitChar {d : ℕ} (h : d < 16) : hexValue (Nat.digitChar d) = some d := by
  have hall : ∀ d < 16, hexValue (Nat.digitChar d) = some d := by decide
  exact hall d h

/-- An escape adds its code. -/
theorem passes_unicodeEscape {n : ℕ} (h : n < 0x10000) :
    Passes ⟨.string isKey codes .none, stack⟩ (unicodeEscape n)
      ⟨.string isKey (codes ++ [n]) .none, stack⟩ := by
  have hdigit (value count d : ℕ) (hd : d < 16) (hcount : count ≠ 3) :
      (Reader.mk (.string isKey codes (.hex value count)) stack).step (Nat.digitChar d) =
        .ok ⟨.string isKey codes (.hex (16 * value + d) (count + 1)), stack⟩ := by
    show stringStep stack isKey codes _ (.hex value count) = _
    rw [stringStep, hexValue_digitChar hd]
    exact if_neg hcount
  have hlast (value d : ℕ) (hd : d < 16) :
      (Reader.mk (.string isKey codes (.hex value 3)) stack).step (Nat.digitChar d) =
        .ok ⟨.string isKey (codes ++ [16 * value + d]) .none, stack⟩ := by
    show stringStep stack isKey codes _ (.hex value 3) = _
    rw [stringStep, hexValue_digitChar hd]
    rfl
  -- what the four digits add up to
  have hn : n = 16 * (16 * (16 * (16 * 0 + n / 4096) + n / 256 % 16) + n / 16 % 16) + n % 16 := by
    omega
  rw [unicodeEscape_eq h]
  conv => arg 3; rw [hn]
  exact .cons rfl rfl <| .cons rfl rfl <| .cons rfl (hdigit _ _ _ (by omega) (by decide)) <|
    .cons rfl (hdigit _ _ _ (by omega) (by decide)) <|
    .cons rfl (hdigit _ _ _ (by omega) (by decide)) <| .single rfl (hlast _ _ (by omega))

/-- The codes of a character. -/
def codesOf (c : Char) : List ℕ :=
  if c.toNat < 0x10000 then [c.toNat]
  else [0xd800 + (c.toNat - 0x10000) / 0x400, 0xdc00 + (c.toNat - 0x10000) % 0x400]

/-- A character adds its codes, however it is written. -/
theorem passes_escapeChar (c : Char) :
    Passes ⟨.string isKey codes .none, stack⟩ (escapeChar c)
      ⟨.string isKey (codes ++ codesOf c) .none, stack⟩ := by
  have htwo {d e : Char} (hd : escapedChar d = some e) (hu : d ≠ 'u') (he : e.toNat < 0x10000) :
      Passes ⟨.string isKey codes .none, stack⟩ ['\\', d]
        ⟨.string isKey (codes ++ codesOf e) .none, stack⟩ := by
    refine .cons rfl rfl (.single rfl ?_)
    show stringStep stack isKey codes d .backslash = _
    rw [stringStep, if_neg hu, hd, codesOf, if_pos he]
  unfold escapeChar
  by_cases hquote : c = '"'
  · rw [if_pos hquote, hquote]
    exact htwo rfl (by decide) (by decide)
  rw [if_neg hquote]
  by_cases hslash : c = '\\'
  · rw [if_pos hslash, hslash]
    exact htwo rfl (by decide) (by decide)
  rw [if_neg hslash]
  by_cases hnewline : c = '\n'
  · rw [if_pos hnewline, hnewline]
    exact htwo rfl (by decide) (by decide)
  rw [if_neg hnewline]
  by_cases hreturn : c = '\r'
  · rw [if_pos hreturn, hreturn]
    exact htwo rfl (by decide) (by decide)
  rw [if_neg hreturn]
  by_cases htab : c = '\t'
  · rw [if_pos htab, htab]
    exact htwo rfl (by decide) (by decide)
  rw [if_neg htab]
  by_cases hfeed : c.toNat = 12
  · rw [if_pos hfeed, show c = '\x0c' from Char.toNat_inj.mp hfeed]
    exact htwo rfl (by decide) (by decide)
  rw [if_neg hfeed]
  by_cases hbackspace : c.toNat = 8
  · rw [if_pos hbackspace, show c = '\x08' from Char.toNat_inj.mp hbackspace]
    exact htwo rfl (by decide) (by decide)
  rw [if_neg hbackspace]
  by_cases hprintable : ' ' ≤ c ∧ c ≤ '~'
  · -- printable ASCII
    have hlow : 0x20 ≤ c.toNat := hprintable.1
    have hhigh : c.toNat ≤ 0x7e := hprintable.2
    rw [if_pos hprintable]
    refine .single rfl ?_
    show stringStep stack isKey codes c .none = _
    rw [stringStep, if_neg hquote, if_neg hslash, if_neg (by omega), codesOf, if_pos (by omega)]
  rw [if_neg hprintable]
  by_cases h : c.toNat < 0x10000
  · rw [if_pos h, codesOf, if_pos h]
    exact passes_unicodeEscape h
  · -- two surrogates
    have hvalid : c.toNat < 0xd800 ∨ 0xdfff < c.toNat ∧ c.toNat < 0x110000 := c.valid
    rw [if_neg h, codesOf, if_neg h]
    have hhigh : 0xd800 + (c.toNat - 0x10000) / 0x400 < 0x10000 := by omega
    have hlow : 0xdc00 + (c.toNat - 0x10000) % 0x400 < 0x10000 := by omega
    have hfirst : Passes ⟨.string isKey codes .none, stack⟩ _ _ := passes_unicodeEscape hhigh
    have hboth := hfirst.append (passes_unicodeEscape hlow)
    rw [List.append_assoc] at hboth
    exact hboth

theorem passes_characters (s : List Char) :
    Passes ⟨.string isKey codes .none, stack⟩ (s.flatMap escapeChar)
      ⟨.string isKey (codes ++ s.flatMap codesOf) .none, stack⟩ := by
  induction s generalizing codes with
  | nil =>
    rw [List.flatMap_nil, List.flatMap_nil, List.append_nil]
    exact .nil _
  | cons c s ih =>
    rw [List.flatMap_cons, List.flatMap_cons, ← List.append_assoc]
    exact (passes_escapeChar c).append ih

/-- The codes of characters are joined to the characters. -/
theorem joinSurrogates_codesOf (s : List Char) : joinSurrogates (s.flatMap codesOf) = s := by
  induction s with
  | nil => rfl
  | cons c s ih =>
    -- no character is a surrogate
    have hvalid : c.toNat < 0xd800 ∨ 0xdfff < c.toNat ∧ c.toNat < 0x110000 := c.valid
    rw [List.flatMap_cons, codesOf]
    split
    · next hsmall =>
      have hchar : codeChar c.toNat = c := by
        rw [codeChar, if_neg (by omega), Char.ofNat_toNat]
      rw [List.singleton_append]
      cases hrest : s.flatMap codesOf with
      | nil =>
        rw [hrest] at ih
        rw [joinSurrogates, hchar, ← ih]
        rfl
      | cons low rest =>
        rw [joinSurrogates, if_neg (by omega), hchar, ← hrest, ih]
    · next hlarge =>
      have hcode : 0x10000 + (0xd800 + (c.toNat - 0x10000) / 0x400 - 0xd800) * 0x400 +
          (0xdc00 + (c.toNat - 0x10000) % 0x400 - 0xdc00) = c.toNat := by
        omega
      rw [List.cons_append, List.singleton_append, joinSurrogates, if_pos (by omega), ih, hcode,
        Char.ofNat_toNat]

/-- **A string in quotes** is read as the string. -/
theorem passes_quoted (s : String) (hcut : r.Cut)
    (hopen : r.step '"' = .ok ⟨.string isKey [] .none, r.stack⟩) :
    Passes r (quoted s) ⟨if isKey then .colon s else .after (.str s), r.stack⟩ := by
  refine .cons hcut hopen ((passes_characters s.toList).append (.single rfl ?_))
  show Except.ok _ = _
  rw [List.nil_append, joinSurrogates_codesOf, String.ofList_toList]

end Strings

/-! ## Values -/

/-- A value without numbers, and without a key that comes twice. -/
inductive Plain : Json → Prop
  | null : Plain .null
  | bool (b : Bool) : Plain (.bool b)
  | str (s : String) : Plain (.str s)
  | arr {items : List Json} : (∀ value ∈ items, Plain value) → Plain (.arr items)
  | obj {fields : List (String × Json)} : (fields.map Prod.fst).Nodup →
      (∀ field ∈ fields, Plain field.2) → Plain (.obj fields)

section Values

variable {stack : List Frame} {r : Reader} {floatText : Rat → List Char}

/-- The state awaits a value. -/
structure Awaits (r : Reader) : Prop where
  cut   : r.Cut
  opens : ∀ c, isBlank c = false → c ≠ ']' → r.step c = opening r.stack c

theorem awaits_value : Awaits ⟨.value, stack⟩ where
  cut := rfl
  opens := fun c hc _ => if_neg (by rw [hc]; exact Bool.false_ne_true)

theorem awaits_firstItem : Awaits ⟨.firstItem, stack⟩ where
  cut := rfl
  opens := by
    intro c hc hend
    show (if isBlank c then _ else _) = _
    rw [hc, if_neg Bool.false_ne_true]
    split
    · next hbracket _ => exact absurd rfl hend
    · rfl

/-- Indentation is passed over. -/
theorem passes_newline (level : ℕ) (hcut : r.Cut) (hblank : ∀ c, isBlank c = true → r.step c = .ok r) :
    Passes r (newline level) r := by
  refine .cons hcut (hblank '\n' rfl) ?_
  generalize 2 * level = n
  induction n with
  | zero => exact .nil r
  | succ n ih => exact .cons hcut (hblank ' ' rfl) ih

theorem newline_value (level : ℕ) : Passes ⟨.value, stack⟩ (newline level) ⟨.value, stack⟩ :=
  passes_newline level (by rfl) fun _ hc => if_pos hc

theorem newline_firstItem (level : ℕ) :
    Passes ⟨.firstItem, stack⟩ (newline level) ⟨.firstItem, stack⟩ :=
  passes_newline level (by rfl) fun _ hc => if_pos hc

theorem newline_firstKey (level : ℕ) :
    Passes ⟨.firstKey, stack⟩ (newline level) ⟨.firstKey, stack⟩ :=
  passes_newline level (by rfl) fun _ hc => if_pos hc

theorem newline_key (level : ℕ) : Passes ⟨.key, stack⟩ (newline level) ⟨.key, stack⟩ :=
  passes_newline level (by rfl) fun _ hc => if_pos hc

theorem newline_after (level : ℕ) (value : Json) (frame : Frame) :
    Passes ⟨.after value, frame :: stack⟩ (newline level) ⟨.after value, frame :: stack⟩ :=
  passes_newline level (by rfl) fun _ hc => if_pos hc

/-- Wherever a value comes, the text of this one is read as it. -/
def ReadBack (floatText : Rat → List Char) (value : Json) : Prop :=
  ∀ (level : ℕ) (r : Reader), Awaits r →
    Passes r (dumpsIndent floatText level value) ⟨.after value, r.stack⟩

/-- The rest of a list. -/
theorem passes_moreItems (level : ℕ) {rest : List Json} (hrest : ∀ v ∈ rest, ReadBack floatText v)
    (items : List Json) (value : Json) :
    Passes ⟨.after value, .list items :: stack⟩ (moreItems floatText level rest)
      ⟨.after (.arr (items ++ value :: rest)), stack⟩ := by
  induction rest generalizing items value with
  | nil => exact (newline_after level value _).append (.single rfl rfl)
  | cons next rest ih =>
    obtain ⟨hnext, hrest⟩ := List.forall_mem_cons.mp hrest
    -- the value goes to the items that have been read
    have hlater := ih hrest (items ++ [value]) next
    rw [List.append_assoc] at hlater
    exact .cons rfl rfl (((newline_value (level + 1)).append
      (hnext (level + 1) _ awaits_value)).append hlater)

/-- A field, from its key on. -/
theorem passes_field (level : ℕ) (key : String) {value : Json} (hvalue : ReadBack floatText value)
    {pairs : List (String × Json)} (hcut : r.Cut) (hstack : r.stack = .dict pairs :: stack)
    (hopen : r.step '"' = .ok ⟨.string true [] .none, r.stack⟩) :
    Passes r (quoted key ++ ':' :: ' ' :: dumpsIndent floatText level value)
      ⟨.after value, .entry pairs key :: stack⟩ := by
  have hkey := passes_quoted key hcut hopen
  rw [hstack] at hkey
  exact hkey.append (.cons rfl rfl (.cons rfl rfl (hvalue level _ awaits_value)))

/-- A key that is new comes last. -/
theorem setField_new {pairs : List (String × Json)} {key : String} (h : key ∉ pairs.map Prod.fst)
    (value : Json) : setField pairs key value = pairs ++ [(key, value)] := by
  refine if_neg fun hany => h ?_
  obtain ⟨f, hf, hkey⟩ := List.any_eq_true.mp hany
  exact List.mem_map.mpr ⟨f, hf, of_decide_eq_true hkey⟩

/-- The rest of a dictionary. -/
theorem passes_moreFields (level : ℕ) {rest : List (String × Json)}
    (hrest : ∀ f ∈ rest, ReadBack floatText f.2) (pairs : List (String × Json)) (key : String)
    (value : Json) (hkeys : ((pairs ++ (key, value) :: rest).map Prod.fst).Nodup) :
    Passes ⟨.after value, .entry pairs key :: stack⟩ (moreFields floatText level rest)
      ⟨.after (.obj (pairs ++ (key, value) :: rest)), stack⟩ := by
  induction rest generalizing pairs key value with
  | nil =>
    have hnew : key ∉ pairs.map Prod.fst := by
      rw [List.map_append, List.map_cons] at hkeys
      exact fun hmem => (List.nodup_append.mp hkeys).2.2 key hmem key List.mem_cons_self rfl
    rw [← setField_new hnew]
    exact (newline_after level value _).append (.single rfl rfl)
  | cons next rest ih =>
    obtain ⟨key', value'⟩ := next
    obtain ⟨hnext, hrest⟩ := List.forall_mem_cons.mp hrest
    -- the key is none of those that have been read, so that its field comes last
    have hnew : key ∉ pairs.map Prod.fst := by
      rw [List.map_append, List.map_cons] at hkeys
      exact fun hmem => (List.nodup_append.mp hkeys).2.2 key hmem key List.mem_cons_self rfl
    have hlater := ih hrest (pairs ++ [(key, value)]) key' value' (by
      rw [List.append_assoc]
      exact hkeys)
    rw [List.append_assoc, ← setField_new hnew] at hlater
    exact .cons rfl rfl (((newline_key (level + 1)).append
      (passes_field (level + 1) key' hnext rfl rfl rfl)).append hlater)

/-- **A value without numbers** is read back. -/
theorem Plain.readBack {value : Json} (h : Plain value) : ReadBack floatText value := by
  -- the induction is on the value; a list and a dictionary are read from their first item or
  -- field on
  induction h with
  | null =>
    intro level r hr
    exact .cons hr.cut (hr.opens 'n' rfl (by decide)) (.cons rfl rfl (.cons rfl rfl (.single rfl rfl)))
  | bool b =>
    intro level r hr
    cases b with
    | true =>
      exact .cons hr.cut (hr.opens 't' rfl (by decide))
        (.cons rfl rfl (.cons rfl rfl (.single rfl rfl)))
    | false =>
      exact .cons hr.cut (hr.opens 'f' rfl (by decide))
        (.cons rfl rfl (.cons rfl rfl (.cons rfl rfl (.single rfl rfl))))
  | str s =>
    intro level r hr
    exact passes_quoted s hr.cut (hr.opens '"' rfl (by decide))
  | @arr items _ ih =>
    intro level r hr
    have hopen := hr.opens '[' rfl (by decide)
    cases items with
    | nil => exact .cons hr.cut hopen (.single rfl rfl)
    | cons value rest =>
      obtain ⟨hvalue, hrest⟩ := List.forall_mem_cons.mp ih
      exact .cons hr.cut hopen (((newline_firstItem (level + 1)).append
        (hvalue (level + 1) _ awaits_firstItem)).append (passes_moreItems level hrest [] value))
  | @obj fields hkeys _ ih =>
    intro level r hr
    have hopen := hr.opens '{' rfl (by decide)
    cases fields with
    | nil => exact .cons hr.cut hopen (.single rfl rfl)
    | cons field rest =>
      obtain ⟨key, value⟩ := field
      obtain ⟨hvalue, hrest⟩ := List.forall_mem_cons.mp ih
      exact .cons hr.cut hopen (((newline_firstKey (level + 1)).append
        (passes_field (level + 1) key hvalue rfl rfl rfl)).append
          (passes_moreFields level hrest [] key value hkeys))

/-- **A document** is loaded from its text, with and without a line break after it, and from no
less. -/
theorem Plain.loads_dumpsIndent {value : Json} (h : Plain value) (floatText : Rat → List Char) :
    loads (dumpsIndent floatText 0 value) = .ok value ∧
      loads (dumpsIndent floatText 0 value ++ ['\n']) = .ok value ∧
      ∀ n < (dumpsIndent floatText 0 value).length,
        loads ((dumpsIndent floatText 0 value).take n) = .error .decode := by
  have hpasses : Passes _ (dumpsIndent floatText 0 value) _ := h.readBack 0 ⟨.value, []⟩ awaits_value
  refine ⟨?_, ?_, fun n hn => ?_⟩
  · rw [loads, hpasses.foldlM_eq]
    rfl
  · rw [loads, List.foldlM_append, hpasses.foldlM_eq]
    rfl
  · obtain ⟨s, hs, hcut⟩ := hpasses.foldlM_take hn
    rw [loads, hs]
    exact hcut

end Values

end Json

end Conductress
