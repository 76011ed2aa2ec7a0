import Conductress.Base.Compare
import Conductress.Base.DecimalText

/-!
# The bytes of a JSON document

`json.dumps(body, separators=(",", ":")).encode("utf-8")`. The text of a finite
float is a parameter, `float.__repr__`.

* `Around` — a document around a place for a value: its size is that of the
  value and a constant;
* `size_int` — a number takes as many bytes as it has digits.
-/

namespace Conductress

namespace Json

/-! ## The text -/

/-- `\u` and four hexadecimal digits. -/
def unicodeEscape (n : ℕ) : List Char :=
  let digits := Nat.toDigits 16 n
  '\\' :: 'u' :: (List.replicate (4 - digits.length) '0' ++ digits)

/-- A character between quotes, with `ensure_ascii`: what is not printable ASCII
is escaped, beyond the basic plane as two surrogates. -/
def escapeChar (c : Char) : List Char :=
  if c = '"' then ['\\', '"']
  else if c = '\\' then ['\\', '\\']
  else if c = '\n' then ['\\', 'n']
  else if c = '\r' then ['\\', 'r']
  else if c = '\t' then ['\\', 't']
  else if c.toNat = 12 then ['\\', 'f']
  else if c.toNat = 8 then ['\\', 'b']
  else if ' ' ≤ c ∧ c ≤ '~' then [c]
  else if c.toNat < 0x10000 then unicodeEscape c.toNat
  else unicodeEscape (0xd800 + (c.toNat - 0x10000) / 0x400) ++
    unicodeEscape (0xdc00 + (c.toNat - 0x10000) % 0x400)

/-- A string in quotes. -/
def quoted (s : String) : List Char := '"' :: (s.toList.flatMap escapeChar ++ ['"'])

example : quoted "a\n\x7f√" = "\"a\\n\\u007f\\u221a\"".toList := by decide +kernel

section Text

variable (floatText : Rat → List Char)

/-- `json.dumps` of a float. -/
def dumpsFloat : PyFloat → List Char
  | .finite value => floatText value
  | .inf negative => if negative then "-Infinity".toList else "Infinity".toList
  | .nan => "NaN".toList

mutual

/-- `json.dumps(.., separators=(",", ":"))`. -/
def dumps : Json → List Char
  | .null => "null".toList
  | .bool b => if b then "true".toList else "false".toList
  | .int n => (toString n).toList
  | .float f => dumpsFloat floatText f
  | .str s => quoted s
  | .arr items => '[' :: (dumpsItems items ++ [']'])
  | .obj fields => '{' :: (dumpsFields fields ++ ['}'])

def dumpsItems : List Json → List Char
  | [] => []
  | [value] => dumps value
  | value :: rest => dumps value ++ ',' :: dumpsItems rest

def dumpsFields : List (String × Json) → List Char
  | [] => []
  | [(key, value)] => quoted key ++ ':' :: dumps value
  | (key, value) :: rest => quoted key ++ ':' :: dumps value ++ ',' :: dumpsFields rest

end

end Text

/-! ## Numbers of digits -/

/-- The number of digits. -/
def digitCount (n : ℕ) : ℕ := (Nat.toDigits 10 n).length

theorem digitCount_pos (n : ℕ) : 0 < digitCount n := Nat.length_toDigits_pos

theorem digitCount_le_iff {n k : ℕ} (hk : 0 < k) : digitCount n ≤ k ↔ n < 10 ^ k :=
  Nat.length_toDigits_le_iff (by decide) hk

theorem digitCount_mono {m n : ℕ} (h : m ≤ n) : digitCount m ≤ digitCount n :=
  (digitCount_le_iff (digitCount_pos n)).mpr
    (h.trans_lt ((digitCount_le_iff (digitCount_pos n)).mp le_rfl))

/-- Adding to a number what its digits take more than one byte can give it one
digit more. -/
theorem digitCount_add_digits (n : ℕ) : digitCount (n + (digitCount n - 1)) = digitCount n ↔
    n + (digitCount n - 1) < 10 ^ digitCount n := by
  rw [← digitCount_le_iff (digitCount_pos n)]
  exact ⟨le_of_eq, fun h => le_antisymm h (digitCount_mono (Nat.le_add_right _ _))⟩

/-! ## The bytes -/

/-- `text.encode("utf-8")`. -/
def utf8 (text : List Char) : List UInt8 := text.flatMap String.utf8EncodeChar

@[simp] theorem length_utf8_append (a b : List Char) :
    (utf8 (a ++ b)).length = (utf8 a).length + (utf8 b).length := by
  rw [utf8, List.flatMap_append, List.length_append]
  rfl

@[simp] theorem length_utf8_cons (c : Char) (text : List Char) :
    (utf8 (c :: text)).length = c.utf8Size + (utf8 text).length := by
  rw [utf8, List.flatMap_cons, List.length_append, String.length_utf8EncodeChar]
  rfl

/-- One byte for each digit. -/
theorem length_utf8_toDigits (n : ℕ) :
    (utf8 (Nat.toDigits 10 n)).length = (Nat.toDigits 10 n).length := by
  have hdigits : ∀ text : List Char, (∀ c ∈ text, PyText.isDigit c = true) →
      (utf8 text).length = text.length := by
    intro text htext
    induction text with
    | nil => rfl
    | cons c text ih =>
      have hc : c.utf8Size = 1 := by
        have hrange := (PyText.toNat_of_isDigit (htext c List.mem_cons_self)).2
        rw [Char.utf8Size_eq_one_iff]
        exact UInt32.le_iff_toNat_le.mpr (by
          show c.toNat ≤ 127
          omega)
      rw [length_utf8_cons, ih fun c hc => htext c (List.mem_cons_of_mem _ hc), hc,
        List.length_cons, Nat.add_comm]
  exact hdigits _ PyText.isDigit_toDigits

section Size

variable (floatText : Rat → List Char)

/-- `len(json.dumps(..).encode("utf-8"))`. -/
def size (value : Json) : ℕ := (utf8 (dumps floatText value)).length

/-- Of the fields of a dictionary, with the colon and without the commas. -/
def fieldSize (f : String × Json) : ℕ := (utf8 (quoted f.1)).length + 1 + size floatText f.2

theorem size_int (n : ℕ) : size floatText (.int n) = digitCount n := by
  rw [size, dumps]
  show (utf8 (toString n).toList).length = _
  rw [Nat.toString_eq_ofList_toDigits, String.toList_ofList, length_utf8_toDigits]
  rfl

theorem length_utf8_dumpsFields (fields : List (String × Json)) :
    (utf8 (dumpsFields floatText fields)).length =
      (fields.map (fieldSize floatText)).sum + (fields.length - 1) := by
  induction fields with
  | nil => rfl
  | cons f fields ih =>
    have hcolon : (':').utf8Size = 1 := rfl
    have hcomma : (',').utf8Size = 1 := rfl
    obtain ⟨key, value⟩ := f
    have hfield : (utf8 (quoted key ++ ':' :: dumps floatText value)).length =
        fieldSize floatText (key, value) := by
      rw [length_utf8_append, length_utf8_cons, hcolon, fieldSize, size, Nat.add_assoc]
    cases fields with
    | nil => rw [dumpsFields, hfield, List.map_singleton, List.sum_singleton]; rfl
    | cons g fields =>
      have hsplit : dumpsFields floatText ((key, value) :: g :: fields) =
          (quoted key ++ ':' :: dumps floatText value) ++ ',' :: dumpsFields floatText (g :: fields) := by
        rw [dumpsFields]
        simp
      have hsum : (((key, value) :: g :: fields).map (fieldSize floatText)).sum =
          fieldSize floatText (key, value) + ((g :: fields).map (fieldSize floatText)).sum :=
        List.sum_cons
      rw [hsplit, length_utf8_append, hfield, length_utf8_cons, hcomma, ih, hsum]
      simp only [List.length_cons]
      omega

theorem size_obj (fields : List (String × Json)) : size floatText (.obj fields) =
    (fields.map (fieldSize floatText)).sum + (fields.length - 1) + 2 := by
  rw [size, dumps, length_utf8_cons, length_utf8_append, length_utf8_dumpsFields]
  show 1 + (_ + 1) = _
  omega

/-- A document with a place for a value. -/
def Around (f : Json → Json) : Prop := ∃ c, ∀ value, size floatText (f value) = c + size floatText value

variable {floatText}

theorem Around.id : Around floatText fun value => value := ⟨0, fun _ => (Nat.zero_add _).symm⟩

/-- Of the fields with one of them replaced, all but the value of that one is fixed. -/
theorem sum_fieldSize_replace {key : String} {fields : List (String × Json)}
    (hnodup : (keys fields).Nodup) (hmem : key ∈ keys fields) :
    ∃ d, ∀ value, ((fields.map fun g => if g.1 = key then (key, value) else g).map
      (fieldSize floatText)).sum = d + size floatText value := by
  induction fields with
  | nil => cases hmem
  | cons f fields ih =>
    have hnodup : f.1 ∉ keys fields ∧ (keys fields).Nodup := List.nodup_cons.mp hnodup
    by_cases hf : f.1 = key
    · -- no other field has the key
      have hrest : ∀ value, (fields.map fun g => if g.1 = key then (key, value) else g) = fields := by
        intro value
        refine (List.map_congr_left fun g hg => ?_).trans (List.map_id fields)
        refine if_neg fun hkey => hnodup.1 ?_
        rw [hf, ← hkey]
        exact List.mem_map_of_mem hg
      refine ⟨(utf8 (quoted key)).length + 1 + (fields.map (fieldSize floatText)).sum,
        fun value => ?_⟩
      rw [List.map_cons, if_pos hf, hrest, List.map_cons, List.sum_cons, fieldSize]
      dsimp only
      omega
    · have hmem : key ∈ keys fields := (List.mem_cons.mp hmem).resolve_left fun h => hf h.symm
      obtain ⟨d, hd⟩ := ih hnodup.2 hmem
      refine ⟨fieldSize floatText f + d, fun value => ?_⟩
      rw [List.map_cons, if_neg hf, List.map_cons, List.sum_cons, hd, Nat.add_assoc]

/-- The value of one key of a dictionary is such a place. -/
theorem Around.setField {f : Json → Json} (hf : Around floatText f) {fields : List (String × Json)}
    (hnodup : (keys fields).Nodup) (key : String) :
    Around floatText fun value => .obj (Json.setField fields key (f value)) := by
  obtain ⟨c, hc⟩ := hf
  have hfields : ∃ d n, ∀ value,
      ((Json.setField fields key value).map (fieldSize floatText)).sum = d + size floatText value ∧
        (Json.setField fields key value).length = n := by
    by_cases hmem : key ∈ keys fields
    · have hany : (fields.any fun g => decide (g.1 = key)) = true := by simpa [keys] using hmem
      obtain ⟨d, hd⟩ := sum_fieldSize_replace hnodup hmem
      refine ⟨d, fields.length, fun value => ?_⟩
      rw [Json.setField, if_pos hany, hd, List.length_map]
      exact ⟨rfl, rfl⟩
    · have hany : ¬ (fields.any fun g => decide (g.1 = key)) = true := by simpa [keys] using hmem
      refine ⟨(fields.map (fieldSize floatText)).sum + ((utf8 (quoted key)).length + 1),
        fields.length + 1, fun value => ?_⟩
      rw [Json.setField, if_neg hany, List.map_append, List.sum_append, List.length_append,
        List.map_singleton, List.sum_singleton, fieldSize]
      exact ⟨(Nat.add_assoc _ _ _).symm, rfl⟩
  obtain ⟨d, n, hd⟩ := hfields
  refine ⟨d + c + (n - 1) + 2, fun value => ?_⟩
  obtain ⟨hsum, hlength⟩ := hd (f value)
  rw [size_obj, hsum, hlength, hc]
  omega

end Size

end Json

end Conductress
