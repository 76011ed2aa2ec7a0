import Conductress.Base.DecimalText
import Conductress.Stormgen.RespProgress
import Conductress.Stormgen.StormClient

/-!
# Commands as replies

A command is sent as an array of bulk strings, so the reply parser reads it back.
Bytes in an argument are counted, never searched, and may be those of the
protocol.

* `parseAt_bulkBytes` — one argument, at any offset;
* `tryParse_encoded` — one command, whatever follows it;
* `commands_roundTrip` — a sequence of commands.
-/

namespace Conductress.Stormgen

open Lib

/-! ## Text and its bytes -/

theorem byteArray_toList (bytes : ByteArray) : bytes.toList = bytes.data.toList := by
  have hloop : ∀ i r, ByteArray.toList.loop bytes i r = r.reverse ++ bytes.data.toList.drop i := by
    intro i r
    fun_induction ByteArray.toList.loop bytes i r with
    | case1 i r hlt ih =>
      have hlt' : i < bytes.data.toList.length := by simpa using hlt
      rw [ih, List.reverse_cons, List.append_assoc, List.drop_eq_getElem_cons hlt']
      simp [ByteArray.get!, getElem!_pos bytes.data i (by simpa using hlt)]
    | case2 i r hge =>
      have hge' : bytes.data.toList.length ≤ i := by simpa using hge
      rw [List.drop_eq_nil_of_le hge', List.append_nil]
  rw [ByteArray.toList, hloop]
  rfl

/-- Text is decoded from its own bytes. -/
theorem decode_toUTF8 (text : String) : decode text.toUTF8.toList = .ok text := by
  have hbytes : (⟨text.toUTF8.toList.toArray⟩ : ByteArray) = text.toByteArray := by
    rw [byteArray_toList, Array.toArray_toList]
    rfl
  rw [decode, hbytes, String.fromUTF8?, dif_pos text.isValidUTF8]
  rfl

/-- The digits of a number hold no CR. -/
theorem decimalBytes_noCr (n : ℕ) : 13 ∉ decimalBytes n := by
  have hbytes : decimalBytes n = (Nat.toDigits 10 n).flatMap String.utf8EncodeChar := by
    rw [decimalBytes, byteArray_toList, String.toUTF8_eq_toByteArray, ← String.utf8Encode_toList]
    have htext : (toString n).toList = Nat.toDigits 10 n := Nat.toList_repr
    rw [htext, List.utf8Encode, List.toList_data_toByteArray]
  rw [hbytes, List.mem_flatMap]
  rintro ⟨c, hc, hmem⟩
  have hrange := PyText.toNat_of_isDigit (PyText.isDigit_toDigits c hc)
  have hvalue : c.val.toNat = c.toNat := rfl
  have hone : String.utf8EncodeChar c = [UInt8.ofNat c.val.toNat] := by
    rw [String.utf8EncodeChar]
    exact if_pos (by omega)
  rw [hone, List.mem_singleton] at hmem
  have hnat := congrArg UInt8.toNat hmem
  rw [UInt8.toNat_ofNat'] at hnat
  -- a digit's byte is at least 48
  have hthirteen : (13 : UInt8).toNat = 13 := rfl
  omega

/-- A length is far from the limit on the digits of a number. -/
theorem maxsize_lt : 2 ^ 63 < 10 ^ 4300 := by
  generalize ha : 63 = a
  generalize hc : 4300 = c
  calc 2 ^ a ≤ 10 ^ a := Nat.pow_le_pow_left (by omega) a
    _ < 10 ^ c := Nat.pow_lt_pow_right (by omega) (by omega)

theorem headerInt_decimalBytes {n : ℕ} (h : n < 10 ^ 4300) :
    ReplyParser.headerInt (decimalBytes n) = .ok n := by
  rw [ReplyParser.headerInt, decimalBytes, decode_toUTF8]
  simp only [bind, Except.bind]
  rw [intOf, PyText.parseInt_toString h]

/-! ## Commands -/

/-- The arguments of a command: at least one, and no more of them, and no more
bytes in one, than a Python sequence holds (`sys.maxsize`). -/
structure Command where
  args : List String
  nonempty : args ≠ []
  count_lt : args.length < 2 ^ 63
  size_lt : ∀ arg ∈ args, arg.toUTF8.toList.length < 2 ^ 63

/-- A bulk string. -/
def bulkBytes (arg : String) : Bytes :=
  36 :: (decimalBytes arg.toUTF8.toList.length ++ 13 :: 10 :: (arg.toUTF8.toList ++ [13, 10]))

namespace Command

/-- The array of a command's arguments. -/
def encoded (command : Command) : Bytes :=
  42 :: (decimalBytes command.args.length ++ 13 :: 10 :: command.args.flatMap bulkBytes)

theorem encodeCommand_args (command : Command) :
    encodeCommand command.args = .ok command.encoded := by
  have hnonempty : command.args.isEmpty = false := by
    simpa using command.nonempty
  have hbulk : (fun arg : String => bulkBytes arg) = bulkBytes := rfl
  rw [encodeCommand, hnonempty]
  simp [encoded, ← hbulk, bulkBytes]

/-- The reply a command reads as. -/
def reply (command : Command) : Reply := .list (command.args.map .text)

end Command

namespace ReplyParser

variable {buf pre post line : Bytes} {depth : ℕ}

/-! ## Reading what was written -/

theorem slice_middle (pre mid post : Bytes) :
    slice (pre ++ (mid ++ post)) pre.length (pre.length + mid.length) = mid := by
  have hlength : (pre ++ (mid ++ post)).length = pre.length + (mid.length + post.length) := by
    rw [List.length_append, List.length_append]
  have hstop : sliceIndex (pre ++ (mid ++ post)).length (pre.length + mid.length) =
      pre.length + mid.length := by
    rw [sliceIndex, if_neg (by omega)]
    omega
  have hfrom : sliceIndex (pre ++ (mid ++ post)).length pre.length = pre.length := by
    rw [sliceIndex, if_neg (by omega)]
    omega
  rw [slice, hstop, hfrom, List.take_length_add_append, List.drop_left, List.take_left]

theorem crlfIndex_line (hline : 13 ∉ line) :
    crlfIndex (line ++ 13 :: 10 :: post) = some line.length := by
  induction line with
  | nil => rfl
  | cons x line ih =>
    have hne : x ≠ 13 := fun h => hline (h ▸ List.mem_cons_self)
    have hrest := ih fun hmem => hline (List.mem_cons_of_mem x hmem)
    rw [List.cons_append, crlfIndex, hrest]
    · rfl
    · intro tail hx
      exact absurd hx hne

/-- A marker and a line without CR are a header. -/
theorem header_line (pre post : Bytes) (marker : UInt8) (hline : 13 ∉ line) :
    Header (pre ++ marker :: (line ++ 13 :: 10 :: post)) pre.length [marker] line
      (pre.length + line.length + 3) := by
  refine ⟨?_, ?_, readLine_eq_some.mpr ⟨pre.length + 1 + line.length, ?_, ?_, ?_⟩⟩
  · simp
    omega
  · exact slice_middle pre [marker] (line ++ 13 :: 10 :: post)
  · have hdrop : (pre ++ marker :: (line ++ 13 :: 10 :: post)).drop (pre.length + 1) =
        line ++ 13 :: 10 :: post := by
      rw [List.drop_length_add_append]
      rfl
    -- the search starts behind the marker
    have hfirst : ((pre.length : ℤ) + 1).toNat = pre.length + 1 := by omega
    rw [findCrlf, if_neg (by omega), hfirst, hdrop, crlfIndex_line hline]
    simp only [Option.map_some, Option.some.injEq]
    omega
  · have hsame := slice_middle (pre ++ [marker]) line (13 :: 10 :: post)
    simpa [add_assoc] using hsame
  · push_cast
    omega

/-- **An argument is read back** wherever it stands. -/
theorem parseAt_bulkBytes (pre post : Bytes) (depth : ℕ) {arg : String}
    (h : arg.toUTF8.toList.length < 2 ^ 63) :
    parseAt (pre ++ (bulkBytes arg ++ post)) (depth + 1) pre.length =
      .ok (some (.text arg, pre.length + (bulkBytes arg).length)) := by
  set content := arg.toUTF8.toList
  have htext : decode content = .ok arg := decode_toUTF8 arg
  have hbulk : bulkBytes arg =
      36 :: (decimalBytes content.length ++ 13 :: 10 :: (content ++ [13, 10])) := rfl
  have hbuf : pre ++ (bulkBytes arg ++ post) = pre ++ 36 :: (decimalBytes content.length ++
      13 :: 10 :: (content ++ ([13, 10] ++ post))) := by
    simp [hbulk]
  have hlength : (bulkBytes arg).length = (decimalBytes content.length).length + content.length + 5 := by
    simp [hbulk]
    omega
  have hroom : (pre ++ (bulkBytes arg ++ post)).length =
      pre.length + ((bulkBytes arg).length + post.length) := by
    rw [List.length_append, List.length_append]
  have hheader : Header (pre ++ (bulkBytes arg ++ post)) pre.length [36]
      (decimalBytes content.length) (pre.length + (decimalBytes content.length).length + 3) := by
    rw [hbuf]
    exact header_line _ _ _ (decimalBytes_noCr _)
  -- the payload stands behind the header, `front`
  have hslice : slice (pre ++ (bulkBytes arg ++ post))
      (pre.length + (decimalBytes content.length).length + 3)
      (pre.length + (decimalBytes content.length).length + 3 + content.length) = content := by
    have hfront := slice_middle (pre ++ 36 :: (decimalBytes content.length ++ [13, 10])) content
      ([13, 10] ++ post)
    simpa [hbulk, add_assoc] using hfront
  rw [parseAt_header hheader, valueAfter, if_neg (by decide), if_neg (by decide), if_pos rfl,
    bulk_eq, headerInt_decimalBytes (h.trans maxsize_lt)]
  simp only [bind, Except.bind]
  rw [if_neg (by omega), if_neg (by omega), hslice, htext]
  simp only [Except.map, Except.ok.injEq, Option.some.injEq, Prod.mk.injEq, true_and]
  omega

/-- The arguments are read back one after the other. -/
theorem elementsFrom_bulkBytes (pre post : Bytes) (depth : ℕ) {args : List String}
    (parsed : List Reply)
    (h : ∀ arg ∈ args, arg.toUTF8.toList.length < 2 ^ 63) :
    elementsFrom (parseAt (pre ++ (args.flatMap bulkBytes ++ post)) (depth + 1)) args.length
        pre.length parsed =
      .ok (some (parsed ++ args.map .text, pre.length + (args.flatMap bulkBytes).length)) := by
  induction args generalizing pre parsed with
  | nil => simp [elementsFrom]
  | cons arg args ih =>
    have hsplit : pre ++ ((arg :: args).flatMap bulkBytes ++ post) =
        pre ++ (bulkBytes arg ++ (args.flatMap bulkBytes ++ post)) := by
      rw [List.flatMap_cons, List.append_assoc]
    have hshift : pre ++ (bulkBytes arg ++ (args.flatMap bulkBytes ++ post)) =
        (pre ++ bulkBytes arg) ++ (args.flatMap bulkBytes ++ post) := by
      rw [List.append_assoc]
    have hfirst := parseAt_bulkBytes pre (args.flatMap bulkBytes ++ post) depth
      (h arg List.mem_cons_self)
    have hrest := ih (pre ++ bulkBytes arg) (parsed ++ [.text arg]) fun a ha =>
      h a (List.mem_cons_of_mem arg ha)
    rw [hsplit, List.length_cons, elementsFrom, hfirst]
    dsimp only
    rw [hshift]
    rw [List.length_append, Nat.cast_add] at hrest
    rw [hrest, List.flatMap_cons, List.length_append, List.map_cons, List.append_assoc]
    simp [add_assoc]

/-- **A command is read back**, and what follows it stays in the buffer. -/
theorem tryParse_encoded (command : Command) :
    tryParse (depth + 2) (command.encoded ++ post) = .ok (some command.reply, post) := by
  set digits := decimalBytes command.args.length
  have hbuf : command.encoded ++ post =
      42 :: (digits ++ 13 :: 10 :: (command.args.flatMap bulkBytes ++ post)) := by
    simp [Command.encoded, digits]
  have hheader : Header (command.encoded ++ post) 0 [42] digits (digits.length + 3) := by
    have hline := header_line [] (command.args.flatMap bulkBytes ++ post) 42
      (decimalBytes_noCr command.args.length)
    rw [hbuf]
    simpa using hline
  have helements := elementsFrom_bulkBytes (42 :: (digits ++ [13, 10])) post depth []
    command.size_lt
  have hlength : (42 :: (digits ++ [13, 10])).length = digits.length + 3 := by simp
  have hfront : (42 :: (digits ++ [13, 10])) ++ (command.args.flatMap bulkBytes ++ post) =
      command.encoded ++ post := by
    rw [hbuf]
    simp
  rw [hfront, hlength] at helements
  push_cast at helements
  have hparse : parseAt (command.encoded ++ post) (depth + 2) 0 =
      .ok (some (command.reply, command.encoded.length)) := by
    rw [parseAt_header hheader, valueAfter, if_neg (by decide), if_neg (by decide),
      if_neg (by decide), if_pos (by decide), aggregate_eq,
      headerInt_decimalBytes (command.count_lt.trans maxsize_lt)]
    simp only [bind, Except.bind, Bool.false_eq_true, if_false, Int.toNat_natCast]
    rw [if_neg (by omega), helements]
    simp [aggregateOf, Except.map, Command.reply, Command.encoded, digits]
    omega
  refine tryParse_some.mpr ⟨_, hparse, ?_⟩
  rw [sliceIndex, if_neg (by omega), List.length_append, Int.toNat_natCast,
    Nat.min_eq_left (by omega), List.drop_left]

/-- **Commands are read back**: those that were written one after the other, in
order, and nothing is left. -/
theorem commands_roundTrip (depth : ℕ) (commands : List Command) :
    ∃ parts, commands.mapM (fun command => encodeCommand command.args) = .ok parts ∧
      Fed (tryParse (depth + 2)) parts.flatten []
        (commands.map fun command => .list (command.args.map .text)) (.waits []) := by
  induction commands with
  | nil => exact ⟨[], rfl, .stops rfl⟩
  | cons command commands ih =>
    obtain ⟨parts, hparts, hfed⟩ := ih
    refine ⟨command.encoded :: parts, ?_, ?_⟩
    · rw [List.mapM_cons, command.encodeCommand_args, hparts]
      rfl
    · rw [List.flatten_cons]
      exact .pulls (tryParse_encoded command) hfed

end ReplyParser

end Conductress.Stormgen
