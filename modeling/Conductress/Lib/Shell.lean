import Mathlib.Data.List.Basic

/-!
# Words of a command line

The lexical rules of a POSIX shell as `shlex.split` reads them: words are
separated by whitespace, a single quote takes everything up to the next one, a
double quote all but an escaped backslash or double quote, and a backslash
outside of quotes the character after it.

* `splitWords` — the words of a text, when its quotes are closed;
* `quoteWord` — a word that is left bare where every character is plain, and
  put into single quotes otherwise;
* `splitWords_join` — the words of quoted words are the words.
-/

namespace Conductress.Lib.Shell

/-- Between words, in one, inside quotes, or after a backslash. -/
inductive Lexer where
  | blank
  | word
  | quote (q : Char)
  | escape (inside : Option Char)
  deriving DecidableEq

def isSpace (c : Char) : Bool := c = ' ' || c = '\t' || c = '\r' || c = '\n'

def isQuote (c : Char) : Bool := c = '\'' || c = '"'

/-- A character that begins or ends nothing. -/
def Bare (c : Char) : Prop := isSpace c = false ∧ isQuote c = false ∧ c ≠ '\\'

/-- The words from a state on. A word that began with a quote may be empty. -/
def wordsFrom : Lexer → List Char → Bool → List Char → Option (List (List Char))
  | .blank, _, _, [] => some []
  | .word, token, quoted, [] => if token ≠ [] ∨ quoted = true then some [token] else some []
  | .quote _, _, _, [] => none
  | .escape _, _, _, [] => none
  | .blank, _, _, c :: cs =>
    if isSpace c then wordsFrom .blank [] false cs
    else if c = '\\' then wordsFrom (.escape none) [] false cs
    else if isQuote c then wordsFrom (.quote c) [] false cs
    else wordsFrom .word [c] false cs
  | .word, token, quoted, c :: cs =>
    if isSpace c then
      if token ≠ [] ∨ quoted = true then (wordsFrom .blank [] false cs).map (token :: ·)
      else wordsFrom .blank [] false cs
    else if isQuote c then wordsFrom (.quote c) token quoted cs
    else if c = '\\' then wordsFrom (.escape none) token quoted cs
    else wordsFrom .word (token ++ [c]) quoted cs
  | .quote q, token, _, c :: cs =>
    if c = q then wordsFrom .word token true cs
    else if c = '\\' ∧ q = '"' then wordsFrom (.escape (some q)) token true cs
    else wordsFrom (.quote q) (token ++ [c]) true cs
  | .escape none, token, quoted, c :: cs => wordsFrom .word (token ++ [c]) quoted cs
  | .escape (some q), token, quoted, c :: cs =>
    if c ≠ '\\' ∧ c ≠ q then wordsFrom (.quote q) (token ++ ['\\', c]) quoted cs
    else wordsFrom (.quote q) (token ++ [c]) quoted cs

/-- The words of a text; `none` when a quote or an escape is left open. -/
def splitWords (text : List Char) : Option (List (List Char)) := wordsFrom .blank [] false text

/-- The inside of single quotes: a quote is closed, escaped and opened again. -/
def escapeQuotes (word : List Char) : List Char :=
  word.flatMap fun c => if c = '\'' then ['\'', '\\', '\'', '\''] else [c]

def quoteWord (plain : Char → Bool) (word : List Char) : List Char :=
  if word ≠ [] ∧ word.all plain = true then word else '\'' :: (escapeQuotes word ++ ['\''])

/-! ## Reading quoted words -/

variable {plain : Char → Bool} {token word rest : List Char} {quoted : Bool}

/-- Bare characters go on a word. -/
theorem wordsFrom_bare (h : ∀ c ∈ word, Bare c) :
    wordsFrom .word token quoted (word ++ rest) = wordsFrom .word (token ++ word) quoted rest := by
  induction word generalizing token with
  | nil => simp
  | cons c cs ih =>
    obtain ⟨hspace, hquote, hescape⟩ := h c List.mem_cons_self
    rw [List.cons_append, wordsFrom, hspace, hquote, if_neg Bool.false_ne_true,
      if_neg Bool.false_ne_true, if_neg hescape, ih fun d hd => h d (List.mem_cons_of_mem _ hd)]
    simp

/-- The inside of single quotes is the word. -/
theorem wordsFrom_quoted :
    wordsFrom (.quote '\'') token quoted (escapeQuotes word ++ '\'' :: rest) =
      wordsFrom .word (token ++ word) true rest := by
  induction word generalizing token quoted with
  | nil => simp [escapeQuotes, wordsFrom]
  | cons c cs ih =>
    by_cases hc : c = '\''
    · -- closed, escaped, opened
      have hsplit : escapeQuotes (c :: cs) ++ '\'' :: rest =
          '\'' :: '\\' :: '\'' :: '\'' :: (escapeQuotes cs ++ '\'' :: rest) := by
        simp [escapeQuotes, hc]
      rw [hsplit, wordsFrom, if_pos rfl, wordsFrom, if_neg (by decide), if_neg (by decide), if_pos rfl,
        wordsFrom, wordsFrom, if_neg (by decide), if_pos (by decide), ih, hc]
      simp
    · have hsplit : escapeQuotes (c :: cs) ++ '\'' :: rest =
          c :: (escapeQuotes cs ++ '\'' :: rest) := by simp [escapeQuotes, hc]
      have hdouble : ¬ (c = '\\' ∧ '\'' = '"') := fun h => absurd h.2 (by decide)
      rw [hsplit, wordsFrom, if_neg hc, if_neg hdouble, ih]
      simp

/-- A quoted word, up to where it ends. -/
theorem wordsFrom_quoteWord (hplain : ∀ c, plain c = true → Bare c) (word rest : List Char) :
    ∃ quoted, (word ≠ [] ∨ quoted = true) ∧
      wordsFrom .blank [] false (quoteWord plain word ++ rest) = wordsFrom .word word quoted rest := by
  unfold quoteWord
  split
  · next h =>
    obtain ⟨hne, hall⟩ := h
    obtain ⟨c, cs, rfl⟩ := List.exists_cons_of_ne_nil hne
    have hbare : ∀ d ∈ c :: cs, Bare d := fun d hd => hplain d (List.all_eq_true.mp hall d hd)
    obtain ⟨hspace, hquote, hescape⟩ := hbare c List.mem_cons_self
    refine ⟨false, .inl hne, ?_⟩
    rw [List.cons_append, wordsFrom, hspace, if_neg Bool.false_ne_true, if_neg hescape, hquote,
      if_neg Bool.false_ne_true, wordsFrom_bare fun d hd => hbare d (List.mem_cons_of_mem _ hd)]
    rfl
  · refine ⟨true, .inr rfl, ?_⟩
    rw [List.cons_append, List.append_assoc, List.singleton_append, wordsFrom, if_neg (by decide),
      if_neg (by decide), if_pos (by decide), wordsFrom_quoted]
    rfl

/-- **The words of quoted words.** -/
theorem splitWords_join (hplain : ∀ c, plain c = true → Bare c) (words : List (List Char)) :
    splitWords ([' '].intercalate (words.map (quoteWord plain))) = some words := by
  unfold splitWords
  induction words with
  | nil => rfl
  | cons word words ih =>
    cases words with
    | nil =>
      obtain ⟨quoted, hquoted, hword⟩ := wordsFrom_quoteWord hplain word []
      rw [List.append_nil] at hword
      rw [List.map_singleton, List.intercalate_singleton, hword, wordsFrom, if_pos hquoted]
    | cons next words =>
      rw [List.map_cons, List.map_cons, List.intercalate_cons_cons, ← List.map_cons,
        List.append_assoc]
      obtain ⟨quoted, hquoted, hword⟩ := wordsFrom_quoteWord hplain word
        ([' '] ++ [' '].intercalate ((next :: words).map (quoteWord plain)))
      rw [hword, List.singleton_append, wordsFrom, if_pos (by decide), if_pos hquoted, ih]
      rfl

end Conductress.Lib.Shell
