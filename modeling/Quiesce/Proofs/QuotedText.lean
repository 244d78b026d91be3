import Quiesce.Text.Quoted
/-!
# Reading quoted text

Quoted text can be read back, whatever characters it has: the reader knows at every character
whether it stands by itself, belongs to an escape or ends the text (`Cursor`), and no escape is the
beginning of another one (`read_escape`). So a text and whatever follows it are told apart
(`read_flatMap_escape`), and an optional text is known from the form in which it is shown
(`readOption_quoteOption`).
-/

namespace Quiesce.Text

/-- Where a reader of quoted text stands. -/
inductive Cursor
  /-- Between the quotes, at the beginning of a character. -/
  | plain
  /-- Behind a backslash. -/
  | escape
  /-- Before the brace that opens a code point. -/
  | brace
  /-- Among the digits of a code point, of which these have been read. -/
  | digits (value : Nat)
deriving DecidableEq, Repr

/-- The character that is written by this letter behind a backslash. -/
def escaped? : Char → Option Char
  | '0' => some '\x00'
  | 't' => some '\t'
  | 'r' => some '\r'
  | 'n' => some '\n'
  | '\\' => some '\\'
  | '"' => some '"'
  | _ => none

/-- The value of a hexadecimal digit. -/
def hexValue? (c : Char) : Option Nat :=
  (List.range 16).find? fun v => v.digitChar = c

/-- Reads a text up to the closing quote; what follows is left over. -/
def read : Cursor → List Char → Option (List Char × List Char)
  | _, [] => none
  | .plain, c :: cs =>
    if c = '"' then some ([], cs)
    else if c = '\\' then read .escape cs
    else (read .plain cs).map fun (text, rest) => (c :: text, rest)
  | .escape, c :: cs =>
    if c = 'u' then read .brace cs
    else do
      let meant ← escaped? c
      let (text, rest) ← read .plain cs
      return (meant :: text, rest)
  | .brace, c :: cs => if c = '\x7b' then read (.digits 0) cs else none
  | .digits value, c :: cs =>
    if c = '\x7d' then (read .plain cs).map fun (text, rest) => (Char.ofNat value :: text, rest)
    else do
      let digit ← hexValue? c
      read (.digits (16 * value + digit)) cs

/-- The text behind an opening quote and an optional text's first letters, if it is there and
nothing but the closing parenthesis follows it. -/
def readOption (shown : String) : Option String :=
  match shown.toList with
  | 'S' :: 'o' :: 'm' :: 'e' :: '(' :: '"' :: cs =>
    match read .plain cs with
    | some (text, [')']) => some (String.ofList text)
    | _ => none
  | _ => none

/-! ## One character -/

theorem hexValue?_digitChar {v : Nat} (digit : v < 16) : hexValue? v.digitChar = some v := by
  have each : ∀ v < 16, hexValue? v.digitChar = some v := by decide
  exact each v digit

theorem digitChar_ne_brace {v : Nat} (digit : v < 16) : v.digitChar ≠ '\x7d' := by
  have each : ∀ v < 16, v.digitChar ≠ '\x7d' := by decide
  exact each v digit

theorem read_digitChar {v : Nat} (digit : v < 16) (value : Nat) (rest : List Char) :
    read (.digits value) (v.digitChar :: rest) = read (.digits (16 * value + v)) rest := by
  simp [read, digitChar_ne_brace digit, hexValue?_digitChar digit]

theorem read_hexDigits (n : Nat) (rest : List Char) :
    read (.digits 0) (hexDigits n ++ rest) = read (.digits n) rest := by
  induction n using Nat.strongRecOn generalizing rest with
  | ind n ih =>
    by_cases digit : n < 16
    · rw [hexDigits, Nat.toDigits_of_lt_base digit, List.singleton_append, read_digitChar digit,
        Nat.mul_zero, Nat.zero_add]
    · have base : 16 ≤ n := Nat.le_of_not_lt digit
      have before := ih (n / 16) (by omega) ((n % 16).digitChar :: rest)
      rw [hexDigits, Nat.toDigits_of_base_le (by decide) base, List.append_assoc,
        List.singleton_append]
      rw [hexDigits] at before
      rw [before, read_digitChar (Nat.mod_lt n (by decide)), Nat.div_add_mod]

/-- **However a character is written, it is read as itself.** -/
theorem read_escape (c : Char) (cs : List Char) :
    read .plain (escape c ++ cs) = (read .plain cs).map fun (text, rest) => (c :: text, rest) := by
  have named : ∀ {letter meant : Char}, letter ≠ 'u' → escaped? letter = some meant →
      read .plain (['\\', letter] ++ cs) =
        (read .plain cs).map fun (text, rest) => (meant :: text, rest) := by
    intro letter meant other known
    cases read : Text.read .plain cs <;> simp [Text.read, other, known, read]
  by_cases special : c ∈ ['\x00', '\t', '\r', '\n', '\\', '"']
  · simp only [List.mem_cons, List.not_mem_nil, or_false] at special
    rcases special with rfl | rfl | rfl | rfl | rfl | rfl
    all_goals exact named (by decide) rfl
  · simp only [List.mem_cons, List.not_mem_nil, or_false, not_or] at special
    obtain ⟨null, tab, ret, line, slash, quote⟩ := special
    by_cases shown : (isGraphemeExtend c || isUnprintable c) = true
    · have written : escape c = codePointEscape c := by
        simp [escape, null, tab, ret, line, slash, quote, shown]
      rw [written, codePointEscape]
      simp [read, read_hexDigits]
    · have written : escape c = [c] := by
        simp [escape, null, tab, ret, line, slash, quote, shown]
      rw [written]
      simp [read, slash, quote]

/-! ## A text -/

/-- A text is told apart from what follows it. -/
theorem read_flatMap_escape (text rest : List Char) :
    read .plain (text.flatMap escape ++ '"' :: rest) = some (text, rest) := by
  induction text with
  | nil => rfl
  | cons c text ih => rw [List.flatMap_cons, List.append_assoc, read_escape, ih, Option.map_some]

/-- **An optional text is known from the form in which it is shown.** -/
@[simp] theorem readOption_quoteOption (text? : Option String) :
    readOption (quoteOption text?) = text? := by
  cases text? with
  | none => rfl
  | some text =>
    have shown : (quoteOption (some text)).toList =
        'S' :: 'o' :: 'm' :: 'e' :: '(' :: '"' :: (text.toList.flatMap escape ++ '"' :: [')']) := by
      simp [quoteOption, quote, quotedChars]
    simp only [readOption, shown, read_flatMap_escape, String.ofList_toList]

example : readOption "Some(\"a\\u\x7b301\x7d\\n\")" = some "a\u0301\n" := by decide +kernel

end Quiesce.Text
