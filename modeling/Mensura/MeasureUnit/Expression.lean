namespace Mensura

/-- The characters with the Unicode property White_Space. -/
def isBlank (c : Char) : Bool :=
  let n := c.toNat
  (9 ≤ n && n ≤ 13) || n == 0x20 || n == 0x85 || n == 0xa0 || n == 0x1680 ||
    (0x2000 ≤ n && n ≤ 0x200a) || n == 0x2028 || n == 0x2029 || n == 0x202f || n == 0x205f ||
    n == 0x3000

def skipBlanks (text : List Char) : List Char :=
  text.dropWhile isBlank

/-- Text without the blanks at its two ends. -/
def trimBlanks (text : List Char) : List Char :=
  (skipBlanks (skipBlanks text).reverse).reverse

/-- How many bytes the characters take in UTF-8. -/
def byteLength (text : List Char) : Nat :=
  text.foldl (fun size c => size + c.utf8Size) 0

/-- A written factor: a symbol, and what stands after `^` if there is one. -/
structure Factor where
  symbol : List Char
  exponent : Option (List Char)
deriving DecidableEq

def isSymbolChar (c : Char) : Bool :=
  !isBlank c && c != '*' && c != '/' && c != '^' && c != '(' && c != ')'

def isExponentChar (c : Char) : Bool :=
  c == '-' || c == '+' || c.isDigit

/-- Reads the factor at the start of a text, and answers it with what follows.
There is none where no symbol starts. -/
def readFactor (text : List Char) : Option (Factor × List Char) :=
  let symbol := text.takeWhile isSymbolChar
  if symbol.isEmpty then none
  else match text.dropWhile isSymbolChar with
    | '^' :: rest => some (⟨symbol, some (rest.takeWhile isExponentChar)⟩, rest.dropWhile isExponentChar)
    | rest => some (⟨symbol, none⟩, rest)

/-- A factor takes at least one character, the first of its symbol. -/
theorem readFactor_shorter {text rest : List Char} {factor : Factor}
    (read : readFactor text = some (factor, rest)) : rest.length < text.length := by
  have symbol : text.takeWhile isSymbolChar ≠ [] := by
    intro none
    simp [readFactor, none] at read
  have split := congrArg List.length (List.takeWhile_append_dropWhile (p := isSymbolChar) (l := text))
  have positive := List.length_pos_iff.mpr symbol
  rw [List.length_append] at split
  simp only [readFactor, List.isEmpty_iff, symbol, if_false] at read
  split at read
  · rename_i tail after
    have suffix := (List.dropWhile_suffix (l := tail) isExponentChar).length_le
    rw [after, List.length_cons] at split
    cases read
    omega
  · cases read
    omega

/-- The factors of a product in reading order, and how it ends. -/
structure Product where
  factors : List Factor
  /-- What follows the last factor without its blanks, or the place at which a factor is missing. -/
  ending : Except (List Char) (List Char)

/-- Where the next factor of a product starts, if the text after a factor goes
on with one: behind a `*` with any blanks around it, or behind blanks alone. -/
def nextFactor? (text : List Char) : Option (List Char) :=
  match skipBlanks text with
  | '*' :: rest => some (skipBlanks rest)
  | c :: rest => if (c :: rest).length < text.length && isSymbolChar c then some (c :: rest) else none
  | [] => none

theorem skipBlanks_length_le (text : List Char) : (skipBlanks text).length ≤ text.length :=
  (List.dropWhile_suffix isBlank).length_le

theorem nextFactor?_length_le {text next : List Char} (found : nextFactor? text = some next) :
    next.length ≤ text.length := by
  have skipped := skipBlanks_length_le text
  unfold nextFactor? at found
  split at found
  · rename_i rest start
    have again := skipBlanks_length_le rest
    rw [start, List.length_cons] at skipped
    cases found
    omega
  · rename_i start
    rw [start] at skipped
    split at found
    · cases found
      exact skipped
    · cases found
  · cases found

/-- Reads a product that starts with a factor at the start of the text. -/
def readFactors (text : List Char) : Product :=
  match _read : readFactor text with
  | none => ⟨[], .error text⟩
  | some (factor, rest) =>
    match _found : nextFactor? rest with
    | none => ⟨[factor], .ok (skipBlanks rest)⟩
    | some next =>
      let more := readFactors next
      ⟨factor :: more.factors, more.ending⟩
termination_by text.length
decreasing_by
  have := readFactor_shorter _read
  have := nextFactor?_length_le _found
  omega

/-- Reads a product. Blanks in front of it do not count. -/
def readProduct (text : List Char) : Product :=
  readFactors (skipBlanks text)

end Mensura
