import KernelSU.Lib.Utf16

/-!
# `manager/…/ui/util/SulogHelper.kt`: log lines read back

A Kotlin `String` is its list of UTF-16 code units.  A function of the source that takes the line and an
index takes the code units from that index on, and returns what is left of them for the next index.
-/

namespace KernelSU.App

open KernelSU.Lib

/-- A Kotlin `String`. -/
abbrev KString := List UInt16

/-- A Kotlin character literal below U+10000. -/
def unit (c : Char) : UInt16 := UInt16.ofNat c.toNat

/-- `Char.isWhitespace` of the JVM: the separators of Unicode and the blanks among the controls. -/
def isWhitespace (ch : UInt16) : Bool :=
  let n := ch.toNat
  (0x09 ≤ n && n ≤ 0x0D) || (0x1C ≤ n && n ≤ 0x20) || n = 0xA0 || n = 0x1680 ||
    (0x2000 ≤ n && n ≤ 0x200A) || n = 0x2028 || n = 0x2029 || n = 0x202F || n = 0x205F || n = 0x3000

/-! ### Numbers -/

/-- The zero of every block of ten decimal digits that Unicode has below U+10000. -/
def decimalZeros : List ℕ :=
  [0x0030, 0x0660, 0x06F0, 0x07C0, 0x0966, 0x09E6, 0x0A66, 0x0AE6, 0x0B66, 0x0BE6, 0x0C66, 0x0CE6,
    0x0D66, 0x0DE6, 0x0E50, 0x0ED0, 0x0F20, 0x1040, 0x1090, 0x17E0, 0x1810, 0x1946, 0x19D0, 0x1A80,
    0x1A90, 0x1B50, 0x1BB0, 0x1C40, 0x1C50, 0xA620, 0xA8D0, 0xA900, 0xA9D0, 0xA9F0, 0xAA50, 0xABF0,
    0xFF10]

/-- The first of every run of Latin letters that `Character.digit` takes for digits from ten on. -/
def letterTens : List ℕ := [0x41, 0x61, 0xFF21, 0xFF41]

/-- `Character.digit`. -/
def digitOf (ch : UInt16) (radix : ℕ) : Option ℕ :=
  let n := ch.toNat
  let decimal := decimalZeros.find? (fun first => first ≤ n && n < first + 10)
  let letter := letterTens.find? (fun ten => ten ≤ n && n < ten + 26)
  let value := (decimal.map (n - ·)).orElse fun _ => letter.map (fun ten => n - ten + 10)
  value.filter (· < radix)

/-- The value of the digits from the second one of `String.toIntOrNull`'s loop on. -/
def digitsValue (radix : ℕ) : KString → ℕ → Option ℕ
  | [], value => some value
  | ch :: rest, value => do digitsValue radix rest (value * radix + (← digitOf ch radix))

/-- `String.toIntOrNull`. -/
def toIntOrNull (s : KString) (radix : ℕ) : Option ℤ :=
  match s with
  | [] => none
  | first :: rest =>
    if first < unit '0' then
      if rest = [] then none
      else if first = unit '-' then
        ((digitsValue radix rest 0).filter (· ≤ 2 ^ 31)).map (fun n => -(n : ℤ))
      else if first = unit '+' then ((digitsValue radix rest 0).filter (· < 2 ^ 31)).map (fun n => (n : ℤ))
      else none
    else ((digitsValue radix s 0).filter (· < 2 ^ 31)).map (fun n => (n : ℤ))

/-- `Int.toChar`. -/
def toChar (code : ℤ) : UInt16 := UInt16.ofNat (code % 2 ^ 16).toNat

/-! ### Values -/

/-- `appendHexEscapedSulogChar`, from after the `x` on. -/
def appendHexEscapedSulogChar (line value : KString) : KString × KString :=
  if 2 ≤ line.length then
    match toIntOrNull (line.take 2) 16 with
    | some code => (value ++ [toChar code], line.drop 2)
    | none => (value ++ [unit 'x'], line)
  else (value ++ [unit 'x'], line)

/-- `appendEscapedSulogChar`, from after the backslash on. -/
def appendEscapedSulogChar (line value : KString) : KString × KString :=
  match line with
  | [] => (value ++ [unit '\\'], [])
  | escaped :: rest =>
    if escaped = unit '\\' then (value ++ [unit '\\'], rest)
    else if escaped = unit '"' then (value ++ [unit '"'], rest)
    else if escaped = unit 'n' then (value ++ [unit '\n'], rest)
    else if escaped = unit 'r' then (value ++ [unit '\r'], rest)
    else if escaped = unit 't' then (value ++ [unit '\t'], rest)
    else if escaped = unit 'x' then appendHexEscapedSulogChar rest value
    else (value ++ [escaped], rest)

theorem appendHexEscapedSulogChar_rest (line value : KString) :
    (appendHexEscapedSulogChar line value).2.length ≤ line.length := by
  rw [appendHexEscapedSulogChar]
  repeat' split
  all_goals simp

theorem appendEscapedSulogChar_rest (line value : KString) :
    (appendEscapedSulogChar line value).2.length ≤ line.length := by
  cases line with
  | nil => simp [appendEscapedSulogChar]
  | cons escaped rest =>
    have hhex : (appendHexEscapedSulogChar rest value).2.length ≤ rest.length :=
      appendHexEscapedSulogChar_rest rest value
    rw [appendEscapedSulogChar]
    repeat' split
    all_goals simp only [List.length_cons]; omega

/-- `parseQuotedSulogValue`. -/
def parseQuotedSulogValue (line value : KString) : KString × KString :=
  match line with
  | [] => (value, [])
  | ch :: rest =>
    if ch = unit '"' then (value, rest)
    else if ch = unit '\\' then
      parseQuotedSulogValue (appendEscapedSulogChar rest value).2 (appendEscapedSulogChar rest value).1
    else parseQuotedSulogValue rest (value ++ [ch])
termination_by line.length
decreasing_by
  · have hrest := appendEscapedSulogChar_rest rest value
    simp only [List.length_cons]
    omega
  · simp

/-- `parseUnquotedSulogValue`. -/
def parseUnquotedSulogValue (line : KString) : KString × KString :=
  (line.takeWhile (!isWhitespace ·), line.dropWhile (!isWhitespace ·))

/-- The value that starts after `=`, quoted or not. -/
def parseValue (line : KString) : KString × KString :=
  match line with
  | [] => parseUnquotedSulogValue []
  | ch :: rest =>
    if ch = unit '"' then parseQuotedSulogValue rest [] else parseUnquotedSulogValue (ch :: rest)

/-! ### The fields of a line -/

/-- The map that `buildMap` fills, its entries in the order of the first `put` of each key. -/
abbrev FieldMap := List (KString × KString)

/-- `MutableMap.put`. -/
def put (fields : FieldMap) (key value : KString) : FieldMap :=
  if key ∈ fields.map Prod.fst then
    fields.map (fun entry => if entry.1 = key then (key, value) else entry)
  else fields ++ [(key, value)]

/-- The condition of the loop that looks for the end of a key. -/
def inKey (ch : UInt16) : Bool := ch != unit '=' && !isWhitespace ch

theorem parseQuotedSulogValue_rest (line value : KString) :
    (parseQuotedSulogValue line value).2.length ≤ line.length := by
  induction line, value using parseQuotedSulogValue.induct with
  | case1 value => simp [parseQuotedSulogValue]
  | case2 value rest => simp [parseQuotedSulogValue]
  | case3 value rest hquote ih =>
    have hrest := appendEscapedSulogChar_rest rest value
    rw [parseQuotedSulogValue, if_neg hquote, if_pos rfl, List.length_cons]
    omega
  | case4 value ch rest hquote hslash ih =>
    rw [parseQuotedSulogValue, if_neg hquote, if_neg hslash, List.length_cons]
    omega

theorem parseValue_rest (line : KString) : (parseValue line).2.length ≤ line.length := by
  have hunquoted : ∀ l : KString, (parseUnquotedSulogValue l).2.length ≤ l.length :=
    fun l => (List.dropWhile_sublist _).length_le
  cases line with
  | nil => exact hunquoted []
  | cons ch rest =>
    have hquoted := parseQuotedSulogValue_rest rest []
    rw [parseValue]
    split
    · rw [List.length_cons]
      omega
    · exact hunquoted _

theorem isWhitespace_first {line : KString} {first : UInt16} {tail : KString}
    (hline : line.dropWhile isWhitespace = first :: tail) : isWhitespace first = false := by
  have hhead := List.head?_dropWhile_not isWhitespace line
  rwa [hline] at hhead

/-- A key that starts and does not end at `=` takes at least one code unit. -/
theorem dropWhile_inKey_lt {first ch : UInt16} {tail rest : KString}
    (hfirst : isWhitespace first = false) (hkey : (first :: tail).dropWhile inKey = ch :: rest)
    (hch : ch ≠ unit '=') : (ch :: rest).length < (first :: tail).length := by
  rw [List.dropWhile_cons] at hkey
  split at hkey
  · have hle : (ch :: rest).length ≤ tail.length := hkey ▸ (List.dropWhile_sublist _).length_le
    simp only [List.length_cons] at hle ⊢
    omega
  · next hstop =>
    have hhead : first = ch := (List.cons.inj hkey).1
    subst hhead
    exact absurd (by simp [inKey, hch, hfirst]) hstop

/-- The loop of `parseKeyValueLine`. -/
def parseFields (line : KString) (fields : FieldMap) : FieldMap :=
  match _hline : line.dropWhile isWhitespace with
  | [] => fields
  | first :: tail =>
    match _hkey : (first :: tail).dropWhile inKey with
    | [] => fields
    | ch :: rest =>
      if ch ≠ unit '=' then parseFields ((ch :: rest).dropWhile (!isWhitespace ·)) fields
      else
        parseFields (parseValue rest).2
          (if (first :: tail).takeWhile inKey = [] then fields
            else put fields ((first :: tail).takeWhile inKey) (parseValue rest).1)
termination_by line.length
decreasing_by
  · have hle : (first :: tail).length ≤ line.length := _hline ▸ (List.dropWhile_sublist _).length_le
    have hlt := dropWhile_inKey_lt (isWhitespace_first _hline) _hkey ‹_›
    have hdrop : ((ch :: rest).dropWhile (!isWhitespace ·)).length ≤ (ch :: rest).length :=
      (List.dropWhile_sublist _).length_le
    omega
  · have hle : (first :: tail).length ≤ line.length := _hline ▸ (List.dropWhile_sublist _).length_le
    have hle' : (ch :: rest).length ≤ (first :: tail).length :=
      _hkey ▸ (List.dropWhile_sublist _).length_le
    have hvalue := parseValue_rest rest
    simp only [List.length_cons] at hle hle' ⊢
    omega

/-- `parseKeyValueLine`. -/
def parseKeyValueLine (line : KString) : FieldMap := parseFields line []

end KernelSU.App
