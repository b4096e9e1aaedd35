import SmartIdVault.Lib.Utf
import Mathlib.Algebra.Order.Ring.Unbundled.Rat

/-! JSON values as `JSON.parse` makes them and `JSON.stringify` writes them.  Strings are in UTF-16
code units.  A number is an exact decimal: the rounding of a JavaScript number to 53 bits is left
out.  The fields of an object are in the order in which JavaScript lists its properties. -/

/-- The number `mantissa * 10 ^ exponent`, without trailing zeros in the mantissa. -/
structure Decimal where
  mantissa : Int
  exponent : Int
  normal : mantissa % 10 ≠ 0 ∨ mantissa = 0 ∧ exponent = 0
  deriving DecidableEq, Repr

namespace Decimal

def zero : Decimal := ⟨0, 0, .inr ⟨rfl, rfl⟩⟩

/-- The decimal `m * 10 ^ e` for a mantissa with at most `n` digits. -/
def strip : Nat → Int → Int → Decimal
  | 0, _, _ => zero
  | n + 1, m, e => if h : m % 10 ≠ 0 then ⟨m, e, .inl h⟩ else strip n (m / 10) (e + 1)

def make (m e : Int) : Decimal := strip (m.natAbs.log2 + 1) m e

def ofNat (n : Nat) : Decimal := make n 0

def value (d : Decimal) : ℚ := d.mantissa * 10 ^ d.exponent

/-- `Number.prototype.toString` of a number that is not zero: `digits` with the decimal point after
the first `n` of them. -/
def layout (digits : List Char) (n : Int) : List Char :=
  let k : Int := digits.length
  if k ≤ n ∧ n ≤ 21 then digits ++ List.replicate (n - k).toNat '0'
  else if 0 < n ∧ n ≤ 21 then digits.take n.toNat ++ '.' :: digits.drop n.toNat
  else if -6 < n ∧ n ≤ 0 then '0' :: '.' :: List.replicate (-n).toNat '0' ++ digits
  else
    let exponent := (if 0 ≤ n - 1 then '+' else '-') :: Nat.toDigits 10 (n - 1).natAbs
    match digits with
    | [d] => d :: 'e' :: exponent
    | d :: rest => d :: '.' :: rest ++ 'e' :: exponent
    | [] => []

def text (d : Decimal) : List Char :=
  if d.mantissa = 0 then ['0']
  else
    let digits := Nat.toDigits 10 d.mantissa.natAbs
    let unsigned := layout digits (digits.length + d.exponent)
    if d.mantissa < 0 then '-' :: unsigned else unsigned

end Decimal

inductive Json
  | null
  | bool (b : Bool)
  | num (n : Decimal)
  | str (s : Utf16)
  | arr (items : List Json)
  | obj (fields : List (Utf16 × Json))
  deriving Repr

namespace Json

/-! ### Properties -/

/-- The number that a key is the canonical form of, if it is an array index. -/
def arrayIndex (key : Utf16) : Option Nat :=
  if key = [0x30] then some 0
  else if key ≠ [] ∧ key.length ≤ 10 ∧ key.head? ≠ some 0x30 ∧
      key.all (fun u => 0x30 ≤ u && u ≤ 0x39) then
    let n := key.foldl (fun n u => n * 10 + (u.toNat - 48)) 0
    if n < 2 ^ 32 - 1 then some n else none
  else none

/-- The property `key` goes before one with the key `other`. -/
def before (key other : Utf16) : Bool :=
  match arrayIndex key, arrayIndex other with
  | some i, some j => i < j
  | some _, none => true
  | none, _ => false

def insertField (key : Utf16) (v : Json) : List (Utf16 × Json) → List (Utf16 × Json)
  | [] => [(key, v)]
  | (k, w) :: rest => if before key k then (key, v) :: (k, w) :: rest
      else (k, w) :: insertField key v rest

/-- A property that exists keeps its place. -/
def setField (fields : List (Utf16 × Json)) (key : Utf16) (v : Json) : List (Utf16 × Json) :=
  if fields.any (·.1 = key) then fields.map fun f => if f.1 = key then (key, v) else f
  else insertField key v fields

/-- The own property `key` of a value. -/
def field (v : Json) (key : Utf16) : Option Json :=
  match v with
  | .obj fields => fields.lookup key
  | _ => none

/-! ### `JSON.parse` -/

def isSpace (u : UInt16) : Bool := u = 0x20 || u = 0x09 || u = 0x0a || u = 0x0d

def skip (s : Utf16) : Utf16 := s.dropWhile isSpace

def isDigit (u : UInt16) : Bool := 0x30 ≤ u && u ≤ 0x39

/-- The digits at the beginning of a text, and the rest of it. -/
def digits (s : Utf16) : List Nat × Utf16 :=
  ((s.takeWhile isDigit).map fun u => u.toNat - 48, s.dropWhile isDigit)

def ofDigits (ds : List Nat) : Nat := ds.foldl (fun n d => n * 10 + d) 0

def fraction : Utf16 → Option (List Nat × Utf16)
  | 0x2e :: rest => if (digits rest).1 = [] then none else some (digits rest)
  | s => some ([], s)

def exponentDigits (s : Utf16) : Option (Nat × Utf16) :=
  if (digits s).1 = [] then none else some (ofDigits (digits s).1, (digits s).2)

def exponent : Utf16 → Option (Int × Utf16)
  | u :: rest =>
    if u = 0x65 ∨ u = 0x45 then
      match rest with
      | 0x2b :: rest => (exponentDigits rest).map fun (n, s) => ((n : Int), s)
      | 0x2d :: rest => (exponentDigits rest).map fun (n, s) => (-(n : Int), s)
      | rest => (exponentDigits rest).map fun (n, s) => ((n : Int), s)
    else some (0, u :: rest)
  | [] => some (0, [])

def unsigned (s : Utf16) : Option ((Nat × Int) × Utf16) := do
  let (int, s) := digits s
  if int = [] ∨ int.head? = some 0 ∧ 1 < int.length then none
  let (frac, s) ← fraction s
  let (e, s) ← exponent s
  return ((ofDigits (int ++ frac), e - frac.length), s)

def number : Utf16 → Option (Decimal × Utf16)
  | 0x2d :: rest => (unsigned rest).map fun ((m, e), s) => (.make (-m) e, s)
  | s => (unsigned s).map fun ((m, e), s) => (.make m e, s)

def hexDigit (u : UInt16) : Option UInt16 :=
  if 0x30 ≤ u ∧ u ≤ 0x39 then some (u - 0x30)
  else if 0x61 ≤ u ∧ u ≤ 0x66 then some (u - 0x57)
  else if 0x41 ≤ u ∧ u ≤ 0x46 then some (u - 0x37)
  else none

def escaped (u : UInt16) : Option UInt16 :=
  if u = 0x22 ∨ u = 0x5c ∨ u = 0x2f then some u
  else if u = 0x62 then some 0x08
  else if u = 0x66 then some 0x0c
  else if u = 0x6e then some 0x0a
  else if u = 0x72 then some 0x0d
  else if u = 0x74 then some 0x09
  else none

/-- The string whose opening quote has been read. -/
def stringBody : Utf16 → Option (Utf16 × Utf16)
  | [] => none
  | 0x22 :: rest => some ([], rest)
  | 0x5c :: 0x75 :: a :: b :: c :: d :: rest => do
    let u := (← hexDigit a) * 0x1000 + (← hexDigit b) * 0x100 + (← hexDigit c) * 0x10 +
      (← hexDigit d)
    let (s, rest) ← stringBody rest
    return (u :: s, rest)
  | 0x5c :: u :: rest => do
    let u ← escaped u
    let (s, rest) ← stringBody rest
    return (u :: s, rest)
  | u :: rest =>
    if u < 0x20 ∨ u = 0x5c then none
    else (stringBody rest).map fun (s, rest) => (u :: s, rest)

def literals : List (Utf16 × Json) :=
  [(Utf16.ofString "null", .null), (Utf16.ofString "true", .bool true),
    (Utf16.ofString "false", .bool false)]

def literal (s : Utf16) : Option (Json × Utf16) :=
  (literals.find? fun l => l.1.isPrefixOf s).map fun l => (l.2, s.drop l.1.length)

mutual

/-- The value at the beginning of a text, and the rest of it.  Every level of recursion takes one
unit of fuel. -/
def value : Nat → Utf16 → Option (Json × Utf16)
  | 0, _ => none
  | n + 1, s =>
    match skip s with
    | 0x22 :: rest => (stringBody rest).map fun (t, s) => (.str t, s)
    | 0x5b :: rest =>
      match skip rest with
      | 0x5d :: rest => some (.arr [], rest)
      | rest => (elements n rest).map fun (vs, s) => (.arr vs, s)
    | 0x7b :: rest =>
      match skip rest with
      | 0x7d :: rest => some (.obj [], rest)
      | rest => (members n [] rest).map fun (fs, s) => (.obj fs, s)
    | s => (literal s).or ((number s).map fun (d, s) => (.num d, s))

def elements : Nat → Utf16 → Option (List Json × Utf16)
  | 0, _ => none
  | n + 1, s => do
    let (v, s) ← value n s
    match skip s with
    | 0x2c :: rest => (elements n rest).map fun (vs, s) => (v :: vs, s)
    | 0x5d :: rest => some ([v], rest)
    | _ => none

/-- The members of an object, added to `fields`. -/
def members : Nat → List (Utf16 × Json) → Utf16 → Option (List (Utf16 × Json) × Utf16)
  | 0, _, _ => none
  | n + 1, fields, s =>
    match skip s with
    | 0x22 :: rest => do
      let (key, s) ← stringBody rest
      match skip s with
      | 0x3a :: rest => do
        let (v, s) ← value n rest
        match skip s with
        | 0x2c :: rest => members n (setField fields key v) rest
        | 0x7d :: rest => some (setField fields key v, rest)
        | _ => none
      | _ => none
    | _ => none

end

/-- `JSON.parse`, or `none` where it throws.  A level of recursion takes a unit of the text, or is
followed by one that does. -/
def parse (s : Utf16) : Option Json :=
  (value (2 * s.length + 2) s).bind fun (v, rest) => if skip rest = [] then some v else none

/-! ### `JSON.stringify` -/

def hexUnit (n : UInt16) : UInt16 := if n < 10 then n + 0x30 else n + 0x57

def escapeUnit (u : UInt16) : Utf16 :=
  [0x5c, 0x75, hexUnit (u / 0x1000), hexUnit (u / 0x100 % 16), hexUnit (u / 0x10 % 16),
    hexUnit (u % 16)]

def quoteUnit (u : UInt16) : Utf16 :=
  if u = 0x22 ∨ u = 0x5c then [0x5c, u]
  else if u = 0x08 then [0x5c, 0x62]
  else if u = 0x0c then [0x5c, 0x66]
  else if u = 0x0a then [0x5c, 0x6e]
  else if u = 0x0d then [0x5c, 0x72]
  else if u = 0x09 then [0x5c, 0x74]
  else if u < 0x20 ∨ Utf16.isHigh u ∨ Utf16.isLow u then escapeUnit u
  else [u]

/-- The units of a string in quotes: a pair of surrogates stands as it is, a lone one is escaped. -/
def quoteBody : Utf16 → Utf16
  | [] => []
  | [u] => quoteUnit u
  | u :: v :: rest =>
    if Utf16.isHigh u && Utf16.isLow v then u :: v :: quoteBody rest
    else quoteUnit u ++ quoteBody (v :: rest)

def quote (s : Utf16) : Utf16 := 0x22 :: quoteBody s ++ [0x22]

mutual

def stringify : Json → Utf16
  | .null => Utf16.ofString "null"
  | .bool true => Utf16.ofString "true"
  | .bool false => Utf16.ofString "false"
  | .num n => Utf16.ofChars n.text
  | .str s => quote s
  | .arr items => 0x5b :: stringifyItems items ++ [0x5d]
  | .obj fields => 0x7b :: stringifyFields fields ++ [0x7d]

def stringifyItems : List Json → Utf16
  | [] => []
  | [v] => stringify v
  | v :: w :: rest => stringify v ++ 0x2c :: stringifyItems (w :: rest)

def stringifyFields : List (Utf16 × Json) → Utf16
  | [] => []
  | [(key, v)] => quote key ++ 0x3a :: stringify v
  | (key, v) :: f :: rest => quote key ++ 0x3a :: stringify v ++ 0x2c :: stringifyFields (f :: rest)

end

end Json
