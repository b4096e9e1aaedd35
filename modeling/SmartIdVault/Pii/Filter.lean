import SmartIdVault.Lib.Redaction
import SmartIdVault.Pii.Validators

/-! `filterPii` of `lib/piiFilter.ts`: for each category in turn, what its pattern matches in the
text that the categories before it have left is replaced, if it passes the check of the category. -/

namespace SmartIdVault.Pii

open Utf16 (ofString)
open Regex (assert set cat rep opt seq anyOf bounded wordBoundary isSpace)

inductive PiiCategory where
  | password
  | iban
  | creditCard
  | ssn
  | email
  | phone
  | name
  | address
  | estonianIdCode
  | passport
  deriving DecidableEq, Repr

/-! ### Patterns -/

/-- `\d{min,max}`. -/
def digits (min : Nat) (max : Option Nat) : Regex UInt16 := rep (set Json.isDigit) min max

def spaces (min : Nat) : Regex UInt16 := rep (set isSpace) min none

def isLetter (u : UInt16) : Bool := isUpper u || isLower u

/-- One of the units of a class. -/
def unitOf (units : String) : Regex UInt16 := set (ofString units).contains

def literal (text : String) : Regex UInt16 := seq ((ofString text).map fun u => set (· == u))

def toLower (u : UInt16) : UInt16 := if isUpper u then u + 32 else u

/-- A text in upper or lower case. -/
def anyCase (text : String) : Regex UInt16 :=
  seq ((ofString text).map fun u => set fun v => toLower v == toLower u)

/-- `/\b(password|passwd|pwd|pin[12]?)\s*[:=]\s*\S{1,64}(?=\s|$)/gi`. -/
def passwordRe : Regex UInt16 := seq [assert wordBoundary,
  anyOf [anyCase "password", anyCase "passwd", anyCase "pwd",
    cat (anyCase "pin") (opt (unitOf "12"))],
  spaces 0, unitOf ":=", spaces 0, rep (set fun u => !isSpace u) 1 (some 64),
  assert fun _ next => next.all isSpace]

/-- `[A-Z]{2}\d{2}\s?(?:\d{4}\s?){2,7}\d{1,4}`, in upper or lower case. -/
def ibanBody : Regex UInt16 := seq [rep (set isLetter) 2 (some 2), digits 2 (some 2),
  opt (set isSpace), rep (cat (digits 4 (some 4)) (opt (set isSpace))) 2 (some 7),
  digits 1 (some 4)]

/-- `/\b[A-Z]{2}\d{2}\s?(?:\d{4}\s?){2,7}\d{1,4}\b/gi`. -/
def ibanRe : Regex UInt16 := bounded ibanBody

/-- `(?:\d[\s-]?){13,19}`. -/
def creditCardBody : Regex UInt16 :=
  rep (cat (set Json.isDigit) (opt (set isSeparator))) 13 (some 19)

/-- `/\b(?:\d[\s-]?){13,19}\b/g`. -/
def creditCardRe : Regex UInt16 := bounded creditCardBody

/-- `/\b\d{3}[\s-]?\d{2}[\s-]?\d{4}\b/g`. -/
def ssnRe : Regex UInt16 := bounded <| seq [digits 3 (some 3), opt (set isSeparator),
  digits 2 (some 2), opt (set isSeparator), digits 4 (some 4)]

/-- `/\b[A-Za-z0-9._%+-]+@[A-Za-z0-9.-]+\.[A-Z|a-z]{2,}\b/g`. -/
def emailRe : Regex UInt16 := bounded <| seq [
  rep (set fun u => isAlphanumeric u || (ofString "._%+-").contains u) 1 none, unitOf "@",
  rep (set fun u => isAlphanumeric u || (ofString ".-").contains u) 1 none, unitOf ".",
  rep (set fun u => isLetter u || u = 0x7C) 2 none]

/-- `[-.\s]`. -/
def phoneSeparator : Regex UInt16 := set fun u => (ofString "-.").contains u || isSpace u

/-- `(?:\+?\d{1,3}[-.\s]?)?\(?\d{2,4}\)?[-.\s]?\d{2,4}[-.\s]?\d{2,4}`. -/
def phoneBody : Regex UInt16 := seq [
  opt (seq [opt (unitOf "+"), digits 1 (some 3), opt phoneSeparator]), opt (unitOf "("),
  digits 2 (some 4), opt (unitOf ")"), opt phoneSeparator, digits 2 (some 4), opt phoneSeparator,
  digits 2 (some 4)]

/-- `/\b(?:\+?\d{1,3}[-.\s]?)?\(?\d{2,4}\)?[-.\s]?\d{2,4}[-.\s]?\d{2,4}\b/g`. -/
def phoneRe : Regex UInt16 := bounded phoneBody

/-- `/\b(Mr\.|Mrs\.|Ms\.|Dr\.|Prof\.)\s+[A-Z][a-z]+\s+[A-Z][a-z]+\b/g`. -/
def nameRe : Regex UInt16 := bounded <| seq [
  anyOf (["Mr.", "Mrs.", "Ms.", "Dr.", "Prof."].map literal),
  spaces 1, set isUpper, rep (set isLower) 1 none,
  spaces 1, set isUpper, rep (set isLower) 1 none]

/-- `/\b\d+\s+[A-Z][a-z]+\s+(Street|…|Ct)\b/gi`. -/
def addressRe : Regex UInt16 := bounded <| seq [digits 1 none, spaces 1, set isLetter,
  rep (set isLetter) 1 none, spaces 1,
  anyOf (["Street", "St", "Avenue", "Ave", "Road", "Rd", "Boulevard", "Blvd", "Drive", "Dr",
    "Lane", "Ln", "Way", "Court", "Ct"].map anyCase)]

/-- `/\b\d{11}\b(?:\s*[A-Z]{2})?/g`. -/
def estonianIdCodeRe : Regex UInt16 :=
  cat (bounded (digits 11 (some 11))) (opt (cat (spaces 0) (rep (set isUpper) 2 (some 2))))

/-- `/\b[A-Z]{2}\d{6,8}\b/gi`. -/
def passportRe : Regex UInt16 :=
  bounded (cat (rep (set isLetter) 2 (some 2)) (digits 6 (some 8)))

/-- `PATTERNS`, in the order of its entries. -/
def patterns : List (PiiCategory × Regex UInt16) :=
  [(.password, passwordRe), (.iban, ibanRe), (.creditCard, creditCardRe), (.ssn, ssnRe),
    (.email, emailRe), (.phone, phoneRe), (.name, nameRe), (.address, addressRe),
    (.estonianIdCode, estonianIdCodeRe), (.passport, passportRe)]

/-! ### The filter -/

/-- `REDACTED`. -/
def redacted : Redaction.Mark isSpace where
  first := 0x5B
  rest := ofString "REDACTED]"
  noSep := by decide

/-- The check on a match; a category without one replaces all of its matches. -/
def isValid : PiiCategory → Utf16 → Bool
  | .creditCard => isValidCardNumber
  | .iban => isValidIban
  | .estonianIdCode => isValidEstonianIdCode
  | _ => fun _ => true

structure FilteredContent where
  text : Utf16
  redactionCount : Nat := 0
  /-- In the order in which they are added to the set. -/
  categories : List PiiCategory := []
  deriving DecidableEq, Repr

def FilteredContent.hasRedactions (content : FilteredContent) : Bool := 0 < content.redactionCount

/-- One turn of the loop over `PATTERNS`. -/
def filterCategory (content : FilteredContent) (entry : PiiCategory × Regex UInt16) :
    FilteredContent :=
  let (category, pattern) := entry
  let found := pattern.allMatches content.text
  if found = [] then content
  else
    let count := (found.filter (isValid category)).length
    { text := Redaction.redact redacted pattern (isValid category) content.text
      redactionCount := content.redactionCount + count
      categories := if 0 < count then content.categories ++ [category] else content.categories }

def filterPii (text : Utf16) : FilteredContent := patterns.foldl filterCategory { text }

theorem text_filterCategory (content : FilteredContent) (category : PiiCategory)
    (pattern : Regex UInt16) : (filterCategory content (category, pattern)).text =
      Redaction.redact redacted pattern (isValid category) content.text := by
  simp only [filterCategory]
  split
  next h => exact (Regex.replaceAll_of_allMatches_eq_nil h _).symm
  next => rfl

end SmartIdVault.Pii
