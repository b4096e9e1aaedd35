import SmartIdVault.DeviceRegistry.Names
import SmartIdVault.Pii.Filter
import SmartIdVault.Transaction.Registry

/-! `detectTransaction` of `lib/transaction/transactionDetector.ts` on a page: the detector of LHV,
then the declarative detectors of the registry, then the text of the page.  What a page is asked for
are the elements of selectors; what the search through its text finds is given. -/

namespace SmartIdVault.Transaction

open Utf16 (ofString)
open Regex (assert set rep seq anyOf isSpace)
open DeviceRegistry (trim)
open Pii (anyCase)

/-! ### Pages -/

/-- `firstText` is the text of the first child if that is a text node. -/
structure Element where
  firstText : Option Utf16
  textContent : Utf16

/-- `document.querySelector`, which throws on what is no selector. -/
structure Page where
  querySelector : Json → Except Utf16 (Option Element)
  -- what `for … of` throws on a value that is not iterable
  notIterable : Utf16

structure TransactionResult where
  amount : Utf16
  recipient : Utf16
  iban : Option Utf16
  deriving DecidableEq, Repr

structure Detector where
  name : Utf16
  urlPattern : Utf16 → Bool
  detect : Except Utf16 (Option TransactionResult)

structure DetectResult where
  success : Bool
  transaction : Option TransactionResult := none
  detectorName : Option Utf16 := none
  error : Option Utf16 := none
  deriving DecidableEq, Repr

/-- `text.replace(/\s+/g, by)`. -/
def replaceSpaces (by' text : Utf16) : Utf16 :=
  (rep (set isSpace) 1 none).replaceAll (fun _ => by') text

/-! ### The detector of LHV (`detectors/lhvDetector.ts`) -/

/-- The loop of `extractAmount`, `extractRecipient` and `extractIban`. -/
def extract (page : Page) (by' : Utf16) (accept : Utf16 → Bool) :
    List String → Except Utf16 (Option Utf16)
  | [] => .ok none
  | sel :: rest => do
    match ← page.querySelector (.str (ofString sel)) with
    | none => extract page by' accept rest
    | some el =>
      let cleaned := trim (replaceSpaces by' el.textContent)
      if el.textContent ≠ [] ∧ accept cleaned then return some cleaned
      extract page by' accept rest

def isUpperOrDigit (u : UInt16) : Bool := Pii.isUpper u || Json.isDigit u

/-- `/^[A-Z]{2}\d{2}[A-Z0-9]+$/`. -/
def ibanRe : Regex UInt16 := seq [assert fun before _ => before.isNone,
  rep (set Pii.isUpper) 2 (some 2), rep (set Json.isDigit) 2 (some 2),
  rep (set isUpperOrDigit) 1 none, assert fun _ after => after.isNone]

def extractAmount (page : Page) : Except Utf16 (Option Utf16) :=
  extract page [0x20] (fun cleaned => cleaned.any Json.isDigit)
    [".amount-value", ".transaction-amount", "[data-test-id=\"transaction-amount\"]",
      ".payment-amount", ".sum"]

def extractRecipient (page : Page) : Except Utf16 (Option Utf16) :=
  extract page [0x20] (fun cleaned => 2 ≤ cleaned.length)
    [".recipient-name", ".beneficiary-name", "[data-test-id=\"beneficiary\"]",
      ".payment-receiver", ".receiver"]

def extractIban (page : Page) : Except Utf16 (Option Utf16) :=
  extract page [] ibanRe.test
    [".iban", ".account-number", "[data-test-id=\"beneficiary-iban\"]", ".receiver-account",
      ".account-iban"]

/-- `/lhv\.ee/`. -/
def lhvPattern : Regex UInt16 := Pii.literal "lhv.ee"

/-- What `detect` tries; it returns `null` where this throws. -/
def lhvTransaction (page : Page) : Except Utf16 (Option TransactionResult) := do
  let amount ← extractAmount page
  let recipient ← extractRecipient page
  let iban ← extractIban page
  match amount, recipient with
  | some amount, some recipient => return some { amount := amount, recipient := recipient, iban }
  | _, _ => return none

def createLhvDetector (page : Page) : Detector where
  name := ofString "lhv.ee"
  urlPattern := lhvPattern.test
  detect := .ok (lhvTransaction page).toOption.join

/-! ### Declarative detectors -/

/-- `/^(?:amount|sum|…|transfer)[:\s]*/i`. -/
def knownLabels : Regex UInt16 := seq [assert fun before _ => before.isNone,
  anyOf (["amount", "sum", "total", "recipient", "saaja", "makse", "viitenumber", "selgitus",
    "payment", "transfer"].map anyCase),
  rep (set fun u => u == 0x3A || isSpace u) 0 none]

def extractCleanText (element : Element) : Option Utf16 :=
  let raw := trim element.textContent
  if raw = [] then none
  else
    let cleaned := trim (replaceSpaces [0x20] (knownLabels.replaceAll (fun _ => []) raw))
    if cleaned = [] then none else some cleaned

/-- What an element that a selector has found gives. -/
def elementText (element : Element) : Option Utf16 :=
  match (element.firstText.map trim).filter (fun direct => direct ≠ [] ∧ !knownLabels.test direct)
  with
  | some direct => some direct
  | none => extractCleanText element

def querySelectors (page : Page) (selectors : List Json) : Option Utf16 :=
  selectors.findSome? fun sel =>
    match page.querySelector sel with
    | .error _ | .ok none => none
    | .ok (some element) => elementText element

/-- The code points of a text, each as a text. -/
def codePoints : Utf16 → List Utf16
  | [] => []
  | [u] => [[u]]
  | u :: v :: rest =>
    if Utf16.isHigh u && Utf16.isLow v then [u, v] :: codePoints rest
    else [u] :: codePoints (v :: rest)

/-- What `for … of` goes through. -/
def Page.iterate (page : Page) : Json → Except Utf16 (List Json)
  | .arr items => .ok items
  | .str s => .ok ((codePoints s).map .str)
  | _ => .error page.notIterable

/-- A value of `JSON.parse` is truthy. -/
def isTruthy : Json → Bool
  | .null => false
  | .bool b => b
  | .num n => n.mantissa ≠ 0
  | .str s => s ≠ []
  | .arr _ | .obj _ => true

namespace DeclarativeDetector

def expects (d : DeclarativeDetector) : List Json :=
  match d.json.field (ofString "expects") with
  | some (.arr expects) => expects
  | _ => []

def selectors (d : DeclarativeDetector) (key : String) : Option Json :=
  (d.json.field (ofString "selectors")).bind (·.field (ofString key))

def domain (d : DeclarativeDetector) : Utf16 :=
  match d.json.field (ofString "domain") with
  | some (.str domain) => domain
  | _ => []

end DeclarativeDetector

/-- A `Partial<TransactionResult>`. -/
structure Found where
  amount : Option Utf16 := none
  recipient : Option Utf16 := none
  iban : Option Utf16 := none

/-- The values that the selectors under `key` find. -/
def Page.select (page : Page) (d : DeclarativeDetector) (key : String) :
    Except Utf16 (Option Utf16) :=
  ((d.selectors key).elim (.error page.notIterable) page.iterate).map (querySelectors page)

/-- One turn of the loop over the fields that the detector expects. -/
def collect (page : Page) (d : DeclarativeDetector) (result : Found) (field : Json) :
    Except Utf16 Found :=
  match field with
  | .str name =>
    if name = ofString "amount" then do
      return { result with amount := (← page.select d "amount").or result.amount }
    else if name = ofString "recipient" then do
      return { result with recipient := (← page.select d "recipient").or result.recipient }
    else if name = ofString "iban" ∧ (d.selectors "iban").any isTruthy then do
      return { result with iban := (← page.select d "iban").or result.iban }
    else return result
  | _ => return result

def detectWithDeclarativeSelectors (page : Page) (d : DeclarativeDetector) :
    Except Utf16 (Option TransactionResult) := do
  let result ← d.expects.foldlM (collect page d) {}
  return if result.amount.isNone ∧ result.recipient.isNone then none
    else some
      { amount := result.amount.getD []
        recipient := result.recipient.getD []
        iban := result.iban }

/-! ### Detection -/

def noTransaction : Utf16 := ofString "No transaction detected on this page"

def noDetector : Utf16 := ofString "No detector available for this page"

/-- The name under which a declarative detector reports. -/
def DeclarativeDetector.reportName (d : DeclarativeDetector) : Utf16 :=
  ofString "registry:" ++ d.domain

/-- The end of `detectTransaction`: what `trySemanticDetection` has found. -/
def semanticResult : Option TransactionResult → DetectResult
  | some result =>
    { success := true, transaction := some result, detectorName := some (ofString "semantic") }
  | none => { success := false, error := some noDetector }

def detectTransaction (test : Expr → Utf16 → Bool) (detectors : List Detector) (page : Page)
    (r : Registry) (semantic : Option TransactionResult) (currentUrl : Utf16) : DetectResult :=
  match detectors.find? (·.urlPattern currentUrl) with
  | some detector =>
    match detector.detect with
    | .error message =>
      { success := false, detectorName := some detector.name, error := some message }
    | .ok none =>
      { success := false, detectorName := some detector.name, error := some noTransaction }
    | .ok (some result) =>
      { success := true, transaction := some result, detectorName := some detector.name }
  | none =>
    match findDeclarativeDetector test r currentUrl with
    | some d =>
      match detectWithDeclarativeSelectors page d with
      | .error message =>
        { success := false, detectorName := some d.reportName, error := some message }
      | .ok (some result) =>
        { success := true, transaction := some result, detectorName := some d.reportName }
      | .ok none => semanticResult semantic
    | none => semanticResult semantic

/-! ### What is reported -/

/-- A text without spaces at its ends. -/
structure Clean (text : Utf16) : Prop where
  nonempty : text ≠ []
  head : ∀ u, text.head? = some u → isSpace u = false
  last : ∀ u, text.getLast? = some u → isSpace u = false

/-- The detector of LHV reports what is on a page of LHV. -/
def ReportedByLhv (url : Utf16) (name : Option Utf16) (tx : TransactionResult) : Prop :=
  name = some (ofString "lhv.ee") ∧ lhvPattern.test url = true ∧
    Clean tx.amount ∧ tx.amount.any Json.isDigit = true ∧
    Clean tx.recipient ∧ 2 ≤ tx.recipient.length ∧
    ∀ iban, tx.iban = some iban → ibanRe.test iban = true

/-- A detector that has been downloaded, is valid and has a safe pattern which matches the page
reports what the page has for it. -/
def ReportedByRegistry (regExp : RegExpParser) (test : Expr → Utf16 → Bool)
    (downloads : List (Download × Int)) (url : Utf16) (name : Option Utf16)
    (tx : TransactionResult) : Prop :=
  ∃ d ts detector pattern e, (d, ts) ∈ downloads ∧ detector ∈ fetchRegistry regExp d ∧
    isValidDetector detector.json = true ∧ name = some detector.reportName ∧
    detector.urlPattern = some pattern ∧ isSafeUrlPattern regExp pattern = true ∧
    regExp.parse pattern = some e ∧ test e (url.take maxUrlTestLength) = true ∧
    (Clean tx.amount ∨ Clean tx.recipient) ∧ (tx.amount = [] ∨ Clean tx.amount) ∧
    (tx.recipient = [] ∨ Clean tx.recipient) ∧ ∀ iban, tx.iban = some iban → Clean iban

section

variable {regExp : RegExpParser} {test : Expr → Utf16 → Bool} {page : Page} {url v : Utf16}
  {tx : TransactionResult} {d : DeclarativeDetector} {r : Registry}

theorem clean_trim {s : Utf16} (h : trim s ≠ []) : Clean (trim s) := by
  refine ⟨h, fun u hu => ?_, fun u hu => ?_⟩
  · obtain ⟨rest, hrest⟩ := List.rdropWhile_prefix isSpace (s.dropWhile isSpace)
    have hhead : (s.dropWhile isSpace).head? = some u := by
      rw [← hrest, List.head?_append, show List.rdropWhile isSpace _ = trim s from rfl, hu]
      rfl
    have hnot := List.head?_dropWhile_not isSpace s
    rwa [hhead] at hnot
  · have hlast := List.rdropWhile_last_not isSpace (s.dropWhile isSpace) h
    rw [List.getLast?_eq_some_getLast h] at hu
    rw [← Option.some.inj hu]
    exact Bool.eq_false_of_not_eq_true hlast

theorem bind_eq_ok {ε α β : Type} {x : Except ε α} {f : α → Except ε β} {b : β}
    (h : (x >>= f) = .ok b) : ∃ a, x = .ok a ∧ f a = .ok b := by
  cases x with
  | error e => cases h
  | ok a => exact ⟨a, rfl, h⟩

/-- What an extraction returns has been accepted. -/
theorem extract_spec {by' : Utf16} {accept : Utf16 → Bool} {selectors : List String}
    (hempty : accept [] = false) (h : extract page by' accept selectors = .ok (some v)) :
    Clean v ∧ accept v = true := by
  induction selectors with
  | nil => cases h
  | cons sel rest ih =>
    obtain ⟨el, -, h⟩ := bind_eq_ok h
    cases el with
    | none => exact ih h
    | some el =>
      simp only at h
      split at h
      next haccept =>
        cases h
        refine ⟨clean_trim fun hnil => ?_, haccept.2⟩
        rw [hnil, hempty] at haccept
        exact absurd haccept.2 (by decide)
      next => exact ih h

theorem lhvTransaction_spec (h : lhvTransaction page = .ok (some tx)) :
    Clean tx.amount ∧ tx.amount.any Json.isDigit = true ∧ Clean tx.recipient ∧
      2 ≤ tx.recipient.length ∧ ∀ iban, tx.iban = some iban → ibanRe.test iban = true := by
  obtain ⟨amount, hamount, h⟩ := bind_eq_ok h
  obtain ⟨recipient, hrecipient, h⟩ := bind_eq_ok h
  obtain ⟨iban, hiban, h⟩ := bind_eq_ok h
  cases amount with
  | none => cases h
  | some amount =>
    cases recipient with
    | none => cases h
    | some recipient =>
      cases h
      obtain ⟨hclean, hdigit⟩ := extract_spec rfl hamount
      obtain ⟨hclean', hlength⟩ := extract_spec rfl hrecipient
      refine ⟨hclean, hdigit, hclean', of_decide_eq_true hlength, fun text htext => ?_⟩
      cases htext
      exact (extract_spec (by decide) hiban).2

theorem clean_elementText {element : Element} (h : elementText element = some v) : Clean v := by
  unfold elementText at h
  split at h
  next direct hdirect =>
    cases h
    obtain ⟨hmap, hne⟩ := Option.filter_eq_some_iff.mp hdirect
    obtain ⟨text, -, rfl⟩ := Option.map_eq_some_iff.mp hmap
    exact clean_trim (of_decide_eq_true hne).1
  next =>
    simp only [extractCleanText] at h
    split at h
    · cases h
    · split at h
      · cases h
      next hne =>
        cases h
        exact clean_trim hne

theorem clean_querySelectors {selectors : List Json} (h : querySelectors page selectors = some v) :
    Clean v := by
  obtain ⟨sel, -, hsel⟩ := List.exists_of_findSome?_eq_some h
  split at hsel
  · cases hsel
  · cases hsel
  · exact clean_elementText hsel

theorem clean_select {key : String} {found : Option Utf16} (h : page.select d key = .ok found)
    (hv : found = some v) : Clean v := by
  unfold Page.select at h
  cases hselectors : (d.selectors key).elim (.error page.notIterable) page.iterate with
  | error message =>
    rw [hselectors] at h
    cases h
  | ok selectors =>
    rw [hselectors] at h
    cases h
    exact clean_querySelectors hv

def Found.Clean (found : Found) : Prop :=
  ∀ v, found.amount = some v ∨ found.recipient = some v ∨ found.iban = some v → Transaction.Clean v

theorem Found.Clean.or {found : Option Utf16} {key : String} (h : page.select d key = .ok found)
    {old : Option Utf16} (hold : ∀ v, old = some v → Transaction.Clean v) :
    ∀ v, found.or old = some v → Transaction.Clean v := by
  intro v hv
  cases found with
  | none => exact hold v hv
  | some w =>
    cases hv
    exact clean_select h rfl

/-- A turn of the loop keeps what has been found clean. -/
theorem Found.Clean.collect {found found' : Found} {field : Json} (h : found.Clean)
    (hstep : collect page d found field = .ok found') : found'.Clean := by
  unfold Transaction.collect at hstep
  split at hstep
  swap
  · cases hstep
    exact h
  split at hstep
  · obtain ⟨amount, hamount, hstep⟩ := bind_eq_ok hstep
    cases hstep
    have hnew := Found.Clean.or hamount fun v hv => h v (.inl hv)
    exact fun v hv => hv.elim (hnew v) fun hv => h v (.inr hv)
  split at hstep
  · obtain ⟨recipient, hrecipient, hstep⟩ := bind_eq_ok hstep
    cases hstep
    have hnew := Found.Clean.or hrecipient fun v hv => h v (.inr (.inl hv))
    exact fun v hv => hv.elim (fun hv => h v (.inl hv)) fun hv =>
      hv.elim (hnew v) fun hv => h v (.inr (.inr hv))
  split at hstep
  · obtain ⟨iban, hiban, hstep⟩ := bind_eq_ok hstep
    cases hstep
    have hnew := Found.Clean.or hiban fun v hv => h v (.inr (.inr hv))
    exact fun v hv => hv.elim (fun hv => h v (.inl hv)) fun hv =>
      hv.elim (fun hv => h v (.inr (.inl hv))) (hnew v)
  · cases hstep
    exact h

theorem Found.Clean.foldlM {found found' : Found} {fields : List Json} (h : found.Clean)
    (hfold : fields.foldlM (Transaction.collect page d) found = .ok found') : found'.Clean := by
  induction fields generalizing found with
  | nil =>
    cases hfold
    exact h
  | cons field fields ih =>
    rw [List.foldlM_cons] at hfold
    obtain ⟨next, hnext, hfold⟩ := bind_eq_ok hfold
    exact ih (h.collect hnext) hfold

theorem detectWithDeclarativeSelectors_spec
    (h : detectWithDeclarativeSelectors page d = .ok (some tx)) :
    (Clean tx.amount ∨ Clean tx.recipient) ∧ (tx.amount = [] ∨ Clean tx.amount) ∧
      (tx.recipient = [] ∨ Clean tx.recipient) ∧ ∀ iban, tx.iban = some iban → Clean iban := by
  obtain ⟨found, hfound, h⟩ := bind_eq_ok h
  have hempty : ({} : Found).Clean := by
    rintro v (hv | hv | hv) <;> cases hv
  have hclean := hempty.foldlM hfound
  obtain ⟨amount, recipient, iban⟩ := found
  simp only at h
  split at h
  · cases h
  next hsome =>
    cases h
    have hamount (v : Utf16) (hv : amount = some v) : Clean v := hclean v (.inl hv)
    have hrecipient (v : Utf16) (hv : recipient = some v) : Clean v := hclean v (.inr (.inl hv))
    refine ⟨?_, ?_, ?_, fun text htext => hclean text (.inr (.inr htext))⟩
    · cases amount with
      | some amount => exact .inl (hamount amount rfl)
      | none =>
        cases recipient with
        | some recipient => exact .inr (hrecipient recipient rfl)
        | none => exact absurd ⟨rfl, rfl⟩ hsome
    · cases amount with
      | some amount => exact .inr (hamount amount rfl)
      | none => exact .inl rfl
    · cases recipient with
      | some recipient => exact .inr (hrecipient recipient rfl)
      | none => exact .inl rfl

/-- A detector that is found has a pattern that is safe and matches. -/
theorem findDeclarativeDetector_spec {now : Int} {es : List RegistryEvent} {s : Registries}
    (hrun : Registries.Run regExp { now } es s) (hr : r ∈ s.copies)
    (h : findDeclarativeDetector test r url = some d) :
    ∃ download ts pattern e, (download, ts) ∈ s.downloads ∧ d ∈ fetchRegistry regExp download ∧
      isValidDetector d.json = true ∧ d.urlPattern = some pattern ∧
      isSafeUrlPattern regExp pattern = true ∧ regExp.parse pattern = some e ∧
      test e (url.take maxUrlTestLength) = true := by
  obtain ⟨detectors, hdetectors, hfind⟩ := Option.bind_eq_some_iff.mp h
  obtain ⟨-, hcaches⟩ := caches_are_downloads hrun hr
  obtain ⟨-, -, download, hdownload, rfl⟩ := hcaches detectors hdetectors
  have hmem := List.mem_of_find?_eq_some hfind
  obtain ⟨hvalid, hcompiled⟩ := valid_of_mem_fetchRegistry hmem
  have hany := List.find?_some hfind
  obtain ⟨e, he, htest⟩ := (Option.any_eq_true _ _).mp hany
  obtain ⟨pattern, hpattern, hparse⟩ := Option.bind_eq_some_iff.mp (hcompiled.symm.trans he)
  unfold compiledPattern at hparse
  split at hparse
  · cases hparse
  next hsafe =>
    exact ⟨download, _, pattern, e, hdownload, hmem, hvalid, hpattern, by simpa using hsafe, hparse,
      htest⟩

end

/-! ### A page with a sum -/

/-- `.sum` is the only element. -/
def samplePage : Page where
  querySelector sel :=
    match sel with
    | .str name =>
      .ok (if name = ofString ".sum" then
        some { firstText := none, textContent := ofString " Sum: 12,50  EUR\n" } else none)
    | _ => .error (ofString "not a valid selector")
  notIterable := ofString "selectors is not iterable"

def sampleTransaction : TransactionResult where
  amount := ofString "12,50 EUR"
  recipient := []
  iban := none

/-- The letter of the sample pattern. -/
def sampleTest (_ : Expr) (url : Utf16) : Bool := url.contains 0x61

end SmartIdVault.Transaction
