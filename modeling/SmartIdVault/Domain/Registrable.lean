import SmartIdVault.Domain.Parser
import SmartIdVault.Lib.JsonNumber

/-! The registrable domain that `parseDomain` takes from a host name.  The host of an http or https
URL is an IPv4 address, an IPv6 address in brackets or a domain name, as the URL parser writes them.
`getRegistrableDomain` counts the parts between dots, and so it takes the last two numbers of an
IPv4 address for a domain, and the dot of the root at the end of a name for a dot before a label. -/

namespace SmartIdVault.Domain

open Utf16 (ofString)

/-! ### Hosts -/

/-- The name without the dot of the root. -/
def rootless (name : Utf16) : Utf16 := if name.getLast? = some dot then name.dropLast else name

/-- The dot of the root, if the name ends with it. -/
def rootOf (name : Utf16) : Utf16 := if name.getLast? = some dot then [dot] else []

def labels (name : Utf16) : List Utf16 := (rootless name).splitOn dot

/-- The code points of a domain are those of ASCII without controls, blanks, upper case letters and
the forbidden ones. -/
def isDomainUnit (u : UInt16) : Bool :=
  0x21 ≤ u && u ≤ 0x7E && !(65 ≤ u && u ≤ 90) && !(ofString "#%/:<>?@[\\]^|").contains u

def isHexDigit (u : UInt16) : Bool := Json.isDigit u || 97 ≤ u && u ≤ 102

/-- A domain whose last label is a number is parsed as an IPv4 address. -/
def endsInNumber (name : Utf16) : Bool :=
  match (labels name).getLast? with
  | none => false
  | some last =>
    last ≠ [] && last.all Json.isDigit ||
      (ofString "0x").isPrefixOf last && (last.drop 2).all isHexDigit

structure DomainName where
  text : Utf16
  nonempty : text ≠ []
  units : ∀ u ∈ text, isDomainUnit u = true
  notNumber : endsInNumber text = false

inductive Host where
  | ipv4 (a b c d : UInt8)
  | ipv6 (pieces : Utf16) (h : ∀ u ∈ pieces, isHexDigit u = true ∨ u = 0x3A)
  | name (name : DomainName)

namespace Host

def text : Host → Utf16
  | ipv4 a b c d => [dot].intercalate ([a, b, c, d].map fun n => ofString (toString n.toNat))
  | ipv6 pieces _ => ofString "[" ++ pieces ++ ofString "]"
  | name n => n.text

end Host

/-! ### Public suffixes -/

/-- How many of the last labels are the public suffix. -/
def suffixLength (labels : List Utf16) : Nat :=
  if knownMultiLevelTlds.contains (joinLast labels 2) then 2 else 1

/-- What approvals are keyed on: an address, or a public suffix and the label before it. -/
inductive Site where
  | address (text : Utf16)
  | named (suffix : List Utf16) (label : Option Utf16)
  deriving DecidableEq, Repr

def siteOf (labels : List Utf16) : Site :=
  let n := labels.length - suffixLength labels
  .named (labels.drop n) (labels.take n).getLast?

def Site.text : Site → Utf16
  | address text => text
  | named suffix label => [dot].intercalate (label.toList ++ suffix)

namespace Host

def site : Host → Site
  | name n => siteOf (labels n.text)
  | host => .address host.text

/-- The public suffix and one more label if there is one; the whole of an address. -/
def registrable : Host → Utf16
  | name n => (siteOf (labels n.text)).text ++ rootOf n.text
  | host => host.text

/-- No IPv4 address, and no name of several labels with the dot of the root. -/
def Plain : Host → Prop
  | ipv4 .. => False
  | ipv6 .. => True
  | name n => n.text.getLast? = some dot → (labels n.text).length = 1

end Host

/-- `name` is the registrable domain, or the subdomain, a dot and the registrable domain. -/
def Splits (name registrableDomain : Utf16) : Option Utf16 → Prop
  | none => name = registrableDomain
  | some subdomain => name = subdomain ++ dot :: registrableDomain

/-- The registrable domain of a host and what is left of it. -/
structure Right (host : Host) (data : ParsedDomain) : Prop where
  registrableDomain_eq : data.registrableDomain = host.registrable
  splits : Splits host.text data.registrableDomain data.subdomain

/-! ### Joined labels -/

section Join

variable {parts : List Utf16} {k : Nat}

theorem join_append {before after : List Utf16} (hbefore : before ≠ []) (hafter : after ≠ []) :
    [dot].intercalate (before ++ after) =
      [dot].intercalate before ++ dot :: [dot].intercalate after := by
  induction before with
  | nil => contradiction
  | cons part before ih =>
    rcases eq_or_ne before [] with rfl | hne
    · show [dot].intercalate (part :: after) = _
      rw [List.intercalate_cons_of_ne_nil hafter, List.intercalate_singleton]
      simp
    · rw [List.cons_append, List.intercalate_cons_of_ne_nil (by simp [hne]), ih hne,
        List.intercalate_cons_of_ne_nil hne]
      simp

theorem joinLast_of_length_le (h : parts.length ≤ k) :
    joinLast parts k = [dot].intercalate parts := by
  rw [joinLast, Nat.sub_eq_zero_of_le h, List.drop_zero]

/-- The last parts are the last ones of any longer end of the list. -/
theorem joinLast_drop {m : Nat} (hle : k ≤ m) :
    joinLast (parts.drop (parts.length - m)) k = joinLast parts k := by
  have hindex : parts.length - m + (parts.length - (parts.length - m) - k) = parts.length - k := by
    omega
  rw [joinLast, joinLast, List.length_drop, List.drop_drop, hindex]

/-- Fewer than all parts are preceded by a dot. -/
theorem exists_join_eq (parts : List Utf16) (hpos : 0 < k) (h : k < parts.length) :
    ∃ pre, [dot].intercalate parts = pre ++ dot :: joinLast parts k := by
  refine ⟨[dot].intercalate (parts.take (parts.length - k)), ?_⟩
  rw [joinLast, ← join_append, List.take_append_drop]
  · simp only [ne_eq, List.take_eq_nil_iff]
    rintro (h | rfl)
    · omega
    · simp at h
  · simp only [ne_eq, List.drop_eq_nil_iff]
    omega

end Join

/-! ### The registrable domain of a name -/

theorem suffixLength_cases (labels : List Utf16) :
    suffixLength labels = 1 ∨ suffixLength labels = 2 := by
  unfold suffixLength
  split
  · exact .inr rfl
  · exact .inl rfl

theorem toLowerCase_of_append {s t : Utf16} (h : toLowerCase (s ++ t) = s ++ t) :
    toLowerCase t = t := by
  rw [toLowerCase, List.map_append] at h
  exact (List.append_inj h (by simp)).2

theorem toLowerCase_eq {s : Utf16} (h : ∀ u ∈ s, (65 ≤ u && u ≤ 90) = false) :
    toLowerCase s = s := by
  have hid : s.map (fun u => if 65 ≤ u && u ≤ 90 then u + 32 else u) = s.map id :=
    List.map_congr_left fun u hu => if_neg (by simpa using h u hu)
  rw [toLowerCase, hid, List.map_id]

/-- `getRegistrableDomain` takes the parts of the suffix and one more, or all of them. -/
theorem getRegistrableDomain_eq {name : Utf16} (hlower : toLowerCase name = name) :
    getRegistrableDomain name =
      joinLast (name.splitOn dot) (suffixLength (name.splitOn dot) + 1) := by
  have hjoin : [dot].intercalate (name.splitOn dot) = name := List.intercalate_splitOn dot
  have hcases := suffixLength_cases (name.splitOn dot)
  simp only [getRegistrableDomain]
  split
  next hle => rw [joinLast_of_length_le (by omega), hjoin]
  next hlt =>
    have hlast : toLowerCase (joinLast (name.splitOn dot) 2) = joinLast (name.splitOn dot) 2 := by
      obtain ⟨pre, hpre⟩ := exists_join_eq (name.splitOn dot) (k := 2) (by omega) (by omega)
      rw [hjoin] at hpre
      rw [hpre, ← List.singleton_append, ← List.append_assoc] at hlower
      exact toLowerCase_of_append hlower
    rw [hlast]
    split
    next hlisted =>
      rw [suffixLength, if_pos hlisted]
      split
      next hle => rw [joinLast_of_length_le (by omega), hjoin]
      next => rfl
    next hlisted => rw [suffixLength, if_neg hlisted]

/-- It is the whole name, or it follows a dot in it. -/
theorem getRegistrableDomain_cases {name : Utf16} (hlower : toLowerCase name = name) :
    name = getRegistrableDomain name ∨ ∃ pre, name = pre ++ dot :: getRegistrableDomain name := by
  have hjoin : [dot].intercalate (name.splitOn dot) = name := List.intercalate_splitOn dot
  rw [getRegistrableDomain_eq hlower]
  rcases Nat.lt_or_ge (suffixLength (name.splitOn dot) + 1) (name.splitOn dot).length with h | h
  · right
    obtain ⟨pre, hpre⟩ := exists_join_eq (name.splitOn dot) (Nat.succ_pos _) h
    exact ⟨pre, by rw [← hpre, hjoin]⟩
  · left
    rw [joinLast_of_length_le h, hjoin]

theorem lastIndexOf_append (pre part : Utf16) (hpart : part ≠ []) :
    lastIndexOf (pre ++ part) part = some pre.length := by
  rw [lastIndexOf, List.find?_eq_some_iff_append]
  refine ⟨by simp, (List.range' (pre.length + 1) part.length).reverse,
    (List.range pre.length).reverse, ?_, ?_⟩
  · rw [List.length_append, List.range_eq_range', List.range_eq_range']
    have hsplit : List.range' 0 (pre.length + part.length + 1) =
        List.range' 0 pre.length ++ pre.length :: List.range' (pre.length + 1) part.length := by
      have h := List.range'_append_1 (s := 0) (m := pre.length) (n := part.length + 1)
      rw [List.range'_succ, Nat.zero_add] at h
      rw [Nat.add_assoc, ← h]
    rw [hsplit]
    simp
  · intro i hi
    have hlt : pre.length < i := by
      simp only [List.mem_reverse, List.mem_range'_1] at hi
      omega
    have hpos := List.length_pos_of_ne_nil hpart
    rw [Bool.not_eq_true', Bool.eq_false_iff]
    intro hthere
    have hstart : part <+: (pre ++ part).drop i := by simpa using hthere
    have hle := hstart.length_le
    rw [List.length_drop, List.length_append] at hle
    omega

/-- What `getSubdomain` leaves of a name. -/
theorem splits_getSubdomain {name registrableDomain : Utf16}
    (h : name = registrableDomain ∨ ∃ pre, name = pre ++ dot :: registrableDomain) :
    Splits name registrableDomain (getSubdomain name registrableDomain) := by
  unfold getSubdomain
  split
  next heq => exact heq
  next hne =>
    obtain ⟨pre, rfl⟩ := h.resolve_left hne
    rw [lastIndexOf_append _ _ (by simp)]
    simp [Splits]

/-! ### Suffixes and labels -/

theorem dot_notMem_of_mem_splitOn (name : Utf16) : ∀ label ∈ name.splitOn dot, dot ∉ label := by
  induction name with
  | nil => simp
  | cons u name ih =>
    rw [List.splitOn_cons_eq_if_modifyHead]
    split
    next => simpa using ih
    next hu =>
      obtain ⟨first, rest, hsplit⟩ := List.exists_cons_of_ne_nil (List.splitOn_ne_nil dot name)
      rw [hsplit, List.forall_mem_cons] at ih
      rw [hsplit, List.modifyHead_cons, List.forall_mem_cons, List.mem_cons, not_or]
      exact ⟨⟨fun h => hu (by simp [h]), ih.1⟩, ih.2⟩

/-- The last element that is taken, and what is dropped. -/
theorem getLast?_take_append_drop {α : Type} (xs : List α) {n : Nat} (h : n ≤ xs.length) :
    (xs.take n).getLast?.toList ++ xs.drop n = xs.drop (n - 1) := by
  cases n with
  | zero => simp
  | succ n =>
    have hlt : n < xs.length := by omega
    rw [List.take_succ_eq_append_getElem hlt, List.getLast?_append, Nat.add_sub_cancel,
      List.drop_eq_getElem_cons hlt]
    simp

theorem text_siteOf (labels : List Utf16) :
    (siteOf labels).text = joinLast labels (suffixLength labels + 1) := by
  rw [siteOf, Site.text, getLast?_take_append_drop _ (by omega), joinLast, Nat.sub_sub]

/-- The site is that of its own labels. -/
theorem siteOf_drop (labels : List Utf16) :
    siteOf (labels.drop (labels.length - (suffixLength labels + 1))) = siteOf labels := by
  have hcases := suffixLength_cases labels
  rcases Nat.le_total labels.length (suffixLength labels + 1) with hle | hlt
  · rw [Nat.sub_eq_zero_of_le hle, List.drop_zero]
  · have hlength : (labels.drop (labels.length - (suffixLength labels + 1))).length =
        suffixLength labels + 1 := by
      rw [List.length_drop]
      omega
    have hsuffix : suffixLength (labels.drop (labels.length - (suffixLength labels + 1))) =
        suffixLength labels := by
      rw [suffixLength, joinLast_drop (by omega)]
      rfl
    have hsplit : labels.length - (suffixLength labels + 1) +
        (suffixLength labels + 1 - suffixLength labels) = labels.length - suffixLength labels := by
      omega
    rw [siteOf, siteOf, hsuffix, hlength, ← hsplit, List.take_add, List.drop_drop,
      List.getLast?_append_of_ne_nil]
    apply List.ne_nil_of_length_pos
    rw [List.length_take, hlength]
    omega

theorem rootless_append_rootOf (name : Utf16) : rootless name ++ rootOf name = name := by
  unfold rootless rootOf
  split
  next h => rw [List.dropLast_append_getLast? dot h]
  next => exact List.append_nil name

theorem listed_not_root : ∀ suffix ∈ knownMultiLevelTlds, suffix.getLast? ≠ some dot := by decide

/-! ### Names -/

section Names

variable {name : Utf16}

theorem getRegistrableDomain_of_noRoot (hlower : toLowerCase name = name)
    (h : name.getLast? ≠ some dot) :
    getRegistrableDomain name = (siteOf (labels name)).text ++ rootOf name := by
  rw [getRegistrableDomain_eq hlower, text_siteOf, labels, rootless, rootOf, if_neg h, if_neg h,
    List.append_nil]

/-- The parts of a name with the dot of the root: its labels and an empty part. -/
theorem splitOn_of_root (h : name.getLast? = some dot) :
    name.splitOn dot = labels name ++ [[]] := by
  have hname := rootless_append_rootOf name
  rw [rootOf, if_pos h] at hname
  rw [labels, ← List.splitOn_nil dot, ← List.splitOn_append_cons_self, hname]

/-- No listed suffix ends with a dot, so that one label is taken and the dot of the root. -/
theorem getRegistrableDomain_of_root (hlower : toLowerCase name = name)
    (h : name.getLast? = some dot) :
    getRegistrableDomain name = joinLast (labels name) 1 ++ [dot] := by
  have hlabels : labels name ≠ [] := List.splitOn_ne_nil dot _
  have hlength := List.length_pos_of_ne_nil hlabels
  have hlast (k : Nat) (hk : 0 < k) (hle : k ≤ (labels name).length) :
      joinLast (labels name ++ [[]]) (k + 1) = joinLast (labels name) k ++ [dot] := by
    rw [joinLast, List.length_append, List.length_singleton, Nat.add_sub_add_right,
      List.drop_append_of_le_length (by omega), join_append _ (by simp), List.intercalate_singleton]
    · rfl
    · simp only [ne_eq, List.drop_eq_nil_iff]
      omega
  have hunlisted : suffixLength (labels name ++ [[]]) = 1 := by
    rw [suffixLength, hlast 1 Nat.one_pos hlength, if_neg]
    intro hlisted
    rw [List.contains_iff_mem] at hlisted
    exact listed_not_root _ hlisted (by simp)
  rw [getRegistrableDomain_eq hlower, splitOn_of_root h, hunlisted, hlast 1 Nat.one_pos hlength]

/-- With the dot of the root the registrable domain is right if there is no second label. -/
theorem registrable_of_root_iff (hlower : toLowerCase name = name) (h : name.getLast? = some dot) :
    getRegistrableDomain name = (siteOf (labels name)).text ++ rootOf name ↔
      (labels name).length = 1 := by
  have hlabels : labels name ≠ [] := List.splitOn_ne_nil dot _
  have hlength := List.length_pos_of_ne_nil hlabels
  have hcases := suffixLength_cases (labels name)
  rw [getRegistrableDomain_of_root hlower h, rootOf, if_pos h, List.append_cancel_right_eq,
    text_siteOf]
  constructor
  · intro heq
    by_contra hne
    have hmore : ∃ pre, joinLast (labels name) (suffixLength (labels name) + 1) =
        pre ++ dot :: joinLast (labels name) 1 := by
      rw [← joinLast_drop (Nat.le_add_left 1 (suffixLength (labels name)))]
      apply exists_join_eq _ Nat.one_pos
      rw [List.length_drop]
      omega
    obtain ⟨pre, hpre⟩ := hmore
    have hsizes := congrArg List.length (heq.trans hpre)
    simp at hsizes
    omega
  · intro hone
    rw [joinLast_of_length_le (by omega), joinLast_of_length_le (by omega)]

end Names

/-! ### Hosts of URLs -/

namespace Host

/-- The parts of an IPv4 address. -/
theorem splitOn_ipv4 (a b c d : UInt8) : (ipv4 a b c d).text.splitOn dot =
    [a, b, c, d].map fun n => ofString (toString n.toNat) := by
  apply List.splitOn_intercalate
  · intro part hpart
    obtain ⟨n, -, rfl⟩ := List.mem_map.mp hpart
    intro hdot
    have hdigit := Json.isDigit_of_mem_decimal hdot
    revert hdigit
    decide
  · simp

theorem isDigit_notUpper {u : UInt16} (h : Json.isDigit u = true) : (65 ≤ u && u ≤ 90) = false := by
  grind [Json.isDigit]

theorem dot_notMem_ipv6 (pieces : Utf16) (h : ∀ u ∈ pieces, isHexDigit u = true ∨ u = 0x3A) :
    dot ∉ (ipv6 pieces h).text := by
  intro hdot
  have hopen : dot ∉ ofString "[" := by decide
  have hclose : dot ∉ ofString "]" := by decide
  simp only [text, List.mem_append, hopen, hclose, false_or, or_false] at hdot
  rcases h dot hdot with hhex | hcolon
  · revert hhex
    decide
  · revert hcolon
    decide

/-- The URL parser writes hosts in lower case. -/
theorem toLowerCase_text (host : Host) : toLowerCase host.text = host.text := by
  apply toLowerCase_eq
  intro u hu
  cases host with
  | ipv4 a b c d =>
    by_cases hdot : u = dot
    · subst hdot
      decide
    · have hpart : ∃ part ∈ (ipv4 a b c d).text.splitOn dot, u ∈ part := by
        have hjoin : [dot].intercalate ((ipv4 a b c d).text.splitOn dot) = (ipv4 a b c d).text :=
          List.intercalate_splitOn dot
        rw [← hjoin] at hu
        revert hu
        rw [splitOn_ipv4]
        simp [List.intercalate_cons_cons, hdot]
      obtain ⟨part, hmem, hupart⟩ := hpart
      rw [splitOn_ipv4] at hmem
      obtain ⟨n, -, rfl⟩ := List.mem_map.mp hmem
      exact isDigit_notUpper (Json.isDigit_of_mem_decimal hupart)
  | ipv6 pieces h =>
    simp only [text, List.mem_append, or_assoc] at hu
    rcases hu with hopen | hpieces | hclose
    · revert u
      decide
    · rcases h u hpieces with hhex | rfl
      · grind [isHexDigit, Json.isDigit]
      · decide
    · revert u
      decide
  | name n =>
    have hunit := n.units u hu
    grind [isDomainUnit]

/-- What is shorter than the address is not the whole of it. -/
theorem getRegistrableDomain_ipv4_ne (a b c d : UInt8) :
    getRegistrableDomain (ipv4 a b c d).text ≠ (ipv4 a b c d).text := by
  intro heq
  have hcases := suffixLength_cases ((ipv4 a b c d).text.splitOn dot)
  have hlength : ((ipv4 a b c d).text.splitOn dot).length = 4 := by
    rw [splitOn_ipv4]
    rfl
  obtain ⟨pre, hpre⟩ := exists_join_eq ((ipv4 a b c d).text.splitOn dot)
    (k := suffixLength ((ipv4 a b c d).text.splitOn dot) + 1) (Nat.succ_pos _) (by omega)
  rw [List.intercalate_splitOn, ← getRegistrableDomain_eq (toLowerCase_text _), heq] at hpre
  have hsizes := congrArg List.length hpre
  simp at hsizes
  omega

theorem getRegistrableDomain_iff (host : Host) :
    getRegistrableDomain host.text = host.registrable ↔ host.Plain := by
  cases host with
  | ipv4 a b c d =>
    simp only [registrable, Plain, iff_false]
    exact getRegistrableDomain_ipv4_ne a b c d
  | ipv6 pieces h =>
    simp only [registrable, Plain, iff_true]
    rw [getRegistrableDomain_eq (toLowerCase_text _), joinLast_of_length_le,
      List.intercalate_splitOn]
    rw [List.splitOn_eq_singleton (dot_notMem_ipv6 pieces h)]
    simp
  | name n =>
    simp only [registrable, Plain]
    by_cases h : n.text.getLast? = some dot
    · simp only [h, true_implies]
      exact registrable_of_root_iff (toLowerCase_text (name n)) h
    · simp only [h, false_implies, iff_true]
      exact getRegistrableDomain_of_noRoot (toLowerCase_text (name n)) h

/-- A name and its registrable domain have the same suffix and label. -/
theorem siteOf_labels_registrable {n : DomainName} (h : (name n).Plain) :
    siteOf (labels (name n).registrable) = siteOf (labels n.text) := by
  have hcode := (getRegistrableDomain_iff (name n)).mpr h
  by_cases hroot : n.text.getLast? = some dot
  · have hone := h hroot
    have hcases := suffixLength_cases (labels n.text)
    have hwhole : (name n).registrable = n.text := by
      rw [registrable, text_siteOf, joinLast_of_length_le (by omega), labels,
        List.intercalate_splitOn, rootless_append_rootOf]
    rw [hwhole]
  · have hnames : ∀ label ∈ (labels n.text).drop
        ((labels n.text).length - (suffixLength (labels n.text) + 1)), dot ∉ label :=
      fun label hlabel => dot_notMem_of_mem_splitOn _ label (List.mem_of_mem_drop hlabel)
    have hsome : (labels n.text).drop
        ((labels n.text).length - (suffixLength (labels n.text) + 1)) ≠ [] := by
      have hlength := List.length_pos_of_ne_nil (List.splitOn_ne_nil dot (rootless n.text))
      rw [ne_eq, List.drop_eq_nil_iff]
      show ¬(labels n.text).length ≤ _
      change 0 < (labels n.text).length at hlength
      omega
    have hlast : (name n).registrable.getLast? ≠ some dot := by
      rw [← hcode]
      intro hdot
      rcases getRegistrableDomain_cases (toLowerCase_text (name n)) with heq | ⟨pre, heq⟩
      · exact hroot (by rw [← hdot, ← heq]; rfl)
      · apply hroot
        rw [show n.text = (name n).text from rfl, heq, List.getLast?_append_cons,
          List.getLast?_cons, hdot]
        rfl
    have hlabels : labels (name n).registrable = (labels n.text).drop
        ((labels n.text).length - (suffixLength (labels n.text) + 1)) := by
      rw [labels, rootless, if_neg hlast, registrable, rootOf, if_neg hroot, List.append_nil,
        text_siteOf]
      exact List.splitOn_intercalate dot hnames hsome
    rw [hlabels, siteOf_drop]

/-- The registrable domain of a name has no bracket. -/
theorem registrable_name_ne_ipv6 {n : DomainName} (h : (name n).Plain) (pieces : Utf16)
    (hpieces : ∀ u ∈ pieces, isHexDigit u = true ∨ u = 0x3A) :
    (name n).registrable ≠ (ipv6 pieces hpieces).registrable := by
  intro heq
  have hcode := (getRegistrableDomain_iff (name n)).mpr h
  have hmem : 0x5B ∈ getRegistrableDomain (name n).text := by
    rw [hcode, heq]
    exact List.mem_append_left _ (List.mem_append_left _ (by decide))
  have hbracket : 0x5B ∈ n.text := by
    rcases getRegistrableDomain_cases (toLowerCase_text (name n)) with hwhole | ⟨pre, hpre⟩
    · rw [← hwhole] at hmem
      exact hmem
    · rw [show n.text = (name n).text from rfl, hpre]
      exact List.mem_append_right _ (List.mem_cons_of_mem _ hmem)
  have hunit := n.units 0x5B hbracket
  revert hunit
  decide

theorem site_eq_of_registrable_eq {host₁ host₂ : Host} (h₁ : host₁.Plain) (h₂ : host₂.Plain)
    (h : host₁.registrable = host₂.registrable) : host₁.site = host₂.site := by
  cases host₁ with
  | ipv4 => exact h₁.elim
  | ipv6 pieces₁ hpieces₁ =>
    cases host₂ with
    | ipv4 => exact h₂.elim
    | ipv6 pieces₂ hpieces₂ => exact congrArg Site.address h
    | name n₂ => exact absurd h.symm (registrable_name_ne_ipv6 h₂ pieces₁ hpieces₁)
  | name n₁ =>
    cases host₂ with
    | ipv4 => exact h₂.elim
    | ipv6 pieces₂ hpieces₂ => exact absurd h (registrable_name_ne_ipv6 h₁ pieces₂ hpieces₂)
    | name n₂ =>
      show siteOf (labels n₁.text) = siteOf (labels n₂.text)
      rw [← siteOf_labels_registrable h₁, ← siteOf_labels_registrable h₂, h]

end Host

/-! ### Parsed domains -/

section Parsed

variable {platform : Platform} {url protocol : Utf16} {host : Host} {data : ParsedDomain}

theorem parseDomain_ok (hparse : platform.parseUrl url = some ⟨protocol, host.text⟩)
    (hok : parseDomain platform url = .ok data) :
    data.registrableDomain = getRegistrableDomain host.text ∧
      data.subdomain = getSubdomain host.text (getRegistrableDomain host.text) := by
  unfold parseDomain at hok
  split at hok
  next => cases hok
  next =>
    simp only [hparse, host.toLowerCase_text] at hok
    split at hok
    next => cases hok
    next =>
      split at hok
      next => cases hok
      next =>
        obtain rfl := Except.ok.inj hok
        exact ⟨rfl, rfl⟩

theorem right_iff (hparse : platform.parseUrl url = some ⟨protocol, host.text⟩)
    (hok : parseDomain platform url = .ok data) : Right host data ↔ host.Plain := by
  obtain ⟨hregistrable, hsubdomain⟩ := parseDomain_ok hparse hok
  rw [← host.getRegistrableDomain_iff]
  constructor
  · intro h
    rw [← hregistrable]
    exact h.registrableDomain_eq
  · intro h
    refine ⟨hregistrable.trans h, ?_⟩
    rw [hsubdomain, hregistrable]
    exact splits_getSubdomain (getRegistrableDomain_cases host.toLowerCase_text)

end Parsed

/-- For two URLs: their registrable domains are right, and equal only for one suffix and label, if
and only if neither host is an IPv4 address or has several labels and the dot of the root. -/
theorem parseDomain_right_iff {platform : Platform} {url₁ url₂ protocol₁ protocol₂ : Utf16}
    {host₁ host₂ : Host} {data₁ data₂ : ParsedDomain}
    (hparse₁ : platform.parseUrl url₁ = some ⟨protocol₁, host₁.text⟩)
    (hparse₂ : platform.parseUrl url₂ = some ⟨protocol₂, host₂.text⟩)
    (hok₁ : parseDomain platform url₁ = .ok data₁) (hok₂ : parseDomain platform url₂ = .ok data₂) :
    (Right host₁ data₁ ∧ Right host₂ data₂ ∧
      (data₁.registrableDomain = data₂.registrableDomain → host₁.site = host₂.site)) ↔
    host₁.Plain ∧ host₂.Plain := by
  rw [right_iff hparse₁ hok₁, right_iff hparse₂ hok₂]
  constructor
  · rintro ⟨h₁, h₂, -⟩
    exact ⟨h₁, h₂⟩
  · rintro ⟨h₁, h₂⟩
    refine ⟨h₁, h₂, fun h => Host.site_eq_of_registrable_eq h₁ h₂ ?_⟩
    rw [(parseDomain_ok hparse₁ hok₁).1, (parseDomain_ok hparse₂ hok₂).1] at h
    rwa [host₁.getRegistrableDomain_iff.mpr h₁, host₂.getRegistrableDomain_iff.mpr h₂] at h

/-- A platform that parses the URL of one host. -/
def platformOf (url : Utf16) (host : Host) : Platform where
  parseUrl s := if s = url then some ⟨ofString "https:", host.text⟩ else none
  dev := false

theorem parseUrl_platformOf (url : Utf16) (host : Host) :
    (platformOf url host).parseUrl url = some ⟨ofString "https:", host.text⟩ := by
  simp [platformOf]

def blogHost : Host := .name {
  text := ofString "blog.example.co.uk"
  nonempty := by decide
  units := by decide
  notNumber := by decide }

/-- `https://blog.example.co.uk/`, as both URLs. -/
theorem parseDomain_right_blog :
    ∃ data, parseDomain (platformOf (ofString "https://blog.example.co.uk/") blogHost)
      (ofString "https://blog.example.co.uk/") = .ok data ∧
    data.registrableDomain = ofString "example.co.uk" ∧ data.subdomain = some (ofString "blog") ∧
    Right blogHost data := by
  have hparse := parseUrl_platformOf (ofString "https://blog.example.co.uk/") blogHost
  have hok : parseDomain (platformOf (ofString "https://blog.example.co.uk/") blogHost)
      (ofString "https://blog.example.co.uk/") = .ok {
        domain := ofString "blog.example.co.uk"
        subdomain := some (ofString "blog")
        registrableDomain := ofString "example.co.uk"
        isPublic := true
        protocol := ofString "https:" } := by
    decide
  have hplain : blogHost.Plain := by
    show (ofString "blog.example.co.uk").getLast? = some dot → _
    decide
  have h := (parseDomain_right_iff hparse hparse hok hok).mpr ⟨hplain, hplain⟩
  exact ⟨_, hok, rfl, rfl, h.1⟩

/-- The registrable domain of `https://8.8.4.4/` is `4.4`. -/
theorem parseDomain_not_right : ¬ ∀ (platform : Platform) (url₁ url₂ protocol₁ protocol₂ : Utf16)
    (host₁ host₂ : Host) (data₁ data₂ : ParsedDomain),
    platform.parseUrl url₁ = some ⟨protocol₁, host₁.text⟩ →
    platform.parseUrl url₂ = some ⟨protocol₂, host₂.text⟩ →
    parseDomain platform url₁ = .ok data₁ → parseDomain platform url₂ = .ok data₂ →
    Right host₁ data₁ ∧ Right host₂ data₂ ∧
      (data₁.registrableDomain = data₂.registrableDomain → host₁.site = host₂.site) := by
  intro h
  have hparse := parseUrl_platformOf (ofString "https://8.8.4.4/") (.ipv4 8 8 4 4)
  have hok : parseDomain (platformOf (ofString "https://8.8.4.4/") (.ipv4 8 8 4 4))
      (ofString "https://8.8.4.4/") = .ok {
        domain := ofString "8.8.4.4"
        subdomain := some (ofString "8.8")
        registrableDomain := ofString "4.4"
        isPublic := true
        protocol := ofString "https:" } := by
    decide
  have hright := (h _ _ _ _ _ _ _ _ _ hparse hparse hok hok).1
  have hwhole : ofString "4.4" = ofString "8.8.4.4" := hright.registrableDomain_eq
  revert hwhole
  decide

end SmartIdVault.Domain
