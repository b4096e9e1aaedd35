import SmartIdVault.Lib.Utf

/-! `parseDomain` of `lib/domainParser.ts`.  The URL parser is the platform's; what it makes of a
URL is its protocol and its host name. -/

namespace SmartIdVault.Domain

open Utf16 (ofString)

def validProtocols : List Utf16 := [ofString "http:", ofString "https:"]

def blockedHostnames : List Utf16 :=
  [ofString "localhost", ofString "127.0.0.1", ofString "0.0.0.0"]

def knownMultiLevelTlds : List Utf16 :=
  ["co.uk", "org.uk", "ac.uk", "gov.uk", "ltd.uk", "me.uk", "net.uk", "nhs.uk", "plc.uk", "sch.uk",
    "co.jp", "or.jp", "ne.jp", "ac.jp", "go.jp", "ed.jp", "ad.jp", "gr.jp", "lg.jp",
    "com.au", "net.au", "org.au", "edu.au", "gov.au", "asn.au", "id.au",
    "co.nz", "org.nz", "net.nz", "ac.nz", "govt.nz", "school.nz",
    "co.kr", "or.kr", "ne.kr", "go.kr", "re.kr", "pe.kr",
    "com.br", "org.br", "net.br", "gov.br", "edu.br", "mil.br",
    "co.za", "org.za", "net.za", "web.za",
    "co.in", "org.in", "net.in", "gov.in", "ac.in", "firm.in", "gen.in", "ind.in",
    "com.sg", "org.sg", "net.sg", "gov.sg", "edu.sg",
    "com.hk", "org.hk", "net.hk", "gov.hk", "edu.hk",
    "com.tw", "org.tw", "net.tw", "gov.tw", "edu.tw"].map ofString

inductive ParseError where
  | invalidUrl
  | invalidProtocol
  | blockedHost
  | parseFailed
  deriving DecidableEq, Repr

structure ParsedDomain where
  domain : Utf16
  subdomain : Option Utf16
  registrableDomain : Utf16
  isPublic : Bool
  protocol : Utf16
  deriving DecidableEq

structure Url where
  protocol : Utf16
  hostname : Utf16
  deriving DecidableEq

/-- `new URL`, which throws where this is `none`, and `import.meta.env.DEV`. -/
structure Platform where
  parseUrl : Utf16 → Option Url
  dev : Bool

def dot : UInt16 := 46

/-- `toLowerCase`; host names of http and https URLs are ASCII. -/
def toLowerCase (s : Utf16) : Utf16 := s.map fun u => if 65 ≤ u && u ≤ 90 then u + 32 else u

/-- `parts.slice(-n).join('.')`. -/
def joinLast (parts : List Utf16) (n : Nat) : Utf16 :=
  [dot].intercalate (parts.drop (parts.length - n))

def getRegistrableDomain (hostname : Utf16) : Utf16 :=
  let parts := hostname.splitOn dot
  if parts.length ≤ 2 then hostname
  else
    let lastTwo := toLowerCase (joinLast parts 2)
    if knownMultiLevelTlds.contains lastTwo then
      if parts.length ≤ 3 then hostname else joinLast parts 3
    else joinLast parts 2

def lastIndexOf (s part : Utf16) : Option Nat :=
  (List.range (s.length + 1)).reverse.find? fun i => part.isPrefixOf (s.drop i)

def getSubdomain (hostname registrableDomain : Utf16) : Option Utf16 :=
  if hostname = registrableDomain then none
  else (lastIndexOf hostname (dot :: registrableDomain)).map hostname.take

def parseDomain (platform : Platform) (url : Utf16) : Except ParseError ParsedDomain :=
  if url = [] then .error .invalidUrl
  else
    match platform.parseUrl url with
    | none => .error .parseFailed
    | some parsed =>
      if !validProtocols.contains parsed.protocol then .error .invalidProtocol
      else
        let hostname := toLowerCase parsed.hostname
        if blockedHostnames.contains hostname && !platform.dev then .error .blockedHost
        else
          let registrableDomain := getRegistrableDomain hostname
          .ok {
            domain := hostname
            subdomain := getSubdomain hostname registrableDomain
            registrableDomain
            isPublic := !platform.dev
            protocol := parsed.protocol }

end SmartIdVault.Domain
