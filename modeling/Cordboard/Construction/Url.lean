import Cordboard.Construction.Json

namespace Cordboard.Url

/-- `urlsplit` drops these characters at the start of a URL. -/
def isControlOrSpace (c : Char) : Bool := c.toNat ≤ 32

/-- `urlsplit` removes these characters everywhere. -/
def isUnsafe (c : Char) : Bool := c == '\t' || c == '\r' || c == '\n'

def isSchemeChar (c : Char) : Bool := c.isAlphanum || c == '+' || c == '-' || c == '.'

/-- Each of these characters ends the network location. -/
def isDelimiter (c : Char) : Bool := c == '/' || c == '?' || c == '#'

def cleaned (url : List Char) : List Char := (url.dropWhile isControlOrSpace).filter fun c => !isUnsafe c

/-- The scheme stands before the first colon. A URL without a scheme is left alone. -/
def splitScheme (url : List Char) : List Char × List Char :=
  let front := url.takeWhile (· != ':')
  match url.dropWhile (· != ':') with
  | [] => ([], url)
  | _ :: rest =>
      if front.head?.any Char.isAlpha && front.all isSchemeChar then (front.map Char.toLower, rest) else ([], url)

/-- The network location stands after two slashes. -/
def splitNetloc : List Char → List Char
  | '/' :: '/' :: rest => rest.takeWhile fun c => !isDelimiter c
  | _ => []

/-- The scheme and the network location of a URL. -/
structure SplitResult where
  scheme : List Char
  netloc : List Char
deriving DecidableEq

def parts (url : List Char) : SplitResult :=
  let (scheme, rest) := splitScheme (cleaned url)
  ⟨scheme, splitNetloc rest⟩

/-- The user information stands before the last at sign. -/
def SplitResult.hasUserinfo (result : SplitResult) : Bool := result.netloc.contains '@'

def SplitResult.hostinfo (result : SplitResult) : List Char := (result.netloc.reverse.takeWhile (· != '@')).reverse

/-- A host in brackets ends at the closing bracket, and each other host at the first colon. -/
def SplitResult.hostname (result : SplitResult) : List Char :=
  match result.hostinfo.dropWhile (· != '[') with
  | _ :: bracketed => bracketed.takeWhile (· != ']')
  | [] => result.hostinfo.takeWhile (· != ':')

/-- The standard library checks brackets, addresses in brackets, and normal forms of a network location. -/
abbrev Refusal : Type := String → Option String

/-- `urlsplit` raises `ValueError` when the network location is refused. -/
def urlsplit (refusal : Refusal) (url : String) : Except String SplitResult :=
  let result := parts url.toList
  match refusal (String.ofList result.netloc) with
  | some message => .error message
  | none => .ok result

end Cordboard.Url
