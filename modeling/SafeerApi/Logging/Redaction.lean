import SafeerApi.Lib.ReplaceAll
import SafeerApi.Mail.RenderTemplate

/-!
# Redacting header texts (`redacting-json-logger.ts`)

Four patterns are replaced in a log string, one after another. None of them has two ways to match at
one place, so that each is read here from left to right.
-/

namespace SafeerApi.Logging

open Common Lib
open Mail.RenderTemplate (isWordChar)

/-! ### Patterns -/

/-- The headers, in the order of their patterns. -/
inductive HeaderName where
  | cookie
  | setCookie
  | authorization
  | csrfToken
  deriving DecidableEq, Repr

def HeaderName.text : HeaderName → List Char
  | .cookie => ['c', 'o', 'o', 'k', 'i', 'e']
  | .setCookie => ['s', 'e', 't', '-', 'c', 'o', 'o', 'k', 'i', 'e']
  | .authorization => ['a', 'u', 't', 'h', 'o', 'r', 'i', 'z', 'a', 't', 'i', 'o', 'n']
  | .csrfToken => ['x', '-', 'c', 's', 'r', 'f', '-', 't', 'o', 'k', 'e', 'n']

def HeaderName.hasScheme : HeaderName → Bool
  | .authorization => true
  | _ => false

/-- What follows a name, in whatever case it is written. -/
def dropName : List Char → List Char → Option (List Char)
  | [], s => some s
  | n :: name, c :: s => if c.toLower = n then dropName name s else none
  | _ :: _, [] => none

/-- `"?` -/
def skipQuote : List Char → List Char
  | '"' :: s => s
  | s => s

/-- `\s*` -/
def skipSpaces (s : List Char) : List Char := s.dropWhile isWhiteSpace

/-- `[:=]` -/
def readSeparator : List Char → Option (List Char)
  | c :: s => if c = ':' ∨ c = '=' then some s else none
  | [] => none

/-- `[^"\s,}]` -/
def isRun (c : Char) : Bool := !(c = '"' || isWhiteSpace c || c = ',' || c = '\x7d')

/-- `[^"\s,}]+` -/
def readRun : List Char → Option (List Char)
  | c :: s => if isRun c then some (s.dropWhile isRun) else none
  | [] => none

/-- `\s+` -/
def readSpaces : List Char → Option (List Char)
  | c :: s => if isWhiteSpace c then some (skipSpaces s) else none
  | [] => none

def schemes : List (List Char) := [['b', 'e', 'a', 'r', 'e', 'r'], ['b', 'a', 's', 'i', 'c']]

/-- `(?:bearer|basic)\s+` -/
def readScheme (s : List Char) : Option (List Char) :=
  schemes.findSome? fun scheme => (dropName scheme s).bind readSpaces

/-- The credential: a run, behind a scheme if there is one. -/
def readValue (hasScheme : Bool) (s : List Char) : Option (List Char) :=
  if hasScheme then ((readScheme s).bind readRun).or (readRun s) else readRun s

/-- `name"?\s*[:=]\s*"?`: what follows. -/
def readStart (name s : List Char) : Option (List Char) :=
  (dropName name s).bind fun s =>
    (readSeparator (skipSpaces (skipQuote s))).map fun s => skipQuote (skipSpaces s)

/-- `: [REDACTED]` -/
def redacted : List Char := [':', ' ', '[', 'R', 'E', 'D', 'A', 'C', 'T', 'E', 'D', ']']

/-- The pattern from its name on: the name as it is written, and what follows the match. -/
def matchNamed (n : HeaderName) (s : List Char) : Option (List Char × List Char) :=
  (readStart n.text s).bind fun value =>
    (readValue n.hasScheme value).map fun rest => (s.take n.text.length, skipQuote rest)

/-- `\b` before a letter. -/
def boundary (prev : Option Char) : Bool := !prev.any isWordChar

/-- `headerStringPattern`: what a match is replaced with, and its length. -/
def headerStringPattern (n : HeaderName) (prev : Option Char) (s : List Char) :
    Option (List Char × ℕ) :=
  let found := match s with
    | '"' :: s => matchNamed n s
    | s => if boundary prev then matchNamed n s else none
  found.map fun (name, rest) => (name ++ redacted, s.length - rest.length)

def replacePattern (n : HeaderName) (s : List Char) : List Char :=
  replaceFrom (headerStringPattern n) 0 none s

def stringRedactPatterns : List HeaderName := [.cookie, .setCookie, .authorization, .csrfToken]

def redactString (value : String) : String :=
  String.ofList (stringRedactPatterns.foldl (fun out n => replacePattern n out) value.toList)

end SafeerApi.Logging
