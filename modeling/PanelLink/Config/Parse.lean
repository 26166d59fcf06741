import PanelLink.Config.Basic
import PanelLink.Text.Line

/-!
The settings file: headers in brackets, assignments under them, comments after `#`.
Each line is classified by itself; a run over the lines keeps the section and the settings so far.
-/
namespace PanelLink.Config

/-- The settings that a file can name. -/
inductive Setting where
  | listing
  | paths
  | enforceSequence
  | fps
  deriving DecidableEq

/-- What an assignment stands under. -/
inductive Section where
  | root
  | protocol
  | display
  deriving DecidableEq

/-- Why a settings file is refused; lines count from 1, in words. -/
inductive ParseError where
  | invalidSection (line : UInt32)
  | invalidLine (line : UInt32)
  | invalidValue (line : UInt32) (setting : Setting)
  deriving DecidableEq

instance : Coe UInt32 Nat := ⟨UInt32.toNat⟩

namespace Setting

def name : Setting → List Char
  | listing => "listing".toList
  | paths => "paths".toList
  | enforceSequence => "enforce_sequence".toList
  | fps => "fps".toList

def home : Setting → Section
  | listing => .protocol
  | paths => .protocol
  | enforceSequence => .protocol
  | fps => .display

def all : List Setting := [listing, paths, enforceSequence, fps]

/-- The setting that a name means in a section. -/
def find? (s : Section) (name : List Char) : Option Setting :=
  all.find? fun k => k.home = s ∧ k.name = name

end Setting

def Section.ofName? (name : List Char) : Option Section :=
  if name = "protocol".toList then some .protocol
  else if name = "display".toList then some .display
  else none

/-- What a line is once comment and blanks are gone. -/
inductive Line where
  | blank
  | header (name : List Char)
  | assignment (name value : List Char)
  | malformed
  deriving DecidableEq

/-- The line before the first `#` that is not between quotes. -/
def cutComment (quoted : Bool) : List Char → List Char
  | [] => []
  | c :: cs =>
    if c = '"' then c :: cutComment (!quoted) cs
    else if c = '#' ∧ quoted = false then []
    else c :: cutComment quoted cs

/-- A value without the quotes around it, if both are there. -/
def unquote (value : List Char) : List Char :=
  (Text.between? '"' '"' value).getD value

/-- A header has brackets at both ends; an assignment has something on both sides of its first
`=`. -/
def Line.ofText (line : List Char) : Line :=
  let text := Text.trim (cutComment false line)
  if text = [] then .blank
  else
    match Text.between? '[' ']' text with
    | some name => .header (Text.trim name)
    | none =>
      match Text.splitAt? '=' text with
      | none => .malformed
      | some (name, value) =>
        let name := Text.trim name
        let value := Text.trim value
        if name = [] ∨ value = [] then .malformed else .assignment name (unquote value)

/-- The value of decimal digits, if there is nothing but digits. -/
def digits? (acc : Nat) : List Char → Option Nat
  | [] => some acc
  | c :: cs =>
    if '0' ≤ c ∧ c ≤ '9' then digits? (10 * acc + (c.toNat - '0'.toNat)) cs else none

/-- A number: digits, with a plus sign in front or without. -/
def number? (text : List Char) : Option Nat :=
  let body := if text.head? = some '+' then text.tail else text
  if body = [] then none else digits? 0 body

/-- The settings with one of them set, if the value is one that it takes. -/
def set? (c : Config) (setting : Setting) (value : List Char) : Option Config :=
  match setting with
  | .listing =>
    if value = "split".toList then some { c with listing := .split }
    else if value = "truncate".toList then some { c with listing := .truncate }
    else none
  | .paths =>
    if value = "literal".toList then some { c with paths := .literal }
    else if value = "relative".toList then some { c with paths := .relative }
    else none
  | .enforceSequence =>
    if value = "true".toList then some { c with enforceSequence := true }
    else if value = "false".toList then some { c with enforceSequence := false }
    else none
  | .fps =>
    match number? value with
    | some n => if minFps ≤ n ∧ n ≤ maxFps then some { c with fps := n } else none
    | none => none

/-- One line's effect on the section and the settings so far; `n` is its number. -/
def step (n : UInt32) (s : Section) (c : Config) : Line → Except ParseError (Section × Config)
  | .blank => .ok (s, c)
  | .header name =>
    match Section.ofName? name with
    | some s => .ok (s, c)
    | none => .error (.invalidSection n)
  | .malformed => .error (.invalidLine n)
  | .assignment name value =>
    match Setting.find? s name with
    | none => .ok (s, c)
    | some k =>
      match c.set? k value with
      | some c => .ok (s, c)
      | none => .error (.invalidValue n k)

/-- The settings after some lines, the first of which has the number `n`. -/
def run (n : Nat) (s : Section) (c : Config) : List Line → Except ParseError Config
  | [] => .ok c
  | l :: ls =>
    match step (.ofNat n) s c l with
    | .error e => .error e
    | .ok (s, c) => run (n + 1) s c ls

/-- The settings that a text gives; the first line that is wrong is the failure. -/
def parse (text : List Char) : Except ParseError Config :=
  run 1 .root {} ((Text.lines text).map Line.ofText)

end PanelLink.Config
