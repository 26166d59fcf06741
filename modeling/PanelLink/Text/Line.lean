/-! Lines of a text and the blanks around them. -/
namespace PanelLink.Text

/-- The characters with the Unicode property White_Space. -/
def isBlank (c : Char) : Bool :=
  let n := c.toNat
  (0x9 ≤ n && n ≤ 0xD) || n == 0x20 || n == 0x85 || n == 0xA0 || n == 0x1680 ||
    (0x2000 ≤ n && n ≤ 0x200A) || n == 0x2028 || n == 0x2029 || n == 0x202F || n == 0x205F ||
    n == 0x3000

def trimRight : List Char → List Char
  | [] => []
  | c :: cs =>
    match trimRight cs with
    | [] => if isBlank c then [] else [c]
    | kept => c :: kept

def trim (cs : List Char) : List Char :=
  trimRight (cs.dropWhile isBlank)

/-- The lines of a text: each ends at a line feed, with a carriage return before it or without. -/
def lines : List Char → List (List Char)
  | [] => []
  | '\n' :: cs => [] :: lines cs
  | '\r' :: '\n' :: cs => [] :: lines cs
  | c :: cs =>
    match lines cs with
    | [] => [[c]]
    | l :: ls => (c :: l) :: ls

/-- The text before and after the first `sep`. -/
def splitAt? (sep : Char) : List Char → Option (List Char × List Char)
  | [] => none
  | c :: cs => if c = sep then some ([], cs) else (splitAt? sep cs).map fun (l, r) => (c :: l, r)

/-- What stands between `first` and `last`, if the text has both at its ends. -/
def between? (first last : Char) : List Char → Option (List Char)
  | [] => none
  | c :: cs => if c = first ∧ cs.getLast? = some last then some cs.dropLast else none

end PanelLink.Text
