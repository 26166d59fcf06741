import PanelLink.Text.Utf8
import PanelLink.Error

/-!
Paths: components between slashes, reduced to those that name an entry from the root.
A path is a byte string; one that comes in a packet is checked to be UTF-8.
-/
namespace PanelLink.Path

/-- A path in a packet is shorter than this. -/
def maxLength : Nat := 256

/-- A working directory is shorter than this. -/
def maxDirectory : Nat := 64

/-- The most components that a reduction may hold. -/
def maxDepth : Nat := 32

def slash : UInt8 := 47

/-- The components of a path, empty ones included. -/
def split : Bytes → List Bytes
  | [] => [[]]
  | b :: rest =>
    if b = slash then [] :: split rest
    else
      match split rest with
      | [] => [[b]]
      | c :: cs => (b :: c) :: cs

/-- Take components in turn onto a stack whose last is the deepest: an empty one or `.` is skipped,
`..` goes up if it can, and any other must pass the check. -/
def reduce {ε : Type} (check : List Bytes → Bytes → Option ε) :
    List Bytes → List Bytes → Except ε (List Bytes)
  | stack, [] => .ok stack
  | stack, c :: cs =>
    if c = [] ∨ c = dot then reduce check stack cs
    else if c = dotDot then reduce check stack.dropLast cs
    else
      match check stack c with
      | some e => .error e
      | none => reduce check (stack ++ [c]) cs

def render : List Bytes → Bytes
  | [] => [slash]
  | cs => cs.flatMap (slash :: ·)

/-- A path that comes from the host may not go deeper than `maxDepth` at any moment. -/
def depthFailure (stack : List Bytes) (_ : Bytes) : Option ValidationError :=
  if stack.length < maxDepth then none else some .pathTooLong

/-- The absolute path without `.`, `..` and empty components. -/
def normalize (path : Bytes) : Except ValidationError Bytes :=
  match reduce depthFailure [] (split path) with
  | .error e => .error e
  | .ok cs => if maxLength < (render cs).length then .error .pathTooLong else .ok (render cs)

def isAbsolute (path : Bytes) : Bool :=
  path.head? = some slash

/-- The absolute path that `path` means in the directory `cwd`. -/
def resolve (cwd path : Bytes) : Except ValidationError Bytes :=
  if isAbsolute path then normalize path
  else
    let joined := cwd ++ [slash] ++ path
    if maxLength + maxDirectory + 1 < joined.length then .error .pathTooLong
    else normalize joined

/-- The path in a payload: all before the first zero byte. It may not be empty, has to be shorter
than `limit`, and has to be UTF-8. -/
def extract (payload : Bytes) (limit : Nat) : Except ValidationError Bytes :=
  let raw := payload.takeWhile (· ≠ 0)
  if raw = [] then .error .insufficientData
  else if limit ≤ raw.length then .error .pathTooLong
  else if Text.Utf8.isValid raw then .ok raw
  else .error .invalidPath

def animationSuffix : Bytes := Bytes.ofText ".araw"

/-- Whether a path names an animation: the suffix with something before it. -/
def isAnimation (path : Bytes) : Bool :=
  animationSuffix.length < path.length && animationSuffix.isSuffixOf path

end PanelLink.Path
