import PanelLink.Config.Parse
import PanelLink.Store.FileStore
import PanelLink.Text.Utf8

/-! The settings file on a store. -/
namespace PanelLink.Config

def location : Bytes := Bytes.ofText "/module.toml"

def maxSize : Nat := 1024

/-- Why the settings on a store cannot be used. -/
inductive LoadError where
  | storage (cause : StorageError)
  | tooLarge
  | invalidUtf8
  | parse (cause : ParseError)
  deriving DecidableEq

variable {σ φ δ : Type} [FileStore σ φ δ]

/-- All bytes of a file. When `maxSize` of them are there, one more read tells whether that is
all. -/
def readAll (s : σ) (f : φ) : Except LoadError Bytes × φ × σ :=
  match FileStore.readFull s f maxSize with
  | (⟨_, some e⟩, f, s) => (.error (.storage e), f, s)
  | (⟨bytes, none⟩, f, s) =>
    if bytes.length < maxSize then (.ok bytes, f, s)
    else
      match FileStore.read s f 1 with
      | (.error e, f, s) => (.error (.storage e), f, s)
      | (.ok [], f, s) => (.ok bytes, f, s)
      | (.ok (_ :: _), f, s) => (.error .tooLarge, f, s)

def ofBytes (bytes : Bytes) : Except LoadError Config :=
  match Text.Utf8.decode? bytes with
  | none => .error .invalidUtf8
  | some text =>
    match parse text with
    | .error e => .error (.parse e)
    | .ok c => .ok c

/-- The settings on a store; without a file they are the default. A failed read counts before a
failed close, and the file is closed in any case. -/
def load (s : σ) : Except LoadError Config × σ :=
  match FileStore.openFile s location .reading with
  | (.error .notFound, s) => (.ok {}, s)
  | (.error e, s) => (.error (.storage e), s)
  | (.ok f, s) =>
    let (bytes, f, s) := readAll s f
    let (closed, s) := FileStore.closeFile s f
    match bytes, closed with
    | .error e, _ => (.error e, s)
    | .ok _, .error e => (.error (.storage e), s)
    | .ok bytes, .ok () => (ofBytes bytes, s)

end PanelLink.Config
