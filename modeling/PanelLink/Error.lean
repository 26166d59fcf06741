import PanelLink.Wire.Reply
import PanelLink.Store.Entry
import PanelLink.Display

/-! Why a command fails, and the status that tells the host. -/
namespace PanelLink

/-- What is wrong with a payload by itself. -/
inductive ValidationError where
  | insufficientData
  | pathTooLong
  | invalidPath
  | outOfRange
  deriving DecidableEq

inductive CommandError where
  | protocol (cause : PacketError)
  | validation (cause : ValidationError)
  | storage (cause : StorageError)
  | display (cause : DisplayError)
  | notOpen
  | alreadyOpen
  | sequence (expected received : UInt32)
  | invalidAsset
  | displayOverflow
  | shortWrite (written expected : Nat)
  | transport
  deriving DecidableEq

def StorageError.status : StorageError → Status
  | notFound => .notFound
  | .exists => .alreadyExists
  | noSpace => .storeFull
  | notEmpty => .nameInUse
  | _ => .invalidCommand

namespace CommandError

def status : CommandError → Status
  | protocol _ => .invalidCommand
  | validation _ => .invalidCommand
  | storage e => e.status
  | display _ => .invalidCommand
  | notOpen => .notOpen
  | alreadyOpen => .nameInUse
  | sequence _ _ => .sequenceError
  | invalidAsset => .heightOutOfBounds
  | displayOverflow => .widthOutOfBounds
  | shortWrite _ _ => .storeFull
  | transport => .invalidCommand

/-- The failures after which an upload cannot go on. -/
def isStorage : CommandError → Bool
  | storage _ => true
  | shortWrite _ _ => true
  | _ => false

/-- A full reply counts as a payload that is too large. -/
def ofReplyFull : ReplyFull → CommandError
  | .full => protocol .payloadTooLarge

end CommandError

end PanelLink
