/-!
# Tokens of a YAML text

The tokens carry the structure of a text: where collections begin and end, where their
entries stand, and the leaves between them.  Indentation is turned into tokens too, so that
nothing below this level looks at columns.
-/

namespace ChannelHeaders
namespace Yaml

/-- A tag as it is written: a handle and the bytes behind it. -/
structure WrittenTag where
  /-- The handle, such as two exclamation marks; empty when the tag is written out. -/
  handle : String
  /-- The bytes that follow the handle. -/
  suffix : List UInt8
deriving DecidableEq

/-- The building blocks of a YAML text. -/
inductive Token where
  | versionDirective (major minor : Nat)
  | tagDirective (handle : String) (stem : List UInt8)
  | documentStart
  | documentEnd
  | blockSequenceStart
  | blockMappingStart
  | blockEnd
  | flowSequenceStart
  | flowSequenceEnd
  | flowMappingStart
  | flowMappingEnd
  | blockEntry
  | flowEntry
  | key
  | value
  | alias (name : String)
  | anchor (name : String)
  | tag (written : WrittenTag)
  | scalar (text : String) (plain : Bool)
deriving DecidableEq

end Yaml
end ChannelHeaders
