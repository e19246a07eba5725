import SymbolIndex.Hash.Blake3
import SymbolIndex.Kind
import SymbolIndex.Location

/-!
# `SymbolIndex.Identity` — identifiers derived from content

Every identifier is a hash over the fields that make the record what it is: a file is its path, an
entity its kind and qualified name, a node its name, its two types and its location. No identifier
depends on the order in which records arrive, so a later record can refer to an earlier one before
either has been stored.

## Contents
- `Identity`: the identifying fields of a record.
- `Identity.bytes`: what is hashed — a domain word, a zero byte, then each field with its width
  fixed or written in front of it, so that no two identities share their bytes.
- `fileId`, `entityId`, `nodeId`.
-/

namespace SymbolIndex

open Hash

/-- The fields that make a record what it is. -/
inductive Identity where
  | file (path : String)
  | entity (kind : EntityKind) (qualifiedName : String)
  | node (qualifiedName : String) (symbol : SymbolType) (type : NodeType) (location : Location)
  deriving DecidableEq

namespace Identity

/-- One identifying field. -/
inductive Field where
  | text (s : String)
  | number (n : UInt64)
  deriving DecidableEq

/-- A text is preceded by its byte length in eight bytes; a number takes eight bytes. -/
def Field.bytes : Field → List UInt8
  | .text s => LittleEndian.encode 8 s.utf8ByteSize ++ s.toUTF8.toList
  | .number n => LittleEndian.encode 8 n.toNat

/-- The word that keeps the three kinds of identity apart. -/
def domain : Identity → String
  | .file .. => "file"
  | .entity .. => "entity"
  | .node .. => "ast_node"

def fields : Identity → List Field
  | .file path => [.text path]
  | .entity kind name => [.text (Vocabulary.word kind), .text name]
  | .node name symbol type location =>
    [.text name, .text (Vocabulary.word symbol), .text (Vocabulary.word type),
      .number location.file.val,
      .number location.range.start.line.toUInt64, .number location.range.start.column.toUInt64,
      .number location.range.stop.line.toUInt64, .number location.range.stop.column.toUInt64]

/-- What is hashed for an identity. -/
def bytes (i : Identity) : List UInt8 :=
  i.domain.toUTF8.toList ++ 0 :: i.fields.flatMap Field.bytes

/-- The first eight bytes of the digest with the sign bit cleared, so that identifiers stay
non-negative in a signed column. -/
def hash (i : Identity) : UInt64 :=
  UInt64.ofNat (LittleEndian.decode ((Blake3.digest i.bytes).take 8) % 0x8000000000000000)

end Identity

def fileId (path : String) : FileId :=
  ⟨(Identity.file path).hash⟩

def entityId (kind : EntityKind) (qualifiedName : String) : EntityId :=
  ⟨(Identity.entity kind qualifiedName).hash⟩

def nodeId (qualifiedName : String) (symbol : SymbolType) (type : NodeType) (location : Location) :
    NodeId :=
  ⟨(Identity.node qualifiedName symbol type location).hash⟩

end SymbolIndex
