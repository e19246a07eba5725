import SymbolIndex.Json.Form
import SymbolIndex.Relation
import SymbolIndex.Source

/-!
# `SymbolIndex.Format` — the JSON forms of the records

Each record is an object whose members are its fields in declared order; identifiers are plain
numbers and kinds are words.
-/

namespace SymbolIndex.Format

open Json Form

def word32 : Form := below 0x100000000

/-- An identifier as an unsigned 64-bit number. -/
def id : Form := below 0x10000000000000000

def position : Form := record [⟨"line", word32, false⟩, ⟨"column", word32, false⟩]

def range : Form := record [⟨"start", position, false⟩, ⟨"end", position, false⟩]

def location : Form := record [⟨"file", id, false⟩, ⟨"range", range, false⟩]

def symbolType : Form := word SymbolType

def nodeType : Form := word NodeType

def node : Form := record [
  ⟨"id", id, false⟩, ⟨"location", location, false⟩, ⟨"qualified_name", text, false⟩,
  ⟨"symbol_type", symbolType, false⟩, ⟨"ast_type", nodeType, false⟩]

def entityKind : Form := word EntityKind

def entity : Form := record [
  ⟨"id", id, false⟩, ⟨"kind", entityKind, false⟩, ⟨"ast_node_id", id, false⟩, ⟨"name", text, false⟩,
  ⟨"qualified_name", text, false⟩, ⟨"visibility", text, false⟩]

def variableRecord : Form := record [⟨"entity", entity, false⟩]

def functionRecord : Form := record [
  ⟨"entity", entity, false⟩, ⟨"parameters", list id, false⟩, ⟨"locals", list id, false⟩]

def classRecord : Form := record [⟨"entity", entity, false⟩]

def memberKind : Form := word MemberKind

def classMember : Form := record [
  ⟨"class_id", id, false⟩, ⟨"member_id", id, false⟩, ⟨"ast_node_id", id, false⟩,
  ⟨"kind", memberKind, false⟩, ⟨"static_member", flag, false⟩]

def inheritance : Form := record [⟨"derived", id, false⟩, ⟨"base", id, false⟩]

def importRecord : Form := record [
  ⟨"ast_node_id", id, false⟩, ⟨"importer", id, false⟩, ⟨"imported", id, false⟩,
  ⟨"imported_symbol", optional id, true⟩]

def documentationKind : Form := word DocumentationKind

def documentation : Form := record [
  ⟨"text", text, false⟩, ⟨"documented", id, false⟩, ⟨"kind", documentationKind, false⟩]

def typeAssociation : Form := record [⟨"symbol", id, false⟩, ⟨"type_id", id, false⟩]

def parseStatus : Form := word ParseStatus

def file : Form := record [
  ⟨"id", id, false⟩, ⟨"path", text, false⟩, ⟨"parse_status", parseStatus, false⟩]

def buildAction : Form := record [⟨"command", text, false⟩]

end SymbolIndex.Format
