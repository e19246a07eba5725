import SymbolIndex.Dictionary
import SymbolIndex.Text.Decimal
import SymbolIndex.Text.Hex
import SymbolIndex.Workspace.Path

/-!
# `SymbolIndex.Store.Address` — the name of a store

The name of a store is a path. A name that starts with `file:` is an address: after the scheme come an
authority between two slashes and a slash, which is either empty or `localhost`, a path, options
after a question mark, and a fragment after a number sign, which means nothing. A percent sign with two
hexadecimal digits stands for a byte; the byte zero ends its part.

## Contents
- `Access`: what a store is opened for.
- `Address`, `Address.ofName?`: a name taken apart; none if it names no store.
- `Address.filePath?`: the file of a store, with the dots in its path undone by name alone.
-/

namespace SymbolIndex.Store

/-- What a store is opened for. -/
inductive Access where
  | readOnly
  | readWrite
  /-- Reading and writing; the file is made if it is missing. -/
  | create
  /-- A store that is in no file and is forgotten in the end. -/
  | memory
  deriving DecidableEq, Repr, Inhabited

namespace Access

def ofWord? : String → Option Access
  | "ro" => some readOnly
  | "rw" => some readWrite
  | "rwc" => some create
  | "memory" => some memory
  | _ => none

/-- The order of what an access allows. -/
def rank : Access → Nat
  | readOnly => 1
  | readWrite => 2
  | create => 3
  | memory => 4

/-- The access after another one is asked for: it cannot allow more, except that every store can be
kept out of files. -/
def narrow? (current asked : Access) : Option Access :=
  if asked = memory ∨ asked.rank ≤ current.rank then some asked else none

end Access

structure Address where
  path : String
  access : Access := .create
  /-- The options in their order, each with a value. -/
  options : List (String × String) := []
  deriving DecidableEq, Repr, Inhabited

namespace Address

/-! ## Addresses in bytes -/

/-- The parts of a list of bytes between separators. -/
def split (separator : Char) : List UInt8 → List (List UInt8)
  | [] => [[]]
  | b :: bs =>
    if b = UInt8.ofNat separator.toNat then [] :: split separator bs
    else match split separator bs with
      | [] => [[b]]
      | part :: rest => (b :: part) :: rest

/-- What is before the first separator, and what is after it. -/
def cut (separator : Char) (bytes : List UInt8) : List UInt8 × List UInt8 :=
  let before := bytes.takeWhile (· != UInt8.ofNat separator.toNat)
  (before, bytes.drop (before.length + 1))

/-- The byte that a percent sign and two digits stand for. -/
def escaped? (a b c : UInt8) : Option UInt8 :=
  if a = UInt8.ofNat '%'.toNat then
    (Text.Hex.number? [Char.ofNat b.toNat, Char.ofNat c.toNat]).map UInt8.ofNat
  else none

/-- Bytes with the escapes replaced. What follows an escaped zero is left out. -/
def unescape : List UInt8 → List UInt8
  | a :: b :: c :: rest =>
    match escaped? a b c with
    | some byte => if byte = 0 then [] else byte :: unescape rest
    | none => a :: unescape (b :: c :: rest)
  | bytes => bytes

/-- The text of an unescaped part; one that is no text is left as it is written. -/
def textOf (part : List UInt8) : String :=
  let plain := String.fromUTF8? ⟨part.toArray⟩
  ((String.fromUTF8? ⟨(unescape part).toArray⟩).or plain).getD ""

/-- The options of a query; those without a name are passed over. -/
def optionsOf (query : List UInt8) : List (String × String) :=
  let pairs := (split '&' query).map fun part =>
    let (name, value) := cut '=' part
    (textOf name, textOf value)
  pairs.filter fun pair => pair.1 ≠ ""

/-! ## Options -/

/-- The ways of reaching files that can be asked for by name. -/
def methods : List String := ["unix", "unix-none", "unix-dotfile", "unix-excl"]

/-- The way that keeps a store out of files. -/
def memoryMethod : String := "memdb"

/-- The access that the options ask for one after the other. -/
def accessOf? (access : Access) : List (String × String) → Option Access
  | [] => some access
  | (name, value) :: rest =>
    if name = "mode" then do
      let asked ← Access.ofWord? value
      accessOf? (← access.narrow? asked) rest
    else if name = "cache" ∧ value ≠ "shared" ∧ value ≠ "private" then none
    else accessOf? access rest

/-- The value of the first option of a name. -/
def option? (a : Address) (name : String) : Option String :=
  Pairs.find? name a.options

/-- Whether an option is switched on: by a word, or by a number whose last eight bits are not zero. -/
def isOn (a : Address) (name : String) : Bool :=
  match a.option? name with
  | none => false
  | some value =>
    let digits := value.toList.takeWhile Text.Decimal.isDigit
    if digits = [] then ["on", "yes", "true"].contains value.toLower
    else Text.Decimal.value digits % 256 != 0

/-- Whether the file of a store is taken to change by no one. -/
def isFixed (a : Address) : Bool :=
  a.isOn "immutable"

/-- The file whose permissions a new file is to have. -/
def pattern? (a : Address) : Option String :=
  a.option? "modeof"

/-! ## Names -/

def scheme : String := "file:"

/-- What follows the authority of an address, unless the authority is one of another machine. -/
def withoutAuthority? (bytes : List UInt8) : Option (List UInt8) :=
  let slash := UInt8.ofNat '/'.toNat
  if bytes.take 2 = [slash, slash] then
    let authority := (bytes.drop 2).takeWhile (· != slash)
    if authority = [] ∨ authority = "localhost".toUTF8.toList then some (bytes.drop (2 + authority.length))
    else none
  else some bytes

/-- The parts of an address after its scheme. -/
def ofBytes? (bytes : List UInt8) : Option Address := do
  let bytes ← withoutAuthority? bytes
  let (path, query) := cut '?' (cut '#' bytes).1
  let options := optionsOf query
  let access ← accessOf? .create options
  match Pairs.find? "vfs" options.reverse with
  | none => some ⟨textOf path, access, options⟩
  | some method =>
    if method = memoryMethod then some ⟨textOf path, .memory, options⟩
    else if methods.contains method then some ⟨textOf path, access, options⟩
    else none

/-- The address that a name stands for. No name holds a null character. -/
def ofName? (name : String) : Option Address :=
  let bytes := name.toUTF8.toList
  let size := scheme.utf8ByteSize
  if bytes.contains 0 then none
  else if bytes.take size = scheme.toUTF8.toList then ofBytes? (bytes.drop size)
  else some { path := name }

/-- Whether a store is kept in no file. -/
def isPrivate (a : Address) : Bool :=
  a.path = "" || a.path = ":memory:" || a.access = .memory

/-! ## Files -/

/-- The most bytes that the path of a file and of what is kept beside it may have. -/
def maxPathSize : Nat := 512

/-- The bytes that are kept free for the name of what is kept beside a file. -/
def besideSize : Nat := 8

/-- The bytes of an absolute path. The names are given the last one first. -/
def pathSize (names : List String) : Nat :=
  names.foldl (fun n name => n + 1 + name.utf8ByteSize) 0

/-- Names with one more name. Two dots undo the name before them. -/
def follow (names : Option (List String)) (name : String) : Option (List String) := do
  let names ← names
  if name = "." then some names
  else if name = ".." then some names.tail
  else if maxPathSize ≤ pathSize names + name.utf8ByteSize + 1 then none
  else some (name :: names)

/-- The absolute path of the file of a store, for relative paths that start in the folder `here`. A
path that is too long or names nothing is refused. -/
def filePath? (here : String) (a : Address) : Option String := do
  let start := if Workspace.Path.isAbsolute a.path then [] else Workspace.Path.names here
  let names ← (start ++ Workspace.Path.names a.path).foldl follow (some [])
  if names = [] ∨ maxPathSize < pathSize names + besideSize then none
  else some ("/" ++ "/".intercalate names.reverse)

end Address

end SymbolIndex.Store
