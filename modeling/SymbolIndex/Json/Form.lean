import SymbolIndex.Json.Reader
import SymbolIndex.Vocabulary

/-!
# `SymbolIndex.Json.Form` — typed JSON texts

A form says which JSON texts stand for a value of some type, and reads such a text into its canonical
value: members in their declared order, absent optional members as null, unknown members left out.

A record may be written as an object or as the array of its fields in order. In an object, unknown
members are passed over, a repeated field is a mismatch as soon as its key has been read, and a
missing field is one at the end, unless it is optional. An array has to have every field and no more.

## Contents
- `Form` and the forms of numbers, flags, texts and words.
- `Form.optional`, `Form.list`, `Form.record`.
- `Form.canonical`: a text brought into canonical form.
-/

namespace SymbolIndex.Json

/-- Reads a value of some type, given how many arrays and objects may still be opened. -/
abbrev Form := (depth : Nat) → Reader Value

namespace Form

/-- The fault of a text whose value is of another type. Scalars are read to their end, so that a
fault inside them comes first; an array or an object is refused at its bracket. -/
def otherType {α : Type} : Reader α := fun text =>
  match skipSpace text with
  | [] => .error .unfinished
  | c :: rest =>
    if c = '[' ∨ c = '\x7b' then .error .mismatch
    else do
      let _ ← valueOver strict none (c :: rest)
      .error .mismatch

/-- Reads a text whose first character satisfies `test` with `reader`, any other as a mismatch. -/
def guarded {α : Type} (test : Char → Bool) (reader : Reader α) : Reader α := fun text =>
  match skipSpace text with
  | [] => .error .unfinished
  | c :: rest => if test c then reader (c :: rest) else otherType (c :: rest)

/-- A scalar that `accept` makes canonical. -/
def scalar (test : Char → Bool) (accept : Value → Option Value) : Form := fun _ =>
  guarded test fun text => do
    let (v, rest) ← valueOver strict none text
    match accept v with
    | some v => .ok (v, rest)
    | none => .error .mismatch

/-- An integer from zero up to but not including `bound`. -/
def below (bound : Nat) : Form :=
  scalar (fun c => c = '-' || Text.Decimal.isDigit c) fun
    | .integer n => if 0 ≤ n ∧ n < bound then some (.integer n) else none
    | _ => none

def flag : Form :=
  scalar (fun c => c = 't' || c = 'f') fun
    | .bool b => some (.bool b)
    | _ => none

def text : Form :=
  scalar (fun c => c = '"') fun
    | .string s => some (.string s)
    | _ => none

/-- A value that may be null. -/
def optional (form : Form) : Form := fun depth text =>
  match skipSpace text with
  | 'n' :: rest => do
    let rest ← keyword ['u', 'l', 'l'] rest
    .ok (.null, rest)
  | text => form depth text

/-- The null that goes with a word written as a key. -/
def nullOnly : Reader Unit := fun text =>
  match skipSpace text with
  | 'n' :: rest => do
    let rest ← keyword ['u', 'l', 'l'] rest
    .ok ((), rest)
  | text => otherType text

/-- One of the words of a vocabulary, written as a string or as the only key of an object whose value
is null. -/
def word (α : Type) [Vocabulary α] : Form := fun depth text =>
  let known (w : String) : Except Fault Value :=
    match (Vocabulary.ofWord? w : Option α) with
    | some _ => .ok (.string w)
    | none => .error .mismatch
  match skipSpace text with
  | [] => .error .unfinished
  | c :: rest =>
    if c = '"' then do
      let (w, rest) ← string rest
      let v ← known w
      .ok (v, rest)
    else if c = '\x7b' then
      if depth = 0 then .error .malformed
      else do
        let (w, rest) ← key strict rest
        let v ← known w
        let rest ← colon rest
        let ((), rest) ← nullOnly rest
        match skipSpace rest with
        | [] => .error .unfinished
        | c :: rest => if c = '\x7d' then .ok (v, rest) else .error .malformed
    else .error .malformed

/-- An array of any number of values of one form. -/
def list (form : Form) : Form := fun depth =>
  guarded (fun c => c = '[') fun text =>
    match depth with
    | 0 => .error .malformed
    | depth + 1 => do
      let (vs, rest) ← elements (fun (vs : List Value) t => do
        let (v, t) ← form depth t
        .ok (vs ++ [v], t)) [] (text.drop 1)
      .ok (.array vs, rest)

/-- A field of a record. -/
structure Field where
  name : String
  form : Form
  /-- Whether the member may be left out of an object. -/
  isOptional : Bool := false

/-- The rest of an array that holds the fields of a record in order. -/
def arrayOf (depth : Nat) : (first : Bool) → List Field → Reader (List (String × Value))
  | _, [], text =>
    match skipSpace text with
    | [] => .error .unfinished
    | c :: rest => if c = ']' then .ok ([], rest) else .error .malformed
  | first, f :: fs, text =>
    match skipSpace text with
    | [] => .error .unfinished
    | c :: rest =>
      if c = ']' then .error .mismatch
      else if first then do
        let (v, rest) ← f.form depth (c :: rest)
        let (vs, rest) ← arrayOf depth false fs rest
        .ok ((f.name, v) :: vs, rest)
      else if c = ',' then do
        let (v, rest) ← f.form depth rest
        let (vs, rest) ← arrayOf depth false fs rest
        .ok ((f.name, v) :: vs, rest)
      else .error .malformed

/-- The members of an object that are fields of a record, in the order in which they come. -/
def objectOf (depth : Nat) (fields : List Field) : Reader (List (String × Value)) :=
  members strict (fun (seen : List (String × Value)) name text =>
    match fields.find? fun f => f.name = name with
    | none => do
      let text ← colon text
      let ((), text) ← skipValue text
      .ok (seen, text)
    | some f =>
      if seen.any fun m => m.1 = name then .error .mismatch
      else do
        let text ← colon text
        let (v, text) ← f.form depth text
        .ok (seen ++ [(name, v)], text)) []

/-- The members of a record in declared order; the fault of a missing one. -/
def arrange (fields : List Field) (seen : List (String × Value)) :
    Except Fault (List (String × Value)) :=
  fields.mapM fun f =>
    match seen.find? fun m => m.1 = f.name with
    | some m => .ok m
    | none => if f.isOptional then .ok (f.name, .null) else .error .mismatch

/-- A record with the given fields. -/
def record (fields : List Field) : Form := fun depth =>
  guarded (fun c => c = '[' || c = '\x7b') fun text =>
    match depth with
    | 0 => .error .malformed
    | depth + 1 =>
      if text.head? = some '[' then do
        let (ms, rest) ← arrayOf depth true fields (text.drop 1)
        .ok (.object ms, rest)
      else do
        let (seen, rest) ← objectOf depth fields (text.drop 1)
        let ms ← arrange fields seen
        .ok (.object ms, rest)

/-- The canonical text of the value that a text stands for. -/
def canonical (form : Form) (text : String) : Except Fault String := do
  let v ← whole (form maxDepth) text.toList
  .ok v.toText

end Form

end SymbolIndex.Json
