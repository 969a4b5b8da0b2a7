/-
Reading a TOML document.

A document is a table that grows statement by statement. Two facts are kept about keys beside it: a
table or array that was given in full is closed for good, with all below it, and a table that was
declared, or that a dotted key went through in an earlier section, cannot be declared again.
-/
import Orthography.Toml.Scalar

set_option autoImplicit false

namespace Orthography.Toml

/-! ## Facts about keys -/

/-- What is known of a key. -/
inductive Mark where
  /-- What the key stands for was given in full. -/
  | closed
  /-- What the key stands for was declared. -/
  | declared
  deriving DecidableEq, Repr

/-- What is known of keys. A mark that spreads holds below its key too. -/
structure Marks where
  /-- The marks with their keys, and whether they spread. -/
  facts : List (Key × Mark × Bool) := []
  /-- Keys that count as declared from the next section on. -/
  pending : List Key := []
  deriving Repr

namespace Marks

def has (m : Marks) (key : Key) (mark : Mark) : Bool :=
  m.facts.any fun (marked, other, spreads) =>
    other = mark && (marked = key || (spreads && marked.isPrefixOf key))

def add (m : Marks) (key : Key) (mark : Mark) (spreads : Bool) : Marks :=
  { m with facts := (key, mark, spreads) :: m.facts }

/-- The marks without those of a key and of what is below it. -/
def forget (m : Marks) (key : Key) : Marks :=
  { m with facts := m.facts.filter fun (marked, _, _) => !key.isPrefixOf marked }

/-- The marks at the beginning of a section. -/
def settle (m : Marks) : Marks :=
  { facts := m.pending.map (fun key => (key, .declared, false)) ++ m.facts, pending := [] }

end Marks

/-! ## Tables within tables -/

/-- A change of the table that a key leads to. Tables on the way are made where there are none; an
array of tables stands for its last one, if `throughArrays` allows it. Anything else on the way is
in the way. -/
def changeAt (throughArrays : Bool) (key : Key) (change : Table → Option Table) (t : Table) :
    Option Table :=
  match key with
  | [] => change t
  | name :: key => do
    match t.get? name with
    | none => return t.set name (.table (← changeAt throughArrays key change []))
    | some (.table inner) => return t.set name (.table (← changeAt throughArrays key change inner))
    | some (.array items) =>
      match throughArrays, items.getLast? with
      | true, some (.table inner) =>
        let inner ← changeAt throughArrays key change inner
        return t.set name (.array (items.dropLast ++ [.table inner]))
      | _, _ => none
    | some _ => none

/-- The table with a value for a key that has none yet. -/
def insertNew? (name : Text) (value : Value) (t : Table) : Option Table :=
  if (t.get? name).isSome then none else some (t.set name value)

/-- The table with one more table at the end of the array that a key stands for. -/
def appendTable? (name : Text) (t : Table) : Option Table :=
  match t.get? name with
  | none => some (t.set name (.array [.table []]))
  | some (.array items) => some (t.set name (.array (items ++ [.table []])))
  | some _ => none

def stem (key : Key) : Text := key.getLastD []

/-- Does a value have parts? -/
def isNested : Value → Bool
  | .array _ | .table _ => true
  | _ => false

/-! ## Values -/

mutual

/-- A value; `fuel` bounds how deep values lie in one another and how many there are in a row. -/
def readValue : Nat → Text → Except Fault (Value × Text)
  | 0, t => fault .invalidValue t
  | fuel + 1, t =>
    match t with
    | '[' :: rest => do
      let rest ← skipFiller (rest.length + 1) rest
      let (items, rest) ← readItems fuel rest
      return (.array items, rest)
    | '{' :: rest =>
      match skipSpace rest with
      | '}' :: rest => .ok (.table [], rest)
      | rest => do
        let (fields, rest) ← readFields fuel {} [] rest
        return (.table fields, rest)
    | _ => readScalar t

/-- What is left of an array, behind its blanks. -/
def readItems : Nat → Text → Except Fault (List Value × Text)
  | 0, t => fault .unclosedArray t
  | fuel + 1, t =>
    match t with
    | ']' :: rest => .ok ([], rest)
    | _ => do
      let (value, rest) ← readValue fuel t
      match ← skipFiller (rest.length + 1) rest with
      | ']' :: rest => return ([value], rest)
      | ',' :: rest => do
        let rest ← skipFiller (rest.length + 1) rest
        let (items, rest) ← readItems fuel rest
        return (value :: items, rest)
      | rest => fault .unclosedArray rest

/-- What is left of an inline table that is not empty, with its fields and marks so far. -/
def readFields : Nat → Marks → Table → Text → Except Fault (Table × Text)
  | 0, _, _, t => fault .unclosedTable t
  | fuel + 1, marks, fields, t => do
    let (key, value, rest) ← readPair fuel t
    if marks.has key .closed then fault (.immutable key) rest
    else
      match changeAt false key.dropLast some fields with
      | none => fault .overwrites rest
      | some _ =>
        match changeAt false key.dropLast (insertNew? (stem key) value) fields with
        | none => fault (.duplicateKey (stem key)) rest
        | some fields =>
          match skipSpace rest with
          | '}' :: rest => return (fields, rest)
          | ',' :: rest =>
            let marks := if isNested value then marks.add key .closed true else marks
            readFields fuel marks fields (skipSpace rest)
          | rest => fault .unclosedTable rest

/-- A key, an equals sign and a value. -/
def readPair : Nat → Text → Except Fault (Key × Value × Text)
  | 0, t => fault .invalidValue t
  | fuel + 1, t => do
    let (key, rest) ← readKey t
    match rest with
    | '=' :: rest => do
      let (value, rest) ← readValue fuel (skipSpace rest)
      return (key, value, rest)
    | rest => fault .expectedEquals rest

end

/-! ## Statements -/

/-- A document so far: its table, what is known of its keys, and the section it is in. -/
structure Document where
  table : Table := []
  marks : Marks := {}
  header : Key := []
  deriving Repr

namespace Document

/-- The declaration of a table, its bracket being passed. -/
def declareTable (d : Document) (t : Text) : Except Fault (Document × Text) := do
  let marks := d.marks.settle
  let (key, rest) ← readKey (skipSpace t)
  if marks.has key .declared || marks.has key .closed then fault (.declaredTwice key) rest
  else
    match changeAt true key some d.table with
    | none => fault .overwrites rest
    | some table =>
      match rest with
      | ']' :: rest => return (⟨table, marks.add key .declared false, key⟩, rest)
      | rest => fault .expectedBracket rest

/-- The declaration of a table in an array, its brackets being passed. -/
def declareItem (d : Document) (t : Text) : Except Fault (Document × Text) := do
  let marks := d.marks.settle
  let (key, rest) ← readKey (skipSpace t)
  if marks.has key .closed then fault (.immutable key) rest
  else
    match changeAt true key.dropLast (appendTable? (stem key)) d.table with
    | none => fault .overwrites rest
    | some table =>
      match rest with
      | ']' :: ']' :: rest =>
        return (⟨table, (marks.forget key).add key .declared false, key⟩, rest)
      | rest => fault .expectedBrackets rest

/-- The keys that a dotted key goes through, from the section's key on. -/
def through (header key : Key) : List Key :=
  (List.range (key.length - 1)).map fun i => header ++ key.take (i + 1)

/-- A key with its value. -/
def addPair (d : Document) (t : Text) : Except Fault (Document × Text) := do
  let (key, value, rest) ← readPair (2 * t.length + 4) t
  match (through d.header key).find? (d.marks.has · .declared) with
  | some passed => fault (.redefines passed) rest
  | none =>
    let parent := d.header ++ key.dropLast
    let marks := { d.marks with pending := through d.header key ++ d.marks.pending }
    if marks.has parent .closed then fault (.immutable parent) rest
    else
      match changeAt true parent (insertNew? (stem key) value) d.table with
      | none => fault .overwrites rest
      | some table =>
        let marks := if isNested value then marks.add (d.header ++ key) .closed true else marks
        return (⟨table, marks, d.header⟩, rest)

/-- A statement that begins with its first character, the comment behind it aside. -/
def readStatement (d : Document) (t : Text) : Except Fault (Document × Text) :=
  match t with
  | '[' :: '[' :: rest => d.declareItem rest
  | '[' :: rest => d.declareTable rest
  | c :: _ =>
    if isBareKey c || c = '\'' || c = '"' then d.addPair t
    else if c = '#' then .ok (d, t)
    else fault .invalidStatement t
  | [] => .ok (d, t)

/-- The statements of what is left of a document, at most `fuel` lines of them. -/
def readAll : Nat → Document → Text → Except Fault Document
  | 0, d, _ => .ok d
  | fuel + 1, d, t =>
    match skipSpace t with
    | [] => .ok d
    | '\n' :: rest => readAll fuel d rest
    | t => do
      let (d, rest) ← d.readStatement t
      match ← skipComment (skipSpace rest) with
      | [] => return d
      | '\n' :: rest => readAll fuel d rest
      | rest => fault .expectedLineEnd rest

end Document

/-- The text with one line feed for a carriage return and a line feed. -/
def joinLineEnds : Text → Text
  | '\r' :: '\n' :: rest => '\n' :: joinLineEnds rest
  | c :: rest => c :: joinLineEnds rest
  | [] => []

/-- The table of a document, whose line ends are line feeds. -/
def readTable (document : Text) : Except Fault Table :=
  (Document.readAll (document.length + 1) {} document).map (·.table)

end Orthography.Toml
