/-
Documents of a settings file.

A document is a sequence of lines: a table's header, a key with its value, or nothing.  Keys may
be dotted paths.  A table may be defined once: by its header, or piece by piece by dotted keys,
but not by both; a table that was only passed through by longer headers may still get its own.
Each header in double brackets adds a table to a list.
-/
import Rendezvous.Toml.Lexeme

namespace Rendezvous
namespace Toml

/-! ## Tables while they are read -/

/-- How a table came into being. -/
inductive Origin where
  /-- on the way to another table -/
  | passed
  /-- by a dotted key -/
  | dotted
  /-- by its own header -/
  | header
deriving DecidableEq, Repr

/-- What a key of a table holds. -/
inductive Node where
  | value (v : Toml)
  | table (origin : Origin) (members : List (String × Node))
  | tables (elements : List (List (String × Node)))

abbrev Members := List (String × Node)

/-- Puts a member in place of the one there, or at the end. -/
def Members.put (name : String) (n : Node) : Members → Members
  | [] => [(name, n)]
  | (k, v) :: rest => if k = name then (k, n) :: rest else (k, v) :: Members.put name n rest

def Members.drop (name : String) (ms : Members) : Members := ms.filter fun m => m.1 ≠ name

/-- Changes the table at the end of a path, making the tables on the way.  A path of a dotted
key does not lead through a table that has a header. -/
def changeAt {α : Type} (byKey : Bool) (f : Origin → Members → Option (Members × α)) :
    List String → Origin → Members → Option (Members × α)
  | [], origin, ms => f origin ms
  | k :: path, _, ms =>
    match ms.lookup k with
    | none => do
      let origin := if byKey then .dotted else .passed
      let (sub, a) ← changeAt byKey f path origin []
      return (Members.put k (.table origin sub) ms, a)
    | some (.value _) => none
    | some (.table origin sub) =>
      if byKey && origin = .header then none
      else do
        let (sub, a) ← changeAt byKey f path origin sub
        return (Members.put k (.table origin sub) ms, a)
    | some (.tables elements) =>
      match elements.reverse with
      | [] => none
      | last :: before => do
        let (last, a) ← changeAt byKey f path .header last
        return (Members.put k (.tables (before.reverse ++ [last])) ms, a)

/-- Puts a value at a key, the last part of a dotted path. -/
def putValue (path : List String) (key : String) (v : Toml) (ms : Members) : Option Members :=
  let put (origin : Origin) (ms : Members) : Option (Members × Unit) :=
    if (origin == .dotted) == path.isEmpty then none
    else if (ms.lookup key).isSome then none
    else some (Members.put key (.value v) ms, ())
  (changeAt true put path .header ms).map Prod.fst

mutual
def Node.toToml : Node → Toml
  | .value v => v
  | .table _ ms => .table (memberValues ms)
  | .tables elements => .arr (elementValues elements)

def memberValues : List (String × Node) → List (String × Toml)
  | [] => []
  | (k, n) :: rest => (k, n.toToml) :: memberValues rest

/-- The values of listed tables. -/
def elementValues : List (List (String × Node)) → List Toml
  | [] => []
  | ms :: rest => .table (memberValues ms) :: elementValues rest
end

/-! ## Keys -/

def isBare (c : Char) : Bool := (c.isAlphanum && c.toNat < 0x80) || c == '_' || c == '-'

def readKeyPart : List Char → Option (String × List Char)
  | '"' :: rest => (readBasic (rest.length + 1) rest).map fun r => (String.ofList r.1, r.2)
  | '\'' :: rest => (readLiteral rest).map fun r => (String.ofList r.1, r.2)
  | cs =>
    match cs.takeWhile isBare with
    | [] => none
    | part => some (String.ofList part, cs.dropWhile isBare)

def readKeyParts : Nat → List Char → Option (List String × List Char)
  | 0, _ => none
  | fuel + 1, cs => do
    let (part, rest) ← readKeyPart (skipSpace cs)
    match skipSpace rest with
    | '.' :: rest =>
      let (parts, rest) ← readKeyParts fuel rest
      return (part :: parts, rest)
    | rest => return ([part], rest)

/-- The bound on the parts of a key and on the depth of nested values. -/
def nesting : Nat := 80

/-- A key: the path in front, and its last part. -/
def readKey (cs : List Char) : Option ((List String × String) × List Char) := do
  let (parts, rest) ← readKeyParts (cs.length + 1) cs
  if nesting ≤ parts.length then none
  else
    match parts.reverse with
    | [] => none
    | last :: before => some ((before.reverse, last), rest)

/-! ## Values -/

mutual
/-- A value, inside of `depth` arrays and tables. -/
def readValue : Nat → Nat → List Char → Option (Toml × List Char)
  | 0, _, _ => none
  | fuel + 1, depth, cs =>
    match cs with
    | '"' :: _ | '\'' :: _ => (readText cs).map fun r => (.str r.1, r.2)
    | '[' :: rest =>
      if nesting ≤ depth + 1 then none
      else (readItems fuel (depth + 1) rest).map fun r => (.arr r.1, r.2)
    | '\x7b' :: rest =>
      if nesting ≤ depth + 1 then none
      else
        match skipSpace rest with
        | '\x7d' :: rest => some (.table [], rest)
        | _ => (readMembers fuel (depth + 1) [] rest).map fun r => (.table (memberValues r.1), r.2)
    | 't' :: 'r' :: 'u' :: 'e' :: rest => some (.bool true, rest)
    | 'f' :: 'a' :: 'l' :: 's' :: 'e' :: rest => some (.bool false, rest)
    | cs => readNumberOrDate cs

/-- The items of an array, to its bracket. -/
def readItems : Nat → Nat → List Char → Option (List Toml × List Char)
  | 0, _, _ => none
  | fuel + 1, depth, cs =>
    match skipLines (cs.length + 1) cs with
    | ']' :: rest => some ([], rest)
    | cs => do
      let (v, rest) ← readValue fuel depth cs
      match skipLines (rest.length + 1) rest with
      | ',' :: rest =>
        let (vs, rest) ← readItems fuel depth rest
        return (v :: vs, rest)
      | ']' :: rest => return ([v], rest)
      | _ => none

/-- The members of a table in braces, to its brace. -/
def readMembers : Nat → Nat → Members → List Char → Option (Members × List Char)
  | 0, _, _, _ => none
  | fuel + 1, depth, ms, cs => do
    let ((path, key), rest) ← readKey cs
    let rest ← expect '=' rest
    let (v, rest) ← readValue fuel depth (skipSpace rest)
    let ms ← putValue path key v ms
    match skipSpace rest with
    | ',' :: rest => readMembers fuel depth ms rest
    | '\x7d' :: rest => return (ms, rest)
    | _ => none
end

/-! ## Lines -/

/-- The table whose lines are being read: its path, none for the document itself, whether it is
an element of a list, and its members. -/
structure OpenTable where
  path : Option (List String × String)
  listed : Bool
  members : Members

/-- The document as far as it was read, less the open table. -/
structure Draft where
  root : Members
  current : OpenTable

/-- The document with its open table put in its place. -/
def Draft.close (d : Draft) : Option Members :=
  match d.current.path with
  | none => some d.current.members
  | some (path, key) =>
    let put (_ : Origin) (ms : Members) : Option (Members × Unit) :=
      if d.current.listed then
        match ms.lookup key with
        | none => some (Members.put key (.tables [d.current.members]) ms, ())
        | some (.tables elements) =>
          some (Members.put key (.tables (elements ++ [d.current.members])) ms, ())
        | some _ => none
      else if (ms.lookup key).isSome then none
      else some (Members.put key (.table .header d.current.members) ms, ())
    (changeAt false put path .header d.root).map Prod.fst

def Draft.openTable (d : Draft) (path : List String) (key : String) : Option Draft := do
  let root ← d.close
  let take (_ : Origin) (ms : Members) : Option (Members × Members) :=
    match ms.lookup key with
    | none => some (ms, [])
    | some (.table .passed sub) => some (Members.drop key ms, sub)
    | some _ => none
  let (root, sub) ← changeAt false take path .header root
  return ⟨root, ⟨some (path, key), false, sub⟩⟩

def Draft.openListed (d : Draft) (path : List String) (key : String) : Option Draft := do
  let root ← d.close
  let check (_ : Origin) (ms : Members) : Option (Members × Unit) :=
    match ms.lookup key with
    | none => some (ms, ())
    | some (.tables _) => some (ms, ())
    | some _ => none
  let (root, _) ← changeAt false check path .header root
  return ⟨root, ⟨some (path, key), true, []⟩⟩

def readLines : Nat → Draft → List Char → Option Draft
  | 0, _, _ => none
  | fuel + 1, d, cs =>
    match skipSpace cs with
    | [] => some d
    | '[' :: '[' :: rest => do
      let ((path, key), rest) ← readKey rest
      let rest ← expect ']' rest
      let rest ← expect ']' rest
      let d ← d.openListed path key
      let rest ← endOfLine? rest
      readLines fuel d rest
    | '[' :: rest => do
      let ((path, key), rest) ← readKey rest
      let rest ← expect ']' rest
      let d ← d.openTable path key
      let rest ← endOfLine? rest
      readLines fuel d rest
    | c :: rest =>
      if c = '#' ∨ c = '\n' ∨ c = '\r' then do
        let rest ← endOfLine? (c :: rest)
        readLines fuel d rest
      else do
        let ((path, key), rest) ← readKey (c :: rest)
        let rest ← expect '=' rest
        let (v, rest) ← readValue (rest.length + 1) 0 (skipSpace rest)
        let members ← putValue path key v d.current.members
        let rest ← endOfLine? rest
        readLines fuel { d with current := { d.current with members := members } } rest

/-- The characters behind the mark that may stand in front of a text file. -/
def skipMark : List Char → List Char
  | '\ufeff' :: rest => rest
  | cs => cs

/-- The members of the document that a text spells, if it is well formed. -/
def read (s : String) : Option (List (String × Toml)) := do
  let cs := skipMark s.toList
  let d ← readLines (cs.length + 1) ⟨[], ⟨none, false, []⟩⟩ cs
  let root ← d.close
  return memberValues root

end Toml
end Rendezvous
