/-! # Node — documents of keys and values

A document is a table of keys, each with a value that may again be a table. How a table came about
decides what may still be added to it: `insertAt` adds a value under a dotted key, and `openTable`
starts the table of a header. Numbers with a fraction or an exponent, dates, and arrays of tables
do not occur in the documents that are read here.
-/

namespace FileWatch.Toml

/-- How a table came about. -/
inductive Origin where
  /-- It has a header of its own, or is the document. -/
  | header
  /-- A header further below goes through it. -/
  | implied
  /-- A dotted key goes through it. -/
  | dotted
  /-- It was written as a value, and is complete. -/
  | inline
  deriving DecidableEq, Repr

/-- A value of a document. -/
inductive Node where
  | string (s : List Char)
  | integer (n : Int)
  | boolean (b : Bool)
  | array (items : List Node)
  | table (origin : Origin) (members : List (List Char × Node))
  deriving Inhabited

/-- A key and its value. -/
abbrev Member := List Char × Node

/-- The value under a key. -/
def lookup (key : List Char) (members : List Member) : Option Node :=
  (members.find? fun m => m.1 == key).map Prod.snd

/-- Puts another value under a key that is there. -/
def replace (key : List Char) (value : Node) (members : List Member) : List Member :=
  members.map fun m => if m.1 == key then (key, value) else m

/-- Adds a value under a dotted key. The tables on the way are made, or were made by dotted keys;
the last key must be new. -/
def insertAt : List (List Char) → Node → List Member → Option (List Member)
  | [], _, _ => none
  | [key], value, members =>
    match lookup key members with
    | none => some (members ++ [(key, value)])
    | some _ => none
  | key :: path, value, members =>
    match lookup key members with
    | none =>
      (insertAt path value []).map fun below => members ++ [(key, .table .dotted below)]
    | some (.table .dotted below) =>
      (insertAt path value below).map fun below => replace key (.table .dotted below) members
    | some _ => none

/-- Starts the table of a header. The tables on the way may be of any kind that is not complete;
the table itself must be new, or only implied so far. -/
def openTable : List (List Char) → List Member → Option (List Member)
  | [], _ => none
  | [key], members =>
    match lookup key members with
    | none => some (members ++ [(key, .table .header [])])
    | some (.table .implied below) => some (replace key (.table .header below) members)
    | some _ => none
  | key :: path, members =>
    match lookup key members with
    | none => (openTable path []).map fun below => members ++ [(key, .table .implied below)]
    | some (.table .inline _) => none
    | some (.table origin below) =>
      (openTable path below).map fun below => replace key (.table origin below) members
    | some _ => none

/-- Changes the members of the table that a path leads to. -/
def changeAt (change : List Member → Option (List Member)) :
    List (List Char) → List Member → Option (List Member)
  | [], members => change members
  | key :: path, members =>
    match lookup key members with
    | some (.table origin below) =>
      (changeAt change path below).map fun below => replace key (.table origin below) members
    | _ => none

end FileWatch.Toml
